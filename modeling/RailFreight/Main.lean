import RailFreight.CommandLine.Execution

/-!
# The command line

The program looks up the paths that its arguments may ask for, executes them, and prints
what comes of it.
-/

namespace RailFreight

/-- The entry of a path on the disk. -/
def diskEntry? (path : String) : IO (Option FileEntry) := do
  try
    discard <| IO.FS.realPath path
  catch _ => return none
  try
    return some (FileEntry.ofBytes (← IO.FS.readBinFile path))
  catch _ => return some .folder

/-- The entries of paths on the disk. -/
def diskEntries (paths : List String) : IO Files := do
  let entries ← paths.mapM fun path => do return (path, ← diskEntry? path)
  return fun path => (entries.lookup path).join

end RailFreight

open RailFreight

def main (arguments : List String) : IO UInt32 := do
  let folder := toString (← IO.currentDir)
  let paths := match Invocation.parse arguments with
    | .ok i => i.paths folder
    | .error _ => []
  let result := match executeLine arguments folder (← diskEntries paths) with
    | .ok result => result
    | .error e => e.result
  IO.print result.output
  IO.eprint result.errors
  return result.code
