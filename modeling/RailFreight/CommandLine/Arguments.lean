import RailFreight.StationCode

/-!
# Arguments

The arguments of a command line are options, of which some take a value, and words. The
first word names a command. Some options may stand before and behind that word
(`CommandOption.everywhere`), others belong to one command. An option that takes a value
has it behind an equals sign or in the next argument; an argument of two dashes makes
words of all that follow. No option is given twice on one side of the word, and of an
option given on both sides the later one counts.
-/

namespace RailFreight

/-- An option of a command line. -/
inductive CommandOption
  | config | seed | verbose | help | json | user | script
  deriving DecidableEq, Repr

namespace CommandOption

/-- The options. -/
def all : List CommandOption := [config, seed, verbose, help, json, user, script]

/-- The name behind two dashes. -/
def name : CommandOption → String
  | config => "config"
  | seed => "seed"
  | verbose => "verbose"
  | help => "help"
  | json => "json"
  | user => "user"
  | script => "script"

/-- The letter behind one dash. -/
def letter? : CommandOption → Option Char
  | verbose => some 'v'
  | help => some 'h'
  | _ => none

/-- Whether a value belongs to the option. -/
def takesValue : CommandOption → Bool
  | config | seed | user | script => true
  | verbose | help | json => false

/-- The options that may stand before the command, and behind it. -/
def everywhere : List CommandOption := [config, seed, verbose, help]

/-- The option of a name. -/
def ofName? (name : List Char) : Option CommandOption :=
  all.find? fun o => o.name.toList = name

/-- The option of a letter. -/
def ofLetter? (letter : Char) : Option CommandOption :=
  all.find? fun o => o.letter? = some letter

end CommandOption

/-- A part of a command line. -/
inductive Argument
  /-- An option with its value; where none belongs to it, the value is empty. -/
  | option (o : CommandOption) (value : String)
  | word (text : String)
  /-- The two dashes behind which all is words. -/
  | dashes
  | malformed
  deriving DecidableEq, Repr

namespace Argument

/-- The options behind one dash. -/
def ofLetters (letters : List Char) : List Argument :=
  letters.map fun c =>
    match CommandOption.ofLetter? c with
    | some o => .option o ""
    | none => .malformed

/-- Whether an argument is an option or the two dashes. A lone dash is a word. -/
def isDashed : List Char → Bool
  | '-' :: _ :: _ => true
  | _ => false

/-- The parts of a command line. -/
def ofArguments : List String → List Argument
  | [] => []
  | text :: rest =>
    match text.toList with
    | ['-', '-'] => .dashes :: rest.map .word
    | '-' :: '-' :: cs =>
      match CommandOption.ofName? (cs.takeWhile (· ≠ '=')), cs.dropWhile (· ≠ '=') with
      | none, _ => .malformed :: ofArguments rest
      | some o, _ :: attached =>
        (if o.takesValue then .option o (String.ofList attached) else .malformed) ::
          ofArguments rest
      | some o, [] =>
        if o.takesValue then
          match rest with
          | [] => [.malformed]
          | value :: rest =>
            (if isDashed value.toList then .malformed else .option o value) :: ofArguments rest
        else .option o "" :: ofArguments rest
    | '-' :: c :: cs => ofLetters (c :: cs) ++ ofArguments rest
    | _ => .word text :: ofArguments rest

end Argument

/-- The name of a command. -/
inductive CommandName
  | stations | jobs | scenario | check
  deriving DecidableEq, Repr

namespace CommandName

/-- The commands. -/
def all : List CommandName := [stations, jobs, scenario, check]

/-- The word that names a command. -/
def name : CommandName → String
  | stations => "stations"
  | jobs => "jobs"
  | scenario => "scenario"
  | check => "check"

/-- The command of a word. -/
def ofName? (name : String) : Option CommandName := all.find? fun c => c.name = name

/-- The options that may stand behind a command. -/
def options : CommandName → List CommandOption
  | stations => .json :: CommandOption.everywhere
  | jobs => .user :: .json :: CommandOption.everywhere
  | scenario => .user :: .script :: CommandOption.everywhere
  | check => CommandOption.everywhere

/-- Whether a command takes a word behind earlier ones. -/
def takesWord : CommandName → List String → String → Bool
  | jobs, earlier, word => earlier = [] && (StationCode.parse? word).isSome
  | scenario, _, _ => true
  | _, _, _ => false

end CommandName

/-- Why the arguments ask for no command. -/
inductive Misuse
  /-- The arguments ask how the commands are used. -/
  | help
  /-- The arguments do not fit together. -/
  | wrong
  deriving DecidableEq, Repr

/-- The options and words that have been read. -/
structure Given where
  options : List (CommandOption × String) := []
  words : List String := []
  deriving DecidableEq, Repr

/-- A seed: a number of 64 bits in decimal digits, with or without a plus sign. -/
def seedOf? (text : String) : Option UInt64 :=
  let digits := match text.toList with
    | '+' :: digits => digits
    | digits => digits
  if digits ≠ [] ∧ digits.all Char.isDigit then
    let n := digits.foldl (fun n c => 10 * n + (c.toNat - '0'.toNat)) 0
    if n < UInt64.size then some (UInt64.ofNat n) else none
  else none

namespace Given

/-- Whether an option may have a value. Paths are not empty. -/
def accepts (o : CommandOption) (value : String) : Bool :=
  match o with
  | .config | .script => value ≠ ""
  | .seed => (seedOf? value).isSome
  | _ => true

/-- The value of an option. -/
def value? (g : Given) (o : CommandOption) : Option String := g.options.lookup o

/-- Whether an option was given. -/
def has (g : Given) (o : CommandOption) : Bool := (g.value? o).isSome

/-- Adds an option, one of those that may be given. -/
def addOption (allowed : List CommandOption) (g : Given) (o : CommandOption) (value : String) :
    Except Misuse Given :=
  if o ∉ allowed then .error .wrong
  else if o = .help then .error .help
  else if g.has o || !accepts o value then .error .wrong
  else .ok { g with options := (o, value) :: g.options }

/-- Adds a part of what stands behind a command. -/
def add (c : CommandName) (g : Given) : Argument → Except Misuse Given
  | .option o value => g.addOption c.options o value
  | .word text =>
    if c.takesWord g.words text then .ok { g with words := g.words ++ [text] }
    else .error .wrong
  | .dashes => .ok g
  | .malformed => .error .wrong

/-- What stands before a command and what stands behind it; what stands behind it counts
    first. -/
def behind (before after : Given) : Given :=
  { after with options := after.options ++ before.options }

end Given

/-- A command with what belongs to it. -/
inductive Command
  | stations (json : Bool)
  | jobs (station : StationCode) (user : Option String) (json : Bool)
  /-- Runs the steps of a script. -/
  | script (user : Option String) (path : String)
  /-- Runs jobs in order. -/
  | scenario (user : Option String) (jobs : List String)
  | check
  deriving DecidableEq, Repr

/-- A command with the settings that belong to every command. -/
structure Invocation where
  /-- The path of the configuration. -/
  config : Option String
  /-- A seed in place of the one that is configured. -/
  seed : Option UInt64
  command : Command
  deriving DecidableEq, Repr

namespace Invocation

/-- The command that options and words make up. -/
def command? (c : CommandName) (g : Given) : Option Command :=
  let user := g.value? .user
  let json := g.has .json
  match c with
  | .stations => some (.stations json)
  | .jobs => (g.words.head?.bind StationCode.parse?).map fun station => .jobs station user json
  | .scenario =>
    match g.value? .script with
    | none => some (.scenario user g.words)
    | some path => if g.words = [] then some (.script user path) else none
  | .check => some .check

/-- Reads what stands behind the name of a command. -/
def ofCommand (before : Given) (c : CommandName) (arguments : List Argument) :
    Except Misuse Invocation := do
  let after ← arguments.foldlM (Given.add c) {}
  let g := before.behind after
  match command? c after with
  | none => throw .wrong
  | some command =>
    return { config := g.value? .config, seed := (g.value? .seed).bind seedOf?, command }

/-- Whether the words behind the word for help fit it: none, or one name. -/
def isTopic : List Argument → Bool
  | [] => true
  | [.word topic] => topic = "help" || (CommandName.ofName? topic).isSome
  | _ => false

/-- Reads the options before a command, and the command. -/
def ofArguments (before : Given) : List Argument → Except Misuse Invocation
  | .option o value :: rest => do
    ofArguments (← before.addOption CommandOption.everywhere o value) rest
  | .word text :: rest =>
    match CommandName.ofName? text with
    | some c => ofCommand before c rest
    | none => .error (if text = "help" && isTopic rest then .help else .wrong)
  | _ => .error .wrong

/-- Reads a command line. -/
def parse (arguments : List String) : Except Misuse Invocation :=
  ofArguments {} (Argument.ofArguments arguments)

end Invocation

end RailFreight
