import RailFreight.Json.Record
import RailFreight.Json.Reader
import RailFreight.Json.Writer

/-!
# Values on the wire

Values are sent as JSON documents. A type that can be sent says how its values are
written and how documents are read back.
-/

namespace RailFreight

/-- Types whose values can be sent. -/
class Wire (α : Type) where
  /-- The document of a value. -/
  encode : α → Json
  /-- The value of a document. -/
  decode? : Json → Option α

export Wire (encode decode?)

namespace Wire

variable {α : Type} [Wire α]

/-- The text that a value is sent as. -/
def send (a : α) : String := (encode a).compact

/-- The value that a text was sent as. -/
def receive? (text : String) : Option α := (Json.ofText? text).bind decode?

/-- The document of a list of values. -/
def encodeList (as : List α) : Json := .list (as.map encode)

/-- The values of a list. -/
def decodeList? (j : Json) : Option (List α) := j.list?.bind (·.mapM decode?)

end Wire

/-- The first number that is too large for eight bits. -/
def limit8 : Nat := UInt8.size

/-- The first number that is too large for thirty-two bits. -/
def limit32 : Nat := UInt32.size

/-- The first number that is too large for sixty-four bits. -/
def limit64 : Nat := UInt64.size

/-- A natural number below a limit. -/
def Json.below? (limit : Nat) (j : Json) : Option Nat := j.natural?.filter (· < limit)

end RailFreight
