/-!
Log records: what an operation reports beside its result.
-/

namespace ScopedStore.Log

inductive Level where
  | trace
  | debug
  | info
  | warn
  | error
  deriving DecidableEq

namespace Level

def name : Level → String
  | trace => "trace"
  | debug => "debug"
  | info => "info"
  | warn => "warn"
  | error => "error"

/-- Importance, least first. -/
def rank : Level → Nat
  | trace => 0
  | debug => 1
  | info => 2
  | warn => 3
  | error => 4

end Level

inductive Datum where
  | text (text : String)
  | flag (flag : Bool)
  | count (count : Nat)
  deriving DecidableEq

/-- A record names the part of the program that wrote it. A field called `message` takes the
place of the record's own message where the two are printed as one object. -/
structure Record where
  level : Level
  target : String
  message : String
  fields : List (String × Datum) := []
  deriving DecidableEq

/-- The fields as one object, the message among them. -/
def Record.shownFields (record : Record) : List (String × Datum) :=
  if record.fields.any (·.1 = "message") then record.fields
  else ("message", .text record.message) :: record.fields

end ScopedStore.Log
