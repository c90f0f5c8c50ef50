import ScopedStore.Decimal.Digits
import ScopedStore.Text.Blank
import ScopedStore.Text.Utf8
import ScopedStore.Settings.Error

/-!
Settings from environment variables. A variable that is set has to have a text that is not blank;
numbers are read without the blanks around them.
-/

namespace ScopedStore.Settings

inductive Variable where
  | config
  | path
  | maxSize
  | maxValue
  | limit
  | uri
  | token
  deriving DecidableEq

def Variable.name : Variable → String
  | config => "PERSISTENTSTORE_CONFIG"
  | path => "PERSISTENTSTORE_PATH"
  | maxSize => "PERSISTENTSTORE_MAXSIZE"
  | maxValue => "PERSISTENTSTORE_MAXVALUE"
  | limit => "PERSISTENTSTORE_LIMIT"
  | uri => "PERSISTENTSTORE_URI"
  | token => "PERSISTENTSTORE_TOKEN"

/-- What the environment sets. -/
structure Overrides where
  config : Option String := none
  path : Option String := none
  maxSize : Option UInt64 := none
  maxValue : Option UInt32 := none
  limit : Option UInt32 := none
  uri : Option String := none
  token : Option String := none
  deriving DecidableEq

namespace Overrides

abbrev Environment := Variable → Option Text.Bytes

private def misused {α : Type} (which : Variable) (rule : String) : Except Error α :=
  .error (.env (which.name ++ " " ++ rule))

def readText (environment : Environment) (which : Variable) : Except Error (Option String) :=
  match environment which with
  | none => .ok none
  | some bytes =>
    match Text.ofBytes? bytes with
    | none => misused which "must be valid UTF-8"
    | some text =>
      if Text.isBlankText text then misused which "must not be empty" else .ok (some text)

/-- Reads digits, with at most one plus sign before them, up to a greatest number. -/
def unsigned? (greatest : Nat) (text : String) : Option Nat :=
  let digits :=
    match text.toList with
    | '+' :: digits => digits
    | digits => digits
  let number := Decimal.value digits
  if digits ≠ [] ∧ Decimal.areDigits digits ∧ number ≤ greatest then some number else none

def readNumber (environment : Environment) (greatest : Nat) (which : Variable) :
    Except Error (Option Nat) := do
  match ← readText environment which with
  | none => return none
  | some text =>
    match unsigned? greatest (Text.trim text) with
    | some number => return some number
    | none => misused which "must be an unsigned integer"

/-- Reads the variables one after the other; the first that is misused decides the failure. -/
def read (environment : Environment) : Except Error Overrides := do
  let config ← readText environment .config
  let path ← readText environment .path
  let maxSize ← readNumber environment (UInt64.size - 1) .maxSize
  let maxValue ← readNumber environment (UInt32.size - 1) .maxValue
  let limit ← readNumber environment (UInt32.size - 1) .limit
  let uri ← readText environment .uri
  let token ← readText environment .token
  return {
    config := config
    path := path
    maxSize := maxSize.map UInt64.ofNat
    maxValue := maxValue.map UInt32.ofNat
    limit := limit.map UInt32.ofNat
    uri := uri
    token := token }

def isEmpty (overrides : Overrides) : Bool := overrides = {}

end Overrides

end ScopedStore.Settings
