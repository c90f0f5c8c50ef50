import ScopedStore.Json.Reader
import ScopedStore.Json.Numeral
import ScopedStore.Decimal.Digits

/-!
Taking values of known types out of JSON text. A document is gone through in the order of its text
and the first thing wrong decides the error. A structure may be written as an object, where unknown
fields are skipped, or as an array of its fields in their order.
-/

namespace ScopedStore

/-- Why a text does not decode. A text in the place of a length of time that is none is told apart
from all else. -/
inductive DecodeError where
  | malformed
  | invalidDuration (text : String)
  deriving DecidableEq

namespace DecodeError

private def afterMark (mark : String) (cs : List Char) : Option (List Char) :=
  if mark.toList.isPrefixOf cs then some (cs.drop mark.length) else none

/-- A number that fits 64 bits, and what follows its digits. -/
private def afterNumber (cs : List Char) : Option (List Char) :=
  let digits := cs.takeWhile Char.isDigit
  if digits = [] ∨ UInt64.size ≤ Decimal.value digits then none
  else some (cs.dropWhile Char.isDigit)

/-- Whether a text is the mention of a line and a column that ends a report. -/
private def isPlace (cs : List Char) : Bool :=
  ((afterMark " at line " cs).bind afterNumber
    |>.bind (afterMark " column ") |>.bind afterNumber) = some []

/-- A report without the place at its end, if it has one. -/
private def cutPlace : List Char → List Char
  | [] => []
  | c :: rest => if isPlace (c :: rest) then [] else c :: cutPlace rest

/-- The report, where there is one. A text that itself ends in a place loses it. -/
def message? : DecodeError → Option String
  | malformed => none
  | invalidDuration text =>
    some (String.ofList (cutPlace ("invalid duration: " ++ text).toList))

end DecodeError

abbrev Decoded (α : Type) := Except DecodeError α

namespace Json

def malformed {α : Type} : Decoded α := .error .malformed

def asString : Json → Decoded String
  | string text => .ok text
  | _ => malformed

def asBool : Json → Decoded Bool
  | bool flag => .ok flag
  | _ => malformed

/-- An integer literal between two bounds. -/
def asInt (least greatest : Int) : Json → Decoded Int
  | number literal =>
    match Numeral.ofLiteral literal with
    | some (.int value) => if least ≤ value ∧ value ≤ greatest then .ok value else malformed
    | _ => malformed
  | _ => malformed

def asUInt32 (document : Json) : Decoded UInt32 :=
  (document.asInt 0 0xffffffff).map fun value => UInt32.ofNat value.toNat

def asUInt64 (document : Json) : Decoded UInt64 :=
  (document.asInt 0 0xffffffffffffffff).map fun value => UInt64.ofNat value.toNat

def asInt32 (document : Json) : Decoded Int := document.asInt (-0x80000000) 0x7fffffff

/-- `null` stands for a value that is not there. -/
def asOption {α : Type} (f : Json → Decoded α) : Json → Decoded (Option α)
  | null => .ok none
  | document => (f document).map some

/-- What a format writes behind a name that has no content of its own. -/
abbrev UnitForm := Json → Bool

def isNull : UnitForm
  | null => true
  | _ => false

def isEmptyContainer : UnitForm
  | array [] => true
  | object [] => true
  | _ => false

/-- One of several names, which may also be the only key of an object, without any content. -/
def asName {α : Type} (isUnit : UnitForm) (names : List (String × α)) : Json → Decoded α
  | string text => found text
  | object [(some text, content)] => if isUnit content then found text else malformed
  | _ => malformed
where
  found (text : String) : Decoded α :=
    match names.lookup text with
    | some meaning => .ok meaning
    | none => malformed

/-- A field that has to be there. -/
def require {α : Type} : Option α → Decoded α
  | some found => .ok found
  | none => malformed

section Structure

variable {σ : Type} (take : String → Json → σ → Decoded σ)

def takeFields (names : List String) :
    List (Option String × Json) → List String → σ → Decoded σ
  | [], _, known => .ok known
  | (none, _) :: _, _, _ => malformed
  | (some _, unread) :: _, _, _ => malformed
  | (some name, value) :: rest, seen, known =>
    if !names.contains name then takeFields names rest seen known
    else if seen.contains name then malformed
    else do takeFields names rest (name :: seen) (← take name value known)

def takeItems : List Json → List String → σ → Decoded σ
  | [], _, known => .ok known
  | _ :: _, [], _ => malformed
  | unread :: _, _, _ => malformed
  | item :: rest, name :: names, known => do takeItems rest names (← take name item known)

/-- Reads a structure with the given fields. `take` adds a field to what is known so far. -/
def asStructure (names : List String) (known : σ) : Json → Decoded σ
  | object fields => takeFields take names fields [] known
  | array items => takeItems take items names known
  | _ => malformed

end Structure

/-- Takes a value out of one document, behind which nothing but blanks may follow. -/
def Reading.decode {α : Type} (f : Json → Decoded α) (reading : Reading) : Decoded α := do
  let found ← f reading.document
  if reading.isComplete then pure found else malformed

def decode {α : Type} (f : Json → Decoded α) (text : String) : Decoded α := (read text).decode f

def decodeBytes {α : Type} (f : Json → Decoded α) (bytes : Text.Bytes) : Decoded α :=
  (readBytes bytes).decode f

section Canonical

/-- Adds a field in front of later ones, which are sorted by name and of which one of the same
name takes its place. -/
private def insertField (name : String) (value : Json) :
    List (Option String × Json) → List (Option String × Json)
  | [] => [(some name, value)]
  | (other, kept) :: rest =>
    if some name = other then (other, kept) :: rest
    else if other.elim true (name < ·) then (some name, value) :: (other, kept) :: rest
    else (other, kept) :: insertField name value rest

mutual

/-- A document of any kind in its canonical form: numbers in their own words, the fields of an
object sorted and each once. Containers nest at most `depth` deep. -/
def canonical (depth : Nat) : Json → Decoded Json
  | null => .ok null
  | bool flag => .ok (bool flag)
  | number literal =>
    match Numeral.ofLiteral literal with
    | some numeral => .ok (number numeral.text)
    | none => malformed
  | string text => .ok (string text)
  | garbled => malformed
  | unread => malformed
  | array items =>
    match depth with
    | 0 => malformed
    | depth + 1 => do return array (← canonicalItems depth items)
  | object fields =>
    match depth with
    | 0 => malformed
    | depth + 1 => do return object (← canonicalFields depth fields)

def canonicalItems (depth : Nat) : List Json → Decoded (List Json)
  | [] => .ok []
  | item :: rest => do return (← canonical depth item) :: (← canonicalItems depth rest)

def canonicalFields (depth : Nat) :
    List (Option String × Json) → Decoded (List (Option String × Json))
  | [] => .ok []
  | (none, _) :: _ => malformed
  | (some name, value) :: rest => do
    let value ← canonical depth value
    return insertField name value (← canonicalFields depth rest)

end

end Canonical

end Json

end ScopedStore
