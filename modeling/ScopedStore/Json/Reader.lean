import ScopedStore.Json.Basic
import ScopedStore.Text.Utf8

/-!
Reading JSON text, one character at a time with a stack of open containers. A text that is not
well formed still gives the part read up to the fault, with `Json.unread` where it broke off.
-/

namespace ScopedStore.Json

/-- A string being read: the characters so far, last first, and the first half of a surrogate
pair that waits for the second. -/
structure Quoted where
  done : List Char := []
  high : Option Nat := none
  isGarbled : Bool := false

namespace Quoted

/-- A half that is not followed by its other half leaves the string without a text. -/
def settle (s : Quoted) : Quoted :=
  { s with high := none, isGarbled := s.isGarbled || s.high.isSome }

def push (c : Char) (s : Quoted) : Quoted :=
  let s := s.settle
  { s with done := c :: s.done }

/-- Adds a byte that belongs to no character. -/
def pushGap (s : Quoted) : Quoted := { s with isGarbled := true }

/-- Adds an escaped UTF-16 unit. -/
def pushUnit (unit : Nat) (s : Quoted) : Quoted :=
  if 0xD800 ≤ unit ∧ unit < 0xDC00 then { s.settle with high := some unit }
  else if 0xDC00 ≤ unit ∧ unit < 0xE000 then
    match s.high with
    | some high =>
      let point := 0x10000 + (high - 0xD800) * 0x400 + (unit - 0xDC00)
      { s with done := Char.ofNat point :: s.done, high := none }
    | none => { s with isGarbled := true }
  else s.push (Char.ofNat unit)

def text? (s : Quoted) : Option String :=
  let s := s.settle
  if s.isGarbled then none else some (String.ofList s.done.reverse)

end Quoted

/-- What comes next inside a string. -/
inductive Escape where
  | plain
  | escaped
  | unit (missing value : Nat)

/-- What a number may go on with. -/
inductive Digits where
  | minus
  | zero
  | whole
  | point
  | fraction
  | exponent
  | exponentSign
  | exponentDigits

namespace Digits

def isComplete : Digits → Bool
  | zero | whole | fraction | exponentDigits => true
  | minus | point | exponent | exponentSign => false

/-- The state behind one more character of the number, if it can have that character. -/
def next (c : Char) : Digits → Option Digits
  | minus => if c = '0' then some zero else if c.isDigit then some whole else none
  | zero => afterWhole c
  | whole => if c.isDigit then some whole else afterWhole c
  | point => if c.isDigit then some fraction else none
  | fraction =>
    if c.isDigit then some fraction else if c = 'e' ∨ c = 'E' then some exponent else none
  | exponent =>
    if c.isDigit then some exponentDigits
    else if c = '+' ∨ c = '-' then some exponentSign else none
  | exponentSign => if c.isDigit then some exponentDigits else none
  | exponentDigits => if c.isDigit then some exponentDigits else none
where
  afterWhole (c : Char) : Option Digits :=
    if c = '.' then some point else if c = 'e' ∨ c = 'E' then some exponent else none

end Digits

inductive Mode where
  | value
  | firstItem
  | key
  | firstKey
  | colon
  | after
  | text (isKey : Bool) (escape : Escape) (quoted : Quoted)
  | word (rest : List Char) (meaning : Json)
  | number (digits : Digits) (done : List Char)
  | fault

/-- An open container, its content last first. `field` waits for the value of a key. -/
inductive Frame where
  | array (items : List Json)
  | object (fields : List (Option String × Json))
  | field (fields : List (Option String × Json)) (key : Option String)

structure Reader where
  stack : List Frame := []
  mode : Mode := .value
  root : Option Json := none

namespace Reader

def isBlank (c : Char) : Bool := c = ' ' ∨ c = '\t' ∨ c = '\n' ∨ c = '\r'

def fault (reader : Reader) : Reader := { reader with mode := .fault }

/-- Puts a finished value where it belongs. -/
def finishValue (value : Json) (reader : Reader) : Reader :=
  match reader.stack with
  | [] => { reader with root := some value, mode := .after }
  | .array items :: rest => { reader with stack := .array (value :: items) :: rest, mode := .after }
  | .field fields key :: rest =>
    { reader with stack := .object ((key, value) :: fields) :: rest, mode := .after }
  | .object _ :: _ => reader.fault

/-- Closes the innermost container if it is of the closing kind. -/
def close (c : Char) (reader : Reader) : Reader :=
  match c, reader.stack with
  | ']', .array items :: rest =>
    { reader with stack := rest }.finishValue (.array items.reverse)
  | '}', .object fields :: rest =>
    { reader with stack := rest }.finishValue (.object fields.reverse)
  | _, _ => reader.fault

/-- Starts a value at its first character. -/
def startValue (c : Char) (reader : Reader) : Reader :=
  match c with
  | '"' => { reader with mode := .text false .plain {} }
  | '[' => { reader with stack := .array [] :: reader.stack, mode := .firstItem }
  | '{' => { reader with stack := .object [] :: reader.stack, mode := .firstKey }
  | 't' => { reader with mode := .word ['r', 'u', 'e'] (.bool true) }
  | 'f' => { reader with mode := .word ['a', 'l', 's', 'e'] (.bool false) }
  | 'n' => { reader with mode := .word ['u', 'l', 'l'] .null }
  | '-' => { reader with mode := .number .minus ['-'] }
  | '0' => { reader with mode := .number .zero ['0'] }
  | c => if c.isDigit then { reader with mode := .number .whole [c] } else reader.fault

/-- Reads a character behind a finished value. -/
def afterValue (c : Char) (reader : Reader) : Reader :=
  if isBlank c then reader
  else if c = ',' then
    match reader.stack with
    | [] => reader.fault
    | .object _ :: _ => { reader with mode := .key }
    | _ => { reader with mode := .value }
  else reader.close c

def hexValue? (c : Char) : Option Nat :=
  if c.isDigit then some (c.toNat - '0'.toNat)
  else if 'a' ≤ c ∧ c ≤ 'f' then some (c.toNat - 'a'.toNat + 10)
  else if 'A' ≤ c ∧ c ≤ 'F' then some (c.toNat - 'A'.toNat + 10)
  else none

def shortEscape? (c : Char) : Option Char :=
  match c with
  | '"' => some '"'
  | '\\' => some '\\'
  | '/' => some '/'
  | 'b' => some '\x08'
  | 'f' => some '\x0c'
  | 'n' => some '\n'
  | 'r' => some '\r'
  | 't' => some '\t'
  | _ => none

/-- Ends a string, which is either a key or a value. -/
def finishText (isKey : Bool) (quoted : Quoted) (reader : Reader) : Reader :=
  if isKey then
    match reader.stack with
    | .object fields :: rest =>
      { reader with stack := .field fields quoted.text? :: rest, mode := .colon }
    | _ => reader.fault
  else
    reader.finishValue
      (match quoted.text? with
        | some text => .string text
        | none => .garbled)

def inText (c : Char) (isKey : Bool) (escape : Escape) (quoted : Quoted) (reader : Reader) :
    Reader :=
  match escape with
  | .plain =>
    if c = '"' then reader.finishText isKey quoted
    else if c = '\\' then { reader with mode := .text isKey .escaped quoted }
    else if c.toNat < 0x20 then reader.fault
    else { reader with mode := .text isKey .plain (quoted.push c) }
  | .escaped =>
    if c = 'u' then { reader with mode := .text isKey (.unit 4 0) quoted }
    else
      match shortEscape? c with
      | some meant => { reader with mode := .text isKey .plain (quoted.push meant) }
      | none => reader.fault
  | .unit missing value =>
    match hexValue? c with
    | none => reader.fault
    | some digit =>
      let value := value * 16 + digit
      if missing ≤ 1 then { reader with mode := .text isKey .plain (quoted.pushUnit value) }
      else { reader with mode := .text isKey (.unit (missing - 1) value) quoted }

def step (reader : Reader) (c : Char) : Reader :=
  match reader.mode with
  | .value => if isBlank c then reader else reader.startValue c
  | .firstItem =>
    if isBlank c then reader else if c = ']' then reader.close c else reader.startValue c
  | .key =>
    if isBlank c then reader
    else if c = '"' then { reader with mode := .text true .plain {} } else reader.fault
  | .firstKey =>
    if isBlank c then reader
    else if c = '}' then reader.close c
    else if c = '"' then { reader with mode := .text true .plain {} } else reader.fault
  | .colon =>
    if isBlank c then reader
    else if c = ':' then { reader with mode := .value } else reader.fault
  | .after => reader.afterValue c
  | .text isKey escape quoted => reader.inText c isKey escape quoted
  | .word rest meaning =>
    match rest with
    | [] => reader.fault
    | [last] => if c = last then reader.finishValue meaning else reader.fault
    | next :: rest =>
      if c = next then { reader with mode := .word rest meaning } else reader.fault
  | .number digits done =>
    match digits.next c with
    | some digits => { reader with mode := .number digits (c :: done) }
    | none =>
      if digits.isComplete then
        (reader.finishValue (.number (String.ofList done.reverse))).afterValue c
      else reader.fault
  | .fault => reader

/-- A byte that belongs to no character can only stand inside a string. -/
def stepGap (reader : Reader) : Reader :=
  match reader.mode with
  | .text isKey .plain quoted => { reader with mode := .text isKey .plain quoted.pushGap }
  | _ => reader.fault

def stepDecoded (reader : Reader) : Option Char → Reader
  | some c => reader.step c
  | none => reader.stepGap

/-- Ends a number at the end of the text. -/
def finish (reader : Reader) : Reader :=
  match reader.mode with
  | .number digits done =>
    if digits.isComplete then reader.finishValue (.number (String.ofList done.reverse))
    else reader.fault
  | _ => reader

/-- Closes the containers left open around the part that was read last. -/
def abandon (child : Option Json) : List Frame → Json
  | [] => child.getD .unread
  | .array items :: rest =>
    abandon (some (.array (Json.unread :: (child.toList ++ items)).reverse)) rest
  | .object fields :: rest =>
    abandon (some (.object ((none, Json.unread) :: fields).reverse)) rest
  | .field fields key :: rest =>
    let fields :=
      match child with
      | some child => (none, Json.unread) :: (key, child) :: fields
      | none => (key, Json.unread) :: fields
    abandon (some (.object fields.reverse)) rest

end Reader

/-- A text as far as it could be read, and whether that was all of it. -/
structure Reading where
  document : Json
  isComplete : Bool

def Reader.result (reader : Reader) : Reading :=
  let reader := reader.finish
  match reader.mode, reader.stack, reader.root with
  | .after, [], some document => ⟨document, true⟩
  | _, [], some document => ⟨document, false⟩
  | _, stack, _ => ⟨Reader.abandon none stack, false⟩

def read (text : String) : Reading := (text.toList.foldl Reader.step {}).result

def readBytes (bytes : Text.Bytes) : Reading :=
  ((Text.decodeBytes bytes).foldl Reader.stepDecoded {}).result

end ScopedStore.Json
