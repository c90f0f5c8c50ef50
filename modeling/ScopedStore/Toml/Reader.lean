import ScopedStore.Toml.Quoted
import ScopedStore.Toml.Scalar
import ScopedStore.Toml.Table

/-!
Reading TOML documents. Every function takes characters off the front of a text and gives back what
is left; `none` stands for a text that is not well formed. No step needs more fuel than three times
the characters before it.
-/

namespace ScopedStore.Toml

def dropSpaces (cs : List Char) : List Char := cs.dropWhile fun c => c = ' ' || c = '\t'

/-- The end of a line: a break, or the end of the text. -/
def endLine : List Char → Option (List Char)
  | [] => some []
  | '\n' :: rest => some rest
  | '\r' :: '\n' :: rest => some rest
  | _ => none

/-- What is left behind a comment, if one starts here. -/
private def dropComment : List Char → List Char
  | '#' :: rest => rest.dropWhile isPlain
  | cs => cs

/-- Reads the end of a line that may have a comment. -/
def finishLine (cs : List Char) : Option (List Char) := endLine (dropComment (dropSpaces cs))

/-- Drops spaces, line breaks and comments. -/
def dropLines : Nat → List Char → List Char
  | 0, cs => cs
  | fuel + 1, cs =>
    match dropComment (dropSpaces cs) with
    | '\n' :: rest => dropLines fuel rest
    | '\r' :: '\n' :: rest => dropLines fuel rest
    | rest => rest

private def isBare (c : Char) : Bool := c.isAlphanum || c = '_' || c = '-'

def readName (cs : List Char) : Option (String × List Char) :=
  match cs with
  | '"' :: _ => Quoted.short cs
  | '\'' :: _ => Quoted.short cs
  | _ =>
    let name := cs.takeWhile isBare
    if name = [] then none else some (String.ofList name, cs.dropWhile isBare)

/-- Reads names between dots, with spaces around them. -/
def readPath : Nat → List Char → Option (List String × List Char)
  | 0, _ => none
  | fuel + 1, cs => do
    let (name, rest) ← readName (dropSpaces cs)
    match dropSpaces rest with
    | '.' :: rest => do
      let (names, rest) ← readPath fuel rest
      return (name :: names, rest)
    | rest => return ([name], rest)

private def isAtom (c : Char) : Bool :=
  c.isAlphanum || c = '_' || c = '-' || c = '+' || c = '.' || c = ':'

/-- Reads an unquoted value. A single space may part a date from its time. -/
private def readScalar (cs : List Char) : Option (Json × List Char) :=
  let atom := cs.takeWhile isAtom
  let rest := cs.dropWhile isAtom
  match rest with
  | ' ' :: next :: more =>
    if Scalar.afterDate? atom = some [] ∧ next.isDigit then
      let time := (next :: more).takeWhile isAtom
      (Scalar.read? (atom ++ ' ' :: time)).map fun found =>
        (found, (next :: more).dropWhile isAtom)
    else (Scalar.read? atom).map fun found => (found, rest)
  | _ => (Scalar.read? atom).map fun found => (found, rest)

/-- How deep arrays and inline tables may nest. -/
def nestingLimit : Nat := 80

mutual

/-- Reads a value, in which containers nest at most `depth` deep. -/
def readValue : Nat → Nat → List Char → Option (Json × List Char)
  | 0, _, _ => none
  | fuel + 1, depth, cs =>
    match cs with
    | '"' :: _ => (Quoted.read cs).map fun (text, rest) => (.string text, rest)
    | '\'' :: _ => (Quoted.read cs).map fun (text, rest) => (.string text, rest)
    | '[' :: rest =>
      if depth = 0 then none
      else do
        let (items, rest) ← readItems fuel (depth - 1) (dropLines fuel rest)
        return (.array items, rest)
    | '\x7b' :: rest =>
      if depth = 0 then none
      else do
        let (table, rest) ← readFields fuel (depth - 1) [] (dropLines fuel rest)
        return (table.toJson, rest)
    | _ => readScalar cs

/-- Reads the items of an array and its closing bracket; a comma may stand behind the last. -/
def readItems : Nat → Nat → List Char → Option (List Json × List Char)
  | 0, _, _ => none
  | fuel + 1, depth, cs =>
    match cs with
    | ']' :: rest => some ([], rest)
    | _ => do
      let (item, rest) ← readValue fuel depth cs
      match dropLines fuel rest with
      | ',' :: rest => do
        let (items, rest) ← readItems fuel depth (dropLines fuel rest)
        return (item :: items, rest)
      | ']' :: rest => return ([item], rest)
      | _ => none

/-- Reads the fields of an inline table and its closing brace. -/
def readFields : Nat → Nat → Table → List Char → Option (Table × List Char)
  | 0, _, _, _ => none
  | fuel + 1, depth, table, cs =>
    match cs with
    | '\x7d' :: rest => some (table, rest)
    | _ => do
      let (table, rest) ← readField fuel depth table cs
      match dropLines fuel rest with
      | ',' :: rest => readFields fuel depth table (dropLines fuel rest)
      | '\x7d' :: rest => return (table, rest)
      | _ => none

/-- Reads a key and its value into a table. -/
def readField : Nat → Nat → Table → List Char → Option (Table × List Char)
  | 0, _, _, _ => none
  | fuel + 1, depth, table, cs => do
    let (path, rest) ← readPath fuel cs
    match rest with
    | '=' :: rest => do
      let (document, rest) ← readValue fuel depth (dropSpaces rest)
      let key ← path.getLast?
      return (← Table.insert path.dropLast key document table, rest)
    | _ => none

end

/-- A document as far as it was read: its root, and the names of the last header. -/
structure Reader where
  root : Table := []
  current : List String := []

/-- Reads a header with its closing brackets. -/
private def readHeader (fuel : Nat) (close : List Char) (cs : List Char) :
    Option (List String × List Char) := do
  let (path, rest) ← readPath fuel cs
  if close.isPrefixOf rest then some (path, rest.drop close.length) else none

/-- Reads one line, which is not blank. -/
private def readLine (fuel : Nat) (reader : Reader) (cs : List Char) : Option (Reader × List Char) :=
  match cs with
  | '[' :: '[' :: rest => do
    let (path, rest) ← readHeader fuel [']', ']'] rest
    return ({ root := ← Table.openRow path reader.root, current := path }, rest)
  | '[' :: rest => do
    let (path, rest) ← readHeader fuel [']'] rest
    return ({ root := ← Table.openTable path reader.root, current := path }, rest)
  | _ => do
    let (path, rest) ← readPath fuel cs
    match rest with
    | '=' :: rest => do
      let (document, rest) ← readValue fuel nestingLimit (dropSpaces rest)
      let key ← path.getLast?
      let root ← Table.update (Table.insert path.dropLast key document) reader.current reader.root
      return ({ reader with root := root }, rest)
    | _ => none

def readLines : Nat → Reader → List Char → Option Table
  | 0, _, _ => none
  | fuel + 1, reader, cs =>
    match dropLines fuel cs with
    | [] => some reader.root
    | cs => do
      let (reader, rest) ← readLine fuel reader cs
      readLines fuel reader (← finishLine rest)

private def dropMark : List Char → List Char
  | '\ufeff' :: rest => rest
  | cs => cs

/-- Reads a document, which a byte order mark may open. -/
def read? (text : String) : Option Json :=
  let cs := dropMark text.toList
  (readLines (3 * cs.length + 3) {} cs).map Table.toJson

end ScopedStore.Toml
