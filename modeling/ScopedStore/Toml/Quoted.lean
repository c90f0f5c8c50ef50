import ScopedStore.Url.Percent

/-!
Quoted texts of TOML. Basic texts have escapes and literal ones have none; both come in a form
for one line and a form for several, which three marks open and close.
-/

namespace ScopedStore.Toml

/-- Characters that may stand in comments and literal texts: all but controls, and tabs. -/
def isPlain (c : Char) : Bool := c = '\t' || (0x20 ≤ c.toNat && c.toNat != 0x7F)

namespace Quoted

/-- What comes next inside a basic text. `trimming` drops blanks behind a backslash at the end of
a line; `seenLine` tells whether the line has ended. -/
inductive Escape where
  | plain
  | escaped
  | hex (missing value : Nat)
  | trimming (seenLine : Bool)

private def shortEscape? (c : Char) : Option Char :=
  match c with
  | 'b' => some '\x08'
  | 't' => some '\t'
  | 'n' => some '\n'
  | 'f' => some '\x0c'
  | 'r' => some '\r'
  | 'e' => some '\x1b'
  | '"' => some '"'
  | '\\' => some '\\'
  | _ => none

/-- The state behind a backslash and one more character. -/
private def escape? (isLong : Bool) (c : Char) : Option (Escape ⊕ Char) :=
  match c with
  | 'x' => some (.inl (.hex 2 0))
  | 'u' => some (.inl (.hex 4 0))
  | 'U' => some (.inl (.hex 8 0))
  | ' ' | '\t' => if isLong then some (.inl (.trimming false)) else none
  | '\n' => if isLong then some (.inl (.trimming true)) else none
  | c => (shortEscape? c).map .inr

/-- The text behind an opening mark, last character first, and what follows the closing mark. -/
abbrev Found := Option (List Char × List Char)

/-- Ends a text over several lines at a run of at least three marks, of which two at most belong
to the text. -/
private def closeLong (mark : Char) (done : List Char) (cs : List Char) : Found :=
  let run := (cs.takeWhile (· = mark)).length
  if 5 < run then none else some (List.replicate (run - 3) mark ++ done, cs.drop run)

/-- Reads a basic text of one line. -/
def basic : Escape → List Char → List Char → Found
  | _, _, [] => none
  | .plain, done, c :: rest =>
    if c = '"' then some (done, rest)
    else if c = '\\' then basic .escaped done rest
    else if isPlain c then basic .plain (c :: done) rest
    else none
  | .escaped, done, c :: rest =>
    match escape? false c with
    | some (.inl next) => basic next done rest
    | some (.inr meant) => basic .plain (meant :: done) rest
    | none => none
  | .hex missing value, done, c :: rest =>
    match Url.hexValue? c with
    | none => none
    | some digit =>
      let value := value * 16 + digit
      if 1 < missing then basic (.hex (missing - 1) value) done rest
      else if value.isValidChar then basic .plain (Char.ofNat value :: done) rest
      else none
  | .trimming _, _, _ :: _ => none

/-- Reads a basic text over several lines. -/
def longBasic : Escape → List Char → List Char → Found
  | _, _, [] => none
  | .plain, done, '"' :: '"' :: '"' :: rest => closeLong '"' done ('"' :: '"' :: '"' :: rest)
  | .plain, done, '\r' :: '\n' :: rest => longBasic .plain ('\n' :: '\r' :: done) rest
  | .plain, done, c :: rest =>
    if c = '\\' then longBasic .escaped done rest
    else if isPlain c ∨ c = '\n' then longBasic .plain (c :: done) rest
    else none
  | .escaped, done, '\r' :: '\n' :: rest => longBasic (.trimming true) done rest
  | .escaped, done, c :: rest =>
    match escape? true c with
    | some (.inl next) => longBasic next done rest
    | some (.inr meant) => longBasic .plain (meant :: done) rest
    | none => none
  | .hex missing value, done, c :: rest =>
    match Url.hexValue? c with
    | none => none
    | some digit =>
      let value := value * 16 + digit
      if 1 < missing then longBasic (.hex (missing - 1) value) done rest
      else if value.isValidChar then longBasic .plain (Char.ofNat value :: done) rest
      else none
  | .trimming _, done, '\r' :: '\n' :: rest => longBasic (.trimming true) done rest
  | .trimming true, done, '"' :: '"' :: '"' :: rest =>
    closeLong '"' done ('"' :: '"' :: '"' :: rest)
  | .trimming seenLine, done, c :: rest =>
    if c = '\n' then longBasic (.trimming true) done rest
    else if c = ' ' ∨ c = '\t' then longBasic (.trimming seenLine) done rest
    else if !seenLine then none
    else if c = '\\' then longBasic .escaped done rest
    else if isPlain c then longBasic .plain (c :: done) rest
    else none

/-- Reads a literal text of one line. -/
def literal : List Char → List Char → Found
  | _, [] => none
  | done, c :: rest =>
    if c = '\'' then some (done, rest)
    else if isPlain c then literal (c :: done) rest
    else none

/-- Reads a literal text over several lines. -/
def longLiteral : List Char → List Char → Found
  | _, [] => none
  | done, '\'' :: '\'' :: '\'' :: rest => closeLong '\'' done ('\'' :: '\'' :: '\'' :: rest)
  | done, '\r' :: '\n' :: rest => longLiteral ('\n' :: '\r' :: done) rest
  | done, c :: rest =>
    if isPlain c ∨ c = '\n' then longLiteral (c :: done) rest else none

/-- Drops a line break right behind the opening marks. -/
private def dropLine : List Char → List Char
  | '\n' :: rest => rest
  | '\r' :: '\n' :: rest => rest
  | cs => cs

private def finish (found : Found) : Option (String × List Char) :=
  found.map fun (done, rest) => (String.ofList done.reverse, rest)

/-- Reads a text of one line, as a key may be. -/
def short : List Char → Option (String × List Char)
  | '"' :: rest => finish (basic .plain [] rest)
  | '\'' :: rest => finish (literal [] rest)
  | _ => none

/-- Reads a text of either form. -/
def read : List Char → Option (String × List Char)
  | '"' :: '"' :: '"' :: rest => finish (longBasic .plain [] (dropLine rest))
  | '\'' :: '\'' :: '\'' :: rest => finish (longLiteral [] (dropLine rest))
  | cs => short cs

end Quoted

end ScopedStore.Toml
