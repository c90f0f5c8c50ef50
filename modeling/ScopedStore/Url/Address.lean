import ScopedStore.Decimal.Digits
import ScopedStore.Url.Percent

/-!
Numeric addresses of hosts: dotted ones, whose parts may be decimal, octal or hexadecimal and
whose last part fills what is left, and colon ones, where one run of zeros may be left out.
-/

namespace ScopedStore.Url

/-- The parts of a text between separators; there is always at least one. -/
def splitOn (separator : Char) : List Char → List (List Char)
  | [] => [[]]
  | c :: rest =>
    if c = separator then [] :: splitOn separator rest
    else
      match splitOn separator rest with
      | [] => [[c]]
      | part :: parts => (c :: part) :: parts

/-- The number that digits of a base denote. -/
def ofBase? (base : Nat) (cs : List Char) : Option Nat :=
  cs.foldlM (fun n c =>
    match hexValue? c with
    | some digit => if digit < base then some (n * base + digit) else none
    | none => none) 0

namespace Ipv4

/-- A part of a dotted address: hexadecimal behind `0x`, octal behind `0`, else decimal. A part
without digits behind its mark is zero. -/
def part? : List Char → Option Nat
  | [] => none
  | '0' :: 'x' :: rest | '0' :: 'X' :: rest => ofBase? 16 rest
  | '0' :: rest => ofBase? 8 rest
  | cs => ofBase? 10 cs

/-- The parts, without an empty last one behind a point. -/
def parts (cs : List Char) : List (List Char) :=
  let all := splitOn '.' cs
  if all.getLast? = some [] then all.dropLast else all

/-- A host whose last part is a number has to be a dotted address. -/
def looksNumeric (cs : List Char) : Bool :=
  match (parts cs).getLast? with
  | none => false
  | some last => (last != [] && Decimal.areDigits last) || (part? last).isSome

/-- Reads an address of at most four parts. All but the last are single bytes. -/
def parse? (cs : List Char) : Option Nat := do
  let numbers ← (parts cs).mapM part?
  let last ← numbers.getLast?
  let firsts := numbers.dropLast
  if 4 < numbers.length ∨ firsts.any (255 < ·) ∨ Nat.pow 256 (4 - firsts.length) ≤ last then none
  else
    let lead := firsts.foldl (fun n part => n * 256 + part) 0
    some (lead * Nat.pow 256 (4 - firsts.length) + last)

def chars (address : Nat) : List Char :=
  Decimal.digits ((address >>> 24) % 256) ++ '.' :: Decimal.digits ((address >>> 16) % 256) ++
    '.' :: Decimal.digits ((address >>> 8) % 256) ++ '.' :: Decimal.digits (address % 256)

end Ipv4

namespace Ipv6

/-- One to four hexadecimal digits. -/
def piece? (cs : List Char) : Option Nat :=
  if cs = [] ∨ 4 < cs.length then none else ofBase? 16 cs

/-- A byte in decimal, without leading zeros. -/
def byte? (cs : List Char) : Option Nat :=
  if cs = [] ∨ !Decimal.areDigits cs ∨ (1 < cs.length ∧ cs.head? = some '0') then none
  else
    let n := Decimal.value cs
    if n ≤ 255 then some n else none

/-- A dotted ending, which stands for two pieces. -/
def dotted? (cs : List Char) : Option (List Nat) := do
  match ← (splitOn '.' cs).mapM byte? with
  | [a, b, c, d] => some [a * 256 + b, c * 256 + d]
  | _ => none

/-- The pieces of a row; the last may be dotted where the address ends with the row. -/
def row? (mayEndDotted : Bool) : List (List Char) → Option (List Nat)
  | [] => some []
  | [last] =>
    if mayEndDotted ∧ last.contains '.' then dotted? last else (piece? last).map ([·])
  | first :: rest => do return (← piece? first) :: (← row? mayEndDotted rest)

def cells (cs : List Char) : List (List Char) :=
  if cs = [] then [] else splitOn ':' cs

/-- The text before and behind the first pair of colons. -/
def splitGap : List Char → Option (List Char × List Char)
  | ':' :: ':' :: rest => some ([], rest)
  | c :: rest => (splitGap rest).map fun (before, behind) => (c :: before, behind)
  | [] => none

/-- Reads an address of eight pieces; a pair of colons stands for the zeros that are missing, at
least one. -/
def parse? (cs : List Char) : Option (List Nat) := do
  match splitGap cs with
  | none =>
    let pieces ← row? true (cells cs)
    if pieces.length = 8 then some pieces else none
  | some (before, behind) =>
    let left ← row? false (cells before)
    let right ← row? true (cells behind)
    if left.length + right.length ≤ 7 then
      some (left ++ List.replicate (8 - left.length - right.length) 0 ++ right)
    else none

def pieceChars (piece : Nat) : List Char := Nat.toDigits 16 piece

def rowChars (pieces : List Nat) : List Char :=
  [':'].intercalate (pieces.map pieceChars)

/-- The length of the run of zeros at each place. -/
def runs (pieces : List Nat) : List Nat :=
  pieces.foldr (fun piece known =>
    (if piece = 0 then known.headD 0 + 1 else 0) :: known) []

/-- The address with its first longest run of zeros left out, if that has more than one. -/
def chars (pieces : List Nat) : List Char :=
  let lengths := runs pieces
  let longest := lengths.foldl max 0
  if 2 ≤ longest then
    let start := lengths.idxOf longest
    rowChars (pieces.take start) ++ [':', ':'] ++ rowChars (pieces.drop (start + longest))
  else rowChars pieces

end Ipv6

end ScopedStore.Url
