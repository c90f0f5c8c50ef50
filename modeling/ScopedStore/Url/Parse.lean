import ScopedStore.Url.Basic
import ScopedStore.Text.Blank

/-!
Reading URLs without a base. Blanks and controls around the text do not count, nor do tabs and line
breaks inside it. The schemes of the web treat backslashes as slashes and always have a host.
-/

namespace ScopedStore.Url

/-- What a scheme says about the rest of its URLs. -/
inductive Family where
  | web (defaultPort : Nat)
  | file
  | other
  deriving DecidableEq

namespace Family

def ofScheme (scheme : String) : Family :=
  match scheme with
  | "http" | "ws" => web 80
  | "https" | "wss" => web 443
  | "ftp" => web 21
  | "file" => file
  | _ => other

def isSpecial : Family → Bool
  | other => false
  | _ => true

def defaultPort? : Family → Option Nat
  | web port => some port
  | _ => none

/-- The characters that part the segments of a path. -/
def isSlash (family : Family) (c : Char) : Bool := c = '/' || (family.isSpecial && c = '\\')

/-- The characters that end an authority. -/
def endsAuthority (family : Family) (c : Char) : Bool :=
  family.isSlash c || c = '?' || c = '#'

end Family

/-- Drops what does not count in the text of a URL. -/
def clean (text : String) : List Char :=
  (Text.trimBoth (fun c => c.toNat ≤ 0x20) text.toList).filter fun c =>
    !(c = '\t' || c = '\n' || c = '\r')

def inScheme (c : Char) : Bool :=
  c.isAlphanum || c = '+' || c = '-' || c = '.'

/-- The scheme, in lower case, and what follows its colon. -/
def splitScheme (cs : List Char) : Option (String × List Char) :=
  let name := cs.takeWhile inScheme
  match name, cs.dropWhile inScheme with
  | first :: _, ':' :: rest =>
    if first.isAlpha then some (String.ofList (name.map Char.toLower), rest) else none
  | _, _ => none

/-- The text before the last at sign, if there is one, and the text behind it. -/
def splitUserInfo (cs : List Char) : Option (List Char) × List Char :=
  let host := (cs.reverse.takeWhile (· != '@')).reverse
  if cs.contains '@' then (some (cs.take (cs.length - host.length - 1)), host) else (none, cs)

/-- The host and what follows it: nothing, or the colon of the port. A colon in brackets belongs
to the host. -/
def splitHost (inBrackets : Bool) : List Char → List Char × List Char
  | [] => ([], [])
  | c :: rest =>
    if c = ':' ∧ !inBrackets then ([], c :: rest)
    else
      let inBrackets := if c = '[' then true else if c = ']' then false else inBrackets
      let (host, rest) := splitHost inBrackets rest
      (c :: host, rest)

/-- Reads a port; `none` stands for the default one. Behind the digits nothing may follow but what
starts a path. -/
def readPort (family : Family) (cs : List Char) : Except UrlError (Option Nat × List Char) :=
  let digits := cs.takeWhile Char.isDigit
  let rest := cs.dropWhile Char.isDigit
  let port := Decimal.value digits
  if 65535 < port ∨ !(rest = [] ∨ rest.head? = some '\\') then .error .invalidPort
  else if digits = [] ∨ family.defaultPort? = some port then .ok (none, rest)
  else .ok (some port, rest)

/-- What stands between the two slashes and the path. -/
structure Authority where
  username : String := ""
  password : Option String := none
  host : Option Host := none
  port : Option Nat := none

def readUserInfo (cs : List Char) : String × Option String :=
  let encoded (part : List Char) := String.ofList (encode userInfoSet part)
  let password := (cs.dropWhile (· != ':')).drop 1
  (encoded (cs.takeWhile (· != ':')), if password = [] then none else some (encoded password))

def readHost [Naming] (family : Family) (cs : List Char) : Except UrlError (Option Host) :=
  match family with
  | .other => if cs = [] then .ok none else (Host.parseOpaque cs).map some
  | _ => if cs = [] then .error .emptyHost else (Host.parse cs).map some

/-- Reads an authority; what does not belong to it any more is given back. -/
def readAuthority [Naming] (family : Family) (cs : List Char) :
    Except UrlError (Authority × List Char) := do
  let (info, rest) := splitUserInfo cs
  let (username, password) := readUserInfo (info.getD [])
  let (hostChars, rest) := splitHost false rest
  let host ← readHost family hostChars
  if host.isNone ∧ (rest ≠ [] ∨ username ≠ "" ∨ password.isSome) then throw .emptyHost
  let (port, rest) ←
    match rest with
    | ':' :: digits => readPort family digits
    | rest => pure (none, rest)
  return ({ username, password, host, port }, rest)

/-- A letter with a colon or a bar, which names a drive and no host. -/
def isDriveLetter : List Char → Bool
  | [letter, mark] => letter.isAlpha && (mark = ':' || mark = '|')
  | _ => false

/-- The authority of a file is a host at most. -/
private def readFileHost [Naming] (cs : List Char) : Except UrlError Authority :=
  if cs = [] ∨ isDriveLetter cs then .ok {}
  else (Host.parse cs).map fun host => { host := some host }

/-- A dot as it stands or encoded, and what follows it. -/
def dropDot : List Char → Option (List Char)
  | '.' :: rest => some rest
  | '%' :: '2' :: 'e' :: rest | '%' :: '2' :: 'E' :: rest => some rest
  | _ => none

def isSingleDot (segment : List Char) : Bool := dropDot segment = some []

def isDoubleDot (segment : List Char) : Bool := (dropDot segment).bind dropDot = some []

/-- The segments of the folder above, last first. There is nothing above a drive. -/
def parent : List (List Char) → List (List Char)
  | [] => []
  | last :: above => if isDriveLetter last then last :: above else above

/-- Resolves dots; `done` holds the segments so far, last first. A path that ends in dots ends
with an empty segment. -/
def resolve : List (List Char) → List (List Char) → List (List Char)
  | done, [] => done.reverse
  | done, [last] =>
    if isDoubleDot last then ([] :: parent done).reverse
    else if isSingleDot last then ([] :: done).reverse
    else (last :: done).reverse
  | done, segment :: rest =>
    if isDoubleDot segment then resolve (parent done) rest
    else if isSingleDot segment then resolve done rest
    else resolve (segment :: done) rest

/-- The segments of a text, which starts behind the first slash. -/
def readSegments (family : Family) (cs : List Char) : Path :=
  let normal := cs.map fun c => if family.isSlash c then '/' else c
  .segments ((resolve [] (splitOn '/' normal)).map fun segment =>
    String.ofList (encode pathSet segment))

/-- Reads a path behind an authority. -/
def readPath (family : Family) (cs : List Char) : Path :=
  match cs with
  | [] => if family.isSpecial then .segments [""] else .segments []
  | c :: rest => if family.isSlash c then readSegments family rest else readSegments family cs

/-- Reads a path that has no authority before it. -/
private def readBarePath (family : Family) (cs : List Char) : Path :=
  match cs with
  | '/' :: rest => readSegments family rest
  | cs => .plain (String.ofList (encode [] cs))

/-- The path, the query and the fragment of a text. -/
def splitTail (cs : List Char) : List Char × Option (List Char) × Option (List Char) :=
  let fragment :=
    match cs.dropWhile (· != '#') with
    | [] => none
    | _ :: rest => some rest
  let front := cs.takeWhile (· != '#')
  let query :=
    match front.dropWhile (· != '?') with
    | [] => none
    | _ :: rest => some rest
  (front.takeWhile (· != '?'), query, fragment)

def assemble (scheme : String) (family : Family) (authority : Authority)
    (path : List Char → Path) (cs : List Char) : Url :=
  let (pathChars, query, fragment) := splitTail cs
  let set := if family.isSpecial then specialQuerySet else querySet
  { scheme := scheme
    username := authority.username
    password := authority.password
    host := authority.host
    port := authority.port
    path := path pathChars
    query := query.map fun cs => String.ofList (encode set cs)
    fragment := fragment.map fun cs => String.ofList (encode fragmentSet cs) }

/-- Reads a URL whose authority starts here. -/
def withAuthority [Naming] (scheme : String) (family : Family) (cs : List Char) :
    Except UrlError Url := do
  let front := cs.takeWhile fun c => !family.endsAuthority c
  let tail := cs.dropWhile fun c => !family.endsAuthority c
  if front = ['@'] ∧ tail ≠ [] ∧ family ≠ .file then throw .emptyHost
  let (authority, rest) ←
    match family with
    | .file => do pure (← readFileHost front, [])
    | _ => readAuthority family front
  return assemble scheme family authority (readPath family) (rest ++ tail)

/-- Reads what follows a scheme. -/
def readScheme [Naming] (scheme : String) (cs : List Char) : Except UrlError Url :=
  let family := Family.ofScheme scheme
  match family, cs with
  | .web _, cs => withAuthority scheme family (cs.dropWhile family.isSlash)
  | .file, first :: second :: rest =>
    if family.isSlash first ∧ family.isSlash second then withAuthority scheme family rest
    else .ok (assemble scheme family {} (readPath family) cs)
  | .other, '/' :: '/' :: rest => withAuthority scheme family rest
  | .other, cs => .ok (assemble scheme family {} (readBarePath family) cs)
  | _, cs => .ok (assemble scheme family {} (readPath family) cs)

def parse [Naming] (text : String) : Except UrlError Url :=
  match splitScheme (clean text) with
  | some (scheme, rest) => readScheme scheme rest
  | none => .error .relative

end ScopedStore.Url
