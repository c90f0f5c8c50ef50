import ScopedStore.Url.Host

/-!
URLs by their parts, and their text.
-/

namespace ScopedStore

namespace Url

/-- A path is a row of segments, or plain text for schemes without any structure. -/
inductive Path where
  | segments (segments : List String)
  | plain (text : String)
  deriving DecidableEq

def Path.chars : Path → List Char
  | segments rows => rows.flatMap fun segment => '/' :: segment.toList
  | plain text => text.toList

end Url

/-- All parts are kept encoded. An empty password is no password, and a port that the scheme has
by default is no port. -/
structure Url where
  scheme : String
  username : String := ""
  password : Option String := none
  host : Option Url.Host := none
  port : Option Nat := none
  path : Url.Path := .segments []
  query : Option String := none
  fragment : Option String := none
  deriving DecidableEq

namespace Url

def userInfoChars (url : Url) : List Char :=
  let password := url.password.elim [] fun password => ':' :: password.toList
  let info := url.username.toList ++ password
  if info = [] then [] else info ++ ['@']

def authorityChars (url : Url) : List Char :=
  match url.host with
  | none => []
  | some host =>
    ['/', '/'] ++ url.userInfoChars ++ host.chars ++
      url.port.elim [] fun port => ':' :: Decimal.digits port

def chars (url : Url) : List Char :=
  url.scheme.toList ++ ':' :: url.authorityChars ++ url.path.chars ++
    (url.query.elim [] fun query => '?' :: query.toList) ++
    url.fragment.elim [] fun fragment => '#' :: fragment.toList

def text (url : Url) : String := String.ofList url.chars

def hostText (url : Url) : Option String := url.host.map Host.text

end Url

end ScopedStore
