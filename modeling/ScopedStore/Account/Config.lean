import ScopedStore.Account.Error
import ScopedStore.Url.Parse

/-!
Settings of the account store, the endpoint that they name, and the rules for it: an endpoint that
is not local needs an encrypted connection and a token.
-/

namespace ScopedStore.Account

def defaultUserAgent : String := "persistent-store/0.1"

structure Config where
  uri : String
  token : Option String := none
  timeoutMs : Option UInt64 := none
  legacyDeviceScope : Bool := false
  userAgent : String := defaultUserAgent
  deriving DecidableEq

/-- The hosts that are reached without encryption and without a token. -/
def localHosts : List String := ["localhost", "127.0.0.1", "0.0.0.0", "::1"]

/-- Whether a host is local, in any case and with or without brackets. -/
def isLocalHost (host : List Char) : Bool :=
  let bare := ((host.dropWhile (· = '[')).reverse.dropWhile (· = ']')).reverse
  localHosts.contains (String.ofList (bare.map Char.toLower))

/-- The host of an endpoint that is written without a scheme. -/
def bareHost (cs : List Char) : List Char :=
  match cs with
  | '[' :: _ => cs.takeWhile (· != ']')
  | _ =>
    if cs.contains ':' then ((cs.reverse.dropWhile (· != ':')).drop 1).reverse else cs

/-- Whether a text names its scheme. -/
def namesScheme : List Char → Bool
  | ':' :: '/' :: '/' :: _ => true
  | _ :: rest => namesScheme rest
  | [] => false

namespace Config

/-- The text that is read as a URL. An endpoint without a scheme gets one: a plain one if its host
is local, else an encrypted one. -/
def urlText (uri : String) : String :=
  if namesScheme uri.toList then uri
  else if isLocalHost (bareHost uri.toList) then "http://" ++ uri
  else "https://" ++ uri

def endpoint [Url.Naming] (config : Config) : Except Error Url :=
  let uri := Text.trim config.uri
  if uri.isEmpty then .error (.invalid "uri is empty")
  else
    match Url.parse (urlText uri) with
    | .error cause => .error (.invalid ("uri " ++ uri ++ ": " ++ cause.message))
    | .ok url =>
      if url.scheme ≠ "http" ∧ url.scheme ≠ "https" then
        .error (.invalid ("unsupported scheme " ++ url.scheme))
      else if url.host.isNone then .error (.invalid ("uri " ++ uri ++ " has no host"))
      else .ok url

def hasLocalHost (url : Url) : Bool := url.host.elim false fun host => isLocalHost host.chars

def isLocal [Url.Naming] (config : Config) : Bool :=
  match config.endpoint with
  | .ok url => hasLocalHost url
  | .error _ => false

def lacksToken (config : Config) : Bool := config.token.elim true Text.isBlankText

def validate [Url.Naming] (config : Config) : Except Error Unit := do
  let url ← config.endpoint
  if hasLocalHost url then return ()
  if url.scheme ≠ "https" then throw (.invalid "non-local endpoints require https")
  if config.lacksToken then throw (.invalid "non-local endpoints require a token")

end Config

/-- What a client needs to know to send requests. -/
structure Connection where
  endpoint : String
  token : Option String
  userAgent : String
  timeoutMs : Option UInt64
  deriving DecidableEq

namespace Connection

def servicePath : String := "distp.gateway.secure_storage.v1.SecureStorageService"

/-- Whether a text can be the value of a header: tabs and everything but controls. -/
def isHeaderValue (text : String) : Bool :=
  text.toList.all fun c => c = '\t' || (0x20 ≤ c.toNat && c.toNat != 0x7F)

/-- Drops all slashes at the end. -/
def trimSlashes (text : String) : String :=
  String.ofList (text.toList.reverse.dropWhile (· = '/')).reverse

/-- Prepares a client. A local endpoint is not told the token. -/
def ofConfig [Url.Naming] (config : Config) : Except Error Connection := do
  config.validate
  let url ← config.endpoint
  if !isHeaderValue config.userAgent then
    throw (.client "http client build failed: builder error")
  return {
    endpoint := trimSlashes url.text
    token := if config.isLocal then none else config.token
    userAgent := config.userAgent
    timeoutMs := config.timeoutMs }

/-- Where the requests of a method are posted to. -/
def methodUrl (connection : Connection) (method : String) : String :=
  connection.endpoint ++ "/" ++ servicePath ++ "/" ++ method

end Connection

end ScopedStore.Account
