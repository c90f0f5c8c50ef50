import ScopedStore.Text.Base64
import ScopedStore.Text.Blank
import ScopedStore.Account.Client
import ScopedStore.Account.Config

/-!
The account service over HTTP: what a request looks like, what a reply means, and what becomes of a
request that no reply comes to.
-/

namespace ScopedStore.Account.Http

open Wire

/-- Requests are posted, and speak JSON both ways. -/
def requestMethod : String := "POST"

def mediaType : String := "application/json"

/-- A request as it is sent. Of the credentials each stands in a header of its own. -/
structure Request where
  target : String
  userAgent : String
  authorizations : List String
  body : Json

structure Reply where
  status : Nat
  body : Text.Bytes

/-- Why a request got no reply. -/
inductive Failure where
  | timedOut
  | notConnected
  | broken
  deriving DecidableEq

def Failure.code : Failure → RpcCode
  | timedOut => .deadlineExceeded
  | notConnected => .unavailable
  | broken => .unknown

def Failure.toStatus (failure : Failure) : RpcStatus :=
  { code := failure.code, text := "http transport failed" }

private def target : String := "persistent_store_remote::http"

private def failureStatus (method : String) (status : Nat) : Log.Record where
  level := .debug
  target := target
  message := "secure storage call returned failure status"
  fields := [("method", .text method), ("status", .count status)]

/-- Whether a status means success. -/
def isSuccess (status : Nat) : Bool := 200 ≤ status && status ≤ 299

/-- The failure that a reply without success reports: the one in its body, or else the one that
its status stands for. -/
def reported (reply : Reply) : RpcStatus :=
  match Json.decodeBytes RpcStatus.ofJson reply.body with
  | .ok status => status
  | .error _ =>
    { code := .ofHttpStatus reply.status, text := "http status " ++ toString reply.status }

/-- The message without any fields. -/
def emptyMessage : Json → Decoded Unit :=
  Json.asStructure (fun _ _ _ => Json.malformed) [] ()

def replyOfJson : (rpc : Rpc) → Json → Decoded rpc.Reply
  | .getValue _, document => GetValueResponse.ofJson document
  | .updateValue _, document => emptyMessage document
  | .deleteValue _, document => emptyMessage document
  | .deleteAllValues _, document => emptyMessage document

/-- The outcome that a reply stands for. An empty body of a success is the empty message. -/
def received (rpc : Rpc) (reply : Reply) : Except RpcStatus rpc.Reply :=
  if isSuccess reply.status then
    let body := if reply.body.isEmpty then Text.toBytes "\x7b\x7d" else reply.body
    match Json.decodeBytes (replyOfJson rpc) body with
    | .ok message => .ok message
    | .error _ => .error { code := .internal, text := "response decoding failed" }
  else .error (reported reply)

def outcome (rpc : Rpc) : Except Failure Reply → Outcome rpc.Reply
  | .error failure => { result := .error failure.toStatus }
  | .ok reply =>
    { result := received rpc reply
      log := if isSuccess reply.status then [] else [failureStatus rpc.method reply.status] }

/-- Blanks around the value of a header do not travel. -/
private def headerValue (text : String) : String :=
  String.ofList (Text.trimBoth (fun c => c = ' ' || c = '\t') text.toList)

private def plainText (encoded : String) : Option String :=
  Text.ofBytes? (Url.decode encoded.toList)

/-- The credentials in a URL, as a header. -/
def basicCredentials (url : Url) : Option String :=
  match plainText url.username, url.password.bind plainText with
  | some username, password =>
    if username.isEmpty ∧ password.isNone then none
    else
      let pair := username ++ ":" ++ password.getD ""
      some ("Basic " ++ String.ofList (Text.base64 (Text.toBytes pair)))
  | none, _ => none

/-- Credentials in the URL come before the token. -/
def authorizations (connection : Connection) (url : Url) : List String :=
  (basicCredentials url).toList ++ (connection.token.map ("Bearer " ++ ·)).toList

/-- The first credentials that a server sees. -/
def Request.authorization (request : Request) : Option String :=
  request.authorizations.head?.map headerValue

/-- The request of a call and where it goes; `none` if it cannot be sent. -/
def request? [Url.Naming] (connection : Connection) (rpc : Rpc) : Option (Url × Request) :=
  match Url.parse (connection.methodUrl rpc.method) with
  | .error _ => none
  | .ok url =>
    if connection.token.elim true Connection.isHeaderValue then
      let query := url.query.elim [] fun query => '?' :: query.toList
      some (url,
        { target := String.ofList (url.path.chars ++ query)
          userAgent := headerValue connection.userAgent
          authorizations := authorizations connection url
          body := rpc.toJson })
    else none

/-- What the server does with the next request: it gives a reply, which may be cut short, closes
the connection, or never answers. `refuse` stands for a server that is not there. -/
inductive Conduct where
  | answer (reply : Reply) (isCut : Bool)
  | close
  | hang
  | refuse

/-- Whether replies of a status come with a body. -/
def hasBody (status : Nat) : Bool := status != 204 && status != 304

def Conduct.outcome : Conduct → Except Failure Reply
  | answer reply isCut =>
    if !hasBody reply.status then .ok { reply with body := [] }
    else if isCut then .error .broken
    else .ok reply
  | close => .error .broken
  | hang => .error .timedOut
  | refuse => .error .notConnected

def Conduct.listens : Conduct → Bool
  | refuse => false
  | _ => true

/-- A client's view of the network: what keeps requests for an address from arriving, if anything,
what the server will do next, and the requests that it has seen. -/
structure Network where
  obstacle? : Url → Option Failure := fun _ => none
  next : Conduct := .refuse
  seen : List Request := []

/-- A client that waits no time at all gets no reply. -/
def impatience? (connection : Connection) : Option Failure :=
  if connection.timeoutMs = some 0 then some .timedOut else none

def client [Url.Naming] (connection : Connection) : Client Network where
  perform rpc network :=
    match request? connection rpc with
    | none => (outcome rpc (.error .broken), network)
    | some (url, request) =>
      match impatience? connection <|> network.obstacle? url with
      | some failure => (outcome rpc (.error failure), network)
      | none =>
        let seen :=
          if network.next.listens then network.seen ++ [request] else network.seen
        (outcome rpc network.next.outcome, { network with next := .refuse, seen := seen })

end ScopedStore.Account.Http
