import ScopedStore.Log
import ScopedStore.Wire.Message
import ScopedStore.Wire.Status

/-!
Clients of the account service: what carries a request there and an outcome back.
-/

namespace ScopedStore.Account

open Wire

inductive Rpc where
  | getValue (request : GetValueRequest)
  | updateValue (request : UpdateValueRequest)
  | deleteValue (request : DeleteValueRequest)
  | deleteAllValues (request : DeleteAllValuesRequest)
  deriving DecidableEq

namespace Rpc

@[reducible] def Reply : Rpc → Type
  | getValue _ => GetValueResponse
  | _ => Unit

def method : Rpc → String
  | getValue _ => "GetValue"
  | updateValue _ => "UpdateValue"
  | deleteValue _ => "DeleteValue"
  | deleteAllValues _ => "DeleteAllValues"

def toJson : Rpc → Json
  | getValue request => request.toJson
  | updateValue request => request.toJson
  | deleteValue request => request.toJson
  | deleteAllValues request => request.toJson

/-- The reply of a method that reports nothing is empty. -/
def replyOf : (rpc : Rpc) → GetValueResponse → rpc.Reply
  | getValue _, response => response
  | updateValue _, _ => ()
  | deleteValue _, _ => ()
  | deleteAllValues _, _ => ()

end Rpc

/-- The outcome of a request, with what was logged on the way. -/
structure Outcome (α : Type) where
  result : Except RpcStatus α
  log : List Log.Record := []

/-- A client over states of type `κ`. -/
structure Client (κ : Type) where
  perform : (rpc : Rpc) → κ → Outcome rpc.Reply × κ

/-- A client that writes requests down and gives one prepared outcome; all later requests
succeed without a value. -/
structure Prepared where
  next : Option (Except RpcStatus GetValueResponse) := none
  requests : List Rpc := []

namespace Prepared

def client : Client Prepared where
  perform rpc prepared :=
    let outcome := prepared.next.getD (.ok {})
    ({ result := outcome.map rpc.replyOf },
      { next := none, requests := prepared.requests ++ [rpc] })

end Prepared

end ScopedStore.Account
