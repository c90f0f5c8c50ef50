import ScopedStore.Time.Duration
import ScopedStore.Time.Timestamp
import ScopedStore.Json.Decode

/-!
The messages of the account service and their JSON form. Optional fields that are not set are left
out, scopes go by name, lengths of time and points in time as text.
-/

namespace ScopedStore.Wire

/-- The scope of a message; a sender may leave it open. -/
inductive Visibility where
  | unspecified
  | account
  | device
  deriving DecidableEq

namespace Visibility

def name : Visibility → String
  | unspecified => "SCOPE_UNSPECIFIED"
  | account => "SCOPE_ACCOUNT"
  | device => "SCOPE_DEVICE"

def toJson (scope : Visibility) : Json := .string scope.name

def ofJson : Json → Decoded Visibility :=
  Json.asName Json.isNull ([unspecified, account, device].map fun scope => (scope.name, scope))

end Visibility

structure Key where
  appId : String := ""
  key : String := ""
  scope : Visibility := .unspecified
  deriving DecidableEq

namespace Key

def toJson (key : Key) : Json :=
  .ofFields
    [("appId", .string key.appId), ("key", .string key.key), ("scope", key.scope.toJson)]

def take (name : String) (value : Json) (key : Key) : Decoded Key :=
  match name with
  | "appId" => do return { key with appId := ← value.asString }
  | "key" => do return { key with key := ← value.asString }
  | _ => do return { key with scope := ← Visibility.ofJson value }

def ofJson : Json → Decoded Key := Json.asStructure take ["appId", "key", "scope"] {}

end Key

def durationOfJson (document : Json) : Decoded Duration := do
  let text ← document.asString
  match Duration.parse? text with
  | some duration => pure duration
  | none => throw (.invalidDuration text)

def timestampOfJson (document : Json) : Decoded Timestamp := do
  match Timestamp.parse? (← document.asString) with
  | some instant => pure instant
  | none => Json.malformed

/-- A value as it travels, with its lifetime or the end of its life if it has one. -/
structure Value where
  key : Option Key := none
  value : String := ""
  ttl : Option Duration := none
  expireTime : Option Timestamp := none
  deriving DecidableEq

namespace Value

def optional (name : String) (value : Option Json) : List (String × Json) :=
  (value.map fun document => (name, document)).toList

def fields (v : Value) : List (String × Json) :=
  optional "key" (v.key.map Key.toJson) ++ [("value", .string v.value)] ++
    optional "ttl" (v.ttl.map fun d => .string d.text) ++
    optional "expireTime" (v.expireTime.map fun t => .string t.text)

def toJson (v : Value) : Json := .ofFields v.fields

def take (name : String) (value : Json) (v : Value) : Decoded Value :=
  match name with
  | "key" => do return { v with key := ← value.asOption Key.ofJson }
  | "value" => do return { v with value := ← value.asString }
  | "ttl" => do return { v with ttl := ← value.asOption durationOfJson }
  | _ => do return { v with expireTime := ← value.asOption timestampOfJson }

def ofJson : Json → Decoded Value :=
  Json.asStructure take ["key", "value", "ttl", "expireTime"] {}

end Value

structure GetValueRequest where
  key : Key
  deriving DecidableEq

structure GetValueResponse where
  value : Option Value := none
  deriving DecidableEq

structure UpdateValueRequest where
  value : Value
  deriving DecidableEq

structure DeleteValueRequest where
  key : Key
  deriving DecidableEq

structure DeleteAllValuesRequest where
  appId : String
  scope : Visibility
  deriving DecidableEq

/-- Reads a structure of one required field. -/
def ofField {α : Type} (name : String) (f : Json → Decoded α) (document : Json) :
    Decoded α := do
  Json.require (← document.asStructure (fun _ value _ => (f value).map some) [name] none)

def GetValueRequest.toJson (request : GetValueRequest) : Json :=
  .ofFields [("key", request.key.toJson)]

def GetValueRequest.ofJson (document : Json) : Decoded GetValueRequest :=
  return ⟨← ofField "key" Key.ofJson document⟩

def GetValueResponse.toJson (response : GetValueResponse) : Json :=
  .ofFields (response.value.map fun value => ("value", value.toJson)).toList

def GetValueResponse.ofJson (document : Json) : Decoded GetValueResponse :=
  document.asStructure (fun _ value _ => return ⟨← value.asOption Value.ofJson⟩) ["value"] {}

def UpdateValueRequest.toJson (request : UpdateValueRequest) : Json :=
  .ofFields [("value", request.value.toJson)]

def UpdateValueRequest.ofJson (document : Json) : Decoded UpdateValueRequest :=
  return ⟨← ofField "value" Value.ofJson document⟩

def DeleteValueRequest.toJson (request : DeleteValueRequest) : Json :=
  .ofFields [("key", request.key.toJson)]

def DeleteValueRequest.ofJson (document : Json) : Decoded DeleteValueRequest :=
  return ⟨← ofField "key" Key.ofJson document⟩

namespace DeleteAllValuesRequest

def toJson (request : DeleteAllValuesRequest) : Json :=
  .ofFields [("appId", .string request.appId), ("scope", request.scope.toJson)]

def take (name : String) (value : Json) (known : Option String × Option Visibility) :
    Decoded (Option String × Option Visibility) :=
  match name with
  | "appId" => do return (some (← value.asString), known.2)
  | _ => do return (known.1, some (← Visibility.ofJson value))

def ofJson (document : Json) : Decoded DeleteAllValuesRequest := do
  let (appId, scope) ← document.asStructure take ["appId", "scope"] (none, none)
  return ⟨← Json.require appId, ← Json.require scope⟩

end DeleteAllValuesRequest

end ScopedStore.Wire
