import ScopedStore.Error
import ScopedStore.Json.Decode

/-!
The outcome of a remote call that failed: a code, a message and details that are passed on as they
came.
-/

namespace ScopedStore.Wire

inductive RpcCode where
  | ok
  | cancelled
  | unknown
  | invalidArgument
  | deadlineExceeded
  | notFound
  | alreadyExists
  | permissionDenied
  | resourceExhausted
  | failedPrecondition
  | aborted
  | outOfRange
  | unimplemented
  | internal
  | unavailable
  | dataLoss
  | unauthenticated
  deriving DecidableEq

namespace RpcCode

/-- All codes, each at the place of its number. -/
def all : List RpcCode :=
  [ok, cancelled, unknown, invalidArgument, deadlineExceeded, notFound, alreadyExists,
    permissionDenied, resourceExhausted, failedPrecondition, aborted, outOfRange, unimplemented,
    internal, unavailable, dataLoss, unauthenticated]

def number (code : RpcCode) : Nat := all.idxOf code

/-- A number that no code has stands for an unknown error. -/
def ofNumber (number : Int) : RpcCode :=
  if number < 0 then unknown else all[number.toNat]?.getD unknown

def name : RpcCode → String
  | ok => "OK"
  | cancelled => "CANCELLED"
  | unknown => "UNKNOWN"
  | invalidArgument => "INVALID_ARGUMENT"
  | deadlineExceeded => "DEADLINE_EXCEEDED"
  | notFound => "NOT_FOUND"
  | alreadyExists => "ALREADY_EXISTS"
  | permissionDenied => "PERMISSION_DENIED"
  | resourceExhausted => "RESOURCE_EXHAUSTED"
  | failedPrecondition => "FAILED_PRECONDITION"
  | aborted => "ABORTED"
  | outOfRange => "OUT_OF_RANGE"
  | unimplemented => "UNIMPLEMENTED"
  | internal => "INTERNAL"
  | unavailable => "UNAVAILABLE"
  | dataLoss => "DATA_LOSS"
  | unauthenticated => "UNAUTHENTICATED"

/-- The code nearest to an HTTP status. -/
def ofHttpStatus (status : Nat) : RpcCode :=
  if 200 ≤ status ∧ status < 300 then ok
  else
    match status with
    | 400 => invalidArgument
    | 401 => unauthenticated
    | 403 => permissionDenied
    | 404 => notFound
    | 409 => aborted
    | 429 => resourceExhausted
    | 499 => cancelled
    | 500 => internal
    | 501 => unimplemented
    | 502 | 503 => unavailable
    | 504 => deadlineExceeded
    | _ => unknown

def toJson (code : RpcCode) : Json := .ofNat code.number

def ofJson (document : Json) : Decoded RpcCode := return ofNumber (← document.asInt32)

theorem ofNumber_number (code : RpcCode) : ofNumber code.number = code := by
  cases code <;> decide

end RpcCode

structure RpcStatus where
  code : RpcCode
  text : String := ""
  details : List Json := []

namespace RpcStatus

def message (status : RpcStatus) : String :=
  "rpc failed with " ++ status.code.name ++ ": " ++ status.text

def detailsText (status : RpcStatus) : String := (Json.array status.details).compact

def toStoreError (status : RpcStatus) : StoreError :=
  .general ("secure storage call failed with " ++ status.code.name)

def toJson (status : RpcStatus) : Json :=
  .ofFields
    [("code", status.code.toJson), ("message", .string status.text),
      ("details", .array status.details)]

/-- How deep the containers of a detail may nest: a document of 127 levels, less the status and
the list of details. -/
def detailDepth : Nat := 125

private def take (name : String) (value : Json)
    (known : Option RpcCode × String × List Json) :
    Decoded (Option RpcCode × String × List Json) :=
  let (code, text, details) := known
  match name with
  | "code" => do return (some (← RpcCode.ofJson value), text, details)
  | "message" => do return (code, ← value.asString, details)
  | _ =>
    match value with
    | .array items => do return (code, text, ← Json.canonicalItems detailDepth items)
    | _ => Json.malformed

def ofJson (document : Json) : Decoded RpcStatus := do
  let (code, text, details) ←
    document.asStructure take ["code", "message", "details"] (none, "", [])
  return ⟨← Json.require code, text, details⟩

end RpcStatus

end ScopedStore.Wire
