import ScopedStore.Scope
import ScopedStore.Error
import ScopedStore.Entry
import ScopedStore.Log

/-!
The store contract as data: the calls, what each replies, and the answer to a call together with
the notices it sends to listeners and the records it logs.
-/

namespace ScopedStore

inductive Call where
  | openStore
  | setValue (scope : Scope) (ns key value : String) (ttl : UInt32)
  | getValue (scope : Scope) (ns key : String)
  | deleteKey (scope : Scope) (ns key : String)
  | deleteNamespace (scope : Scope) (ns : String)
  | setLimit (scope : Scope) (ns : String) (size : UInt32)
  | getLimit (scope : Scope) (ns : String)
  | getKeys (scope : Scope) (ns : String)
  | getNamespaces (scope : Scope)
  | getSizes (scope : Scope)
  | flushCache
  deriving DecidableEq

namespace Call

/-- What a successful call replies. -/
@[reducible] def Reply : Call → Type
  | getValue .. => StoredValue
  | getLimit .. => UInt32
  | getKeys .. => List String
  | getNamespaces .. => List String
  | getSizes .. => List NamespaceSize
  | _ => Unit

/-- The name under which a call is logged. -/
def operation : Call → String
  | openStore => "open"
  | setValue .. => "set_value"
  | getValue .. => "get_value"
  | deleteKey .. => "delete_key"
  | deleteNamespace .. => "delete_namespace"
  | setLimit .. => "set_namespace_storage_limit"
  | getLimit .. => "get_namespace_storage_limit"
  | getKeys .. => "get_keys"
  | getNamespaces .. => "get_namespaces"
  | getSizes .. => "get_storage_sizes"
  | flushCache => "flush_cache"

/-- The calls that read or write stored data. -/
def isData : Call → Bool
  | openStore => false
  | flushCache => false
  | _ => true

end Call

/-- What listeners are told. -/
inductive Notice where
  | valueChanged (scope : Scope) (ns key value : String)
  | storageExceeded (scope : Scope) (ns : String)
  deriving DecidableEq

/-- The outcome of a call. Notices are delivered once the result is fixed, in order. -/
structure Answer (α : Type) where
  result : Except StoreError α
  notices : List Notice := []
  log : List Log.Record := []

namespace Answer

def ok {α : Type} (reply : α) : Answer α := { result := .ok reply }

def error {α : Type} (cause : StoreError) : Answer α := { result := .error cause }

/-- `later`, after `earlier` has already sent its notices and written its records. -/
def after {α β : Type} (earlier : Answer α) (later : Answer β) : Answer β where
  result := later.result
  notices := earlier.notices ++ later.notices
  log := earlier.log ++ later.log

/-- Adds a record behind those already written. -/
def logged {α : Type} (answer : Answer α) (record : Log.Record) : Answer α :=
  { answer with log := answer.log ++ [record] }

def withResult {α β : Type} (answer : Answer α) (result : Except StoreError β) : Answer β where
  result := result
  notices := answer.notices
  log := answer.log

end Answer

end ScopedStore
