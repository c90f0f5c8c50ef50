import ScopedStore.Store.Backend

/-!
Layers around a backend. A cache layer hides failures to release memory, a reconnect layer reopens
an unavailable backend and tries once more, and the sharing layers pass every call through.
-/

namespace ScopedStore

namespace Reconnect

private def target : String := "persistent_store_core::runtime::reconnect"

private def reopening (c : Call) (reason : String) : Log.Record where
  level := .warn
  target := target
  message := "store unavailable, reopening"
  fields := [("operation", .text c.operation), ("reason", .text reason)]

private def reopenFailed (c : Call) (cause : StoreError) : Log.Record where
  level := .error
  target := target
  message := "store reopen failed"
  fields := [("operation", .text c.operation), ("error", .text cause.message)]

private def stillUnavailable (c : Call) (reason : String) : Log.Record where
  level := .error
  target := target
  message := "store unavailable after reopen"
  fields := [("operation", .text c.operation), ("reason", .text reason)]

variable {σ : Type}

/-- Makes a call; if the backend is unavailable, reopens it and makes the call once more. What
keeps the call from being served then is a general failure. -/
def call (inner : Backend σ) (c : Call) (s : σ) : Answer c.Reply × σ :=
  let (first, s) := inner.call c s
  match first.result with
  | .error (.unavailable reason) =>
    let first := first.logged (reopening c reason)
    let (opened, s) := inner.call .openStore s
    let reopened := first.after opened
    match opened.result with
    | .error cause =>
      let failure := StoreError.general ("store reopen failed: " ++ cause.message)
      ((reopened.withResult (.error failure)).logged (reopenFailed c cause), s)
    | .ok () =>
      let (second, s) := inner.call c s
      let served := reopened.after second
      match second.result with
      | .error (.unavailable reason) =>
        let failure := StoreError.general ("store unavailable after reopen: " ++ reason)
        ((served.withResult (.error failure)).logged (stillUnavailable c reason), s)
      | _ => (served, s)
  | _ => (first, s)

/-- An unavailable backend has nothing to flush. -/
def flush (inner : Backend σ) (s : σ) : Answer Unit × σ :=
  let (answer, s) := inner.call .flushCache s
  match answer.result with
  | .error (.unavailable _) => (answer.withResult (.ok ()), s)
  | _ => (answer, s)

end Reconnect

namespace Cache

private def target : String := "persistent_store_core::runtime::cache"

private def flushing : Log.Record where
  level := .debug
  target := target
  message := "flushing store cache"

private def releaseFailed (cause : StoreError) : Log.Record where
  level := .warn
  target := target
  message := "backend cache release failed"
  fields := [("error", .text cause.message)]

variable {σ : Type}

/-- Flushing always succeeds; a failure of the backend is logged only. -/
def flush (inner : Backend σ) (s : σ) : Answer Unit × σ :=
  let (answer, s) := inner.call .flushCache s
  let flushed := { answer.withResult (.ok ()) with log := flushing :: answer.log }
  match answer.result with
  | .error cause => (flushed.logged (releaseFailed cause), s)
  | .ok () => (flushed, s)

end Cache

namespace Backend

variable {σ : Type}

def reconnecting (inner : Backend σ) : Backend σ where
  call
    | .openStore, s => inner.call .openStore s
    | .flushCache, s => Reconnect.flush inner s
    | c, s => Reconnect.call inner c s
  enrol := inner.enrol
  members := inner.members

def caching (inner : Backend σ) : Backend σ where
  call
    | .flushCache, s => Cache.flush inner s
    | c, s => inner.call c s
  enrol := inner.enrol
  members := inner.members

end Backend

inductive Layer where
  | cache
  | reconnect
  | boxed
  | shared
  deriving DecidableEq

namespace Layer

variable {σ : Type}

def wrap : Layer → Backend σ → Backend σ
  | cache, inner => inner.caching
  | reconnect, inner => inner.reconnecting
  | boxed, inner => inner
  | shared, inner => inner

/-- Wraps a backend in layers, the innermost first. -/
def stack (layers : List Layer) (inner : Backend σ) : Backend σ :=
  layers.foldl (fun wrapped layer => layer.wrap wrapped) inner

end Layer

end ScopedStore
