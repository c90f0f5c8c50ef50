import ScopedStore.Error
import ScopedStore.Log

/-!
The listener registry: the registered listeners, each once, in the order of registration.
-/

namespace ScopedStore

abbrev ListenerId := String

inductive Enrolment where
  | register (listener : ListenerId)
  | unregister (listener : ListenerId)
  deriving DecidableEq

/-- The outcome of registering or unregistering a listener. -/
structure Enrolled where
  result : Except ListenerError Unit
  log : List Log.Record := []

structure Hub where
  members : List ListenerId := []
  nodup : members.Nodup := by simp

namespace Hub

def empty : Hub := {}

private def record (message : String) : Log.Record where
  level := .debug
  target := "persistent_store_core::runtime::notification"
  message := message

def register (hub : Hub) (listener : ListenerId) : Except ListenerError Hub :=
  if h : listener ∈ hub.members then .error .alreadyRegistered
  else .ok
    { members := hub.members ++ [listener]
      nodup := by
        rw [List.nodup_append]
        refine ⟨hub.nodup, by simp, ?_⟩
        intro other registered added isAdded same
        rw [List.mem_singleton] at isAdded
        exact h (isAdded ▸ same ▸ registered) }

def unregister (hub : Hub) (listener : ListenerId) : Except ListenerError Hub :=
  if listener ∈ hub.members then
    .ok { members := hub.members.erase listener, nodup := hub.nodup.erase _ }
  else .error .notRegistered

/-- Registers or unregisters a listener; a refused request leaves the registry as it is. -/
def enrol (request : Enrolment) (hub : Hub) : Enrolled × Hub :=
  match request with
  | .register listener =>
    match hub.register listener with
    | .ok hub' => ({ result := .ok (), log := [record "store listener registered"] }, hub')
    | .error cause => ({ result := .error cause }, hub)
  | .unregister listener =>
    match hub.unregister listener with
    | .ok hub' => ({ result := .ok (), log := [record "store listener unregistered"] }, hub')
    | .error cause => ({ result := .error cause }, hub)

end Hub

end ScopedStore
