import ScopedStore.Store.Backend

/-!
A backend that follows a script of failures and writes down the calls that reach it, for watching
what the layers around it do.
-/

namespace ScopedStore

/-- `failures` holds the outcome of the next calls, one for each call but opening; `openings` those
of the next openings. An exhausted script means success. -/
structure Scripted where
  failures : List (Option StoreError) := []
  openings : List (Option StoreError) := []
  values : List ((String × String) × StoredValue) := []
  calls : List Call := []
  hub : Hub := {}

namespace Scripted

/-- A call as the script's reader sees it. -/
def shown : Call → String
  | .openStore => "open"
  | .setValue scope ns key value ttl =>
    " ".intercalate ["set", scope.name, ns, key, value, toString ttl.toNat]
  | .getValue scope ns key => " ".intercalate ["get", scope.name, ns, key]
  | .deleteKey scope ns key => " ".intercalate ["delete_key", scope.name, ns, key]
  | .deleteNamespace scope ns => " ".intercalate ["delete_namespace", scope.name, ns]
  | .setLimit scope ns size =>
    " ".intercalate ["set_limit", scope.name, ns, toString size.toNat]
  | .getLimit scope ns => " ".intercalate ["get_limit", scope.name, ns]
  | .getKeys scope ns => " ".intercalate ["keys", scope.name, ns]
  | .getNamespaces scope => " ".intercalate ["namespaces", scope.name]
  | .getSizes scope => " ".intercalate ["sizes", scope.name]
  | .flushCache => "flush"

/-- Takes the next outcome off the script that the call follows. -/
def next (c : Call) (script : Scripted) : Option StoreError × Scripted :=
  match c with
  | .openStore => (script.openings.head?.join, { script with openings := script.openings.tail })
  | _ => (script.failures.head?.join, { script with failures := script.failures.tail })

private def without (keep : String × String → Bool) (script : Scripted) : Scripted :=
  { script with values := script.values.filter fun row => keep row.1 }

/-- Serves a call that does not fail. All scopes share the same values. -/
def serve : (c : Call) → Scripted → Answer c.Reply × Scripted
  | .setValue scope ns key value ttl, script =>
    let script := script.without (· != (ns, key))
    ({ result := .ok (), notices := [.valueChanged scope ns key value] },
      { script with values := script.values ++ [((ns, key), ⟨value, ttl⟩)] })
  | .getValue _ ns key, script =>
    match script.values.lookup (ns, key) with
    | some stored => (.ok stored, script)
    | none => (.error .unknownKey, script)
  | .deleteKey _ ns key, script => (.ok (), script.without (· != (ns, key)))
  | .deleteNamespace _ ns, script => (.ok (), script.without (·.1 != ns))
  | .setLimit scope ns _, script =>
    ({ result := .ok (), notices := [.storageExceeded scope ns] }, script)
  | .getLimit .., script => (.ok (1000 : UInt32), script)
  | .getKeys _ ns, script =>
    (.ok (((script.values.filter (·.1.1 == ns)).map (·.1.2)).mergeSort (· ≤ ·)), script)
  | .getNamespaces _, script =>
    (.ok ((script.values.map (·.1.1)).eraseDups.mergeSort (· ≤ ·)), script)
  | .getSizes _, script => (.ok [], script)
  | .openStore, script => (.ok (), script)
  | .flushCache, script => (.ok (), script)

def backend : Backend Scripted where
  call c script :=
    let (failure, script) := next c { script with calls := script.calls ++ [c] }
    match failure with
    | some cause => (.error cause, script)
    | none => serve c script
  enrol request script :=
    let (enrolled, hub) := script.hub.enrol request
    (enrolled, { script with hub := hub })
  members script := script.hub.members

end Scripted

end ScopedStore
