import ScopedStore.Store.Backend

/-!
The least backend: it keeps nothing, announces every write, and leaves all optional calls out.
-/

namespace ScopedStore.Minimal

def backend : Backend Hub where
  call
    | .setValue scope ns key value _, hub =>
      ({ result := .ok (), notices := [.valueChanged scope ns key value] }, hub)
    | .getValue .., hub => (.error .unknownKey, hub)
    | .deleteKey .., hub => (.ok (), hub)
    | .deleteNamespace .., hub => (.ok (), hub)
    | c, hub => ({ result := Backend.leftOut c }, hub)
  enrol := Hub.enrol
  members hub := hub.members

end ScopedStore.Minimal
