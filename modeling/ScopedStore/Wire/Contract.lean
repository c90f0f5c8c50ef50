import ScopedStore.Entry
import ScopedStore.Scope
import ScopedStore.Json.Decode

/-!
The JSON form of the values that the store contract hands out.
-/

namespace ScopedStore

namespace Scope

def toJson (scope : Scope) : Json := .string scope.name

def ofJson : Json → Decoded Scope :=
  Json.asName Json.isNull ([device, account].map fun scope => (scope.name, scope))

end Scope

namespace StoredValue

def toJson (entry : StoredValue) : Json :=
  .ofFields [("value", .string entry.value), ("ttl", .ofNat entry.ttl.toNat)]

private def take (name : String) (value : Json) (known : Option String × Option UInt32) :
    Decoded (Option String × Option UInt32) :=
  match name with
  | "value" => do return (some (← value.asString), known.2)
  | _ => do return (known.1, some (← value.asUInt32))

def ofJson (document : Json) : Decoded StoredValue := do
  let (value, ttl) ← document.asStructure take ["value", "ttl"] (none, none)
  return ⟨← Json.require value, ← Json.require ttl⟩

end StoredValue

namespace NamespaceSize

def toJson (report : NamespaceSize) : Json :=
  .ofFields [("namespace", .string report.namespaceName), ("size", .ofNat report.size.toNat)]

private def take (name : String) (value : Json) (known : Option String × Option UInt64) :
    Decoded (Option String × Option UInt64) :=
  match name with
  | "namespace" => do return (some (← value.asString), known.2)
  | _ => do return (known.1, some (← value.asUInt64))

def ofJson (document : Json) : Decoded NamespaceSize := do
  let (name, size) ← document.asStructure take ["namespace", "size"] (none, none)
  return ⟨← Json.require name, ← Json.require size⟩

end NamespaceSize

end ScopedStore
