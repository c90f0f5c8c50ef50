/-!
Values as the store hands them out, and the size report of a namespace.
-/

namespace ScopedStore

/-- A value with its remaining lifetime in seconds; a lifetime of zero stands for no expiry. -/
structure StoredValue where
  value : String
  ttl : UInt32
  deriving DecidableEq

namespace StoredValue

def persistent (value : String) : StoredValue := ⟨value, 0⟩

def expires (entry : StoredValue) : Bool := entry.ttl != 0

end StoredValue

/-- The live key and value bytes that a namespace holds. -/
structure NamespaceSize where
  namespaceName : String
  size : UInt64
  deriving DecidableEq

end ScopedStore
