import ScopedStore.Device.Database

/-!
Statements of a transaction. They run on the image of the connected file and know how the connection
stands to that file: one that was moved away from the store's path can be read but not changed.
-/

namespace ScopedStore.Device

/-- How a connection stands to its file: whether the file was moved away from the store's path, and
whether there were tables in it when the connection last looked. -/
structure Standing where
  isMoved : Bool
  sawTables : Bool
  deriving DecidableEq

abbrev Tx (ε : Type) := ReaderT Standing (StateT Image (Except ε))

namespace Tx

variable {ε : Type} {α : Type}

def mapError {δ : Type} (f : ε → δ) (tx : Tx ε α) : Tx δ α :=
  fun moved image => (tx moved image).mapError f

/-- The tables, for a statement that starts at the named one. A table that the connection does not
know is missed before the file is read. -/
def tables (first : String) : Tx Error Tables := do
  match ← get with
  | .foreign => throw (if (← read).sawTables then .notADatabase else .missingTable first)
  | .database content =>
    match content.tables with
    | none => throw (.missingTable first)
    | some tables => pure tables

/-- Stores changed tables. Writing what is already there needs no write access, unless the
statement `rewrites` an index on the way. -/
def store (rewrites : Bool) (before after : Tables) : Tx Error Unit := do
  if before = after ∧ !rewrites then pure ()
  else if (← read).isMoved then throw .readOnly
  else
    match ← get with
    | .foreign => throw .notADatabase
    | .database content => set (Image.database { content with tables := some after })

/-- Runs a statement that only reads. -/
def query (first : String) (read : Tables → Except Error α) : Tx Error α := do
  match read (← tables first) with
  | .ok found => pure found
  | .error cause => throw cause

/-- Runs a statement that may change rows. A constraint is checked before write access. -/
def update (first : String) (change : Tables → Except Error (α × Tables))
    (rewrites : Bool := false) : Tx Error α := do
  let before ← tables first
  match change before with
  | .error cause => throw cause
  | .ok (found, after) =>
    store rewrites before after
    pure found

def «namespace» (name : String) : Tx Error (Option NamespaceRecord) :=
  query "namespaces" (·.namespaceRecord? name)

def createNamespace (name : String) : Tx Error NamespaceRecord :=
  update "namespaces" (·.createNamespace name)

def setNamespaceLimit (id : Int) (limit : UInt32) : Tx Error Unit :=
  update "namespaces" fun tables => .ok ((), tables.setNamespaceLimit id limit)

def deleteNamespace (name : String) : Tx Error Bool :=
  update "namespaces" fun tables => .ok (tables.deleteNamespace name)

def entry (id : Int) (key : String) : Tx Error (Option EntryRecord) :=
  query "items" (·.entryRecord? id key)

/-- An entry that expires is indexed by its expiry, which is taken out of the index and put back
even when nothing of the entry changes. -/
def putEntry (id : Int) (key value : String) (expiresAt : Option Int) : Tx Error Unit :=
  let put (tables : Tables) := (tables.putItem id key value expiresAt).map fun t => ((), t)
  update "items" put expiresAt.isSome

def deleteEntry (id : Int) (key : String) : Tx Error Bool :=
  update "items" fun tables =>
    let (count, after) := tables.deleteItem id key
    .ok (0 < count, after)

def deleteExpiredEntry (id : Int) (key : String) (now : Int) : Tx Error Bool :=
  update "items" fun tables =>
    let (count, after) := tables.deleteExpiredItem id key now
    .ok (0 < count, after)

def purgeExpired (now : Int) : Tx Error Nat :=
  update "items" fun tables => .ok (tables.purgeExpired now)

def namespaceUsage (id : Int) : Tx Error Nat :=
  query "items" (·.namespaceUsage id)

def globalUsage : Tx Error Nat :=
  query "namespaces" (·.globalUsage)

def keys (id now : Int) : Tx Error (List String) :=
  query "items" fun tables => .ok (tables.liveKeys id now)

def namespaces : Tx Error (List String) :=
  query "namespaces" fun tables => .ok tables.names

def namespaceSizes (now : Int) : Tx Error (List NamespaceSize) :=
  query "namespaces" (·.sizes now)

end Tx

/-- The statements as data. -/
inductive Statement where
  | «namespace» (name : String)
  | createNamespace (name : String)
  | setNamespaceLimit (id : Int) (limit : UInt32)
  | deleteNamespace (name : String)
  | entry (id : Int) (key : String)
  | putEntry (id : Int) (key value : String) (expiresAt : Option Int)
  | deleteEntry (id : Int) (key : String)
  | deleteExpiredEntry (id : Int) (key : String) (now : Int)
  | purgeExpired (now : Int)
  | namespaceUsage (id : Int)
  | globalUsage
  | keys (id now : Int)
  | namespaces
  | namespaceSizes (now : Int)

namespace Statement

/-- What a statement found. -/
inductive Found where
  | nothing
  | flag (flag : Bool)
  | count (count : Nat)
  | record (record : Option NamespaceRecord)
  | entry (entry : Option EntryRecord)
  | names (names : List String)
  | sizes (sizes : List NamespaceSize)

def run : Statement → Tx Error Found
  | «namespace» name => return .record (← Tx.namespace name)
  | createNamespace name => return .record (some (← Tx.createNamespace name))
  | setNamespaceLimit id limit => do
    Tx.setNamespaceLimit id limit
    return .nothing
  | deleteNamespace name => return .flag (← Tx.deleteNamespace name)
  | entry id key => return .entry (← Tx.entry id key)
  | putEntry id key value expiresAt => do
    Tx.putEntry id key value expiresAt
    return .nothing
  | deleteEntry id key => return .flag (← Tx.deleteEntry id key)
  | deleteExpiredEntry id key now => return .flag (← Tx.deleteExpiredEntry id key now)
  | purgeExpired now => return .count (← Tx.purgeExpired now)
  | namespaceUsage id => return .count (← Tx.namespaceUsage id)
  | globalUsage => return .count (← Tx.globalUsage)
  | keys id now => return .names (← Tx.keys id now)
  | namespaces => return .names (← Tx.namespaces)
  | namespaceSizes now => return .sizes (← Tx.namespaceSizes now)

end Statement

end ScopedStore.Device
