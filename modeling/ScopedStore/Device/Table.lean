import ScopedStore.Entry
import ScopedStore.Time.Expiry
import ScopedStore.Device.Error

/-!
The two tables of the device database: namespaces and the items filed under them. Numbers are kept
as they were stored and are checked only where they are read, since rows can be changed from
outside.
-/

namespace ScopedStore.Device

structure NamespaceRow where
  id : Int
  name : String
  nameBytes : Int
  limit : Option Int
  deriving DecidableEq

structure ItemRow where
  ns : Int
  key : String
  value : String
  sizeBytes : Int
  expiresAt : Option Int
  deriving DecidableEq

def ItemRow.isExpired (row : ItemRow) (now : Int) : Bool :=
  Expiry.isExpired row.expiresAt now

/-- Rows stand in the order in which they were first inserted. Identifiers count upwards and are
never given out twice. -/
structure Tables where
  lastId : Int := 0
  namespaces : List NamespaceRow := []
  items : List ItemRow := []
  deriving DecidableEq

/-- A namespace as a transaction sees it. -/
structure NamespaceRecord where
  id : Int
  limit : Option UInt32
  deriving DecidableEq

/-- An entry as a transaction sees it, expired or not. -/
structure EntryRecord where
  value : String
  sizeBytes : Nat
  expiresAt : Option Int
  deriving DecidableEq

/-- A number of 64 signed bits. -/
def fitsWord (number : Int) : Bool :=
  -0x8000000000000000 ≤ number && number < 0x8000000000000000

/-- Adds stored numbers one by one; every partial sum has to fit 64 signed bits. -/
def sumStored (numbers : List Int) : Except Error Int :=
  numbers.foldlM (fun total number =>
    let next := total + number
    if fitsWord next then .ok next else .error .sumOverflow) 0

/-- Reads a stored number as a count of bytes. -/
def storedBytes (number : Int) : Except Error Nat :=
  if number < 0 then .error .negativeSize else .ok number.toNat

/-- Reads a stored number as a byte limit. -/
def storedLimit (number : Int) : Except Error UInt32 :=
  if 0 ≤ number ∧ number < 0x100000000 then .ok (UInt32.ofNat number.toNat)
  else .error .limitOutOfRange

namespace Tables

/-- The items of a namespace by ascending key. -/
def itemsOf (tables : Tables) (id : Int) : List ItemRow :=
  (tables.items.filter (·.ns = id)).mergeSort fun a b => a.key ≤ b.key

def liveItemsOf (tables : Tables) (id now : Int) : List ItemRow :=
  (tables.itemsOf id).filter fun row => !row.isExpired now

def namespaceRow? (tables : Tables) (name : String) : Option NamespaceRow :=
  tables.namespaces.find? (·.name = name)

def namespaceRecord? (tables : Tables) (name : String) : Except Error (Option NamespaceRecord) :=
  match tables.namespaceRow? name with
  | none => .ok none
  | some row =>
    match row.limit with
    | none => .ok (some ⟨row.id, none⟩)
    | some number => (storedLimit number).map fun limit => some ⟨row.id, some limit⟩

def createNamespace (tables : Tables) (name : String) :
    Except Error (NamespaceRecord × Tables) :=
  if (tables.namespaceRow? name).isSome then .error .nameTaken
  else
    let id := tables.lastId + 1
    .ok (⟨id, none⟩,
      { tables with
        lastId := id
        namespaces := tables.namespaces ++ [⟨id, name, name.utf8ByteSize, none⟩] })

def setNamespaceLimit (tables : Tables) (id : Int) (limit : UInt32) : Tables :=
  { tables with
    namespaces := tables.namespaces.map fun row =>
      if row.id = id then { row with limit := some limit.toNat } else row }

/-- Deletes a namespace together with its items; tells whether it was there. -/
def deleteNamespace (tables : Tables) (name : String) : Bool × Tables :=
  match tables.namespaceRow? name with
  | none => (false, tables)
  | some gone =>
    (true,
      { tables with
        namespaces := tables.namespaces.filter (·.name ≠ name)
        items := tables.items.filter (·.ns ≠ gone.id) })

def itemRow? (tables : Tables) (id : Int) (key : String) : Option ItemRow :=
  tables.items.find? fun row => row.ns = id ∧ row.key = key

def entryRecord? (tables : Tables) (id : Int) (key : String) :
    Except Error (Option EntryRecord) :=
  match tables.itemRow? id key with
  | none => .ok none
  | some row =>
    (storedBytes row.sizeBytes).map fun size => some ⟨row.value, size, row.expiresAt⟩

/-- Writes an item over the one of the same key, or behind all others. An item needs its
namespace. -/
def putItem (tables : Tables) (id : Int) (key value : String) (expiresAt : Option Int) :
    Except Error Tables :=
  if tables.namespaces.any (·.id = id) then
    let written : ItemRow := ⟨id, key, value, key.utf8ByteSize + value.utf8ByteSize, expiresAt⟩
    if (tables.itemRow? id key).isSome then
      .ok { tables with
        items := tables.items.map fun row =>
          if row.ns = id ∧ row.key = key then written else row }
    else
      .ok { tables with items := tables.items ++ [written] }
  else
    .error .orphanEntry

/-- Deletes the items that meet a condition and counts them. -/
def deleteItems (tables : Tables) (gone : ItemRow → Bool) : Nat × Tables :=
  (tables.items.countP gone,
    { tables with items := tables.items.filter fun row => !gone row })

def deleteItem (tables : Tables) (id : Int) (key : String) : Nat × Tables :=
  tables.deleteItems fun row => row.ns = id ∧ row.key = key

def deleteExpiredItem (tables : Tables) (id : Int) (key : String) (now : Int) : Nat × Tables :=
  tables.deleteItems fun row => (row.ns = id ∧ row.key = key) ∧ row.isExpired now

def purgeExpired (tables : Tables) (now : Int) : Nat × Tables :=
  tables.deleteItems (·.isExpired now)

/-- The recorded bytes of a namespace, expired items included. -/
def namespaceUsage (tables : Tables) (id : Int) : Except Error Nat := do
  storedBytes (← sumStored ((tables.itemsOf id).map (·.sizeBytes)))

/-- The recorded bytes of all names and items, expired items included. -/
def globalUsage (tables : Tables) : Except Error Nat := do
  let names ← sumStored (tables.namespaces.map (·.nameBytes))
  let items ← sumStored (tables.items.map (·.sizeBytes))
  let total := names + items
  if fitsWord total then storedBytes total else .error .totalOverflow

def liveKeys (tables : Tables) (id now : Int) : List String :=
  (tables.liveItemsOf id now).map (·.key)

/-- The namespace rows by ascending name. -/
def sortedNamespaces (tables : Tables) : List NamespaceRow :=
  tables.namespaces.mergeSort fun a b => a.name ≤ b.name

def names (tables : Tables) : List String :=
  tables.sortedNamespaces.map (·.name)

/-- The live bytes of each namespace by ascending name. All sums are taken before the first is
checked. -/
def sizes (tables : Tables) (now : Int) : Except Error (List NamespaceSize) := do
  let sums ← tables.sortedNamespaces.mapM fun row => do
    let total ← sumStored ((tables.liveItemsOf row.id now).map (·.sizeBytes))
    pure (row.name, total)
  sums.mapM fun (name, total) => do
    pure ⟨name, UInt64.ofNat (← storedBytes total)⟩

end Tables

end ScopedStore.Device
