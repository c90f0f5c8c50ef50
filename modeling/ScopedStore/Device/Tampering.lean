import ScopedStore.Device.Site

/-!
Changes to stored rows that do not come through the store. They are free to break what the store
keeps: numbers may leave their ranges, and the version may go.
-/

namespace ScopedStore.Device

inductive Tampering where
  | limit (ns : String) (value : Option Int)
  | nameBytes (ns : String) (value : Int)
  | size (ns key : String) (value : Int)
  | expires (ns key : String) (value : Option Int)
  | version (value : Int)
  | noVersion
  deriving DecidableEq

namespace Tampering

def editNamespace (name : String) (edit : NamespaceRow → NamespaceRow)
    (tables : Tables) : Tables :=
  { tables with
    namespaces := tables.namespaces.map fun row => if row.name = name then edit row else row }

def editItem (name key : String) (edit : ItemRow → ItemRow) (tables : Tables) : Tables :=
  match tables.namespaceRow? name with
  | none => tables
  | some owner =>
    { tables with
      items := tables.items.map fun row =>
        if row.ns = owner.id ∧ row.key = key then edit row else row }

def editTables : Tampering → Tables → Tables
  | limit name value => editNamespace name fun row => { row with limit := value }
  | nameBytes name value => editNamespace name fun row => { row with nameBytes := value }
  | size name key value => editItem name key fun row => { row with sizeBytes := value }
  | expires name key value => editItem name key fun row => { row with expiresAt := value }
  | version _ => id
  | noVersion => id

def editVersion : Tampering → Option Int → Option Int
  | version value => Option.map fun _ => value
  | noVersion => fun _ => none
  | _ => id

def apply (tampering : Tampering) (content : Database) : Database where
  version := tampering.editVersion content.version
  tables := content.tables.map tampering.editTables

end Tampering

end ScopedStore.Device
