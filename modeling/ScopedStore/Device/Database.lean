import ScopedStore.Device.Table

/-!
The content of a database file: its schema version and its tables.
-/

namespace ScopedStore.Device

/-- `version` is the recorded schema version, if one is recorded; `tables` is absent in a file
that was never set up. -/
structure Database where
  version : Option Int := none
  tables : Option Tables := none
  deriving DecidableEq

namespace Database

def schemaVersion : Int := 1

def blank : Database := {}

/-- Sets a database up: one without a version gets the current version and whatever tables it
lacks, one of the current version is taken as it is, and any other version is refused. -/
def setUp (database : Database) : Except Error Database :=
  match database.version with
  | none =>
    .ok { version := some schemaVersion, tables := some (database.tables.getD {}) }
  | some version =>
    if version = schemaVersion then .ok database else .error (.unsupportedVersion version)

end Database

/-- A file as the database engine sees it. -/
inductive Image where
  | database (content : Database)
  | foreign
  deriving DecidableEq

namespace Image

/-- Bytes that no database wrote; the engine takes a file of fewer than two bytes for an empty
database. -/
def ofBytes (size : Nat) : Image :=
  if size < 2 then .database .blank else .foreign

/-- A file that was made and whose first tables stand in its log. -/
def firstPage : Image := .database { tables := some {} }

def lacksTables : Image → Bool
  | database content => content.tables.isNone
  | foreign => false

def tables? : Image → Option Tables
  | database content => content.tables
  | foreign => none

end Image

end ScopedStore.Device
