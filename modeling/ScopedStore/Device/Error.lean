import ScopedStore.Error

/-!
Failures of the device database and how the store contract reports them.
-/

namespace ScopedStore.Device

inductive Error where
  | io (detail : String)
  | db (detail : String)
  | unavailable (reason : String)
  | invalid (detail : String)
  | versionMismatch (detail : String)
  deriving DecidableEq

namespace Error

def message : Error → String
  | io detail => "sqlite store io error: " ++ detail
  | db detail => "sqlite store db error: " ++ detail
  | unavailable reason => "sqlite store unavailable: " ++ reason
  | invalid detail => "sqlite store invalid data: " ++ detail
  | versionMismatch detail => "sqlite store version mismatch: " ++ detail

def kind : Error → String
  | io _ => "Io"
  | db _ => "Db"
  | unavailable _ => "Unavailable"
  | invalid _ => "Invalid"
  | versionMismatch _ => "VersionMismatch"

def ofKind? (kind detail : String) : Option Error :=
  [io detail, db detail, unavailable detail, invalid detail, versionMismatch detail].find?
    (·.kind = kind)

/-- Only unavailability keeps its kind in the store contract. -/
def toStoreError : Error → StoreError
  | unavailable reason => .unavailable reason
  | cause => .general cause.message

def closed : Error := unavailable "store is closed"

def fileMissing : Error := unavailable "backing file is missing"

def notADatabase : Error := unavailable "file is not a database"

/-- The same finding while a connection is being opened. -/
def unreadable : Error := db "file is not a database"

def unopenable : Error := db "unable to open database file"

def folderBlocked : Error := io "File exists (os error 17)"

def readOnly : Error := unavailable "attempt to write a readonly database"

def nameTaken : Error := db "UNIQUE constraint failed: namespaces.name"

def orphanEntry : Error := db "FOREIGN KEY constraint failed"

def sumOverflow : Error := db "integer overflow"

/-- The two halves of the global usage overflow only when they are added. -/
def totalOverflow : Error :=
  db ("Invalid column type Real at index: 0, name: " ++
    "(SELECT COALESCE(SUM(name_bytes), 0) FROM namespaces)\n                      " ++
    "+ (SELECT COALESCE(SUM(size_bytes), 0) FROM items)")

def missingTable (table : String) : Error := db ("no such table: " ++ table)

def limitOutOfRange : Error := invalid "stored limit out of range"

def negativeSize : Error := invalid "negative stored size"

def foreignScope (scope : String) : Error :=
  invalid ("scope " ++ scope ++ " is not served by the local store")

def unsupportedVersion (version : Int) : Error :=
  versionMismatch ("unsupported schema version: " ++ toString version)

end Error

end ScopedStore.Device
