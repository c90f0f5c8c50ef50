import ScopedStore.Device.Error

/-!
Settings of the device store and the rules that they are checked against.
-/

namespace ScopedStore.Device

inductive JournalMode where
  | delete
  | wal
  deriving DecidableEq

def JournalMode.name : JournalMode → String
  | delete => "delete"
  | wal => "wal"

inductive SyncMode where
  | full
  | normal
  deriving DecidableEq

def SyncMode.name : SyncMode → String
  | full => "full"
  | normal => "normal"

/-- `maxSize` bounds all stored bytes, `maxValue` a single name, key or value, and `limit` the
bytes of a namespace without a limit of its own. -/
structure Config where
  path : String
  maxSize : UInt64 := 1000000
  maxValue : UInt32 := 1000
  limit : UInt32 := 10000
  busyTimeoutMs : UInt64 := 5000
  journalMode : JournalMode := .delete
  syncMode : SyncMode := .full
  deriving DecidableEq

namespace Config

def maxPathBytes : Nat := 4096

def maxComponentBytes : Nat := 255

/-- Checks a database path; `isFolder` tells which paths name a directory. -/
def checkPath (isFolder : String → Bool) (path : String) : Except Error Unit :=
  if path.isEmpty then
    .error (.invalid "store path must not be empty")
  else if path.utf8ByteSize > maxPathBytes then
    .error (.invalid "store path exceeds length limit")
  else if (path.splitOn "/").any (·.utf8ByteSize > maxComponentBytes) then
    .error (.invalid "store path contains an overlong component")
  else if isFolder path then
    .error (.invalid "store path must be a file, not a directory")
  else
    .ok ()

/-- The budgets are checked before the path. -/
def validate (isFolder : String → Bool) (config : Config) : Except Error Unit :=
  if config.maxSize = 0 then
    .error (.invalid "max_size must be greater than zero")
  else if config.maxValue = 0 then
    .error (.invalid "max_value must be greater than zero")
  else if config.limit = 0 then
    .error (.invalid "limit must be greater than zero")
  else
    checkPath isFolder config.path

end Config

end ScopedStore.Device
