import ScopedStore.Text.Utf8

/-!
Files as far as loading settings looks at them.
-/

namespace ScopedStore.Settings

/-- What reading a path gives, its bytes or the system's report, and which paths are folders. -/
structure Files where
  read : String → Except String Text.Bytes
  isFolder : String → Bool

namespace Files

/-- The longest path and the longest name in a path that the system takes. -/
def maxPathBytes : Nat := 4095

def maxNameBytes : Nat := 255

/-- The names in a path, without the steps to folders that always exist. -/
def names (path : String) : List String :=
  (path.splitOn "/").filter fun step => !(step = "" || step = "." || step = "..")

/-- Whether a path leads to a folder that always exists. -/
def staysInPlace (path : String) : Bool :=
  !path.isEmpty && path.utf8ByteSize ≤ maxPathBytes && (names path).isEmpty

/-- Whether the system does not even look for a path. It looks no further than the first name. -/
private def isTooLong (path : String) : Bool :=
  maxPathBytes < path.utf8ByteSize ||
    (names path).head?.elim false (maxNameBytes < ·.utf8ByteSize)

/-- The report on a path that leads nowhere. -/
def absence (path : String) : String :=
  if path.toList.contains '\x00' then "file name contained an unexpected NUL byte"
  else if isTooLong path then "File name too long (os error 36)"
  else "No such file or directory (os error 2)"

/-- A system with the given files and no others. -/
def only (files : List (String × Text.Bytes)) : Files where
  read path :=
    if staysInPlace path then .error "Is a directory (os error 21)"
    else
      match files.lookup path with
      | some bytes => .ok bytes
      | none => .error (absence path)
  isFolder := staysInPlace

end Files

end ScopedStore.Settings
