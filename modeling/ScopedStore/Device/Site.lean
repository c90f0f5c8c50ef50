import ScopedStore.Device.Config
import ScopedStore.Device.Database

/-!
The place where the database lives: the folder, what stands at the path and at the side name, and
the file that the open connection holds. Files can be moved or replaced behind the connection's
back; a connection keeps the file that it opened. One that writes ahead keeps what it wrote in a log
beside the path until it is closed, and if the file goes before that, the log stays. The engine
takes a log for that of whatever file stands beside it, so such a file is hidden by the log.
-/

namespace ScopedStore.Device

inductive Folder where
  | absent
  | present
  | blocked
  deriving DecidableEq

/-- A shadowed file stands beside the log that a connection to another file left there. -/
inductive Slot where
  | missing
  | directory
  | file (image : Image)
  | shadowed (image : Image) (log : Tables)
  deriving DecidableEq

namespace Slot

def image? : Slot → Option Image
  | file image => some image
  | _ => none

/-- What a file holds itself, whether or not a log hides it. -/
def content? : Slot → Option Image
  | file image | shadowed image _ => some image
  | _ => none

def isFolder : Slot → Bool
  | directory => true
  | _ => false

/-- An image where this log stands. The engine drops a log beside an empty file. -/
def beside (log : Option Tables) (image : Image) : Slot :=
  match log with
  | some log => if image = .database .blank then file image else shadowed image log
  | none => file image

/-- The same file where this log stands. -/
def under (log : Option Tables) : Slot → Slot
  | file image | shadowed image _ => beside log image
  | slot => slot

end Slot

/-- The file that the connection holds: the one at the path, the one at the side name, or one that
has lost its name. -/
inductive Link where
  | current
  | aside
  | orphan (image : Image)
  deriving DecidableEq

/-- `sawTables` tells whether there were tables when the connection last looked for them. A
connection that writes ahead goes with what its file holds without the log, `settled`; `stray` is
the log that stands beside the path while nothing stands there. -/
structure Site where
  folder : Folder := .absent
  slot : Slot := .missing
  aside : Slot := .missing
  link : Option Link := none
  sawTables : Bool := true
  settled : Option Image := none
  stray : Option Tables := none
  deriving DecidableEq

namespace Site

def isOpen (site : Site) : Bool := site.link.isSome

def fileExists (site : Site) : Bool := site.slot != .missing

/-- The file that the connection holds is not the one at the path, which a connection finds out
before it writes unless it writes ahead. -/
def isMoved (site : Site) : Bool := site.link != some .current && site.settled.isNone

def connected? (site : Site) : Option Image :=
  match site.link with
  | none => none
  | some .current => site.slot.image?
  | some .aside => site.aside.image?
  | some (.orphan image) => some image

/-- Replaces the content of the file that the connection holds. One that writes ahead does so in its
log, even where its file is gone. -/
def writeBack (image : Image) (site : Site) : Site :=
  match site.link with
  | none => site
  | some .current => { site with slot := .file image }
  | some .aside => { site with aside := .file image }
  | some (.orphan held) =>
    { site with
      slot :=
        if site.settled.isSome ∧ image ≠ held then site.slot.under image.tables? else site.slot
      link := some (.orphan image) }

/-- Looks for the tables in an image; one that is no database tells nothing about them. -/
def look (image : Image) (site : Site) : Site :=
  { site with sawTables := site.sawTables && !image.lacksTables }

/-- The log beside the path. That of the connection counts once something was written. -/
def log? (site : Site) : Option Tables :=
  match site.slot with
  | .missing => site.stray
  | .directory => none
  | .shadowed _ log => some log
  | .file image =>
    if site.link = some .current ∧ site.settled.any (· ≠ image) then image.tables? else none

/-- What stands at the path, without the log beside it. -/
def bare (site : Site) : Slot :=
  match site.slot with
  | .shadowed image _ => .file image
  | .file image =>
    if site.link = some .current then .file (site.settled.getD image) else .file image
  | slot => slot

/-- A connection to a file that loses its name keeps the file. -/
def orphaned (name : Link) (slot : Slot) (link : Option Link) : Option Link :=
  if link = some name then slot.image?.map .orphan else link

/-- Empties the path. A log stays there, and a connection that writes ahead keeps using it. -/
def clear (site : Site) : Site :=
  { site with
    slot := .missing
    link := orphaned .current site.slot site.link
    stray := site.log? }

/-- Puts a file at the path. -/
def put (image : Image) (site : Site) : Site :=
  { site with slot := .beside site.log? image }

def removeFile (site : Site) : Site :=
  match site.slot.content? with
  | some _ => site.clear
  | none => site

/-- Renames whatever stands at the path to the side name, over what stands there. A connection that
writes ahead knows its file by the log, which is not renamed. -/
def moveFile (site : Site) : Site :=
  match site.bare with
  | .missing => site
  | moved =>
    let link := orphaned .aside site.aside site.link
    { site.clear with
      aside := moved
      link :=
        if link = some .current ∧ site.settled.isNone then some .aside
        else orphaned .current site.slot link }

/-- Renames what stands at the side name back to the path. The file of a connection that writes
ahead is joined with its log again. -/
def restoreFile (site : Site) : Site :=
  match site.aside with
  | .missing | .shadowed .. => site
  | .directory => { site.clear with slot := .directory, aside := .missing }
  | .file image =>
    let cleared := site.clear
    let restored := { cleared.put image with aside := .missing }
    match site.settled, cleared.link with
    | none, link =>
      { restored with link := if link = some .aside then some .current else link }
    | some settled, some (.orphan held) =>
      if settled = image then { restored with slot := .file held, link := some .current }
      else restored
    | some _, _ => restored

/-- Replaces the file by a copy of itself. -/
def swapFile (site : Site) : Site :=
  match site.bare with
  | .file image => site.clear.put image
  | _ => site

/-- Replaces the content of the file at the path by that many bytes that are no database. Where a
log stands, they are not seen. -/
def overwriteFile (size : Nat) (site : Site) : Site :=
  match site.folder, site.slot with
  | .present, .missing | _, .shadowed .. => site.put (.ofBytes size)
  | _, .file _ =>
    { site with
      slot := if site.log?.isSome then site.slot else .file (.ofBytes size)
      settled :=
        if site.link = some .current then site.settled.map fun _ => .ofBytes size
        else site.settled }
  | _, _ => site

/-- Removes the folder with all that is in it and puts a file in its place. -/
def blockParent (site : Site) : Site :=
  let site := site.clear
  { site with
    folder := .blocked
    aside := .missing
    link := orphaned .aside site.aside site.link
    stray := none }

def unblockParent (site : Site) : Site :=
  match site.folder with
  | .blocked => { site with folder := .absent }
  | _ => site

/-- Changes the database at the path from outside. A log that hides it is put into the file. -/
def editDatabase (edit : Database → Database) (site : Site) : Site :=
  match site.slot with
  | .file (.database content) => { site with slot := .file (.database (edit content)) }
  | .shadowed _ log =>
    { site with slot := .file (.database (edit ⟨some Database.schemaVersion, some log⟩)) }
  | _ => site

/-- What the file at the path holds without the log that a connection to it will write. A file that
is made has no more than its first page. -/
def settledUnder (mode : JournalMode) (site : Site) : Option Image :=
  if site.link = some .current then site.settled
  else
    match mode, site.slot with
    | .delete, _ => none
    | .wal, .file image | .wal, .shadowed image _ =>
      some (if image = .database .blank then .firstPage else image)
    | .wal, _ => some .firstPage

/-- Makes the folder and the file where they are missing, sets the database up and connects to it.
Where that fails, the connection stays as it was. A log beside the file is taken for the file's own,
whatever the mode. -/
def connect (mode : JournalMode) (site : Site) : Except Error Unit × Site :=
  match site.folder with
  | .blocked => (.error .folderBlocked, site)
  | _ =>
    let site := { site with folder := .present }
    match site.slot with
    | .directory => (.error .unopenable, site)
    | .file .foreign => (.error .unreadable, site)
    | .missing => establish .blank site
    | .file (.database content) => establish content site
    | .shadowed _ log => establish ⟨some Database.schemaVersion, some log⟩ site
where
  establish (content : Database) (site : Site) : Except Error Unit × Site :=
    match content.setUp with
    | .error cause => (.error cause, site)
    | .ok ready =>
      (.ok (), { site with
        slot := .file (.database ready)
        link := some .current
        sawTables := ready.tables.isSome
        settled := site.settledUnder mode })

/-- Closing a connection that writes ahead puts its log into the file, if that is still there. -/
def disconnect (site : Site) : Site := { site with link := none, settled := none }

end Site

end ScopedStore.Device
