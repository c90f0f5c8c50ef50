import ScopedStore.Log
import ScopedStore.Scope
import ScopedStore.Device.Config
import ScopedStore.Device.Site
import ScopedStore.Device.Transaction

/-!
The handle owns at most one connection and runs transactions on it. A transaction either takes
effect as a whole or leaves the file as it was.
-/

namespace ScopedStore.Device.Handle

private def target : String := "persistent_store_sqlite::handle"

private def opened (path : String) (reopened : Bool) : Log.Record where
  level := .info
  target := target
  message := "sqlite store opened"
  fields := [("path", .text path), ("reopened", .flag reopened)]

private def closed (path : String) : Log.Record where
  level := .info
  target := target
  message := "sqlite store closed"
  fields := [("path", .text path)]

/-- Checks the settings of a handle for the site. -/
def validate (config : Config) (site : Site) : Except Error Unit :=
  config.validate fun _ => site.slot.isFolder

private def connect (config : Config) (reopened : Bool) (site : Site) :
    Except Error Unit × List Log.Record × Site :=
  let (result, site) := site.connect config.journalMode
  (result, if result.isOk then [opened config.path reopened] else [], site)

/-- Connects to the file at the path, in place of any connection held so far. -/
def «open» (config : Config) (site : Site) : Except Error Unit × List Log.Record × Site :=
  connect config site.isOpen site

/-- Connects a new handle to the site, in place of the handle that is there now, if any. -/
def create (config : Config) (site : Site) : Except Error Unit × List Log.Record × Site :=
  match validate config site with
  | .error cause => (.error cause, [], site)
  | .ok () => connect config false site

def close (config : Config) (site : Site) : List Log.Record × Site :=
  (if site.isOpen then [closed config.path] else [], site.disconnect)

/-- The file to run a transaction on. -/
def live (site : Site) : Except Error Image :=
  if !site.isOpen then .error .closed
  else if !site.fileExists then .error .fileMissing
  else
    match site.connected? with
    | none => .error .fileMissing
    | some image => .ok image

/-- A write transaction reads the file before its first statement. -/
def start (writing : Bool) (scope : Scope) (site : Site) : Except Error Image :=
  match scope with
  | .account => .error (.foreignScope scope.name)
  | .device => do
    let image ← live site
    if writing ∧ image = .foreign then .error .notADatabase else .ok image

variable {ε α : Type}

/-- Runs a body in one transaction. `refuse` turns the handle's own failures into the body's. -/
def transact (writing : Bool) (refuse : Error → ε) (scope : Scope) (body : Tx ε α) (site : Site) :
    Except ε α × Site :=
  match start writing scope site with
  | .error cause => (.error (refuse cause), site)
  | .ok image =>
    let looked := site.look image
    match body ⟨site.isMoved, site.sawTables⟩ image with
    | .error cause => (.error cause, looked)
    | .ok (found, image) => (.ok found, looked.writeBack image)

end ScopedStore.Device.Handle
