import ScopedStore.Time.Clock
import ScopedStore.Store.Layer
import ScopedStore.Device.Handle

/-!
The device store: length rules, byte budgets and lazy expiry over a database. A budget check and
the write that it admits share one transaction.
-/

namespace ScopedStore.Device

structure State where
  clock : Clock
  site : Site := {}
  hub : Hub := {}

/-- What became of a write whose lengths are fine. -/
inductive Verdict where
  | applied
  | namespaceFull
  | storageFull
  deriving DecidableEq

/-- What a look at an entry found; the entry may be expired. -/
inductive Lookup where
  | noNamespace
  | noKey
  | found (ns : Int) (entry : EntryRecord)

namespace Quota

private def target : String := "persistent_store_sqlite::store"

private def limitReached (message ns : String) : Log.Record where
  level := .debug
  target := target
  message := message
  fields := [("namespace", .text ns)]

private def discardFailed (cause : Error) : Log.Record where
  level := .warn
  target := target
  message := "failed to discard expired entry"
  fields := [("error", .text cause.message)]

def checkLength (config : Config) (field text : String) : Except StoreError Unit :=
  if config.maxValue.toNat < text.utf8ByteSize then
    .error (.invalidLength
      (field ++ " exceeds " ++ toString config.maxValue.toNat ++ " bytes"))
  else .ok ()

/-- Names and keys must not be empty either. -/
def checkName (config : Config) (field text : String) : Except StoreError Unit :=
  if text.isEmpty then .error (.invalidLength (field ++ " must not be empty"))
  else checkLength config field text

/-- The length rules of a call, checked in the order of its arguments. -/
def checkCall (config : Config) : Call → Except StoreError Unit
  | .setValue _ ns key value _ => do
    checkName config "namespace" ns
    checkName config "key" key
    checkLength config "value" value
  | .getValue _ ns key | .deleteKey _ ns key => do
    checkName config "namespace" ns
    checkName config "key" key
  | .deleteNamespace _ ns | .setLimit _ ns _ | .getLimit _ ns | .getKeys _ ns =>
    checkName config "namespace" ns
  | .openStore | .getNamespaces _ | .getSizes _ | .flushCache => .ok ()

/-- Runs a statement in a transaction of the store contract. -/
def lift {α : Type} (statement : Tx Error α) : Tx StoreError α :=
  statement.mapError Error.toStoreError

def globalFull : StoreError := .invalidLength "global storage limit exceeded"

def namespaceFull : StoreError := .invalidLength "namespace storage limit exceeded"

/-- The identifier of a namespace; a name without a record gets one. -/
def identify (ns : String) : Option NamespaceRecord → Tx StoreError Int
  | some record => return record.id
  | none => return (← lift (Tx.createNamespace ns)).id

/-- What a write is weighed against: the bytes it replaces, what its namespace holds and may hold,
and the bytes of a name without a record. -/
structure Reckoning where
  replaced : Nat
  usage : Nat
  limit : UInt32
  nameBytes : Nat

def reckon (config : Config) (ns key : String) : Option NamespaceRecord → Tx StoreError Reckoning
  | some record => do
    let replaced := (← lift (Tx.entry record.id key)).elim 0 (·.sizeBytes)
    let usage ← lift (Tx.namespaceUsage record.id)
    return ⟨replaced, usage, record.limit.getD config.limit, 0⟩
  | none => return ⟨0, 0, config.limit, ns.utf8ByteSize⟩

/-- Writes an entry if both budgets allow it. Expired entries are purged first, and an entry of
the same key makes room for the new one. -/
def write (config : Config) (now : Int) (ns key value : String) (ttl : UInt32) :
    Tx StoreError Verdict := do
  let _ ← lift (Tx.purgeExpired now)
  let existing ← lift (Tx.namespace ns)
  let old ← reckon config ns key existing
  let added := key.utf8ByteSize + value.utf8ByteSize
  if old.limit.toNat < old.usage - old.replaced + added then return .namespaceFull
  let total ← lift Tx.globalUsage
  if config.maxSize.toNat < total - old.replaced + added + old.nameBytes then return .storageFull
  let id ← identify ns existing
  lift (Tx.putEntry id key value (Expiry.ofTtl ttl now))
  return .applied

def find (ns key : String) : Tx StoreError Lookup := do
  match ← lift (Tx.namespace ns) with
  | none => return .noNamespace
  | some record =>
    match ← lift (Tx.entry record.id key) with
    | none => return .noKey
    | some entry => return .found record.id entry

def removeKey (ns key : String) : Tx StoreError Unit := do
  match ← lift (Tx.namespace ns) with
  | none => return ()
  | some record =>
    let _ ← lift (Tx.deleteEntry record.id key)
    return ()

def removeNamespace (ns : String) : Tx StoreError Unit := do
  let _ ← lift (Tx.deleteNamespace ns)
  return ()

/-- A name without a record has to fit the global budget. -/
def checkRoom (config : Config) (ns : String) : Option NamespaceRecord → Tx StoreError Unit
  | some _ => return ()
  | none => do
    if config.maxSize.toNat < (← lift Tx.globalUsage) + ns.utf8ByteSize then throw globalFull

/-- Gives a namespace a limit of its own. A name without a record gets one if the global budget
has room for its bytes. -/
def assignLimit (config : Config) (ns : String) (size : UInt32) : Tx StoreError Unit := do
  let existing ← lift (Tx.namespace ns)
  checkRoom config ns existing
  let id ← identify ns existing
  lift (Tx.setNamespaceLimit id size)

def readLimit (config : Config) (ns : String) : Tx StoreError UInt32 := do
  match ← lift (Tx.namespace ns) with
  | none => throw .notExist
  | some record => return record.limit.getD config.limit

def listKeys (now : Int) (ns : String) : Tx StoreError (List String) := do
  match ← lift (Tx.namespace ns) with
  | none => return []
  | some record => lift (Tx.keys record.id now)

variable {α : Type}

/-- Runs a transaction of the store contract on the state's site. -/
def transact (writing : Bool) (scope : Scope) (body : Tx StoreError α) (state : State) :
    Except StoreError α × State :=
  let (result, site) := Handle.transact writing Error.toStoreError scope body state.site
  (result, { state with site := site })

/-- Answers a call with the outcome of one transaction. -/
def plain (writing : Bool) (scope : Scope) (body : Tx StoreError α) (state : State) :
    Answer α × State :=
  let (result, state) := transact writing scope body state
  ({ result := result }, state)

/-- Deletes an entry that a read found expired; a failure is logged only. -/
def discard (scope : Scope) (ns : Int) (key : String) (state : State) :
    List Log.Record × State :=
  let body := Tx.deleteExpiredEntry ns key state.clock.unixSeconds
  let (result, site) := Handle.transact true id scope body state.site
  (match result with
    | .ok _ => []
    | .error cause => [discardFailed cause],
    { state with site := site })

def setValue (config : Config) (scope : Scope) (ns key value : String) (ttl : UInt32)
    (state : State) : Answer Unit × State :=
  let body := write config state.clock.unixSeconds ns key value ttl
  let (result, state) := transact true scope body state
  match result with
  | .error cause => (.error cause, state)
  | .ok .applied =>
    ({ result := .ok (), notices := [.valueChanged scope ns key value] }, state)
  | .ok .namespaceFull =>
    ({ result := .error namespaceFull
       notices := [.storageExceeded scope ns]
       log := [limitReached "namespace storage limit reached" ns] }, state)
  | .ok .storageFull =>
    ({ result := .error globalFull
       notices := [.storageExceeded scope ns]
       log := [limitReached "global storage limit reached" ns] }, state)

def getValue (scope : Scope) (ns key : String) (state : State) : Answer StoredValue × State :=
  let (result, state) := transact false scope (find ns key) state
  match result with
  | .error cause => (.error cause, state)
  | .ok .noNamespace => (.error .notExist, state)
  | .ok .noKey => (.error .unknownKey, state)
  | .ok (.found id entry) =>
    match Expiry.remaining entry.expiresAt state.clock.unixSeconds with
    | some ttl => (.ok ⟨entry.value, ttl⟩, state)
    | none =>
      let (log, state) := discard scope id key state
      ({ result := .error .unknownKey, log := log }, state)

def openStore (config : Config) (state : State) : Answer Unit × State :=
  let (result, log, site) := Handle.open config state.site
  ({ result := result.mapError fun cause => .general cause.message, log := log },
    { state with site := site })

/-- Serves a call whose lengths are fine. Releasing memory cannot fail. -/
def serve (config : Config) : (c : Call) → State → Answer c.Reply × State
  | .openStore, state => openStore config state
  | .setValue scope ns key value ttl, state => setValue config scope ns key value ttl state
  | .getValue scope ns key, state => getValue scope ns key state
  | .deleteKey scope ns key, state => plain true scope (removeKey ns key) state
  | .deleteNamespace scope ns, state => plain true scope (removeNamespace ns) state
  | .setLimit scope ns size, state => plain true scope (assignLimit config ns size) state
  | .getLimit scope ns, state => plain false scope (readLimit config ns) state
  | .getKeys scope ns, state => plain false scope (listKeys state.clock.unixSeconds ns) state
  | .getNamespaces scope, state => plain false scope (lift Tx.namespaces) state
  | .getSizes scope, state =>
    plain false scope (lift (Tx.namespaceSizes state.clock.unixSeconds)) state
  | .flushCache, state => (.ok (), state)

def backend (config : Config) : Backend State where
  call c state :=
    match checkCall config c with
    | .error cause => (.error cause, state)
    | .ok () => serve config c state
  enrol request state :=
    let (enrolled, hub) := state.hub.enrol request
    (enrolled, { state with hub := hub })
  members state := state.hub.members

end Quota

/-- The store as it is put to use: it reopens an unavailable database, and flushing it never
fails. -/
def storeBackend (config : Config) : Backend State :=
  (Quota.backend config).reconnecting.caching

/-- Puts a new store to use on the state's site, its listeners staying. -/
def launch (config : Config) (state : State) : Except Error Unit × List Log.Record × State :=
  let (result, log, site) := Handle.create config state.site
  (result, log, { state with site := site })

end ScopedStore.Device
