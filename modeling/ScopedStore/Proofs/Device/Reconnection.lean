import ScopedStore.Proofs.Device.Atomicity
import ScopedStore.Proofs.Device.Failures
import ScopedStore.Proofs.Store.Stacks

/-! Calls to a device store whose handle is closed or whose file is missing. The first attempt does
nothing, and the second is a call to a store just opened: it cannot find the file unavailable
again. -/
namespace ScopedStore

/-- The scope that a call for data names. -/
def Call.scope? : Call → Option Scope
  | .setValue scope _ _ _ _ | .getValue scope _ _ | .deleteKey scope _ _ | .deleteNamespace scope _
  | .setLimit scope _ _ | .getLimit scope _ | .getKeys scope _ | .getNamespaces scope
  | .getSizes scope => some scope
  | .openStore | .flushCache => none

theorem Call.isData_of_scope {c : Call} {scope : Scope} (h : c.scope? = some scope) :
    c.isData = true := by
  cases c with
  | openStore | flushCache => cases h
  | _ => rfl

namespace Device

/-- The handle is closed, or nothing stands at the path. -/
def Site.IsDown (site : Site) : Prop := site.link = none ∨ site.slot = .missing

/-- Nothing at all, an empty file, or a database of the current version with its tables, be it that
of a log which hides the file. -/
def Slot.IsReady : Slot → Prop
  | .missing | .shadowed .. => True
  | .directory => False
  | .file image => image = .database .blank ∨ ∃ t, image = .ready (some 1) t

theorem Site.connect_ready {site : Site} (mode : JournalMode) (hfolder : site.folder ≠ .blocked)
    (hslot : site.slot.IsReady) :
    ∃ site' t, site.connect mode = (.ok (), site') ∧ site'.Serves t := by
  obtain ⟨folder, slot, aside, link, saw, settled, stray⟩ := site
  have hconnect : ∃ content t, content.setUp = .ok ⟨some 1, some t⟩ ∧
      Site.connect mode ⟨folder, slot, aside, link, saw, settled, stray⟩ =
        Site.connect.establish mode content
          ⟨.present, slot, aside, link, saw, settled, stray⟩ := by
    cases folder with
    | blocked => exact absurd rfl hfolder
    | absent | present =>
      cases slot with
      | missing => exact ⟨.blank, {}, rfl, rfl⟩
      | directory => exact hslot.elim
      | shadowed image log => exact ⟨⟨some 1, some log⟩, log, rfl, rfl⟩
      | file image =>
        rcases hslot with rfl | ⟨t, rfl⟩
        · exact ⟨.blank, {}, rfl, rfl⟩
        · exact ⟨⟨some 1, some t⟩, t, rfl, rfl⟩
  obtain ⟨content, t, hready, he⟩ := hconnect
  rw [he]
  unfold Site.connect.establish
  rw [hready]
  exact ⟨_, t, rfl, ⟨rfl, rfl, .inr rfl⟩, rfl⟩

/-- A transaction on a site that is down ends before it starts. -/
theorem Handle.transact_down {ε α : Type} {site : Site} (h : site.IsDown) (writing : Bool)
    (refuse : Error → ε) (body : Tx ε α) :
    ∃ reason, transact writing refuse .device body site =
      (.error (refuse (.unavailable reason)), site) := by
  have hlive : ∃ reason, live site = .error (.unavailable reason) := by
    unfold live
    rcases h with hlink | hslot
    · exact ⟨"store is closed", by simp [Site.isOpen, hlink, Error.closed]⟩
    · split
      · exact ⟨"store is closed", rfl⟩
      · exact ⟨"backing file is missing", by simp [Site.fileExists, hslot, Error.fileMissing]⟩
  obtain ⟨reason, hlive⟩ := hlive
  refine ⟨reason, ?_⟩
  unfold transact start
  rw [hlive]
  rfl

namespace Quota

variable {config : Config} {state : State} {c : Call}

theorem transact_down {α : Type} (h : state.site.IsDown) (writing : Bool)
    (body : Tx StoreError α) :
    ∃ reason, transact writing .device body state = (.error (.unavailable reason), state) := by
  obtain ⟨reason, hdown⟩ := Handle.transact_down h writing Error.toStoreError body
  refine ⟨reason, ?_⟩
  unfold transact
  rw [hdown]
  rfl

/-- A call for data begins with a transaction. What that fails with is the answer; what follows its
success does not find the file unavailable. -/
structure Begins {α : Type} (config : Config) (c : Call) (state : State) (writing : Bool)
    (scope : Scope) (body : Tx StoreError α) : Prop where
  failed : ∀ cause after, transact writing scope body state = (.error cause, after) →
    serve config c state = (.error cause, after)
  succeeded : ∀ a after, transact writing scope body state = (.ok a, after) →
    ∀ reason, (serve config c state).1.result ≠ .error (.unavailable reason)
  confined : ∀ {holds allowed}, Statements holds allowed → allowed globalFull →
    allowed .notExist → Tx.Confined holds allowed body

theorem begins_plain {writing : Bool} {scope : Scope} {body : Tx StoreError c.Reply}
    (h : serve config c state = plain writing scope body state)
    (hbody : ∀ {holds allowed}, Statements holds allowed → allowed globalFull →
      allowed .notExist → Tx.Confined holds allowed body) :
    Begins config c state writing scope body := by
  refine ⟨fun cause after htx => ?_, fun a after htx reason => ?_, hbody⟩
  · rw [h, plain, htx]
    rfl
  · rw [h, plain, htx]
    exact fun he => nomatch he

theorem begins_setValue (scope : Scope) (ns key value : String) (ttl : UInt32) :
    Begins config (.setValue scope ns key value ttl) state true scope
      (write config state.clock.unixSeconds ns key value ttl) := by
  refine ⟨fun cause after htx => ?_, fun verdict after htx reason => ?_,
    fun h _ _ => write_confined h _ ns key value ttl⟩
  · simp only [serve, setValue, htx]
  · cases verdict <;> simp [serve, setValue, htx, namespaceFull, globalFull]

theorem begins_getValue (scope : Scope) (ns key : String) :
    Begins config (.getValue scope ns key) state false scope (find ns key) := by
  refine ⟨fun cause after htx => ?_, fun found after htx reason => ?_,
    fun h _ _ => find_confined h ns key⟩
  · simp only [serve, getValue, htx]
  · cases found with
    | noNamespace | noKey => simp [serve, getValue, htx, Answer.error]
    | found id entry =>
      simp only [serve, getValue, htx]
      split <;> simp [Answer.ok]

theorem serve_begins {scope : Scope} (h : c.scope? = some scope) (state : State) :
    ∃ (α : Type) (writing : Bool) (body : Tx StoreError α),
      Begins config c state writing scope body := by
  cases c with
  | openStore | flushCache => cases h
  | setValue _ ns key value ttl => cases h; exact ⟨_, _, _, begins_setValue scope ns key value ttl⟩
  | getValue _ ns key => cases h; exact ⟨_, _, _, begins_getValue scope ns key⟩
  | deleteKey _ ns key =>
    cases h
    exact ⟨_, _, _, begins_plain rfl fun h _ _ => removeKey_confined h ns key⟩
  | deleteNamespace _ ns =>
    cases h
    exact ⟨_, _, _, begins_plain rfl fun h _ _ => removeNamespace_confined h ns⟩
  | setLimit _ ns size =>
    cases h
    exact ⟨_, _, _, begins_plain rfl fun h hfull _ => assignLimit_confined h hfull ns size⟩
  | getLimit _ ns =>
    cases h
    exact ⟨_, _, _, begins_plain rfl fun h _ hmissing => readLimit_confined h hmissing ns⟩
  | getKeys _ ns => cases h; exact ⟨_, _, _, begins_plain rfl fun h _ _ => listKeys_confined h _ ns⟩
  | getNamespaces _ => cases h; exact ⟨_, _, _, begins_plain rfl fun h _ _ => h.namespaces⟩
  | getSizes _ => cases h; exact ⟨_, _, _, begins_plain rfl fun h _ _ => h.namespaceSizes _⟩

/-- The first attempt changes nothing and sends no notice. -/
theorem serve_down (h : state.site.IsDown) (hscope : c.scope? = some .device) :
    ∃ reason, serve config c state = (.error (.unavailable reason), state) := by
  obtain ⟨α, writing, body, hbegins⟩ := serve_begins hscope state
  obtain ⟨reason, hdown⟩ := transact_down h writing body
  exact ⟨reason, hbegins.failed _ _ hdown⟩

/-- The second attempt finds a store in use, whatever its rows. -/
theorem serve_up {t : Tables} (hs : state.site.Serves t) (hscope : c.scope? = some .device)
    (reason : String) : (serve config c state).1.result ≠ .error (.unavailable reason) := by
  obtain ⟨α, writing, body, hbegins⟩ := serve_begins hscope state
  cases htx : transact writing .device body state with
  | mk result after =>
    cases result with
    | ok a => exact hbegins.succeeded a after htx reason
    | error cause =>
      rw [hbegins.failed cause after htx]
      have hresult := transact_ready hs writing body
      have hconfined := hbegins.confined statements_inUse (fun _ he => nomatch he)
        (fun _ he => nomatch he) ⟨false, state.site.sawTables⟩ (.ready (some 1) t) ⟨rfl, _, t, rfl⟩
      rw [htx] at hresult
      cases hbody : body ⟨false, state.site.sawTables⟩ (.ready (some 1) t) with
      | ok found => rw [hbody] at hresult; cases hresult
      | error raised =>
        rw [hbody] at hresult
        cases hresult
        intro he
        exact hconfined.2 cause hbody reason (Except.error.inj he)

theorem call_openStore (config : Config) (state : State) :
    ((backend config).call .openStore state).1.result =
        (state.site.connect config.journalMode).1.mapError
          (fun cause => .general cause.message) ∧
      ((backend config).call .openStore state).1.notices = [] ∧
      ((backend config).call .openStore state).2 =
        { state with site := (state.site.connect config.journalMode).2 } :=
  ⟨openStore_result, rfl, openStore_state⟩

/-- Where opening succeeds, the call is made once more, on the store just opened. -/
theorem reconnecting_opened {site : Site} {t : Tables} (hdown : state.site.IsDown)
    (hscope : c.scope? = some .device) (hvalid : checkCall config c = .ok ())
    (hconnect : state.site.connect config.journalMode = (.ok (), site)) (hs : site.Serves t) :
    ((backend config).reconnecting.call c state).1.result =
        ((backend config).call c { state with site := site }).1.result ∧
      ((backend config).reconnecting.call c state).1.notices =
        ((backend config).call c { state with site := site }).1.notices ∧
      ((backend config).reconnecting.call c state).2 =
        ((backend config).call c { state with site := site }).2 := by
  obtain ⟨down, hfirst⟩ := serve_down hdown hscope
  rw [← call_valid hvalid] at hfirst
  obtain ⟨hready, hsilent, hafter⟩ := call_openStore config state
  rw [hconnect] at hready hafter
  have hopening : (backend config).call .openStore state =
      (((backend config).call .openStore state).1, { state with site := site }) :=
    Prod.ext rfl hafter
  have hup : ∀ reason, ((backend config).call c { state with site := site }).1.result ≠
      .error (.unavailable reason) := by
    rw [call_valid hvalid]
    have hsite : ({ state with site := site } : State).site.Serves t := hs
    exact serve_up hsite hscope
  rw [Backend.reconnecting_call (Call.isData_of_scope hscope)]
  obtain ⟨hresult, hnotices, hstate⟩ :=
    Reconnect.call_of_retried hfirst rfl hopening hready rfl
  refine ⟨hresult.trans (Reconnect.settled_of_available hup), hnotices.trans ?_, hstate⟩
  rw [hsilent]
  rfl

/-- Where opening fails, nothing has happened. -/
theorem reconnecting_unopened {site : Site} {cause : Error} (hdown : state.site.IsDown)
    (hscope : c.scope? = some .device) (hvalid : checkCall config c = .ok ())
    (hconnect : state.site.connect config.journalMode = (.error cause, site)) :
    (∃ detail, ((backend config).reconnecting.call c state).1.result = .error (.general detail)) ∧
      ((backend config).reconnecting.call c state).1.notices = [] ∧
      ((backend config).reconnecting.call c state).2 = { state with site := site } := by
  obtain ⟨down, hfirst⟩ := serve_down hdown hscope
  rw [← call_valid hvalid] at hfirst
  obtain ⟨hfailed, hsilent, hafter⟩ := call_openStore config state
  rw [hconnect] at hfailed hafter
  have hopening : (backend config).call .openStore state =
      (((backend config).call .openStore state).1, { state with site := site }) :=
    Prod.ext rfl hafter
  rw [Backend.reconnecting_call (Call.isData_of_scope hscope)]
  obtain ⟨hresult, hnotices, hstate⟩ :=
    Reconnect.call_of_unopened hfirst rfl hopening hfailed
  refine ⟨⟨_, hresult⟩, hnotices.trans ?_, hstate⟩
  rw [hsilent]
  rfl

end Quota

/-- A store that is launched is a store that is opened. -/
theorem launch_opened {config : Config} {state : State} (h : (launch config state).1 = .ok ()) :
    (launch config state).2.2 = ((Quota.backend config).call .openStore state).2 := by
  rw [launch_result] at h
  rw [launch_state, (Quota.call_openStore config state).2.2]
  cases hv : Handle.validate config state.site with
  | error cause =>
    unfold Handle.create at h
    rw [hv] at h
    cases h
  | ok => rw [Handle.create_site hv]

/-- A call to a store that is down does what the same call does to a store freshly opened on the
path, once, with the same result, the same notices and the same rows, and leaves the handle open.
Where the store cannot be opened, the call fails and files, connection and listeners see nothing of
it. -/
theorem reconnect_transparent {config : Config} {session : Session State} {c : Call}
    (hrecords : session.OnlyRecords) (hdown : session.store.site.IsDown)
    (hscope : c.scope? = some .device) (hvalid : Quota.checkCall config c = .ok ()) :
    let opened := (Quota.backend config).call .openStore session.store
    let fresh : Session State := { session with store := opened.2 }
    let served := session.call (Quota.backend config).reconnecting c
    let direct := fresh.call (Quota.backend config) c
    (session.store.site.folder ≠ .blocked → session.store.site.slot.IsReady →
      opened.1.result = .ok () ∧
      ((launch config session.store).1 = .ok () → (launch config session.store).2.2 = fresh.store) ∧
      served.1 = direct.1 ∧ served.2.events = direct.2.events ∧
      served.2.store = direct.2.store ∧ served.2.store.site.isOpen = true) ∧
    (∀ cause, opened.1.result = .error cause →
      (∃ detail, served.1 = .error (.general detail)) ∧ served.2.events = session.events ∧
      served.2.store.site.slot = session.store.site.slot ∧
      served.2.store.site.aside = session.store.site.aside ∧
      served.2.store.site.link = session.store.site.link) := by
  intro opened fresh served direct
  have hfresh : fresh.OnlyRecords := hrecords
  obtain ⟨hresult, _, hstate⟩ := Quota.call_openStore config session.store
  have hserved : served = _ := Session.call_recording hrecords c
  have hdirect : direct = _ := Session.call_recording hfresh c
  refine ⟨fun hfolder hslot => ?_, fun cause hfail => ?_⟩
  · obtain ⟨site, t, hconnect, hs⟩ := Site.connect_ready config.journalMode hfolder hslot
    obtain ⟨hsame, hnotices, hstore⟩ :=
      Quota.reconnecting_opened hdown hscope hvalid hconnect hs
    rw [hconnect] at hresult hstate
    have hopened : fresh.store = { session.store with site := site } := hstate
    rw [hopened] at hdirect
    have hstores : fresh.store.site.Stores t := by
      rw [hopened]
      exact hs.toStores
    obtain ⟨_, _, hlink, _⟩ := Quota.call_stores config hstores c
    rw [hopened] at hlink
    refine ⟨hresult, launch_opened, ?_, ?_, ?_, ?_⟩
    · rw [hserved, hdirect]
      exact hsame
    · rw [hserved, hdirect]
      dsimp only
      unfold Session.reports
      rw [hnotices, hstore]
      rfl
    · rw [hserved, hdirect]
      exact hstore
    · rw [hserved]
      dsimp only
      rw [hstore, Site.isOpen, hlink hs.connected]
      rfl
  · cases hconnect : session.store.site.connect config.journalMode with
    | mk result site =>
      rw [hconnect] at hresult
      cases result with
      | ok => cases hfail.symm.trans hresult
      | error own =>
        obtain ⟨hgeneral, hsilent, hstore⟩ :=
          Quota.reconnecting_unopened hdown hscope hvalid hconnect
        obtain ⟨folder, rfl⟩ := Site.connect_eq_error hconnect
        rw [hserved]
        dsimp only
        rw [hstore]
        refine ⟨hgeneral, ?_, rfl, rfl, rfl⟩
        unfold Session.reports
        rw [hsilent]
        exact List.append_nil _

/-- A closed handle, a file with one entry, and a read of that entry. -/
theorem reconnect_transparent_closed :
    let config : Config := { path := "a.db" }
    let entry : ItemRow := ⟨1, "key", "text", 7, none⟩
    let session : Session State := { store := {
      clock := .atSecond 50
      site := {
        folder := .present
        slot := .file (.ready (some 1) ⟨1, [⟨1, "ns", 2, none⟩], [entry]⟩) } } }
    let c : Call := .getValue .device "ns" "key"
    let served := session.call (Quota.backend config).reconnecting c
    session.OnlyRecords ∧ session.store.site.IsDown ∧ c.scope? = some .device ∧
      Quota.checkCall config c = .ok () ∧ session.store.site.folder ≠ .blocked ∧
      session.store.site.slot.IsReady ∧ served.1 = .ok ⟨"text", 0⟩ ∧
      served.2.store.site.isOpen = true := by
  intro config entry session c served
  have hrecords : session.OnlyRecords := fun _ => rfl
  have hdown : session.store.site.IsDown := .inl rfl
  have hscope : c.scope? = some .device := rfl
  have hvalid : Quota.checkCall config c = .ok () := by cbv
  have hfolder : session.store.site.folder ≠ .blocked := by decide
  have hready : session.store.site.slot.IsReady := .inr ⟨_, rfl⟩
  have hserved : served.1 = .ok ⟨"text", 0⟩ := by
    unfold served
    cbv
  obtain ⟨hopened, _⟩ := reconnect_transparent hrecords hdown hscope hvalid
  obtain ⟨_, _, _, _, _, hopen⟩ := hopened hfolder hready
  exact ⟨hrecords, hdown, hscope, hvalid, hfolder, hready, hserved, hopen⟩

end Device

end ScopedStore
