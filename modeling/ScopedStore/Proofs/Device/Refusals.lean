import ScopedStore.Proofs.Device.LazyExpiry

/-! What a device store refuses before it looks at its file, and which failures are left to each
call after that. Names, values and the scope are checked first, in whatever condition handle and
files are, and no layer takes such a refusal for a store that is down. -/
namespace ScopedStore

/-- What a call may still fail with once its arguments and its scope are accepted. -/
def Call.MayFail (c : Call) : StoreError → Prop
  | .invalidLength _ => c.operation ∈ ["set_value", "set_namespace_storage_limit"]
  | .unknownKey => c.operation = "get_value"
  | .notExist => c.operation ∈ ["get_value", "get_namespace_storage_limit"]
  | _ => True

namespace Device

theorem Config.isData_of_unfit {config : Config} {c : Call} (h : ¬ config.Fits c) :
    c.isData = true := by
  cases c with
  | openStore | flushCache => exact absurd ⟨nofun, nofun⟩ h
  | _ => rfl

namespace Quota

variable {config : Config} {state : State} {c : Call}

theorem checkLength_eq_error {field text : String} {cause : StoreError}
    (h : checkLength config field text = .error cause) :
    ∃ detail, cause = .invalidLength detail := by
  unfold checkLength at h
  split at h
  · cases h
    exact ⟨_, rfl⟩
  · cases h

theorem checkName_eq_error {field text : String} {cause : StoreError}
    (h : checkName config field text = .error cause) :
    ∃ detail, cause = .invalidLength detail := by
  unfold checkName at h
  split at h
  · cases h
    exact ⟨_, rfl⟩
  · exact checkLength_eq_error h

theorem checkCall_refuses {cause : StoreError} (h : checkCall config c = .error cause) :
    ∃ detail, cause = .invalidLength detail := by
  obtain ⟨field, text, hname | hlength⟩ := checkCall_eq_error h
  · exact checkName_eq_error hname
  · exact checkLength_eq_error hlength

/-- Before the file is looked at, a call is refused for its arguments, in whatever scope, and then
for its scope. Nothing is logged, nobody is told, and the state stays as it is. -/
theorem call_refused (config : Config) (c : Call) (state : State) :
    (¬ config.Fits c → ∃ detail, (backend config).call c state =
      (.error (.invalidLength detail), state)) ∧
    (config.Fits c → c.scope? = some .account → ∃ detail, (backend config).call c state =
      (.error (.general detail), state)) := by
  constructor
  · intro hunfit
    cases hcheck : checkCall config c with
    | ok => exact absurd (checkCall_eq_ok_iff.mp hcheck) hunfit
    | error cause =>
      obtain ⟨detail, rfl⟩ := checkCall_refuses hcheck
      refine ⟨detail, ?_⟩
      unfold backend
      dsimp only
      rw [hcheck]
  · intro hfits hscope
    refine ⟨(Error.foreignScope Scope.account.name).message, ?_⟩
    rw [call_valid (checkCall_eq_ok_iff.mpr hfits), serve_account hscope]
    rfl

theorem mayFail_own (c : Call) (own : Error) : c.MayFail own.toStoreError := by
  cases own <;> trivial

theorem plain_mayFail {α : Type} {writing : Bool} {scope : Scope} {body : Tx StoreError α}
    {cause : StoreError} (hbody : Tx.Confined (fun _ _ => True) c.MayFail body)
    (h : (plain writing scope body state).1.result = .error cause) : c.MayFail cause :=
  transact_failure (mayFail_own c) hbody (Prod.ext h rfl)

/-- A call fails as it may, whatever handle, files and rows are like. -/
theorem serve_mayFail {cause : StoreError} (h : (serve config c state).1.result = .error cause) :
    c.MayFail cause := by
  have hown := mayFail_own c
  have hstatements : Statements (fun _ _ => True) c.MayFail := statements_failure hown
  cases c with
  | openStore =>
    rw [serve, openStore_result] at h
    cases hconnect : (state.site.connect config.journalMode).1 with
    | ok => rw [hconnect] at h; cases h
    | error own => rw [hconnect] at h; cases h; trivial
  | flushCache => cases h
  | setValue scope ns key value ttl =>
    rw [serve, setValue] at h
    dsimp only at h
    cases htx : transact true scope
        (write config state.clock.unixSeconds ns key value ttl) state with
    | mk result after =>
      rw [htx] at h
      cases result with
      | error own =>
        cases h
        exact transact_failure hown (write_confined hstatements _ ns key value ttl) htx
      | ok verdict =>
        cases verdict with
        | applied => cases h
        | namespaceFull | storageFull => cases h; exact List.mem_cons_self
  | getValue scope ns key =>
    rw [serve, getValue] at h
    dsimp only at h
    cases htx : transact false scope (find ns key) state with
    | mk result after =>
      rw [htx] at h
      cases result with
      | error own =>
        cases h
        exact transact_failure hown (find_confined hstatements ns key) htx
      | ok found =>
        cases found with
        | noNamespace => cases h; exact List.mem_cons_self
        | noKey => cases h; rfl
        | found id entry =>
          dsimp only at h
          split at h
          · cases h
          · cases h
            rfl
  | deleteKey scope ns key => exact plain_mayFail (removeKey_confined hstatements ns key) h
  | deleteNamespace scope ns => exact plain_mayFail (removeNamespace_confined hstatements ns) h
  | setLimit scope ns size =>
    have hfull : (Call.setLimit scope ns size).MayFail globalFull :=
      List.mem_cons_of_mem _ List.mem_cons_self
    exact plain_mayFail (assignLimit_confined hstatements hfull ns size) h
  | getLimit scope ns =>
    have hmissing : (Call.getLimit scope ns).MayFail .notExist :=
      List.mem_cons_of_mem _ List.mem_cons_self
    exact plain_mayFail (readLimit_confined hstatements hmissing ns) h
  | getKeys scope ns => exact plain_mayFail (listKeys_confined hstatements _ ns) h
  | getNamespaces scope => exact plain_mayFail hstatements.namespaces h
  | getSizes scope => exact plain_mayFail (hstatements.namespaceSizes _) h

end Quota

/-- A call whose names or value have the wrong length is refused for it in whatever scope, and
another one in the account scope in general. In any condition of handle and files and through any
layers it reaches the store once, nothing is opened, and of files, connection and listeners nothing
changes. What is left in the device scope fails only as each call may. -/
theorem refused_before_database (config : Config) (layers : List Layer) (session : Session State)
    (c : Call) :
    let outer := Layer.stack layers (Quota.backend config)
    let reached := Layer.reaching layers (Quota.backend config) c session.store
    (¬ config.Fits c → reached = [.call c] ∧
      ∃ detail, session.call outer c = (.error (.invalidLength detail), session)) ∧
    (config.Fits c → c.scope? = some .account → reached = [.call c] ∧
      ∃ detail, session.call outer c = (.error (.general detail), session)) ∧
    (config.Fits c → c.scope? = some .device →
      ∀ cause, (session.call outer c).1 = .error cause → c.MayFail cause) := by
  intro outer reached
  obtain ⟨hlengths, hscopes⟩ := Quota.call_refused config c session.store
  have hrefused {cause : StoreError} (hdata : c.isData = true)
      (h : (Quota.backend config).call c session.store = (.error cause, session.store))
      (hup : ∀ reason, cause ≠ .unavailable reason) :
      reached = [.call c] ∧ session.call outer c = (.error cause, session) := by
    have hserved : ∀ reason, ((Quota.backend config).call c session.store).1.result ≠
        .error (.unavailable reason) := by
      intro reason he
      rw [h] at he
      exact hup reason (Except.error.inj he)
    have hcall : outer.call c session.store = (.error cause, session.store) :=
      (Layer.stack_call_of_available layers hdata hserved).trans h
    exact ⟨Layer.reaching_of_available layers hdata hserved, Session.call_of_silent hcall⟩
  refine ⟨fun hunfit => ?_, fun hfits hscope => ?_, fun hfits hscope cause hfail => ?_⟩
  · obtain ⟨detail, hcall⟩ := hlengths hunfit
    obtain ⟨hreached, hsession⟩ := hrefused (Config.isData_of_unfit hunfit) hcall nofun
    exact ⟨hreached, detail, hsession⟩
  · obtain ⟨detail, hcall⟩ := hscopes hfits hscope
    obtain ⟨hreached, hsession⟩ := hrefused (Call.isData_of_scope hscope) hcall nofun
    exact ⟨hreached, detail, hsession⟩
  · refine Layer.stack_call_failure layers (Call.isData_of_scope hscope) (fun _ => trivial)
      (fun state own hown => ?_) session.store cause hfail
    rw [Quota.call_valid (Quota.checkCall_eq_ok_iff.mpr hfits)] at hown
    exact Quota.serve_mayFail hown

/-- Where the folder is blocked, a value that is too long and a call in the account scope leave
everything as it is, also the listener that would write. A limit asked for in a store just opened is
missing. -/
theorem refused_before_database_blocked :
    let config : Config := { path := "a.db", maxValue := 4 }
    let layers : List Layer := [.reconnect, .cache, .shared]
    let outer := Layer.stack layers (Quota.backend config)
    let session : Session State :=
      { store := {
          clock := .atSecond 50
          site := { folder := .blocked }
          hub := { members := ["watcher"] } }
        listeners := [("watcher", { reaction := .write "key" "more" "text" })] }
    let fresh : Session State := { store := { clock := .atSecond 50 } }
    let long : Call := .setValue .device "ns" "key" "value" 0
    let foreign : Call := .setValue .account "ns" "key" "text" 0
    let missing : Call := .getLimit .device "ns"
    ¬ config.Fits long ∧
      (∃ detail, session.call outer long = (.error (.invalidLength detail), session)) ∧
      config.Fits foreign ∧ foreign.scope? = some .account ∧
      Layer.reaching layers (Quota.backend config) foreign session.store = [.call foreign] ∧
      (∃ detail, session.call outer foreign = (.error (.general detail), session)) ∧
      config.Fits missing ∧ missing.scope? = some .device ∧
      (fresh.call outer missing).1 = .error .notExist ∧ missing.MayFail .notExist := by
  intro config layers outer session fresh long foreign missing
  have hlong : ¬ config.Fits long := by decide
  have hforeign : config.Fits foreign := by decide
  have hmissing : config.Fits missing := by decide
  have hfail : (fresh.call outer missing).1 = .error .notExist := by
    unfold outer layers
    cbv
  obtain ⟨hlength, -, -⟩ := refused_before_database config layers session long
  obtain ⟨-, hscope, -⟩ := refused_before_database config layers session foreign
  obtain ⟨-, -, hmayFail⟩ := refused_before_database config layers fresh missing
  obtain ⟨hreached, hgeneral⟩ := hscope hforeign rfl
  exact ⟨hlong, (hlength hlong).2, hforeign, rfl, hreached, hgeneral, hmissing, rfl, hfail,
    hmayFail hmissing rfl _ hfail⟩

end Device

end ScopedStore
