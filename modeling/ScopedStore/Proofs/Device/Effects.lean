import ScopedStore.Proofs.Device.Transactions

/-! Everything a call can do to the stored rows. Each later invariant of the store is a case
analysis over `Effect`; none of them looks into a transaction again. -/
namespace ScopedStore

/-- The calls that change no row when they succeed. -/
def Call.isQuery : Call → Bool
  | .setValue .. | .deleteKey .. | .deleteNamespace .. | .setLimit .. => false
  | _ => true

/-- The names that a call is given. -/
def Call.names : Call → List String
  | .setValue _ ns key _ _ | .getValue _ ns key | .deleteKey _ ns key => [ns, key]
  | .deleteNamespace _ ns | .setLimit _ ns _ | .getLimit _ ns | .getKeys _ ns => [ns]
  | .openStore | .getNamespaces _ | .getSizes _ | .flushCache => []

/-- The value that a call is given. -/
def Call.value? : Call → Option String
  | .setValue _ _ _ value _ => some value
  | _ => none

namespace Device

/-- No name of a call is empty, and nothing in it is too long. -/
def Config.Fits (config : Config) (c : Call) : Prop :=
  (∀ name ∈ c.names, config.ValidName name) ∧
    ∀ value ∈ c.value?, value.utf8ByteSize ≤ config.maxValue.toNat

instance (config : Config) (c : Call) : Decidable (config.Fits c) :=
  inferInstanceAs (Decidable (_ ∧ _))

/-- What a call does to tables, given whether it was accepted. A call that is not accepted may still
clear away items that have expired. -/
inductive Effect (config : Config) (now : Int) (t : Tables) : Call → Bool → Tables → Prop where
  | answered {c : Call} (query : c.isQuery = true) : Effect config now t c true t
  | refused {c : Call} (gone : ItemRow → Bool)
      (expired : ∀ item, gone item = true → item.isExpired now = true) :
      Effect config now t c false (t.keeping fun item => !gone item)
  | stored {ns key value : String} {ttl : UInt32} (hns : config.ValidName ns)
      (hkey : config.ValidName key) (hvalue : value.utf8ByteSize ≤ config.maxValue.toNat)
      (fits : (t.purged now).spent ns - (t.purged now).freed ns key +
        (key.utf8ByteSize + value.utf8ByteSize) ≤ (t.purged now).allowance config ns)
      (room : (t.purged now).nameTotal + (t.purged now).itemTotal - (t.purged now).freed ns key +
        (key.utf8ByteSize + value.utf8ByteSize) + (t.purged now).nameCost ns ≤
          config.maxSize.toNat) :
      Effect config now t (.setValue .device ns key value ttl) true
        ((t.purged now).put ns key value (Expiry.ofTtl ttl now))
  | removed {ns key : String} :
      Effect config now t (.deleteKey .device ns key) true (t.remove ns key)
  | dropped {ns : String} :
      Effect config now t (.deleteNamespace .device ns) true (t.drop ns)
  | assigned {ns : String} {size : UInt32} (hns : config.ValidName ns)
      (room : t.namespaceRow? ns = none →
        t.nameTotal + t.itemTotal + t.nameCost ns ≤ config.maxSize.toNat) :
      Effect config now t (.setLimit .device ns size) true (t.assign ns size)

theorem Slot.content?_of_image? {slot : Slot} {image : Image} (h : slot.image? = some image) :
    slot.content? = some image := by
  cases slot with
  | file other => exact h
  | missing | directory | shadowed => cases h

/-- A log hides what a file holds and leaves it as it is. -/
theorem Slot.content?_under (slot : Slot) (log : Option Tables) :
    (slot.under log).content? = slot.content? := by
  cases slot with
  | missing | directory => rfl
  | file image | shadowed image =>
    unfold under beside
    cases log with
    | none => rfl
    | some rows =>
      dsimp only
      split <;> rfl

theorem Slot.under_eq_missing_iff {slot : Slot} {log : Option Tables} :
    slot.under log = .missing ↔ slot = .missing := by
  cases slot with
  | missing | directory => exact Iff.rfl
  | file image | shadowed image =>
    refine iff_of_false ?_ nofun
    unfold under beside
    cases log with
    | none => exact nofun
    | some rows =>
      dsimp only
      split <;> exact nofun

/-- The same site; only what the connection knows of the tables may differ. -/
def Site.seeing (site : Site) (saw : Bool) : Site := { site with sawTables := saw }

/-- What a call does to a site: either no file changes, or the connected file has tables and the
call has its effect on them. -/
inductive Site.Changed (config : Config) (now : Int) (site : Site) (c : Call) (accepted : Bool) :
    Site → Prop where
  | kept (saw : Bool) (harmless : accepted = true → c.isQuery = true) :
      Changed config now site c accepted (site.seeing saw)
  | written {version : Option Int} {t t' : Tables} (saw : Bool)
      (connected : site.connected? = some (.ready version t))
      (effect : Effect config now t c accepted t') :
      Changed config now site c accepted ((site.seeing saw).writeBack (.ready version t'))

theorem Site.Changed.of_seeing {config : Config} {now : Int} {site site' : Site} {c : Call}
    {accepted saw : Bool} (h : (site.seeing saw).Changed config now c accepted site') :
    site.Changed config now c accepted site' := by
  cases h with
  | kept saw' harmless => exact .kept saw' harmless
  | written saw' connected effect => exact .written saw' connected effect

/-- Writing back what was read changes nothing. -/
theorem Site.writeBack_connected {site : Site} {image : Image} (h : site.connected? = some image) :
    site.writeBack image = site := by
  have hslot {slot : Slot} (hs : slot.image? = some image) : slot = .file image := by
    cases slot with
    | file other => cases hs; rfl
    | missing | directory | shadowed => cases hs
  obtain ⟨folder, slot, aside, link, saw, settled, stray⟩ := site
  match link with
  | none => cases h
  | some .current => cases hslot h; rfl
  | some .aside => cases hslot h; rfl
  | some (.orphan other) =>
    cases h
    simp [writeBack]

theorem Site.look_ready (site : Site) (version : Option Int) (t : Tables) :
    site.look (.ready version t) = site := by
  simp [look, Image.ready, Image.lacksTables]

namespace Handle

variable {ε α : Type} {writing : Bool} {refuse : Error → ε} {scope : Scope} {body : Tx ε α}
  {site site' : Site}

theorem live_eq_ok {image : Image} (h : live site = .ok image) : site.connected? = some image := by
  unfold live at h
  split at h
  · cases h
  · split at h
    · cases h
    · cases hc : site.connected? with
      | none => rw [hc] at h; cases h
      | some held => rw [hc] at h; cases h; rfl

theorem start_live {image : Image} (h : start writing scope site = .ok image) :
    scope = .device ∧ live site = .ok image := by
  cases scope with
  | account => cases h
  | device =>
    unfold start at h
    cases hl : live site with
    | error cause => rw [hl] at h; cases h
    | ok held =>
      rw [hl] at h
      simp only [bind, Except.bind] at h
      split at h
      · cases h
      · cases h
        exact ⟨rfl, rfl⟩

theorem start_eq_ok {image : Image} (h : start writing scope site = .ok image) :
    scope = .device ∧ site.connected? = some image := by
  obtain ⟨hscope, hlive⟩ := start_live h
  exact ⟨hscope, live_eq_ok hlive⟩

/-- A transaction that fails leaves every file as it was; one that succeeds replaces the content of
the connected file by what its body made of it. -/
theorem transact_cases {result : Except ε α}
    (h : transact writing refuse scope body site = (result, site')) :
    ∃ saw, (∃ cause, result = .error cause ∧ site' = site.seeing saw) ∨
      ∃ a image after standing, result = .ok a ∧ scope = .device ∧
        site.connected? = some image ∧ body standing image = .ok (a, after) ∧
        site' = (site.seeing saw).writeBack after := by
  unfold transact at h
  cases hs : start writing scope site with
  | error cause =>
    rw [hs] at h
    cases h
    exact ⟨site.sawTables, .inl ⟨_, rfl, rfl⟩⟩
  | ok image =>
    rw [hs] at h
    dsimp only at h
    obtain ⟨hscope, hconnected⟩ := start_eq_ok hs
    cases hb : body ⟨site.isMoved, site.sawTables⟩ image with
    | error cause =>
      rw [hb] at h
      cases h
      exact ⟨_, .inl ⟨cause, rfl, rfl⟩⟩
    | ok found =>
      rw [hb] at h
      cases h
      exact ⟨_, .inr ⟨found.1, image, found.2, _, rfl, hscope, hconnected, hb, rfl⟩⟩

end Handle

namespace Quota

variable {config : Config} {state state' : State}

theorem checkLength_eq_ok_iff {field text : String} :
    checkLength config field text = .ok () ↔ text.utf8ByteSize ≤ config.maxValue.toNat := by
  unfold checkLength
  split
  next hlong => exact ⟨nofun, fun hfits => absurd hlong (not_lt.mpr hfits)⟩
  next hfits => exact ⟨fun _ => not_lt.mp hfits, fun _ => rfl⟩

theorem checkName_eq_ok_iff {field text : String} :
    checkName config field text = .ok () ↔ config.ValidName text := by
  unfold checkName Config.ValidName
  split
  next hempty =>
    refine ⟨nofun, fun hvalid => ?_⟩
    simp only [String.isEmpty, beq_iff_eq] at hempty
    omega
  next hfilled =>
    simp only [String.isEmpty, beq_iff_eq] at hfilled
    rw [checkLength_eq_ok_iff]
    exact ⟨fun hfits => ⟨Nat.pos_of_ne_zero hfilled, hfits⟩, And.right⟩

/-- The length rules accept a call exactly if each of its arguments fits. -/
theorem checkCall_eq_ok_iff {c : Call} : checkCall config c = .ok () ↔ config.Fits c := by
  have hchain {first : Except StoreError Unit} {next : Unit → Except StoreError Unit} :
      first >>= next = .ok () ↔ first = .ok () ∧ next () = .ok () := by
    cases first with
    | ok => exact (and_iff_right rfl).symm
    | error own => exact ⟨nofun, nofun⟩
  unfold checkCall Config.Fits Call.names Call.value?
  cases c with
  | setValue | getValue | deleteKey | deleteNamespace | setLimit | getLimit | getKeys =>
    simp [hchain, checkName_eq_ok_iff, checkLength_eq_ok_iff, and_assoc]
  | openStore | getNamespaces | getSizes | flushCache => simp

theorem checkCall_setValue_iff {scope : Scope} {ns key value : String} {ttl : UInt32} :
    checkCall config (.setValue scope ns key value ttl) = .ok () ↔
      config.ValidName ns ∧ config.ValidName key ∧
        value.utf8ByteSize ≤ config.maxValue.toNat := by
  rw [checkCall_eq_ok_iff]
  simp [Config.Fits, Call.names, Call.value?, and_assoc]

/-- The state after a call differs from the state before it in the site only. -/
def Served (config : Config) (state : State) (c : Call) (accepted : Bool) (state' : State) : Prop :=
  ∃ site, state' = { state with site := site } ∧
    state.site.Changed config state.clock.unixSeconds c accepted site

theorem Served.kept {c : Call} {accepted : Bool} (saw : Bool)
    (harmless : accepted = true → c.isQuery = true) :
    Served config state c accepted { state with site := state.site.seeing saw } :=
  ⟨_, rfl, .kept saw harmless⟩

theorem Served.unchanged {c : Call} {accepted : Bool}
    (harmless : accepted = true → c.isQuery = true) : Served config state c accepted state :=
  .kept state.site.sawTables harmless

variable {α : Type}

theorem transact_cases {writing : Bool} {scope : Scope} {body : Tx StoreError α}
    {result : Except StoreError α} (h : transact writing scope body state = (result, state')) :
    ∃ saw, (∃ cause, result = .error cause ∧
        state' = { state with site := state.site.seeing saw }) ∨
      ∃ a image after standing, result = .ok a ∧ scope = .device ∧
        state.site.connected? = some image ∧ body standing image = .ok (a, after) ∧
        state' = { state with site := (state.site.seeing saw).writeBack after } := by
  cases ht : Handle.transact writing Error.toStoreError scope body state.site with
  | mk result' site =>
    unfold transact at h
    rw [ht] at h
    cases h
    obtain ⟨saw, ⟨cause, rfl, rfl⟩ | ⟨a, image, after, standing, rfl, hrest⟩⟩ :=
      Handle.transact_cases ht
    · exact ⟨saw, .inl ⟨cause, rfl, rfl⟩⟩
    · obtain ⟨hscope, hconnected, hbody, rfl⟩ := hrest
      exact ⟨saw, .inr ⟨a, image, after, standing, rfl, hscope, hconnected, hbody, rfl⟩⟩

/-- A transaction that only reads leaves the state as it is, up to what the connection knows. -/
theorem transact_unchanged {writing : Bool} {scope : Scope} {body : Tx StoreError α}
    {result : Except StoreError α} (h : transact writing scope body state = (result, state'))
    (hbody : ∀ {standing image a after}, body standing image = .ok (a, after) → after = image) :
    ∃ saw, state' = { state with site := state.site.seeing saw } := by
  obtain ⟨saw, ⟨cause, rfl, rfl⟩ | ⟨a, image, after, standing, rfl, _, hconnected, ha, rfl⟩⟩ :=
    transact_cases h
  · exact ⟨saw, rfl⟩
  · refine ⟨saw, ?_⟩
    have hsame : (state.site.seeing saw).writeBack image = state.site.seeing saw :=
      Site.writeBack_connected hconnected
    rw [hbody ha, hsame]

theorem served_reading {c : Call} {scope : Scope} {body : Tx StoreError α} {answer : Answer α}
    (h : plain false scope body state = (answer, state')) (hc : c.isQuery = true)
    (hbody : ∀ {standing image a after}, body standing image = .ok (a, after) → after = image) :
    Served config state c answer.result.isOk state' := by
  unfold plain at h
  cases ht : transact false scope body state with
  | mk result after =>
    rw [ht] at h
    cases h
    obtain ⟨saw, rfl⟩ := transact_unchanged ht hbody
    exact .kept saw fun _ => hc

theorem served_writing {c : Call} {scope : Scope} {body : Tx StoreError α} {answer : Answer α}
    (h : plain true scope body state = (answer, state'))
    (hbody : ∀ {standing image a after}, scope = .device →
      body standing image = .ok (a, after) → ∃ version t t',
        image = .ready version t ∧ after = .ready version t' ∧
          Effect config state.clock.unixSeconds t c true t') :
    Served config state c answer.result.isOk state' := by
  unfold plain at h
  cases ht : transact true scope body state with
  | mk result after =>
    rw [ht] at h
    cases h
    obtain ⟨saw, ⟨cause, rfl, rfl⟩ | ⟨a, image, after, standing, rfl, hrest⟩⟩ := transact_cases ht
    · exact .kept saw fun hok => by cases hok
    · obtain ⟨hscope, hconnected, ha, rfl⟩ := hrest
      obtain ⟨version, t, t', rfl, rfl, heffect⟩ := hbody hscope ha
      exact ⟨_, rfl, .written saw hconnected heffect⟩

theorem served_setValue {scope : Scope} {ns key value : String} {ttl : UInt32}
    {answer : Answer Unit}
    (hcheck : checkCall config (.setValue scope ns key value ttl) = .ok ())
    (h : setValue config scope ns key value ttl state = (answer, state')) :
    Served config state (.setValue scope ns key value ttl) answer.result.isOk state' := by
  obtain ⟨hns, hkey, hvalue⟩ := checkCall_setValue_iff.mp hcheck
  unfold setValue at h
  dsimp only at h
  cases ht : transact true scope (write config state.clock.unixSeconds ns key value ttl) state with
  | mk result after =>
    rw [ht] at h
    obtain ⟨saw, ⟨cause, rfl, rfl⟩ | ⟨verdict, image, after, standing, rfl, hrest⟩⟩ :=
      transact_cases ht
    · cases h
      exact .kept saw fun hok => by cases hok
    · obtain ⟨rfl, hconnected, hwrite, rfl⟩ := hrest
      obtain ⟨version, t, rfl, ⟨hverdict, rfl⟩ | ⟨rfl, hfits, hroom, rfl⟩⟩ := write_eq_ok hwrite
      · have hpurge : Effect config state.clock.unixSeconds t (.setValue .device ns key value ttl)
            false (t.purged state.clock.unixSeconds) := .refused _ fun _ => id
        cases verdict with
        | applied => exact hverdict.elim
        | namespaceFull | storageFull =>
          cases h
          exact ⟨_, rfl, .written saw hconnected hpurge⟩
      · cases h
        exact ⟨_, rfl, .written saw hconnected (.stored hns hkey hvalue hfits hroom)⟩

theorem served_discard {c : Call} {scope : Scope} {ns : Int} {key : String} {log : List Log.Record}
    (h : discard scope ns key state = (log, state')) : Served config state c false state' := by
  unfold discard at h
  dsimp only at h
  cases ht : Handle.transact true id scope
      (Tx.deleteExpiredEntry ns key state.clock.unixSeconds) state.site with
  | mk result site =>
    rw [ht] at h
    cases h
    obtain ⟨saw, ⟨cause, _, rfl⟩ | ⟨a, image, after, standing, _, _, hconnected, hdelete, rfl⟩⟩ :=
      Handle.transact_cases ht
    · exact .kept saw fun hok => by cases hok
    · obtain ⟨version, t, rfl, rfl⟩ := deleteExpiredEntry_eq_ok hdelete
      refine ⟨_, rfl, .written saw hconnected (.refused _ fun item hgone => ?_)⟩
      exact (of_decide_eq_true hgone).2

theorem served_getValue {scope : Scope} {ns key : String} {answer : Answer StoredValue}
    (h : getValue scope ns key state = (answer, state')) :
    Served config state (.getValue scope ns key) answer.result.isOk state' := by
  unfold getValue at h
  cases ht : transact false scope (find ns key) state with
  | mk result middle =>
    rw [ht] at h
    obtain ⟨saw, rfl⟩ := transact_unchanged ht find_unchanged
    dsimp only at h
    split at h
    · cases h
      exact .kept saw fun _ => rfl
    · cases h
      exact .kept saw fun _ => rfl
    · cases h
      exact .kept saw fun _ => rfl
    · split at h
      · cases h
        exact .kept saw fun _ => rfl
      · cases hd : discard scope _ key { state with site := state.site.seeing saw } with
        | mk log after =>
          rw [hd] at h
          cases h
          obtain ⟨site, rfl, hchanged⟩ := served_discard hd
          exact ⟨site, rfl, hchanged.of_seeing⟩

theorem openStore_result : (openStore config state).1.result =
    (state.site.connect config.journalMode).1.mapError fun cause => .general cause.message := rfl

theorem openStore_state :
    (openStore config state).2 =
      { state with site := (state.site.connect config.journalMode).2 } := rfl

/-- Every call other than opening acts on the site by its effect. -/
theorem call_served {c : Call} {answer : Answer c.Reply} (hc : c ≠ .openStore)
    (h : (backend config).call c state = (answer, state')) :
    Served config state c answer.result.isOk state' := by
  unfold backend at h
  dsimp only at h
  cases hcheck : checkCall config c with
  | error cause =>
    rw [hcheck] at h
    cases h
    exact .unchanged fun hok => by cases hok
  | ok =>
    rw [hcheck] at h
    dsimp only at h
    cases c with
    | openStore => exact absurd rfl hc
    | setValue scope ns key value ttl => exact served_setValue hcheck h
    | getValue scope ns key => exact served_getValue h
    | deleteKey scope ns key =>
      refine served_writing h fun hscope ha => ?_
      obtain ⟨version, t, rfl, rfl⟩ := removeKey_eq_ok ha
      exact ⟨version, t, _, rfl, rfl, hscope ▸ .removed⟩
    | deleteNamespace scope ns =>
      refine served_writing h fun hscope ha => ?_
      obtain ⟨version, t, rfl, rfl⟩ := removeNamespace_eq_ok ha
      exact ⟨version, t, _, rfl, rfl, hscope ▸ .dropped⟩
    | setLimit scope ns size =>
      refine served_writing h fun hscope ha => ?_
      obtain ⟨version, t, rfl, hroom, rfl⟩ := assignLimit_eq_ok ha
      exact ⟨version, t, _, rfl, rfl, hscope ▸ .assigned (checkName_eq_ok_iff.mp hcheck) hroom⟩
    | getLimit scope ns => exact served_reading h rfl readLimit_unchanged
    | getKeys scope ns => exact served_reading h rfl listKeys_unchanged
    | getNamespaces scope => exact served_reading h rfl query_unchanged
    | getSizes scope => exact served_reading h rfl query_unchanged
    | flushCache =>
      cases h
      exact .unchanged fun _ => rfl

/-- A call changes nothing of the state but the site. -/
theorem call_state (config : Config) (c : Call) (state : State) :
    ∃ site, ((backend config).call c state).2 = { state with site := site } := by
  by_cases hc : c = .openStore
  · subst hc
    exact ⟨_, openStore_state⟩
  · obtain ⟨site, hstate, _⟩ := call_served hc (Prod.eta ((backend config).call c state)).symm
    exact ⟨site, hstate⟩

end Quota

end Device

end ScopedStore
