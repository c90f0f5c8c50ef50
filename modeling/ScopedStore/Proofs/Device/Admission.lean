import ScopedStore.Proofs.Device.Weights

/-! Which writes and limits the budgets admit, told by the names, keys and values in the tables and
not by the sizes recorded with them. A write is weighed against what is live at its time. A record
that is made for a limit is weighed against all that is stored, expired entries included. -/
namespace ScopedStore.Device

/-- What a write is answered that is judged so. -/
def Verdict.answer (verdict : Verdict) : Except StoreError Unit :=
  verdict.refusal?.elim (.ok ()) .error

theorem Verdict.answer_inj {verdict other : Verdict} (h : verdict.answer = other.answer) :
    verdict = other := by
  revert h
  cases verdict <;> cases other <;> decide

namespace Tx

variable {ε α β : Type} {standing : Standing} {version : Option Int} {t : Tables}

theorem bind_of_error {tx : Tx ε α} {next : α → Tx ε β} {cause : ε} {image : Image}
    (h : tx standing image = .error cause) : (tx >>= next) standing image = .error cause := by
  change (tx standing image >>= fun found => next found.1 standing found.2) = _
  rw [h]
  rfl

theorem query_failed {first : String} {read : Tables → Except Error α} {cause : Error}
    (h : read t = .error cause) :
    Quota.lift (query first read) standing (.ready version t) = .error cause.toStoreError := by
  rw [lift_query, h]

end Tx

namespace Quota

variable {config : Config} {t : Tables} {version : Option Int} {ns key value : String}
  {ttl : UInt32}

/-- Every name has or gets an identifier. -/
theorem identify_ready {found : Option NamespaceRecord}
    (hfound : found.map (·.id) = (t.namespaceRow? ns).map (·.id)) (saw : Bool)
    (version : Option Int) :
    identify ns found ⟨false, saw⟩ (.ready version t) =
      .ok ((t.record ns).id, .ready version (t.house ns)) := by
  have hidentified : ∃ id after,
      identify ns found ⟨false, saw⟩ (.ready version t) = .ok (id, after) := by
    cases found with
    | some record => exact ⟨_, _, rfl⟩
    | none =>
      have hrow : t.namespaceRow? ns = none := Option.map_eq_none_iff.mp hfound.symm
      have hcreate : t.createNamespace ns = .ok (⟨t.lastId + 1, none⟩, t.house ns) := by
        unfold Tables.createNamespace Tables.house Tables.record
        rw [hrow]
        rfl
      have hmake : lift (Tx.createNamespace ns) ⟨false, saw⟩ (.ready version t) =
          .ok (⟨t.lastId + 1, none⟩, .ready version (t.house ns)) := Tx.update_ready hcreate
      exact ⟨_, _, Tx.bind_of_ok hmake⟩
  obtain ⟨id, after, hid⟩ := hidentified
  obtain ⟨rfl, rfl⟩ := identify_eq_ok hfound hid
  exact hid

theorem putEntry_ready {id : Int} (howned : ∃ row ∈ t.namespaces, row.id = id)
    (key value : String) (expiresAt : Option Int) (saw : Bool) (version : Option Int) :
    ∃ after, lift (Tx.putEntry id key value expiresAt) ⟨false, saw⟩ (.ready version t) =
      .ok ((), after) := by
  have hput : ∃ after, t.putItem id key value expiresAt = .ok after :=
    ⟨_, Tables.putItem_eq_ok_iff.mpr ⟨howned, rfl⟩⟩
  obtain ⟨after, hput⟩ := hput
  have hfiled : (t.putItem id key value expiresAt).map (fun after => ((), after)) =
      .ok ((), after) := by
    rw [hput]
    rfl
  exact ⟨_, Tx.update_ready hfiled⟩

/-- A write can always be reckoned with, as no namespace holds more than a sum can tell. -/
theorem reckon_ready (ht : t.Sound config) (hrange : t.bytesOf ns < 2 ^ 63) (key : String)
    {found : Option NamespaceRecord} (hid : found.map (·.id) = (t.namespaceRow? ns).map (·.id))
    (standing : Standing) (version : Option Int) :
    ∃ old, reckon config ns key found standing (.ready version t) =
      .ok (old, .ready version t) := by
  cases found with
  | none => exact ⟨_, rfl⟩
  | some record =>
    obtain ⟨row, hrow, hid⟩ := Option.map_eq_some_iff.mp hid.symm
    have hid : row.id = record.id := hid
    obtain ⟨entry, hentry⟩ := ht.entryRecord? record.id key
    have husage : t.namespaceUsage record.id = .ok (t.bytesOf ns) :=
      hid ▸ ht.namespaceUsage_eq hrow hrange
    have hlook : lift (Tx.entry record.id key) standing (.ready version t) =
        .ok (entry, .ready version t) := Tx.query_ready hentry
    have hsum : lift (Tx.namespaceUsage record.id) standing (.ready version t) =
        .ok (t.bytesOf ns, .ready version t) := Tx.query_ready husage
    refine ⟨⟨entry.elim 0 (·.sizeBytes), t.bytesOf ns, record.limit.getD config.limit, 0⟩, ?_⟩
    unfold reckon
    dsimp only
    rw [Tx.bind_of_ok hlook, Tx.bind_of_ok hsum]
    rfl

/-- A write weighs its entry against what is left after the purge, first by the namespace and then
by the total. It fails only if the total cannot be taken. -/
theorem write_verdict (ht : t.Sound config) (now : Int) (key value : String) (ttl : UInt32)
    (hrange : (t.purged now).bytesOf ns < 2 ^ 63) (saw : Bool) :
    let live := t.purged now
    let verdict := live.verdict config ns key value
    (write config now ns key value ttl ⟨false, saw⟩ (.ready version t)).map Prod.fst =
      if verdict = .namespaceFull then .ok verdict
      else (live.globalUsage.mapError Error.toStoreError).map fun _ => verdict := by
  intro live verdict
  have hlive : live.Sound config := ht.keeping _
  have hpurge : lift (Tx.purgeExpired now) ⟨false, saw⟩ (.ready version t) =
      .ok ((t.purgeExpired now).1, .ready version live) := Tx.update_ready rfl
  obtain ⟨found, hid, hlimit, hlookup⟩ := lookup_ready hlive ns
  obtain ⟨old, hreckon⟩ := reckon_ready hlive hrange key hid ⟨false, saw⟩ version
  obtain ⟨-, hreplaced, husage, hallowed, hname⟩ := reckon_eq_ok hid hlimit hreckon
  rw [hlive.bytesAt_eq] at hreplaced
  rw [hlive.bytesOf_eq] at husage
  have hpart : live.bytesAt ns key ≤ live.bytesOf ns := live.bytesAt_le ns key
  have hwhole : live.bytesOf ns ≤ live.bytes := live.bytesOf_le ns
  have hchange : live.change ns key value =
      key.utf8ByteSize + value.utf8ByteSize - live.bytesAt ns key := rfl
  unfold write
  rw [Tx.bind_of_ok hpurge, Tx.bind_of_ok (hlookup _ _), Tx.bind_of_ok hreckon]
  by_cases hfull : old.limit.toNat <
      old.usage - old.replaced + (key.utf8ByteSize + value.utf8ByteSize)
  · have hverdict : verdict = .namespaceFull := if_pos (by omega)
    rw [if_pos hfull, if_pos hverdict, hverdict]
    rfl
  · have hverdict : verdict ≠ .namespaceFull := by
      unfold verdict Tables.verdict
      rw [if_neg (by omega)]
      split <;> decide
    rw [if_neg hfull, if_neg hverdict]
    -- The total is only taken where the namespace has room, so its overflow cannot show before.
    cases htotal : live.globalUsage with
    | error cause =>
      have hsum : lift Tx.globalUsage ⟨false, saw⟩ (.ready version live) =
          .error cause.toStoreError := Tx.query_failed htotal
      rw [Tx.bind_of_error hsum]
      rfl
    | ok total =>
      obtain ⟨-, rfl⟩ := hlive.globalUsage_eq_ok_iff.mp htotal
      have hsum : lift Tx.globalUsage ⟨false, saw⟩ (.ready version live) =
          .ok (live.bytes, .ready version live) := Tx.query_ready htotal
      obtain ⟨_, hput⟩ := putEntry_ready (t := live.house ns)
        ⟨_, Tables.record_mem_house ns, rfl⟩ key value (Expiry.ofTtl ttl now) saw version
      rw [Tx.bind_of_ok hsum]
      by_cases hover : config.maxSize.toNat <
          live.bytes - old.replaced + (key.utf8ByteSize + value.utf8ByteSize) + old.nameBytes
      · have hstorage : verdict = .storageFull := by
          unfold verdict Tables.verdict
          rw [if_neg (by omega), if_pos (by omega)]
        rw [if_pos hover, hstorage]
        rfl
      · have happlied : verdict = .applied := by
          unfold verdict Tables.verdict
          rw [if_neg (by omega), if_neg (by omega)]
        rw [if_neg hover, happlied, Tx.bind_of_ok (identify_ready hid saw _), Tx.bind_of_ok hput]
        rfl

theorem checkRoom_new (standing : Standing) :
    checkRoom config ns none standing (.ready version t) =
      (t.globalUsage.mapError Error.toStoreError).bind fun total =>
        if config.maxSize.toNat < total + ns.utf8ByteSize then .error globalFull
        else .ok ((), .ready version t) := by
  unfold checkRoom
  dsimp only
  cases htotal : t.globalUsage with
  | error cause =>
    have hsum : lift Tx.globalUsage standing (.ready version t) = .error cause.toStoreError :=
      Tx.query_failed htotal
    rw [Tx.bind_of_error hsum]
    rfl
  | ok total =>
    have hsum : lift Tx.globalUsage standing (.ready version t) =
        .ok (total, .ready version t) := Tx.query_ready htotal
    rw [Tx.bind_of_ok hsum]
    change _ = if config.maxSize.toNat < total + ns.utf8ByteSize then _ else _
    split <;> rfl

/-- A record is made for a limit if its name fits beside all that is stored. -/
theorem assignLimit_new (ht : t.Sound config) (hnew : t.namespaceRow? ns = none) (size : UInt32)
    (saw : Bool) :
    (assignLimit config ns size ⟨false, saw⟩ (.ready version t)).map Prod.fst =
      (t.globalUsage.mapError Error.toStoreError).bind fun total =>
        if config.maxSize.toNat < total + ns.utf8ByteSize then .error globalFull else .ok () := by
  obtain ⟨found, hid, -, hlookup⟩ := lookup_ready ht ns
  have hidentify := identify_ready hid saw version
  obtain rfl := Option.map_eq_none_iff.mp (hnew ▸ hid)
  have hset : lift (Tx.setNamespaceLimit (t.record ns).id size) ⟨false, saw⟩
      (.ready version (t.house ns)) = .ok ((), _) := Tx.update_ready rfl
  have hroom : checkRoom config ns none ⟨false, saw⟩ (.ready version t) = _ := checkRoom_new _
  unfold assignLimit
  rw [Tx.bind_of_ok (hlookup _ _)]
  cases htotal : t.globalUsage.mapError Error.toStoreError with
  | error cause =>
    rw [htotal] at hroom
    rw [Tx.bind_of_error hroom]
    rfl
  | ok total =>
    rw [htotal] at hroom
    change _ = if config.maxSize.toNat < total + ns.utf8ByteSize then _ else _
    split
    next hover =>
      rw [Tx.bind_of_error (hroom.trans (if_pos hover))]
      rfl
    next hfits =>
      rw [Tx.bind_of_ok (hroom.trans (if_neg hfits)), Tx.bind_of_ok hidentify, hset]
      rfl

section State
variable {state : State}

theorem setValue_judged (scope : Scope) :
    (setValue config scope ns key value ttl state).1.result =
      (transact true scope (write config state.clock.unixSeconds ns key value ttl) state).1.bind
        Verdict.answer := by
  unfold setValue
  dsimp only
  cases transact true scope (write config state.clock.unixSeconds ns key value ttl) state with
  | mk result after =>
    cases result with
    | error cause => rfl
    | ok verdict => cases verdict <;> rfl

/-- A write of fitting lengths is answered as it is judged, unless it fits the namespace and the
total cannot be taken. -/
theorem setValue_answer (hs : state.site.Serves t) (ht : t.Sound config)
    (hcheck : checkCall config (.setValue .device ns key value ttl) = .ok ())
    (hrange : (t.purged state.clock.unixSeconds).bytesOf ns < 2 ^ 63) :
    let live := t.purged state.clock.unixSeconds
    let verdict := live.verdict config ns key value
    ((backend config).call (.setValue .device ns key value ttl) state).1.result =
      if verdict = .namespaceFull then .error namespaceFull
      else (live.globalUsage.mapError Error.toStoreError).bind fun _ => verdict.answer := by
  intro live verdict
  rw [call_valid hcheck]
  change (setValue config .device ns key value ttl state).1.result = _
  rw [setValue_judged, transact_ready hs, write_verdict ht _ _ _ _ hrange]
  by_cases hfull : verdict = .namespaceFull
  · rw [if_pos hfull, if_pos hfull]
    change verdict.answer = _
    rw [hfull]
    rfl
  · rw [if_neg hfull, if_neg hfull]
    cases live.globalUsage <;> rfl

/-- A record is made for a limit if its name fits beside all that is stored. -/
theorem setLimit_answer (hs : state.site.Serves t) (ht : t.Sound config)
    (hns : config.ValidName ns) (hnew : t.namespaceRow? ns = none) (size : UInt32) :
    ((backend config).call (.setLimit .device ns size) state).1.result =
      (t.globalUsage.mapError Error.toStoreError).bind fun total =>
        if config.maxSize.toNat < total + ns.utf8ByteSize then .error globalFull else .ok () := by
  have hcheck : checkCall config (.setLimit .device ns size) = .ok () := checkName_eq_ok_iff.mpr hns
  rw [call_valid hcheck]
  change (transact true .device (assignLimit config ns size) state).1 = _
  rw [transact_ready hs]
  exact assignLimit_new ht hnew size _

/-- Where all totals are in range, a write of fitting lengths is answered as it is judged. -/
theorem setValue_judgement (hs : state.site.Serves t) (ht : t.Sound config)
    (hcheck : checkCall config (.setValue .device ns key value ttl) = .ok ())
    (hrange : t.bytes < 2 ^ 63) :
    ((backend config).call (.setValue .device ns key value ttl) state).1.result =
      ((t.purged state.clock.unixSeconds).verdict config ns key value).answer := by
  have hlive : (t.purged state.clock.unixSeconds).Sound config := ht.keeping _
  have hless := t.bytes_purged_le state.clock.unixSeconds
  have hpart := (t.purged state.clock.unixSeconds).bytesOf_le ns
  have htotal := hlive.globalUsage_eq_ok_iff.mpr ⟨by omega, rfl⟩
  rw [setValue_answer hs ht hcheck (by omega), htotal]
  split
  next hfull =>
    rw [hfull]
    rfl
  next => rfl

/-- A call that obeys the length rules finds that the store is down. -/
theorem call_down {c : Call} (h : state.site.IsDown) (hscope : c.scope? = some .device)
    (hcheck : checkCall config c = .ok ()) :
    ∃ reason, ((backend config).call c state).1.result = .error (.unavailable reason) := by
  obtain ⟨reason, hserve⟩ :
      ∃ reason, serve config c state = (.error (.unavailable reason), state) := serve_down h hscope
  refine ⟨reason, ?_⟩
  rw [call_valid hcheck, hserve]
  rfl

theorem toStoreError_ne_full (cause : Error) :
    cause.toStoreError ≠ namespaceFull ∧ cause.toStoreError ≠ globalFull := by
  cases cause <;> exact ⟨nofun, nofun⟩

theorem checkCall_overwrite (ht : t.Sound config) {item : ItemRow}
    (hitem : t.item? ns key = some item)
    (hvalue : value.utf8ByteSize ≤ item.value.utf8ByteSize) (scope : Scope) (ttl : UInt32) :
    checkCall config (.setValue scope ns key value ttl) = .ok () := by
  obtain ⟨-, hns, hkey, hfits⟩ := ht.item?_valid hitem
  exact checkCall_setValue_iff.mpr ⟨hns, hkey, hvalue.trans hfits⟩

/-- A write to a live entry that does not make it longer is refused only for its namespace. -/
theorem overwrite_answer (hs : state.site.Serves t) (ht : t.Sound config) {item : ItemRow}
    (hitem : (t.purged state.clock.unixSeconds).item? ns key = some item)
    (hvalue : value.utf8ByteSize ≤ item.value.utf8ByteSize)
    (hrange : (t.purged state.clock.unixSeconds).bytesOf ns < 2 ^ 63) (ttl : UInt32) :
    let live := t.purged state.clock.unixSeconds
    let result := ((backend config).call (.setValue .device ns key value ttl) state).1.result
    result ≠ .error globalFull ∧
      (result = .error namespaceFull ↔ live.allowance config ns <
        live.bytesOf ns - item.bytes + (key.utf8ByteSize + value.utf8ByteSize)) := by
  intro live result
  have hlive : live.Sound config := ht.keeping _
  have hcheck := checkCall_overwrite hlive hitem hvalue .device ttl
  have hanswer : result = _ := setValue_answer hs ht hcheck hrange
  have hfull : live.verdict config ns key value = .namespaceFull ↔ live.allowance config ns <
      live.bytesOf ns - item.bytes + (key.utf8ByteSize + value.utf8ByteSize) := by
    rw [Tables.verdict_eq_namespaceFull_iff, Tables.change_overwrite hitem]
    omega
  rw [← hfull]
  cases hverdict : live.verdict config ns key value with
  | storageFull => exact absurd hverdict (hlive.verdict_overwrite hitem hvalue)
  | namespaceFull =>
    have hresult : result = .error namespaceFull := by
      rw [hanswer]
      exact if_pos hverdict
    rw [hresult]
    exact ⟨fun he => absurd (Except.error.inj he) (by decide), fun _ => rfl, fun _ => rfl⟩
  | applied =>
    have hresult : result =
        (live.globalUsage.mapError Error.toStoreError).bind fun _ => .ok () := by
      rw [hanswer, if_neg (by rw [hverdict]; decide), hverdict]
      rfl
    rw [hresult]
    cases live.globalUsage with
    | ok total => exact ⟨nofun, nofun, nofun⟩
    | error cause =>
      obtain ⟨hnamespace, hglobal⟩ := toStoreError_ne_full cause
      refine ⟨fun he => hglobal (Except.error.inj he), fun he => ?_, nofun⟩
      exact absurd (Except.error.inj he) hnamespace

end State

end Quota

/-- The tables in the file at the path, empty ones if there is no database. -/
def State.tables (state : State) : Tables := state.site.tables?.getD {}

theorem State.tables_eq {state : State} {t : Tables} (h : state.site.Stores t) :
    state.tables = t := by
  unfold State.tables
  rw [h.tables?]
  rfl

/-- What a namespace holds is in range of a sum, as some limit has allowed it. -/
theorem Reachable.bytesOf_lt {config : Config} {state : State} (h : Reachable config state)
    (now : Int) (ns : String) : (state.tables.purged now).bytesOf ns < 2 ^ 63 := by
  obtain ⟨t, hs, ht⟩ := h.stores
  have hlive : (t.purged now).spent ns = (t.purged now).bytesOf ns :=
    (ht.keeping _).bytesOf_eq ns
  have hless : (t.purged now).spent ns ≤ t.spent ns := ht.spent_keeping_le _ ns
  have hlt := h.usage_lt ns
  rw [State.usage_eq hs] at hlt
  rw [State.tables_eq hs]
  omega

/-- A write to an open store is admitted exactly if its lengths fit, its namespace stays within its
limit and everything within the budget. What is weighed is what is live, less the entry that is
replaced; a name counts once it has a record. The namespace is weighed first. -/
theorem write_admitted_iff {config : Config} {state : State} (h : Reachable config state)
    (hopen : state.site.isOpen = true) (hrange : state.tables.bytes < 2 ^ 63) (clock : Clock)
    (ns key value : String) (ttl : UInt32) :
    let now : State := { state with clock := clock }
    let live := state.tables.purged clock.unixSeconds
    let result := ((Quota.backend config).call (.setValue .device ns key value ttl) now).1.result
    let added : Int := key.utf8ByteSize + value.utf8ByteSize
    let replaced : Int := live.bytesAt ns key
    let lengths := config.ValidName ns ∧ config.ValidName key ∧
      value.utf8ByteSize ≤ config.maxValue.toNat
    let fits := live.bytesOf ns - replaced + added ≤ now.limit config ns
    let room := live.bytes - replaced + added + live.nameCost ns ≤ config.maxSize.toNat
    (result = .ok () ↔ lengths ∧ fits ∧ room) ∧
      (lengths → ¬ fits → result = .error Quota.namespaceFull) ∧
      (lengths → fits → ¬ room → result = .error Quota.globalFull) := by
  intro now live result added replaced lengths fits room
  obtain ⟨t, hs, ht⟩ := h.stores
  have htables : state.tables = t := State.tables_eq hs
  have hserves : now.site.Serves t := hs.serves hopen
  have hlimit : now.limit config ns = live.allowance config ns := by
    unfold live
    rw [htables]
    exact State.limit_eq hserves.toStores ns
  have hchange : live.change ns key value = added - replaced := rfl
  have hjudged (hlengths : lengths) : result = (live.verdict config ns key value).answer := by
    have hcheck : Quota.checkCall config (.setValue .device ns key value ttl) = .ok () :=
      Quota.checkCall_setValue_iff.mpr hlengths
    unfold live
    rw [htables]
    exact Quota.setValue_judgement hserves ht hcheck (htables ▸ hrange)
  have hfits : fits ↔ live.bytesOf ns + live.change ns key value ≤ live.allowance config ns := by
    unfold fits
    rw [hlimit]
    omega
  have hroom : room ↔ live.bytes + live.change ns key value + live.nameCost ns ≤
      config.maxSize.toNat := by
    unfold room
    omega
  refine ⟨⟨fun hok => ?_, fun ⟨hlengths, hadmitted⟩ => ?_⟩, fun hlengths hover => ?_,
    fun hlengths hwithin hover => ?_⟩
  · have hlengths : lengths := Quota.checkCall_setValue_iff.mp (Quota.checkCall_of_ok hok)
    have happlied : live.verdict config ns key value = .applied :=
      Verdict.answer_inj ((hjudged hlengths).symm.trans hok)
    obtain ⟨hwithin, hunder⟩ := Tables.verdict_eq_applied_iff.mp happlied
    exact ⟨hlengths, hfits.mpr hwithin, hroom.mpr hunder⟩
  · have happlied : live.verdict config ns key value = .applied :=
      Tables.verdict_eq_applied_iff.mpr ⟨hfits.mp hadmitted.1, hroom.mp hadmitted.2⟩
    rw [hjudged hlengths, happlied]
    rfl
  · have hfull : live.verdict config ns key value = .namespaceFull :=
      Tables.verdict_eq_namespaceFull_iff.mpr (not_le.mp (mt hfits.mpr hover))
    rw [hjudged hlengths, hfull]
    rfl
  · have hfull : live.verdict config ns key value = .storageFull :=
      Tables.verdict_eq_storageFull_iff.mpr
        ⟨hfits.mp hwithin, not_le.mp (mt hroom.mpr hover)⟩
    rw [hjudged hlengths, hfull]
    rfl

/-- Nine bytes are stored, seven of them expired. An entry that fills limit and budget to the last
byte is taken, and one that is a byte longer is refused. -/
theorem write_admitted_iff_full :
    let config : Config := { path := "a.db", maxSize := 9, limit := 7 }
    let start : State := { clock := .atSecond 50 }
    let moves : List Move := [.call (.setValue .device "ns" "key" "text" 5)]
    let state := Move.runAll config moves (launch config start).2.2
    let now : State := { state with clock := .atSecond 60 }
    Reachable config state ∧ state.site.isOpen = true ∧ state.tables.bytes = 9 ∧
      ((Quota.backend config).call (.setValue .device "ns" "new" "text" 0) now).1.result = .ok () ∧
      ((Quota.backend config).call (.setValue .device "ns" "new" "texts" 0) now).1.result =
        .error Quota.namespaceFull := by
  intro config start moves state now
  have hok : (launch config start).1 = .ok () := by cbv
  have hlaunched : Reachable config (launch config start).2.2 := .launched trivial hok
  have hreach : Reachable config state := hlaunched.runAll moves
  have hsite : state.site = {
      folder := .present
      slot := .file (.ready (some 1)
        ⟨1, [⟨1, "ns", 2, none⟩], [⟨1, "key", "text", 7, some 55⟩]⟩)
      link := some .current } := by
    unfold state moves
    cbv
  clear_value state
  have hopen : state.site.isOpen = true := by
    rw [hsite]
    rfl
  have hbytes : state.tables.bytes = 9 := by
    unfold State.tables
    rw [hsite]
    cbv
  have hrange : state.tables.bytes < 2 ^ 63 := by omega
  have hlive : state.tables.purged (Clock.atSecond 60).unixSeconds =
      ⟨1, [⟨1, "ns", 2, none⟩], []⟩ := by
    unfold State.tables
    rw [hsite]
    cbv
  have hlimit : now.limit config "ns" = 7 := by
    unfold now State.limit
    rw [hsite]
    cbv
  have hfits := (write_admitted_iff hreach hopen hrange (.atSecond 60) "ns" "new" "text" 0).1
  have hover := (write_admitted_iff hreach hopen hrange (.atSecond 60) "ns" "new" "texts" 0).2.1
  rw [hlive, hlimit] at hfits hover
  exact ⟨hreach, hopen, hbytes, hfits.mpr (by decide), hover (by decide) (by decide)⟩

/-- A limit for a name without a record is accepted exactly if the name fits the budget beside all
that is stored. What has expired counts in full until a write purges it. -/
theorem limit_record_admitted_iff {config : Config} {state : State} (h : Reachable config state)
    (hopen : state.site.isOpen = true) (clock : Clock) {ns : String} (hns : config.ValidName ns)
    (hnew : ¬ state.Knows ns) (size : UInt32) :
    let now : State := { state with clock := clock }
    let result := ((Quota.backend config).call (.setLimit .device ns size) now).1.result
    (result = .ok () ↔ state.tables.bytes < 2 ^ 63 ∧
      state.tables.bytes + ns.utf8ByteSize ≤ config.maxSize.toNat) ∧
    (result = .error Quota.globalFull ↔ state.tables.bytes < 2 ^ 63 ∧
      config.maxSize.toNat < state.tables.bytes + ns.utf8ByteSize) := by
  intro now result
  obtain ⟨t, hs, ht⟩ := h.stores
  have hserves : now.site.Serves t := hs.serves hopen
  have hrow : t.namespaceRow? ns = none := by
    cases hrow : t.namespaceRow? ns with
    | none => rfl
    | some row => exact absurd ⟨t, hs.tables?, by rw [hrow]; rfl⟩ hnew
  have hanswer : result = _ := Quota.setLimit_answer hserves ht hns hrow size
  rw [State.tables_eq hs]
  cases htotal : t.globalUsage with
  | error cause =>
    have hrange : ¬ t.bytes < 2 ^ 63 := by
      intro hrange
      have hsum := ht.globalUsage_eq_ok_iff.mpr ⟨hrange, rfl⟩
      rw [htotal] at hsum
      cases hsum
    have hcause : cause.toStoreError ≠ Quota.globalFull := by cases cause <;> exact nofun
    have hresult : result = .error cause.toStoreError := by
      rw [hanswer, htotal]
      rfl
    rw [hresult]
    constructor
    · exact ⟨nofun, fun hroom => absurd hroom.1 hrange⟩
    · exact ⟨fun he => absurd (Except.error.inj he) hcause, fun hfull => absurd hfull.1 hrange⟩
  | ok total =>
    obtain ⟨hrange, rfl⟩ := ht.globalUsage_eq_ok_iff.mp htotal
    have hresult : result = if config.maxSize.toNat < t.bytes + ns.utf8ByteSize then
        .error Quota.globalFull else .ok () := by
      rw [hanswer, htotal]
      rfl
    rw [hresult]
    split
    next hover =>
      constructor
      · exact ⟨nofun, fun hroom => absurd hroom.2 (not_le.mpr hover)⟩
      · exact ⟨fun _ => ⟨hrange, hover⟩, fun _ => rfl⟩
    next hfits =>
      constructor
      · exact ⟨fun _ => ⟨hrange, not_lt.mp hfits⟩, fun _ => rfl⟩
      · exact ⟨nofun, fun hfull => absurd hfull.2 hfits⟩

/-- Seven of nine stored bytes have expired, but count beside the five of a new name. -/
theorem limit_record_admitted_iff_stale :
    let config : Config := { path := "a.db", maxSize := 14 }
    let start : State := { clock := .atSecond 50 }
    let moves : List Move := [.call (.setValue .device "ns" "key" "text" 5)]
    let state := Move.runAll config moves (launch config start).2.2
    let now : State := { state with clock := .atSecond 60 }
    Reachable config state ∧ state.site.isOpen = true ∧ ¬ state.Knows "other" ∧
      ((Quota.backend config).call (.setLimit .device "other" 3) now).1.result = .ok () ∧
      ¬ state.Knows "longer" ∧
      ((Quota.backend config).call (.setLimit .device "longer" 3) now).1.result =
        .error Quota.globalFull := by
  intro config start moves state now
  have hok : (launch config start).1 = .ok () := by cbv
  have hlaunched : Reachable config (launch config start).2.2 := .launched trivial hok
  have hreach : Reachable config state := hlaunched.runAll moves
  have hsite : state.site = {
      folder := .present
      slot := .file (.ready (some 1)
        ⟨1, [⟨1, "ns", 2, none⟩], [⟨1, "key", "text", 7, some 55⟩]⟩)
      link := some .current } := by
    unfold state moves
    cbv
  clear_value state
  have hopen : state.site.isOpen = true := by
    rw [hsite]
    rfl
  have hstored : state.site.tables? =
      some ⟨1, [⟨1, "ns", 2, none⟩], [⟨1, "key", "text", 7, some 55⟩]⟩ := by
    rw [hsite]
    rfl
  have hother : ¬ state.Knows "other" := by
    rintro ⟨t, ht, hrow⟩
    cases hstored.symm.trans ht
    exact absurd hrow (by decide)
  have hlonger : ¬ state.Knows "longer" := by
    rintro ⟨t, ht, hrow⟩
    cases hstored.symm.trans ht
    exact absurd hrow (by decide)
  have hbytes : state.tables.bytes = 9 := by
    unfold State.tables
    rw [hstored]
    cbv
  have hfits := (limit_record_admitted_iff hreach hopen (.atSecond 60)
    (by decide : config.ValidName "other") hother 3).1
  have hover := (limit_record_admitted_iff hreach hopen (.atSecond 60)
    (by decide : config.ValidName "longer") hlonger 3).2
  rw [hbytes] at hfits hover
  exact ⟨hreach, hopen, hother, hfits.mpr (by decide), hlonger, hover.mpr (by decide)⟩

/-- The two live bytes leave room for a new name of five, but the seven expired ones take it. -/
theorem limit_record_refused_for_expired :
    let config : Config := { path := "a.db", maxSize := 13 }
    let start : State := { clock := .atSecond 50 }
    let moves : List Move := [.call (.setValue .device "ns" "key" "text" 5)]
    let state := Move.runAll config moves (launch config start).2.2
    let now : State := { state with clock := .atSecond 60 }
    Reachable config state ∧ state.site.isOpen = true ∧ config.ValidName "other" ∧
      ¬ state.Knows "other" ∧
      (state.tables.purged (Clock.atSecond 60).unixSeconds).bytes + "other".utf8ByteSize ≤
        config.maxSize.toNat ∧
      ((Quota.backend config).call (.setLimit .device "other" 3) now).1.result =
        .error Quota.globalFull := by
  intro config start moves state now
  have hok : (launch config start).1 = .ok () := by cbv
  have hlaunched : Reachable config (launch config start).2.2 := .launched trivial hok
  have hreach : Reachable config state := hlaunched.runAll moves
  have hsite : state.site = {
      folder := .present
      slot := .file (.ready (some 1)
        ⟨1, [⟨1, "ns", 2, none⟩], [⟨1, "key", "text", 7, some 55⟩]⟩)
      link := some .current } := by
    unfold state moves
    cbv
  clear_value state
  refine ⟨hreach, by rw [hsite]; rfl, by decide, ?_, ?_, ?_⟩
  · rintro ⟨t, ht, hrow⟩
    rw [hsite] at ht
    cases ht
    exact absurd hrow (by decide)
  · unfold State.tables
    rw [hsite]
    decide
  · unfold now
    rw [hsite]
    cbv

/-- An entry that is overwritten by nothing longer never exceeds the budget. It exceeds the limit of
its namespace only if the limit was set below what the namespace would be left with. -/
theorem smaller_overwrite_within_budget {config : Config} {state : State}
    (h : Reachable config state) (clock : Clock) {ns key value : String} {item : ItemRow}
    (hlive : (state.tables.purged clock.unixSeconds).item? ns key = some item)
    (hvalue : value.utf8ByteSize ≤ item.value.utf8ByteSize) (ttl : UInt32) :
    let now : State := { state with clock := clock }
    let result := ((Quota.backend config).call (.setValue .device ns key value ttl) now).1.result
    let held := (state.tables.purged clock.unixSeconds).bytesOf ns
    result ≠ .error Quota.globalFull ∧
      (result = .error Quota.namespaceFull ↔ state.site.isOpen = true ∧
        now.limit config ns < held - item.bytes + (key.utf8ByteSize + value.utf8ByteSize)) ∧
      (held ≤ now.limit config ns → result ≠ .error Quota.namespaceFull) := by
  intro now result held
  obtain ⟨t, hs, ht⟩ := h.stores
  have htables : state.tables = t := State.tables_eq hs
  have hpurged : (state.tables.purged clock.unixSeconds).Sound config := by
    rw [htables]
    exact ht.keeping _
  have hlimit : now.limit config ns =
      (state.tables.purged clock.unixSeconds).allowance config ns := by
    rw [htables]
    exact State.limit_eq hs ns
  have hanswer : result ≠ .error Quota.globalFull ∧
      (result = .error Quota.namespaceFull ↔ state.site.isOpen = true ∧
        now.limit config ns < held - item.bytes + (key.utf8ByteSize + value.utf8ByteSize)) := by
    cases hopen : state.site.isOpen with
    | false =>
      -- A closed store says so before it weighs anything, as the lengths are those of an entry.
      have hdown : now.site.IsDown :=
        .inl (Option.isNone_iff_eq_none.mp (Option.isSome_eq_false_iff.mp hopen))
      have hcheck := Quota.checkCall_overwrite hpurged hlive hvalue .device ttl
      obtain ⟨reason, hresult⟩ := Quota.call_down hdown rfl hcheck
      change result = _ at hresult
      rw [hresult]
      exact ⟨nofun, nofun, nofun⟩
    | true =>
      have hserves : now.site.Serves t := hs.serves hopen
      have hrange := h.bytesOf_lt clock.unixSeconds ns
      rw [htables] at hlive hrange
      obtain ⟨hglobal, hnamespace⟩ := Quota.overwrite_answer hserves ht hlive hvalue hrange ttl
      rw [hlimit]
      unfold held
      rw [htables]
      exact ⟨hglobal, hnamespace.trans ⟨fun hover => ⟨rfl, hover⟩, And.right⟩⟩
  have hcharge := Tables.overwrite_le hlive hvalue
  refine ⟨hanswer.1, hanswer.2, fun hwithin he => ?_⟩
  have hover := (hanswer.2.mp he).2
  omega

/-- A namespace filled to its limit takes an overwrite that is no longer. -/
theorem smaller_overwrite_within_budget_at_limit :
    let config : Config := { path := "a.db", maxSize := 9, limit := 7 }
    let start : State := { clock := .atSecond 50 }
    let moves : List Move := [.call (.setValue .device "ns" "key" "text" 0)]
    let state := Move.runAll config moves (launch config start).2.2
    let now : State := { state with clock := .atSecond 60 }
    let result := ((Quota.backend config).call (.setValue .device "ns" "key" "more" 5) now).1.result
    let live := state.tables.purged (Clock.atSecond 60).unixSeconds
    Reachable config state ∧ live.item? "ns" "key" = some ⟨1, "key", "text", 7, none⟩ ∧
      (live.bytesOf "ns" : Int) = now.limit config "ns" ∧
      result ≠ .error Quota.globalFull ∧ result ≠ .error Quota.namespaceFull := by
  intro config start moves state now result live
  have hok : (launch config start).1 = .ok () := by cbv
  have hlaunched : Reachable config (launch config start).2.2 := .launched trivial hok
  have hreach : Reachable config state := hlaunched.runAll moves
  have hstored : state.site.tables? =
      some ⟨1, [⟨1, "ns", 2, none⟩], [⟨1, "key", "text", 7, none⟩]⟩ := by
    unfold state moves
    cbv
  have hlive : live = ⟨1, [⟨1, "ns", 2, none⟩], [⟨1, "key", "text", 7, none⟩]⟩ := by
    unfold live State.tables
    rw [hstored]
    cbv
  have hitem : live.item? "ns" "key" = some ⟨1, "key", "text", 7, none⟩ := by
    rw [hlive]
    decide
  have hlimit : now.limit config "ns" = 7 := by
    unfold now State.limit
    rw [hstored]
    cbv
  have hheld : live.bytesOf "ns" = 7 := by
    rw [hlive]
    decide
  obtain ⟨hglobal, -, hwithin⟩ :=
    smaller_overwrite_within_budget hreach (.atSecond 60) hitem
      (by decide : "more".utf8ByteSize ≤ "text".utf8ByteSize) 5
  have hfull : (live.bytesOf "ns" : Int) = now.limit config "ns" := by
    rw [hheld, hlimit]
    rfl
  exact ⟨hreach, hitem, hfull, hglobal, hwithin hfull.le⟩

/-- A limit of three bytes set on seven: the same value is not accepted again. -/
theorem overwrite_refused_over_limit :
    let config : Config := { path := "a.db" }
    let start : State := { clock := .atSecond 50 }
    let moves : List Move :=
      [.call (.setValue .device "ns" "key" "text" 0), .call (.setLimit .device "ns" 3)]
    let state := Move.runAll config moves (launch config start).2.2
    Reachable config state ∧
      (state.tables.purged (Clock.atSecond 50).unixSeconds).item? "ns" "key" =
        some ⟨1, "key", "text", 7, none⟩ ∧
      ((Quota.backend config).call (.setValue .device "ns" "key" "text" 0) state).1.result =
        .error Quota.namespaceFull := by
  intro config start moves state
  have hok : (launch config start).1 = .ok () := by cbv
  have hlaunched : Reachable config (launch config start).2.2 := .launched trivial hok
  refine ⟨hlaunched.runAll moves, ?_, ?_⟩ <;>
  · unfold state moves
    cbv

end ScopedStore.Device
