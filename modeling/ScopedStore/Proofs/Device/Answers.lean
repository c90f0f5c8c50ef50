import ScopedStore.Proofs.Device.Reachable

/-! What a store in use answers. On a connection to the file at the path and on sound tables no
statement fails for its own reasons, so reads answer by what is stored and deletions succeed. -/
namespace ScopedStore.Device

/-- The site of a store in use that holds a connection. -/
structure Site.Serves (site : Site) (t : Tables) : Prop extends site.Stores t where
  connected : site.link = some .current

theorem Site.current_of_open {site : Site} (h : site.link = none ∨ site.link = some .current)
    (hopen : site.isOpen = true) : site.link = some .current := by
  apply h.resolve_left
  intro hnone
  rw [Site.isOpen, hnone] at hopen
  cases hopen

theorem Site.Stores.serves {site : Site} {t : Tables} (h : site.Stores t)
    (hopen : site.isOpen = true) : site.Serves t :=
  ⟨h, Site.current_of_open h.link hopen⟩

namespace Tx

variable {ε α β : Type} {standing : Standing} {version : Option Int} {t t' : Tables}

theorem bind_of_ok {tx : Tx ε α} {next : α → Tx ε β} {a : α} {image middle : Image}
    (h : tx standing image = .ok (a, middle)) :
    (tx >>= next) standing image = next a standing middle := by
  change (tx standing image >>= fun found => next found.1 standing found.2) = _
  rw [h]
  rfl

theorem lift_of_ok {tx : Tx Error α} {a : α} {image after : Image}
    (h : tx standing image = .ok (a, after)) :
    Quota.lift tx standing image = .ok (a, after) := by
  unfold Quota.lift mapError
  rw [h]
  rfl

theorem tables_ready (first : String) :
    tables first standing (.ready version t) = .ok (t, .ready version t) := rfl

/-- A query reads the tables and leaves them as they are. -/
theorem lift_query (first : String) (read : Tables → Except Error α) :
    Quota.lift (query first read) standing (.ready version t) =
      match read t with
      | .ok a => .ok (a, .ready version t)
      | .error cause => .error cause.toStoreError := by
  unfold Quota.lift mapError query
  rw [bind_of_ok (tables_ready first)]
  cases read t <;> rfl

theorem query_ready {first : String} {read : Tables → Except Error α} {a : α}
    (h : read t = .ok a) :
    Quota.lift (query first read) standing (.ready version t) = .ok (a, .ready version t) := by
  rw [lift_query, h]

/-- A connection to a file that was moved away may still write what is already there. -/
theorem store_permitted {rewrites : Bool}
    (h : standing.isMoved = true → t' = t ∧ rewrites = false) :
    store rewrites t t' standing (.ready version t) = .ok ((), .ready version t') := by
  obtain ⟨moved, saw⟩ := standing
  unfold store
  split
  next he =>
    obtain ⟨rfl, -⟩ := he
    rfl
  next hne =>
    cases moved with
    | true =>
      obtain ⟨rfl, rfl⟩ := h rfl
      exact absurd ⟨rfl, rfl⟩ hne
    | false => rfl

theorem update_permitted {first : String} {change : Tables → Except Error (α × Tables)}
    {rewrites : Bool} {a : α} (hmoved : standing.isMoved = true → t' = t ∧ rewrites = false)
    (h : change t = .ok (a, t')) :
    Quota.lift (update first change rewrites) standing (.ready version t) =
      .ok (a, .ready version t') := by
  refine lift_of_ok ?_
  unfold update
  rw [bind_of_ok (tables_ready first), h]
  exact bind_of_ok (store_permitted hmoved)

/-- A connection to the file at the path may change it. -/
theorem store_ready {rewrites saw : Bool} :
    store rewrites t t' ⟨false, saw⟩ (.ready version t) = .ok ((), .ready version t') :=
  store_permitted nofun

theorem update_ready {first : String} {change : Tables → Except Error (α × Tables)}
    {rewrites : Bool} {a : α} {saw : Bool} (h : change t = .ok (a, t')) :
    Quota.lift (update first change rewrites) ⟨false, saw⟩ (.ready version t) =
      .ok (a, .ready version t') :=
  update_permitted nofun h

end Tx

namespace Tables

variable {config : Config} {t : Tables}

/-- The record of a name can always be read from sound tables, since its limit is in range. -/
theorem Sound.namespaceRecord? (h : t.Sound config) (name : String) :
    ∃ found, t.namespaceRecord? name = .ok found := by
  unfold Tables.namespaceRecord?
  cases hr : t.namespaceRow? name with
  | none => exact ⟨none, rfl⟩
  | some row =>
    dsimp only
    cases hl : row.limit with
    | none => exact ⟨_, rfl⟩
    | some number =>
      have hrange := h.limits_fit row (namespaceRow?_eq_some hr).1 number hl
      dsimp only
      unfold storedLimit
      rw [if_pos hrange]
      exact ⟨_, rfl⟩

theorem Sound.entryRecord? (h : t.Sound config) (id : Int) (key : String) :
    ∃ entry, t.entryRecord? id key = .ok entry := by
  unfold Tables.entryRecord?
  cases hr : t.itemRow? id key with
  | none => exact ⟨none, rfl⟩
  | some row =>
    have hsize := h.sizeBytes_nonneg (itemRow?_eq_some hr).1
    dsimp only
    unfold storedBytes
    rw [if_neg (not_lt.mpr hsize)]
    exact ⟨_, rfl⟩

end Tables

/-- What a look at an entry finds in tables. -/
def Lookup.Tells (t : Tables) (ns key : String) : Lookup → Prop
  | .noNamespace => t.limit? ns = none
  | .noKey => (t.limit? ns).isSome ∧ t.item? ns key = none
  | .found _ entry =>
    ∃ item, t.item? ns key = some item ∧ entry.value = item.value ∧
      entry.expiresAt = item.expiresAt

namespace Handle

variable {ε α : Type} {writing : Bool} {refuse : Error → ε} {body : Tx ε α} {site : Site}
  {image : Image}

theorem live_current (hslot : site.slot = .file image) (hlink : site.link = some .current) :
    live site = .ok image := by
  simp [live, Site.isOpen, Site.fileExists, Site.connected?, hslot, hlink, Slot.image?]

theorem start_of_live (h : live site = .ok image) (hdatabase : image ≠ .foreign) :
    start writing .device site = .ok image := by
  unfold start
  rw [h]
  simp [bind, Except.bind, hdatabase]

/-- On a database that can be read a transaction is its body. -/
theorem transact_of_live (h : live site = .ok image) (hdatabase : image ≠ .foreign) :
    (transact writing refuse .device body site).1 =
      (body ⟨site.isMoved, site.sawTables⟩ image).map Prod.fst := by
  unfold transact
  rw [start_of_live h hdatabase]
  dsimp only
  cases body ⟨site.isMoved, site.sawTables⟩ image <;> rfl

end Handle

namespace Quota

variable {config : Config} {t : Tables}

/-- A lookup of a namespace on sound tables tells whether it is there, and its limit. -/
theorem lookup_ready (ht : t.Sound config) (ns : String) :
    ∃ found, found.map (·.id) = (t.namespaceRow? ns).map (·.id) ∧
      found.map (fun record => record.limit.map fun limit => (limit.toNat : Int)) = t.limit? ns ∧
      ∀ standing version, lift (Tx.namespace ns) standing (.ready version t) =
        .ok (found, .ready version t) := by
  obtain ⟨found, hfound⟩ := ht.namespaceRecord? ns
  obtain ⟨hid, hlimit⟩ := Tables.namespaceRecord?_eq_ok hfound
  exact ⟨found, hid, hlimit, fun _ _ => Tx.query_ready hfound⟩

theorem removeKey_ready (ht : t.Sound config) (ns key : String) (saw : Bool)
    (version : Option Int) :
    ∃ after, removeKey ns key ⟨false, saw⟩ (.ready version t) = .ok ((), after) := by
  obtain ⟨found, _, _, hlookup⟩ := lookup_ready ht ns
  unfold removeKey
  rw [Tx.bind_of_ok (hlookup _ _)]
  cases found with
  | none => exact ⟨_, rfl⟩
  | some record =>
    have hdelete : lift (Tx.deleteEntry record.id key) ⟨false, saw⟩ (.ready version t) =
        .ok (_, .ready version (t.deleteItem record.id key).2) := Tx.update_ready rfl
    dsimp only
    rw [Tx.bind_of_ok hdelete]
    exact ⟨_, rfl⟩

theorem removeNamespace_ready (t : Tables) (ns : String) (saw : Bool) (version : Option Int) :
    ∃ after, removeNamespace ns ⟨false, saw⟩ (.ready version t) = .ok ((), after) := by
  have hdelete : lift (Tx.deleteNamespace ns) ⟨false, saw⟩ (.ready version t) =
      .ok (_, .ready version (t.drop ns)) := Tx.update_ready rfl
  unfold removeNamespace
  rw [Tx.bind_of_ok hdelete]
  exact ⟨_, rfl⟩

theorem find_ready (ht : t.Sound config) (ns key : String) :
    ∃ found, found.Tells t ns key ∧ ∀ standing version,
      find ns key standing (.ready version t) = .ok (found, .ready version t) := by
  obtain ⟨found, hid, hlimit, hlookup⟩ := lookup_ready ht ns
  cases found with
  | none =>
    refine ⟨.noNamespace, hlimit.symm, fun standing version => ?_⟩
    unfold find
    rw [Tx.bind_of_ok (hlookup _ _)]
    rfl
  | some record =>
    obtain ⟨row, hr, hid⟩ := Option.map_eq_some_iff.mp hid.symm
    obtain ⟨entry, hentry⟩ := ht.entryRecord? record.id key
    obtain ⟨_, hcontent⟩ := Tables.entryRecord?_eq_ok hentry
    have hitem : t.item? ns key = t.itemRow? record.id key := by
      unfold Tables.item?
      rw [hr, Option.bind_some, hid]
    have hfind (standing : Standing) (version : Option Int) :
        find ns key standing (.ready version t) =
          .ok (entry.elim .noKey (.found record.id), .ready version t) := by
      have hlook : lift (Tx.entry record.id key) standing (.ready version t) =
          .ok (entry, .ready version t) := Tx.query_ready hentry
      unfold find
      rw [Tx.bind_of_ok (hlookup _ _)]
      dsimp only
      rw [Tx.bind_of_ok hlook]
      cases entry <;> rfl
    refine ⟨_, ?_, hfind⟩
    rw [← hitem] at hcontent
    cases entry with
    | none =>
      refine ⟨by rw [← hlimit]; rfl, ?_⟩
      exact Option.map_eq_none_iff.mp hcontent.symm
    | some entry =>
      obtain ⟨item, hitem, he⟩ := Option.map_eq_some_iff.mp hcontent.symm
      obtain ⟨hvalue, hexpires⟩ := Prod.mk_inj.mp he
      exact ⟨item, hitem, hvalue.symm, hexpires.symm⟩

theorem readLimit_ready (ht : t.Sound config) (ns : String) (standing : Standing)
    (version : Option Int) :
    t.limit? ns = none ∧
        readLimit config ns standing (.ready version t) = .error .notExist ∨
      ∃ limit : Option UInt32, t.limit? ns = some (limit.map fun size => (size.toNat : Int)) ∧
        readLimit config ns standing (.ready version t) =
          .ok (limit.getD config.limit, .ready version t) := by
  obtain ⟨found, _, hlimit, hlookup⟩ := lookup_ready ht ns
  unfold readLimit
  rw [Tx.bind_of_ok (hlookup _ _)]
  cases found with
  | none => exact .inl ⟨hlimit.symm, rfl⟩
  | some record => exact .inr ⟨record.limit, hlimit.symm, rfl⟩

theorem checkNames_valid_iff {ns key : String} :
    (do checkName config "namespace" ns; checkName config "key" key) = .ok () ↔
      config.ValidName ns ∧ config.ValidName key := by
  have hread : checkCall config (.getValue .device ns key) = .ok () ↔ _ := checkCall_eq_ok_iff
  exact hread.trans (by simp [Config.Fits, Call.names, Call.value?])

section State
variable {state : State} {α : Type}

/-- On a store in use a transaction is its body. -/
theorem transact_ready (hs : state.site.Serves t) (writing : Bool) (body : Tx StoreError α) :
    (transact writing .device body state).1 =
      (body ⟨false, state.site.sawTables⟩ (.ready (some 1) t)).map Prod.fst := by
  obtain ⟨⟨_, hslot, _⟩, hlink⟩ := hs
  have hlive : Handle.live state.site = .ok (.ready (some 1) t) := Handle.live_current hslot hlink
  have hmoved : state.site.isMoved = false := by simp [Site.isMoved, hlink]
  unfold transact
  dsimp only
  rw [Handle.transact_of_live hlive (by simp [Image.ready]), hmoved]

theorem call_valid {c : Call} (h : checkCall config c = .ok ()) :
    (backend config).call c state = serve config c state := by
  unfold backend
  dsimp only
  rw [h]

theorem deleteKey_accepted (hs : state.site.Serves t) (ht : t.Sound config) {ns key : String}
    (hns : config.ValidName ns) (hkey : config.ValidName key) :
    ((backend config).call (.deleteKey .device ns key) state).1.result = .ok () := by
  have hcheck : checkCall config (.deleteKey .device ns key) = .ok () :=
    checkNames_valid_iff.mpr ⟨hns, hkey⟩
  obtain ⟨after, hbody⟩ := removeKey_ready ht ns key state.site.sawTables (some 1)
  rw [call_valid hcheck]
  change (transact true .device (removeKey ns key) state).1 = _
  rw [transact_ready hs, hbody]
  rfl

theorem deleteNamespace_accepted (hs : state.site.Serves t) {ns : String}
    (hns : config.ValidName ns) :
    ((backend config).call (.deleteNamespace .device ns) state).1.result = .ok () := by
  have hcheck : checkCall config (.deleteNamespace .device ns) = .ok () :=
    checkName_eq_ok_iff.mpr hns
  obtain ⟨after, hbody⟩ := removeNamespace_ready t ns state.site.sawTables (some 1)
  rw [call_valid hcheck]
  change (transact true .device (removeNamespace ns) state).1 = _
  rw [transact_ready hs, hbody]
  rfl

/-- A read tells the value and the lifetime left, or whether the key or the namespace is missing. -/
theorem getValue_answer (hs : state.site.Serves t) (ht : t.Sound config) {ns key : String}
    (hns : config.ValidName ns) (hkey : config.ValidName key) :
    ((backend config).call (.getValue .device ns key) state).1.result =
      match t.item? ns key with
      | some item =>
        match Expiry.remaining item.expiresAt state.clock.unixSeconds with
        | some ttl => .ok ⟨item.value, ttl⟩
        | none => .error .unknownKey
      | none => .error (if (t.limit? ns).isSome then .unknownKey else .notExist) := by
  have hcheck : checkCall config (.getValue .device ns key) = .ok () :=
    checkNames_valid_iff.mpr ⟨hns, hkey⟩
  obtain ⟨found, htells, hfind⟩ := find_ready ht ns key
  rw [call_valid hcheck]
  change (getValue .device ns key state).1.result = _
  unfold getValue
  cases htx : transact false .device (find ns key) state with
  | mk result middle =>
    have hclock : middle.clock = state.clock := by
      obtain ⟨saw, rfl⟩ := transact_unchanged htx find_unchanged
      rfl
    have hresult : result = .ok found := by
      have := transact_ready hs false (find ns key)
      rw [htx, hfind] at this
      exact this
    subst hresult
    cases found with
    | noNamespace =>
      have hitem : t.item? ns key = none := by
        rw [Tables.item?, Option.map_eq_none_iff.mp htells, Option.bind_none]
      rw [hitem, show t.limit? ns = none from htells]
      rfl
    | noKey =>
      obtain ⟨hlimit, hitem⟩ := htells
      rw [hitem, hlimit]
      rfl
    | found id entry =>
      obtain ⟨item, hitem, hvalue, hexpires⟩ := htells
      rw [hitem]
      dsimp only
      rw [hclock, hexpires, hvalue]
      cases Expiry.remaining item.expiresAt state.clock.unixSeconds <;> rfl

theorem getLimit_answer (hs : state.site.Serves t) (ht : t.Sound config) {ns : String}
    (hns : config.ValidName ns) :
    t.limit? ns = none ∧
        ((backend config).call (.getLimit .device ns) state).1.result = .error .notExist ∨
      ∃ limit : Option UInt32, t.limit? ns = some (limit.map fun size => (size.toNat : Int)) ∧
        ((backend config).call (.getLimit .device ns) state).1.result =
          .ok (limit.getD config.limit) := by
  have hcheck : checkCall config (.getLimit .device ns) = .ok () := checkName_eq_ok_iff.mpr hns
  rw [call_valid hcheck]
  change _ ∧ (transact false .device (readLimit config ns) state).1 = _ ∨
    ∃ limit, _ ∧ (transact false .device (readLimit config ns) state).1 = _
  rw [transact_ready hs]
  rcases readLimit_ready ht ns ⟨false, state.site.sawTables⟩ (some 1) with
    ⟨hnone, hread⟩ | ⟨limit, hsome, hread⟩
  · exact .inl ⟨hnone, by rw [hread]; rfl⟩
  · exact .inr ⟨limit, hsome, by rw [hread]; rfl⟩

end State

end Quota

end ScopedStore.Device
