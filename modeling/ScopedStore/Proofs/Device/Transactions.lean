import ScopedStore.Device.Quota
import ScopedStore.Proofs.Device.Views

/-! What the transactions of the device store do to the tables. A transaction that succeeds has
found tables in the file and leaves tables there; each theorem says which. -/
namespace ScopedStore.Device

/-- A database with tables. -/
def Image.ready (version : Option Int) (t : Tables) : Image := .database ⟨version, some t⟩

theorem Image.ready_inj {v v' : Option Int} {t t' : Tables}
    (h : Image.ready v t = Image.ready v' t') : v = v' ∧ t = t' := by
  cases h
  exact ⟨rfl, rfl⟩

namespace Tables

/-- The tables once expired items are purged. -/
def purged (t : Tables) (now : Int) : Tables := t.keeping fun item => !item.isExpired now

theorem namespaceRecord?_eq_ok {t : Tables} {name : String} {found : Option NamespaceRecord}
    (h : t.namespaceRecord? name = .ok found) :
    found.map (·.id) = (t.namespaceRow? name).map (·.id) ∧
      found.map (fun record => record.limit.map fun limit => (limit.toNat : Int)) =
        t.limit? name := by
  unfold namespaceRecord? at h
  unfold limit?
  cases hr : t.namespaceRow? name with
  | none =>
    rw [hr] at h
    cases h
    exact ⟨rfl, rfl⟩
  | some row =>
    rw [hr] at h
    dsimp only at h
    cases hl : row.limit with
    | none =>
      rw [hl] at h
      cases h
      exact ⟨rfl, by simp [hl]⟩
    | some number =>
      rw [hl] at h
      dsimp only at h
      cases hs : storedLimit number with
      | error cause => rw [hs] at h; cases h
      | ok limit =>
        rw [hs] at h
        cases h
        exact ⟨rfl, by simp [hl, storedLimit_eq_ok hs]⟩

end Tables

namespace Tx

variable {ε α β : Type} {standing : Standing} {image after : Image}

theorem bind_eq_ok {tx : Tx ε α} {next : α → Tx ε β} {b : β}
    (h : (tx >>= next) standing image = .ok (b, after)) :
    ∃ a middle, tx standing image = .ok (a, middle) ∧ next a standing middle = .ok (b, after) := by
  change (tx standing image >>= fun found => next found.1 standing found.2) = _ at h
  cases ht : tx standing image with
  | error cause => rw [ht] at h; cases h
  | ok found =>
    rw [ht] at h
    exact ⟨found.1, found.2, rfl, h⟩

theorem pure_eq_ok {a b : α} (h : (pure a : Tx ε α) standing image = .ok (b, after)) :
    b = a ∧ after = image := by
  cases h
  exact ⟨rfl, rfl⟩

theorem throw_ne_ok {cause : ε} {b : α}
    (h : (throw cause : Tx ε α) standing image = .ok (b, after)) : False := by
  cases h

theorem mapError_eq_ok {δ : Type} {f : ε → δ} {tx : Tx ε α} {a : α}
    (h : tx.mapError f standing image = .ok (a, after)) : tx standing image = .ok (a, after) := by
  unfold mapError at h
  cases ht : tx standing image with
  | error cause => rw [ht] at h; cases h
  | ok found =>
    rw [ht] at h
    cases h
    rfl

theorem tables_eq_ok {first : String} {t : Tables}
    (h : tables first standing image = .ok (t, after)) :
    after = image ∧ ∃ version, image = .ready version t := by
  obtain ⟨image', middle, hget, h⟩ := bind_eq_ok h
  cases hget
  cases image with
  | foreign =>
    obtain ⟨_, _, _, h⟩ := bind_eq_ok h
    exact (throw_ne_ok h).elim
  | database content =>
    obtain ⟨version, _ | t'⟩ := content
    · exact (throw_ne_ok h).elim
    · cases h
      exact ⟨rfl, version, rfl⟩

theorem query_eq_ok {first : String} {read : Tables → Except Error α} {a : α}
    (h : query first read standing image = .ok (a, after)) :
    ∃ version t, image = .ready version t ∧ after = image ∧ read t = .ok a := by
  obtain ⟨t, middle, ht, hrest⟩ := bind_eq_ok h
  obtain ⟨rfl, version, rfl⟩ := tables_eq_ok ht
  cases hr : read t with
  | error cause => rw [hr] at hrest; exact (throw_ne_ok hrest).elim
  | ok found =>
    rw [hr] at hrest
    obtain ⟨rfl, rfl⟩ := pure_eq_ok hrest
    exact ⟨version, t, rfl, rfl, hr⟩

theorem store_eq_ok {rewrites : Bool} {version : Option Int} {t t' : Tables}
    (h : store rewrites t t' standing (.ready version t) = .ok ((), after)) :
    after = .ready version t' := by
  unfold store at h
  split at h
  next he =>
    rw [← he.1]
    exact (pure_eq_ok h).2
  next hne =>
    obtain ⟨standing', middle, hread, h⟩ := bind_eq_ok h
    cases hread
    split at h
    · exact (throw_ne_ok h).elim
    · cases h
      rfl

theorem update_eq_ok {first : String} {change : Tables → Except Error (α × Tables)}
    {rewrites : Bool} {a : α}
    (h : update first change rewrites standing image = .ok (a, after)) :
    ∃ version t t', image = .ready version t ∧ after = .ready version t' ∧
      change t = .ok (a, t') := by
  obtain ⟨t, middle, ht, hrest⟩ := bind_eq_ok h
  obtain ⟨rfl, version, rfl⟩ := tables_eq_ok ht
  cases hc : change t with
  | error cause => rw [hc] at hrest; exact (throw_ne_ok hrest).elim
  | ok found =>
    rw [hc] at hrest
    obtain ⟨_, middle, hs, hdone⟩ := bind_eq_ok hrest
    obtain ⟨rfl, rfl⟩ := pure_eq_ok hdone
    exact ⟨version, t, found.2, rfl, store_eq_ok hs, hc⟩

end Tx

namespace Quota
open Tx

variable {config : Config} {now : Int} {ns key value : String} {ttl : UInt32}
variable {standing : Standing} {version : Option Int} {t : Tables} {image after : Image}

theorem purgeExpired_eq_ok {count : Nat}
    (h : lift (Tx.purgeExpired now) standing image = .ok (count, after)) :
    ∃ version t, image = .ready version t ∧ after = .ready version (t.purged now) := by
  obtain ⟨version, t, _, rfl, rfl, hpurge⟩ := update_eq_ok (mapError_eq_ok h)
  cases hpurge
  exact ⟨version, t, rfl, rfl⟩

theorem lift_query_eq_ok {α : Type} {first : String} {read : Tables → Except Error α} {a : α}
    (h : lift (query first read) standing (.ready version t) = .ok (a, after)) :
    after = .ready version t ∧ read t = .ok a := by
  obtain ⟨_, _, he, rfl, hread⟩ := query_eq_ok (mapError_eq_ok h)
  obtain ⟨rfl, rfl⟩ := Image.ready_inj he
  exact ⟨rfl, hread⟩

theorem lift_update_eq_ok {α : Type} {first : String}
    {change : Tables → Except Error (α × Tables)} {rewrites : Bool} {a : α}
    (h : lift (update first change rewrites) standing (.ready version t) = .ok (a, after)) :
    ∃ t', after = .ready version t' ∧ change t = .ok (a, t') := by
  obtain ⟨_, _, t', he, rfl, hchange⟩ := update_eq_ok (mapError_eq_ok h)
  obtain ⟨rfl, rfl⟩ := Image.ready_inj he
  exact ⟨t', rfl, hchange⟩

theorem putEntry_eq_ok {id : Int} {expiresAt : Option Int}
    (h : lift (Tx.putEntry id key value expiresAt) standing (.ready version t) = .ok ((), after)) :
    after = .ready version (t.withItem
      ⟨id, key, value, key.utf8ByteSize + value.utf8ByteSize, expiresAt⟩) := by
  obtain ⟨t', rfl, hput⟩ := lift_update_eq_ok h
  cases hp : t.putItem id key value expiresAt with
  | error cause => rw [hp] at hput; cases hput
  | ok filed =>
    rw [hp] at hput
    cases hput
    rw [(Tables.putItem_eq_ok_iff.mp hp).2]

/-- A lookup of a namespace and what follows it see the same tables. -/
theorem lookup_eq_ok {α : Type} {next : Option NamespaceRecord → Tx StoreError α} {a : α}
    (h : (lift (Tx.namespace ns) >>= next) standing image = .ok (a, after)) :
    ∃ version t found, image = .ready version t ∧
      found.map (·.id) = (t.namespaceRow? ns).map (·.id) ∧
      found.map (fun record => record.limit.map fun limit => (limit.toNat : Int)) = t.limit? ns ∧
      next found standing (.ready version t) = .ok (a, after) := by
  obtain ⟨found, _, hfind, hnext⟩ := bind_eq_ok h
  obtain ⟨version, t, rfl, rfl, hrecord⟩ := query_eq_ok (mapError_eq_ok hfind)
  obtain ⟨hid, hlimit⟩ := Tables.namespaceRecord?_eq_ok hrecord
  exact ⟨version, t, found, rfl, hid, hlimit, hnext⟩

theorem identify_eq_ok {found : Option NamespaceRecord} {id : Int}
    (hfound : found.map (·.id) = (t.namespaceRow? ns).map (·.id))
    (h : identify ns found standing (.ready version t) = .ok (id, after)) :
    id = (t.record ns).id ∧ after = .ready version (t.house ns) := by
  unfold Tables.record Tables.house
  cases hr : t.namespaceRow? ns with
  | some row =>
    obtain ⟨record, rfl, hid⟩ := Option.map_eq_some_iff.mp (hr ▸ hfound)
    obtain ⟨rfl, rfl⟩ := pure_eq_ok h
    exact ⟨hid, rfl⟩
  | none =>
    obtain rfl := Option.map_eq_none_iff.mp (hr ▸ hfound)
    obtain ⟨record, _, hmake, hdone⟩ := bind_eq_ok h
    obtain ⟨t', rfl, hcreate⟩ := lift_update_eq_ok hmake
    obtain ⟨rfl, rfl⟩ := pure_eq_ok hdone
    simp only [Tables.createNamespace, hr, Option.isSome_none, Bool.false_eq_true,
      if_false] at hcreate
    cases hcreate
    exact ⟨rfl, by simp [Tables.record, hr]⟩

/-- The reckoning of a write is exact, whatever the tables hold. -/
theorem reckon_eq_ok {found : Option NamespaceRecord} {old : Reckoning}
    (hid : found.map (·.id) = (t.namespaceRow? ns).map (·.id))
    (hlimit : found.map (fun record => record.limit.map fun limit => (limit.toNat : Int)) =
      t.limit? ns)
    (h : reckon config ns key found standing (.ready version t) = .ok (old, after)) :
    after = .ready version t ∧ (old.replaced : Int) = t.freed ns key ∧
      (old.usage : Int) = t.spent ns ∧ (old.limit.toNat : Int) = t.allowance config ns ∧
      (old.nameBytes : Int) = t.nameCost ns := by
  unfold Tables.freed Tables.spent Tables.allowance Tables.nameCost
  cases hr : t.namespaceRow? ns with
  | none =>
    obtain rfl := Option.map_eq_none_iff.mp (hr ▸ hid)
    obtain ⟨rfl, rfl⟩ := pure_eq_ok h
    exact ⟨rfl, rfl, rfl, by simp [← hlimit], rfl⟩
  | some row =>
    obtain ⟨record, rfl, hid'⟩ := Option.map_eq_some_iff.mp (hr ▸ hid)
    obtain ⟨entry, _, hentry, hrest⟩ := bind_eq_ok h
    obtain ⟨rfl, hentry'⟩ := lift_query_eq_ok hentry
    obtain ⟨usage, _, husage, hdone⟩ := bind_eq_ok hrest
    obtain ⟨rfl, husage'⟩ := lift_query_eq_ok husage
    obtain ⟨rfl, rfl⟩ := pure_eq_ok hdone
    rw [hid'] at hentry' husage'
    refine ⟨rfl, (Tables.entryRecord?_eq_ok hentry').1, Tables.namespaceUsage_eq_ok husage', ?_,
      rfl⟩
    rw [← hlimit]
    cases hl : record.limit <;> simp [hl]

/-- Tables in which an entry has no room, and the budget that is short. -/
def Refuses (config : Config) (t : Tables) (ns key value : String) : Verdict → Prop
  | .applied => False
  | .namespaceFull =>
    t.allowance config ns <
      max 0 (t.spent ns - t.freed ns key) + (key.utf8ByteSize + value.utf8ByteSize)
  | .storageFull =>
    config.maxSize.toNat <
      max 0 (t.nameTotal + t.itemTotal - t.freed ns key) +
        (key.utf8ByteSize + value.utf8ByteSize) + t.nameCost ns

/-- A write that runs to its end either files the entry within both budgets or, over a budget, does
no more than purge. -/
theorem write_eq_ok {verdict : Verdict}
    (h : write config now ns key value ttl standing image = .ok (verdict, after)) :
    ∃ version t, image = .ready version t ∧
      (Refuses config (t.purged now) ns key value verdict ∧
          after = .ready version (t.purged now) ∨
        verdict = .applied ∧
        (t.purged now).spent ns - (t.purged now).freed ns key +
          (key.utf8ByteSize + value.utf8ByteSize) ≤ (t.purged now).allowance config ns ∧
        (t.purged now).nameTotal + (t.purged now).itemTotal - (t.purged now).freed ns key +
          (key.utf8ByteSize + value.utf8ByteSize) + (t.purged now).nameCost ns ≤
            config.maxSize.toNat ∧
        after = .ready version ((t.purged now).put ns key value (Expiry.ofTtl ttl now))) := by
  unfold write at h
  obtain ⟨_, _, hpurge, hrest⟩ := bind_eq_ok h
  obtain ⟨version, t, rfl, rfl⟩ := purgeExpired_eq_ok hpurge
  refine ⟨version, t, rfl, ?_⟩
  obtain ⟨_, _, found, he, hid, hlimit, hweigh⟩ := lookup_eq_ok hrest
  obtain ⟨rfl, rfl⟩ := Image.ready_inj he
  obtain ⟨old, _, hreckon, hweigh⟩ := bind_eq_ok hweigh
  obtain ⟨rfl, hreplaced, husage, hallowed, hname⟩ := reckon_eq_ok hid hlimit hreckon
  dsimp only at hweigh
  split at hweigh
  next hover =>
    obtain ⟨rfl, rfl⟩ := pure_eq_ok hweigh
    refine .inl ⟨?_, rfl⟩
    change Tables.allowance config (t.purged now) ns < _
    omega
  next hfits =>
    obtain ⟨total, _, htotal, hweigh⟩ := bind_eq_ok hweigh
    obtain ⟨rfl, hglobal⟩ := lift_query_eq_ok htotal
    have hexact := Tables.globalUsage_eq_ok hglobal
    split at hweigh
    next hover =>
      obtain ⟨rfl, rfl⟩ := pure_eq_ok hweigh
      refine .inl ⟨?_, rfl⟩
      change (config.maxSize.toNat : Int) < _
      omega
    next hroom =>
      obtain ⟨id, _, hidentify, hput⟩ := bind_eq_ok hweigh
      obtain ⟨rfl, rfl⟩ := identify_eq_ok hid hidentify
      obtain ⟨_, _, hput, hdone⟩ := bind_eq_ok hput
      obtain ⟨rfl, rfl⟩ := pure_eq_ok hdone
      exact .inr ⟨rfl, by omega, by omega, putEntry_eq_ok hput⟩

theorem removeKey_eq_ok (h : removeKey ns key standing image = .ok ((), after)) :
    ∃ version t, image = .ready version t ∧ after = .ready version (t.remove ns key) := by
  obtain ⟨version, t, found, rfl, hid, _, hrest⟩ := lookup_eq_ok h
  refine ⟨version, t, rfl, ?_⟩
  unfold Tables.remove
  cases hr : t.namespaceRow? ns with
  | none =>
    obtain rfl := Option.map_eq_none_iff.mp (hr ▸ hid)
    exact (pure_eq_ok hrest).2
  | some row =>
    obtain ⟨record, rfl, hid'⟩ := Option.map_eq_some_iff.mp (hr ▸ hid)
    obtain ⟨_, _, hdelete, hdone⟩ := bind_eq_ok hrest
    obtain ⟨t', rfl, hgone⟩ := lift_update_eq_ok hdelete
    rw [hid'] at hgone
    cases hgone
    exact (pure_eq_ok hdone).2

theorem removeNamespace_eq_ok (h : removeNamespace ns standing image = .ok ((), after)) :
    ∃ version t, image = .ready version t ∧ after = .ready version (t.drop ns) := by
  obtain ⟨_, _, hdelete, hdone⟩ := bind_eq_ok h
  obtain ⟨version, t, t', rfl, rfl, hgone⟩ := update_eq_ok (mapError_eq_ok hdelete)
  obtain rfl : (t.deleteNamespace ns).2 = t' := congrArg Prod.snd (Except.ok.inj hgone)
  exact ⟨version, t, rfl, (pure_eq_ok hdone).2⟩

/-- A record made for a limit fits the budget beside everything stored. -/
theorem checkRoom_eq_ok {found : Option NamespaceRecord}
    (hid : found.map (·.id) = (t.namespaceRow? ns).map (·.id))
    (h : checkRoom config ns found standing (.ready version t) = .ok ((), after)) :
    after = .ready version t ∧
      (t.namespaceRow? ns = none →
        t.nameTotal + t.itemTotal + t.nameCost ns ≤ config.maxSize.toNat) := by
  cases found with
  | some record =>
    refine ⟨(pure_eq_ok h).2, fun hr => ?_⟩
    rw [hr] at hid
    cases hid
  | none =>
    obtain ⟨total, _, htotal, hrest⟩ := bind_eq_ok h
    obtain ⟨rfl, hglobal⟩ := lift_query_eq_ok htotal
    have hexact := Tables.globalUsage_eq_ok hglobal
    split at hrest
    · exact (throw_ne_ok hrest).elim
    next hroom =>
      refine ⟨(pure_eq_ok hrest).2, fun hr => ?_⟩
      simp only [Tables.nameCost, hr, Option.isSome_none, Bool.false_eq_true, if_false]
      omega

theorem assignLimit_eq_ok {size : UInt32}
    (h : assignLimit config ns size standing image = .ok ((), after)) :
    ∃ version t, image = .ready version t ∧
      (t.namespaceRow? ns = none →
        t.nameTotal + t.itemTotal + t.nameCost ns ≤ config.maxSize.toNat) ∧
      after = .ready version (t.assign ns size) := by
  obtain ⟨version, t, found, rfl, hid, _, hrest⟩ := lookup_eq_ok h
  obtain ⟨_, _, hcheck, hrest⟩ := bind_eq_ok hrest
  obtain ⟨rfl, hroom⟩ := checkRoom_eq_ok hid hcheck
  obtain ⟨id, _, hidentify, hset⟩ := bind_eq_ok hrest
  obtain ⟨rfl, rfl⟩ := identify_eq_ok hid hidentify
  obtain ⟨t', rfl, hchange⟩ := lift_update_eq_ok hset
  cases hchange
  exact ⟨version, t, rfl, hroom, rfl⟩

theorem deleteExpiredEntry_eq_ok {id : Int} {gone : Bool}
    (h : Tx.deleteExpiredEntry id key now standing image = .ok (gone, after)) :
    ∃ version t, image = .ready version t ∧ after = .ready version (t.keeping fun item =>
      !((item.ns = id ∧ item.key = key) ∧ item.isExpired now)) := by
  obtain ⟨version, t, _, rfl, rfl, hdelete⟩ := update_eq_ok h
  cases hdelete
  exact ⟨version, t, rfl, rfl⟩

/-- A statement that only reads leaves the file as it is. -/
theorem query_unchanged {α : Type} {first : String} {read : Tables → Except Error α} {a : α}
    (h : lift (query first read) standing image = .ok (a, after)) : after = image := by
  obtain ⟨_, _, _, hafter, _⟩ := query_eq_ok (mapError_eq_ok h)
  exact hafter

theorem find_unchanged {found : Lookup} (h : find ns key standing image = .ok (found, after)) :
    after = image := by
  obtain ⟨_, _, record, rfl, _, _, hrest⟩ := lookup_eq_ok h
  cases record with
  | none => exact (pure_eq_ok hrest).2
  | some record =>
    obtain ⟨entry, _, hentry, hdone⟩ := bind_eq_ok hrest
    obtain rfl := query_unchanged hentry
    cases entry <;> exact (pure_eq_ok hdone).2

theorem readLimit_unchanged {limit : UInt32}
    (h : readLimit config ns standing image = .ok (limit, after)) : after = image := by
  obtain ⟨_, _, record, rfl, _, _, hrest⟩ := lookup_eq_ok h
  cases record with
  | none => exact (throw_ne_ok hrest).elim
  | some record => exact (pure_eq_ok hrest).2

theorem listKeys_unchanged {keys : List String}
    (h : listKeys now ns standing image = .ok (keys, after)) : after = image := by
  obtain ⟨_, _, record, rfl, _, _, hrest⟩ := lookup_eq_ok h
  cases record with
  | none => exact (pure_eq_ok hrest).2
  | some record => exact query_unchanged hrest

end Quota

end ScopedStore.Device
