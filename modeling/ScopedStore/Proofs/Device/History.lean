import ScopedStore.Proofs.Device.Answers
import ScopedStore.Proofs.Time.Lifetimes

/-! Reads against the history of a store. What a read tells is determined by the calls made so far,
their times and whether they were accepted; row identifiers, purges and lazy discards do not
show. -/
namespace ScopedStore.Device

/-- A call that was made. -/
structure Occurrence where
  now : Int
  call : Call
  accepted : Bool

/-- Makes calls one after another, each at its own time, and notes them down. -/
def Quota.replay (config : Config) : List (Clock × Call) → State → List Occurrence × State
  | [], state => ([], state)
  | (clock, c) :: rest, state =>
    let (answer, after) := (Quota.backend config).call c { state with clock := clock }
    let (later, last) := Quota.replay config rest after
    (⟨clock.unixSeconds, c, answer.result.isOk⟩ :: later, last)

namespace Occurrence

/-- An accepted write of a key. -/
def Writes (ns key : String) (e : Occurrence) : Prop :=
  e.accepted = true ∧ ∃ value ttl, e.call = .setValue .device ns key value ttl

def Limits (ns : String) (e : Occurrence) : Prop :=
  e.accepted = true ∧ ∃ size, e.call = .setLimit .device ns size

/-- What brings a namespace into being where there is none. -/
def Makes (ns : String) (e : Occurrence) : Prop :=
  (∃ key, e.Writes ns key) ∨ e.Limits ns

def Drops (ns : String) (e : Occurrence) : Prop :=
  e.call = .deleteNamespace .device ns

def Clears (ns key : String) (e : Occurrence) : Prop :=
  e.call = .deleteKey .device ns key ∨ e.Drops ns

end Occurrence

/-- Something happened that nothing later has voided. -/
def InForce (sets voids : Occurrence → Prop) (h : List Occurrence) : Prop :=
  ∃ before e after, h = before ++ e :: after ∧ sets e ∧ ∀ later ∈ after, ¬ voids later

/-- An accepted write, with no later accepted write or deletion of the key and no later deletion of
the namespace. -/
def Stored (h : List Occurrence) (ns key value : String) (ttl : UInt32) (written : Int) : Prop :=
  InForce (· = ⟨written, .setValue .device ns key value ttl, true⟩)
    (fun e => e.Writes ns key ∨ e.Clears ns key) h

/-- An accepted write or limit, with no later deletion of the namespace. -/
def Existing (h : List Occurrence) (ns : String) : Prop :=
  InForce (·.Makes ns) (·.Drops ns) h

/-- The last accepted limit, with no later deletion of the namespace. -/
def Limited (h : List Occurrence) (ns : String) (size : UInt32) : Prop :=
  InForce (fun e => e.accepted = true ∧ e.call = .setLimit .device ns size)
    (fun e => e.Limits ns ∨ e.Drops ns) h

section InForce
variable {sets voids : Occurrence → Prop} {h : List Occurrence} {e : Occurrence}

theorem not_inForce_nil : ¬ InForce sets voids [] := by
  rintro ⟨before, e, after, he, _⟩
  exact absurd he (by simp)

theorem inForce_append_singleton :
    InForce sets voids (h ++ [e]) ↔ sets e ∨ InForce sets voids h ∧ ¬ voids e := by
  constructor
  · rintro ⟨before, made, after, he, hsets, hafter⟩
    rcases List.eq_nil_or_concat after with rfl | ⟨earlier, last, rfl⟩
    · obtain ⟨_, hlast⟩ := List.append_inj' he rfl
      cases hlast
      exact .inl hsets
    · have hsplit : h ++ [e] = (before ++ made :: earlier) ++ [last] := by simpa using he
      obtain ⟨rfl, hlast⟩ := List.append_inj' hsplit rfl
      cases hlast
      refine .inr ⟨⟨before, made, earlier, rfl, hsets, ?_⟩, hafter e (by simp)⟩
      exact fun later hlater => hafter later (by simp [hlater])
  · rintro (hsets | ⟨⟨before, made, after, rfl, hsets, hafter⟩, hvoids⟩)
    · exact ⟨h, e, [], rfl, hsets, by simp⟩
    · refine ⟨before, made, after ++ [e], by simp, hsets, fun later hlater => ?_⟩
      rcases List.mem_append.mp hlater with hlater | hlater
      · exact hafter later hlater
      · rwa [List.mem_singleton.mp hlater]

theorem stored_append_singleton {ns key value : String} {ttl : UInt32} {written : Int} :
    Stored (h ++ [e]) ns key value ttl written ↔
      e = ⟨written, .setValue .device ns key value ttl, true⟩ ∨
        Stored h ns key value ttl written ∧ ¬ (e.Writes ns key ∨ e.Clears ns key) :=
  inForce_append_singleton

theorem existing_append_singleton {ns : String} :
    Existing (h ++ [e]) ns ↔ e.Makes ns ∨ Existing h ns ∧ ¬ e.Drops ns :=
  inForce_append_singleton

theorem limited_append_singleton {ns : String} {size : UInt32} :
    Limited (h ++ [e]) ns size ↔ e.accepted = true ∧ e.call = .setLimit .device ns size ∨
      Limited h ns size ∧ ¬ (e.Limits ns ∨ e.Drops ns) :=
  inForce_append_singleton

end InForce

/-- An item is still there, or is gone and had expired. -/
def Faded (now : Int) (before after : Option ItemRow) : Prop :=
  after = before ∨ after = none ∧ ∀ item, before = some item → item.isExpired now = true

/-- How a call shows at a namespace and a key. -/
inductive Shown (ns key : String) (t t' : Tables) : Occurrence → Prop where
  | written {now : Int} {value : String} {ttl : UInt32} {item : ItemRow}
      (limit : t'.limit? ns = some (t.limit? ns).join) (found : t'.item? ns key = some item)
      (same : item.value = value ∧ item.expiresAt = Expiry.ofTtl ttl now) :
      Shown ns key t t' ⟨now, .setValue .device ns key value ttl, true⟩
  | beside {now : Int} {other value : String} {ttl : UInt32} (distinct : key ≠ other)
      (limit : t'.limit? ns = some (t.limit? ns).join)
      (kept : Faded now (t.item? ns key) (t'.item? ns key)) :
      Shown ns key t t' ⟨now, .setValue .device ns other value ttl, true⟩
  | limited {now : Int} {size : UInt32} (limit : t'.limit? ns = some (some (size.toNat : Int)))
      (kept : t'.item? ns key = t.item? ns key) :
      Shown ns key t t' ⟨now, .setLimit .device ns size, true⟩
  | removed {now : Int} (limit : t'.limit? ns = t.limit? ns) (gone : t'.item? ns key = none) :
      Shown ns key t t' ⟨now, .deleteKey .device ns key, true⟩
  | dropped {now : Int} (limit : t'.limit? ns = none) (gone : t'.item? ns key = none) :
      Shown ns key t t' ⟨now, .deleteNamespace .device ns, true⟩
  | elsewhere {e : Occurrence} (makes : ¬ e.Makes ns) (clears : ¬ e.Clears ns key)
      (limit : t'.limit? ns = t.limit? ns)
      (kept : Faded e.now (t.item? ns key) (t'.item? ns key)) : Shown ns key t t' e

section Steps
variable {config : Config} {t t' : Tables} {ns key : String} {e : Occurrence}

theorem Occurrence.not_makes (h : e.accepted = false ∨ ∀ k value ttl size,
    e.call ≠ .setValue .device ns k value ttl ∧ e.call ≠ .setLimit .device ns size) :
    ¬ e.Makes ns := by
  rintro (⟨k, hok, value, ttl, he⟩ | ⟨hok, size, he⟩)
  · rcases h with h | h
    · rw [h] at hok
      cases hok
    · exact (h k value ttl 0).1 he
  · rcases h with h | h
    · rw [h] at hok
      cases hok
    · exact (h "" "" 0 size).2 he

theorem Tables.Sound.item?_faded (ht : t.Sound config) {now : Int} {gone : ItemRow → Bool}
    (hgone : ∀ item, gone item = true → item.isExpired now = true) (ns key : String) :
    Faded now (t.item? ns key) ((t.keeping fun item => !gone item).item? ns key) := by
  rw [ht.item?_keeping]
  cases hi : t.item? ns key with
  | none => exact .inl rfl
  | some item =>
    cases hg : gone item with
    | false => exact .inl (by simp [hg])
    | true =>
      refine .inr ⟨by simp [hg], fun found hfound => ?_⟩
      cases hfound
      exact hgone item hg

theorem Effect.shown (h : Effect config e.now t e.call e.accepted t') (ht : t.Sound config)
    (hclears : e.Clears ns key → e.accepted = true) : Shown ns key t t' e := by
  obtain ⟨now, c, accepted⟩ := e
  cases h with
  | answered query =>
    refine .elsewhere (Occurrence.not_makes (.inr fun k value ttl size => ?_)) ?_ rfl (.inl rfl)
    · constructor <;> (rintro rfl; cases query)
    · rintro (rfl | rfl) <;> cases query
  | refused gone expired =>
    refine .elsewhere (Occurrence.not_makes (.inl rfl)) (fun h => ?_) rfl ?_
    · cases hclears h
    · exact ht.item?_faded expired ns key
  | @stored name k value ttl =>
    have hpurged : (t.purged now).Sound config := ht.keeping _
    have hfaded : Faded now (t.item? ns key) ((t.purged now).item? ns key) :=
      ht.item?_faded (fun _ h => h) ns key
    have hlimit := Tables.limit?_put (t := t.purged now) name k value (Expiry.ofTtl ttl now) ns
    have hitem := hpurged.item?_put name k value (Expiry.ofTtl ttl now) ns key
    by_cases he : ns = name
    · subst he
      rw [if_pos rfl] at hlimit
      by_cases hk : key = k
      · subst hk
        rw [if_pos ⟨rfl, rfl⟩] at hitem
        exact .written hlimit hitem ⟨rfl, rfl⟩
      · rw [if_neg fun h => hk h.2] at hitem
        exact .beside hk hlimit (hitem ▸ hfaded)
    · rw [if_neg he] at hlimit
      rw [if_neg fun h => he h.1] at hitem
      refine .elsewhere (Occurrence.not_makes (.inr fun k value ttl size => ?_)) ?_ hlimit
        (hitem ▸ hfaded)
      · constructor
        · rintro ⟨⟩
          exact he rfl
        · rintro ⟨⟩
      · rintro (⟨⟨⟩⟩ | ⟨⟨⟩⟩)
  | @removed name k =>
    have hlimit := Tables.limit?_remove (t := t) name k ns
    have hitem := ht.item?_remove name k ns key
    by_cases he : ns = name ∧ key = k
    · rw [if_pos he] at hitem
      obtain ⟨rfl, rfl⟩ := he
      exact .removed hlimit hitem
    · rw [if_neg he] at hitem
      refine .elsewhere (Occurrence.not_makes (.inr fun k value ttl size => ?_)) ?_ hlimit
        (.inl hitem)
      · constructor <;> rintro ⟨⟩
      · rintro (⟨⟨⟩⟩ | ⟨⟨⟩⟩)
        exact he ⟨rfl, rfl⟩
  | @dropped name =>
    have hlimit := Tables.limit?_drop (t := t) name ns
    have hitem := ht.item?_drop name ns key
    by_cases he : ns = name
    · subst he
      rw [if_pos rfl] at hlimit hitem
      exact .dropped hlimit hitem
    · rw [if_neg he] at hlimit hitem
      refine .elsewhere (Occurrence.not_makes (.inr fun k value ttl size => ?_)) ?_ hlimit
        (.inl hitem)
      · constructor <;> rintro ⟨⟩
      · rintro (⟨⟨⟩⟩ | ⟨⟨⟩⟩)
        exact he rfl
  | @assigned name size =>
    have hlimit := ht.limit?_assign name size ns
    have hitem := ht.item?_assign name size ns key
    by_cases he : ns = name
    · subst he
      rw [if_pos rfl] at hlimit
      exact .limited hlimit hitem
    · rw [if_neg he] at hlimit
      refine .elsewhere (Occurrence.not_makes (.inr fun k value ttl size => ?_)) ?_ hlimit
        (.inl hitem)
      · constructor
        · rintro ⟨⟩
        · rintro ⟨⟩
          exact he rfl
      · rintro (⟨⟨⟩⟩ | ⟨⟨⟩⟩)

/-- Of a key, a call leaves what it writes, or nothing, or what was there and has not expired. -/
theorem Shown.item_cases (hs : Shown ns key t t' e) :
    (∃ value ttl item, e = ⟨e.now, .setValue .device ns key value ttl, true⟩ ∧
        t'.item? ns key = some item ∧ item.value = value ∧
        item.expiresAt = Expiry.ofTtl ttl e.now) ∨
      (¬ e.Writes ns key ∧ e.Clears ns key ∧ t'.item? ns key = none) ∨
      (¬ e.Writes ns key ∧ ¬ e.Clears ns key ∧
        Faded e.now (t.item? ns key) (t'.item? ns key)) := by
  cases hs with
  | @written now value ttl item limit found same =>
    exact .inl ⟨value, ttl, item, rfl, found, same⟩
  | @beside now other value ttl distinct limit kept =>
    refine .inr (.inr ⟨?_, ?_, kept⟩)
    · rintro ⟨_, _, _, ⟨⟩⟩
      exact distinct rfl
    · rintro (⟨⟨⟩⟩ | ⟨⟨⟩⟩)
  | limited limit kept =>
    refine .inr (.inr ⟨?_, ?_, .inl kept⟩)
    · rintro ⟨_, _, _, ⟨⟩⟩
    · rintro (⟨⟨⟩⟩ | ⟨⟨⟩⟩)
  | removed limit gone =>
    refine .inr (.inl ⟨?_, .inl rfl, gone⟩)
    rintro ⟨_, _, _, ⟨⟩⟩
  | dropped limit gone =>
    refine .inr (.inl ⟨?_, .inr rfl, gone⟩)
    rintro ⟨_, _, _, ⟨⟩⟩
  | elsewhere makes clears limit kept =>
    exact .inr (.inr ⟨fun hwrites => makes (.inl ⟨key, hwrites⟩), clears, kept⟩)

end Steps

/-- The tables hold what the history says: limits exactly, and of what was stored all that has not
expired. -/
structure Agrees (ns key : String) (h : List Occurrence) (now : Int) (t : Tables) : Prop where
  existing : (t.limit? ns).isSome = true ↔ Existing h ns
  limited : ∀ size : UInt32, t.limit? ns = some (some (size.toNat : Int)) ↔ Limited h ns size
  recorded : ∀ item, t.item? ns key = some item → ∃ ttl written,
    Stored h ns key item.value ttl written ∧ item.expiresAt = Expiry.ofTtl ttl written
  kept : ∀ value ttl written, Stored h ns key value ttl written → written ≤ now ∧
    ((∃ item, t.item? ns key = some item ∧ item.value = value ∧
        item.expiresAt = Expiry.ofTtl ttl written) ∨
      Expiry.isExpired (Expiry.ofTtl ttl written) now = true)

namespace Agrees

variable {ns key : String} {h : List Occurrence} {now : Int} {t t' : Tables} {e : Occurrence}

theorem initial {t : Tables} (hn : t.namespaces = []) (now : Int) : Agrees ns key [] now t := by
  have hrow : t.namespaceRow? ns = none := by simp [Tables.namespaceRow?, hn]
  have hlimit : t.limit? ns = none := by simp [Tables.limit?, hrow]
  refine ⟨?_, fun size => ?_, fun item hitem => ?_, fun value ttl written hstored => ?_⟩
  · simp only [hlimit, Option.isSome_none, Bool.false_eq_true, false_iff]
    exact not_inForce_nil
  · simp only [hlimit, reduceCtorEq, false_iff]
    exact not_inForce_nil
  · simp [Tables.item?, hrow] at hitem
  · exact absurd hstored not_inForce_nil

theorem later (ha : Agrees ns key h now t) {later : Int} (hle : now ≤ later) :
    Agrees ns key h later t := by
  refine { ha with kept := fun value ttl written hstored => ?_ }
  obtain ⟨hwritten, hkept⟩ := ha.kept value ttl written hstored
  exact ⟨hwritten.trans hle, hkept.imp_right (Expiry.isExpired_mono hle)⟩

theorem existing_step (ha : Agrees ns key h now t) (hs : Shown ns key t t' e) :
    (t'.limit? ns).isSome = true ↔ Existing (h ++ [e]) ns := by
  rw [existing_append_singleton, ← ha.existing]
  cases hs with
  | @written now value ttl item limit found same =>
    rw [limit]
    exact iff_of_true rfl (.inl (.inl ⟨key, rfl, value, ttl, rfl⟩))
  | @beside now other value ttl distinct limit kept =>
    rw [limit]
    exact iff_of_true rfl (.inl (.inl ⟨other, rfl, value, ttl, rfl⟩))
  | @limited now size limit kept =>
    rw [limit]
    exact iff_of_true rfl (.inl (.inr ⟨rfl, size, rfl⟩))
  | @removed now limit gone =>
    have hmakes : ¬ Occurrence.Makes ns ⟨now, .deleteKey .device ns key, true⟩ :=
      Occurrence.not_makes (.inr fun _ _ _ _ => ⟨by rintro ⟨⟩, by rintro ⟨⟩⟩)
    rw [limit]
    simp [hmakes, Occurrence.Drops]
  | @dropped now limit gone =>
    have hmakes : ¬ Occurrence.Makes ns ⟨now, .deleteNamespace .device ns, true⟩ :=
      Occurrence.not_makes (.inr fun _ _ _ _ => ⟨by rintro ⟨⟩, by rintro ⟨⟩⟩)
    rw [limit]
    simp [hmakes, Occurrence.Drops]
  | elsewhere makes clears limit kept =>
    have hdrops : ¬ e.Drops ns := fun hdrops => clears (.inr hdrops)
    rw [limit]
    simp [makes, hdrops]

theorem limited_step (ha : Agrees ns key h now t) (hs : Shown ns key t t' e) (size : UInt32) :
    t'.limit? ns = some (some (size.toNat : Int)) ↔ Limited (h ++ [e]) ns size := by
  rw [limited_append_singleton, ← ha.limited]
  have hjoin : some (t.limit? ns).join = some (some (size.toNat : Int)) ↔
      t.limit? ns = some (some (size.toNat : Int)) := by
    rw [Option.some.injEq, Option.join_eq_some_iff]
  cases hs with
  | written limit found same =>
    rw [limit, hjoin]
    simp [Occurrence.Limits, Occurrence.Drops]
  | beside distinct limit kept =>
    rw [limit, hjoin]
    simp [Occurrence.Limits, Occurrence.Drops]
  | @limited now given limit kept =>
    have hsize : ((given.toNat : Int) = size.toNat) ↔ given = size := by
      rw [Int.ofNat_inj, UInt32.toNat_inj]
    rw [limit]
    simp [Occurrence.Limits, hsize]
  | removed limit gone =>
    rw [limit]
    simp [Occurrence.Limits, Occurrence.Drops]
  | dropped limit gone =>
    rw [limit]
    simp [Occurrence.Drops]
  | elsewhere makes clears limit kept =>
    have hlimits : ¬ e.Limits ns := fun hlimits => makes (.inr hlimits)
    have hdrops : ¬ e.Drops ns := fun hdrops => clears (.inr hdrops)
    have hset : ¬ (e.accepted = true ∧ e.call = .setLimit .device ns size) :=
      fun ⟨hok, hcall⟩ => hlimits ⟨hok, size, hcall⟩
    rw [limit]
    simp [hset, hlimits, hdrops]

theorem recorded_step (ha : Agrees ns key h now t) (hs : Shown ns key t t' e) {item : ItemRow}
    (hitem : t'.item? ns key = some item) :
    ∃ ttl written, Stored (h ++ [e]) ns key item.value ttl written ∧
      item.expiresAt = Expiry.ofTtl ttl written := by
  rcases hs.item_cases with
    ⟨value, ttl, found, he, hfound, hvalue, hexpires⟩ | ⟨_, _, hgone⟩ | ⟨hwrites, hclears, hfaded⟩
  · obtain rfl : found = item := Option.some.inj (hfound.symm.trans hitem)
    exact ⟨ttl, e.now, stored_append_singleton.mpr (.inl (by rw [hvalue]; exact he)), hexpires⟩
  · rw [hgone] at hitem
    cases hitem
  · rcases hfaded with hsame | ⟨hnone, _⟩
    · obtain ⟨ttl, written, hstored, hexpires⟩ := ha.recorded item (hsame.symm.trans hitem)
      refine ⟨ttl, written, stored_append_singleton.mpr (.inr ⟨hstored, ?_⟩), hexpires⟩
      rintro (h | h)
      · exact hwrites h
      · exact hclears h
    · rw [hnone] at hitem
      cases hitem

theorem kept_step (ha : Agrees ns key h now t) (hs : Shown ns key t t' e) (hle : now ≤ e.now)
    {value : String} {ttl : UInt32} {written : Int}
    (hstored : Stored (h ++ [e]) ns key value ttl written) :
    written ≤ e.now ∧
      ((∃ item, t'.item? ns key = some item ∧ item.value = value ∧
          item.expiresAt = Expiry.ofTtl ttl written) ∨
        Expiry.isExpired (Expiry.ofTtl ttl written) e.now = true) := by
  rcases stored_append_singleton.mp hstored with rfl | ⟨hbefore, hvoids⟩
  · refine ⟨le_rfl, .inl ?_⟩
    rcases hs.item_cases with
      ⟨value', ttl', item, he, hitem, hvalue, hexpires⟩ | ⟨hwrites, _⟩ | ⟨hwrites, _⟩
    · cases he
      exact ⟨item, hitem, hvalue, hexpires⟩
    · exact absurd ⟨rfl, value, ttl, rfl⟩ hwrites
    · exact absurd ⟨rfl, value, ttl, rfl⟩ hwrites
  · obtain ⟨hwritten, hkept⟩ := ha.kept value ttl written hbefore
    refine ⟨hwritten.trans hle, ?_⟩
    rcases hkept with ⟨item, hitem, hvalue, hexpires⟩ | hexpired
    · rcases hs.item_cases with ⟨value', ttl', _, he, _⟩ | ⟨_, hclears, _⟩ | ⟨_, _, hfaded⟩
      · exact absurd (.inl ⟨by rw [he], value', ttl', by rw [he]⟩) hvoids
      · exact absurd (.inr hclears) hvoids
      · rcases hfaded with hsame | ⟨_, hgone⟩
        · exact .inl ⟨item, hsame.trans hitem, hvalue, hexpires⟩
        · exact .inr (hexpires ▸ hgone item hitem)
    · exact .inr (Expiry.isExpired_mono hle hexpired)

/-- A call keeps the agreement, and its own time becomes the time of the history. -/
theorem step (ha : Agrees ns key h now t) (hs : Shown ns key t t' e) (hle : now ≤ e.now) :
    Agrees ns key (h ++ [e]) e.now t' :=
  ⟨ha.existing_step hs, ha.limited_step hs, fun _ => ha.recorded_step hs,
    fun _ _ _ => ha.kept_step hs hle⟩

end Agrees

section Runs
variable {config : Config} {ns key : String}

/-- A call on a store in use keeps the store in use and the history in agreement with it. -/
theorem Quota.call_agrees {state : State} {t : Tables} {past : List Occurrence} {now : Int}
    (hns : config.ValidName ns) (hkey : config.ValidName key) (hs : state.site.Serves t)
    (ht : t.Sound config) (ha : Agrees ns key past now t) (hle : now ≤ state.clock.unixSeconds)
    (c : Call) :
    ∃ t', ((backend config).call c state).2.site.Serves t' ∧ t'.Sound config ∧
      Agrees ns key
        (past ++ [⟨state.clock.unixSeconds, c, ((backend config).call c state).1.result.isOk⟩])
        state.clock.unixSeconds t' := by
  obtain ⟨t', hs', hlink, heffect⟩ := call_stores config hs.toStores c
  refine ⟨t', ⟨hs', hlink hs.connected⟩, heffect.sound ht, ?_⟩
  have hshown : Shown ns key t t'
      ⟨state.clock.unixSeconds, c, ((backend config).call c state).1.result.isOk⟩ := by
    refine Effect.shown heffect ht fun hclears => ?_
    rcases hclears with hcall | hcall
    · obtain rfl : c = .deleteKey .device ns key := hcall
      dsimp only
      rw [deleteKey_accepted hs ht hns hkey]
      rfl
    · obtain rfl : c = .deleteNamespace .device ns := hcall
      dsimp only
      rw [deleteNamespace_accepted hs hns]
      rfl
  exact ha.step hshown hle

theorem Quota.replay_agrees {run : List (Clock × Call)} {state : State} {t : Tables}
    {past : List Occurrence} {now final : Int} (hns : config.ValidName ns)
    (hkey : config.ValidName key) (hs : state.site.Serves t) (ht : t.Sound config)
    (ha : Agrees ns key past now t)
    (hclock : (now :: (run.map (·.1.unixSeconds) ++ [final])).Pairwise (· ≤ ·)) :
    ∃ t', (Quota.replay config run state).2.site.Serves t' ∧ t'.Sound config ∧
      Agrees ns key (past ++ (Quota.replay config run state).1) final t' := by
  induction run generalizing state t past now with
  | nil =>
    have hle : now ≤ final := (List.pairwise_cons.mp hclock).1 final (by simp)
    exact ⟨t, hs, ht, by simpa [Quota.replay] using ha.later hle⟩
  | cons made rest ih =>
    obtain ⟨clock, c⟩ := made
    obtain ⟨hfirst, hrest⟩ := List.pairwise_cons.mp hclock
    have hle : now ≤ clock.unixSeconds := hfirst _ (by simp)
    have hready : ({ state with clock := clock } : State).site.Serves t := hs
    obtain ⟨t₁, hs₁, ht₁, ha₁⟩ := Quota.call_agrees hns hkey hready ht ha hle c
    obtain ⟨t₂, hs₂, ht₂, ha₂⟩ := ih hs₁ ht₁ ha₁ hrest
    refine ⟨t₂, hs₂, ht₂, ?_⟩
    rwa [List.append_assoc] at ha₂

variable {state : State} {t : Tables} {h : List Occurrence}

theorem Agrees.getValue_ok (ha : Agrees ns key h state.clock.unixSeconds t)
    (hs : state.site.Serves t) (ht : t.Sound config) (hns : config.ValidName ns)
    (hkey : config.ValidName key) (hnow : state.clock.unixSeconds < 2 ^ 62) (value : String)
    (rest : UInt32) :
    ((Quota.backend config).call (.getValue .device ns key) state).1.result =
        .ok ⟨value, rest⟩ ↔
      ∃ ttl written, Stored h ns key value ttl written ∧
        (ttl = 0 ∧ rest = 0 ∨ state.clock.unixSeconds < written + ttl.toNat ∧
          (rest.toNat : Int) = written + ttl.toNat - state.clock.unixSeconds) := by
  rw [Quota.getValue_answer hs ht hns hkey]
  constructor
  · intro hgot
    cases hitem : t.item? ns key with
    | none => rw [hitem] at hgot; cases hgot
    | some item =>
      rw [hitem] at hgot
      dsimp only at hgot
      cases hrest : Expiry.remaining item.expiresAt state.clock.unixSeconds with
      | none => rw [hrest] at hgot; cases hgot
      | some left =>
        rw [hrest] at hgot
        cases hgot
        obtain ⟨ttl, written, hstored, hexpires⟩ := ha.recorded item hitem
        obtain ⟨hle, _⟩ := ha.kept _ _ _ hstored
        rw [hexpires, Expiry.remaining_ofTtl hle hnow] at hrest
        exact ⟨ttl, written, hstored, hrest⟩
  · rintro ⟨ttl, written, hstored, hleft⟩
    obtain ⟨hle, hkept⟩ := ha.kept _ _ _ hstored
    have hrest := (Expiry.remaining_ofTtl hle hnow).mpr hleft
    rcases hkept with ⟨item, hitem, rfl, hexpires⟩ | hexpired
    · rw [hitem]
      dsimp only
      rw [hexpires, hrest]
    · rw [Expiry.remaining_eq_none_iff.mpr hexpired] at hrest
      cases hrest

/-- A read that finds nothing tells a missing key from a missing namespace. -/
theorem Agrees.getValue_missing (ha : Agrees ns key h state.clock.unixSeconds t)
    (hs : state.site.Serves t) (ht : t.Sound config) (hns : config.ValidName ns)
    (hkey : config.ValidName key)
    (hmissing : ∀ found, ((Quota.backend config).call (.getValue .device ns key) state).1.result ≠
      .ok found) :
    Existing h ns ∧ ((Quota.backend config).call (.getValue .device ns key) state).1.result =
        .error .unknownKey ∨
      ¬ Existing h ns ∧ ((Quota.backend config).call (.getValue .device ns key) state).1.result =
        .error .notExist := by
  rw [Quota.getValue_answer hs ht hns hkey] at hmissing ⊢
  rw [← ha.existing]
  cases hitem : t.item? ns key with
  | none =>
    cases hlimit : (t.limit? ns).isSome with
    | true => exact .inl ⟨rfl, rfl⟩
    | false => exact .inr ⟨Bool.false_ne_true, rfl⟩
  | some item =>
    rw [hitem] at hmissing
    dsimp only at hmissing ⊢
    cases hrest : Expiry.remaining item.expiresAt state.clock.unixSeconds with
    | some left =>
      rw [hrest] at hmissing
      exact absurd rfl (hmissing _)
    | none =>
      obtain ⟨row, hr, _⟩ := Option.bind_eq_some_iff.mp hitem
      exact .inl ⟨by simp [Tables.limit?, hr], rfl⟩

theorem Agrees.getLimit_result (ha : Agrees ns key h state.clock.unixSeconds t)
    (hs : state.site.Serves t) (ht : t.Sound config) (hns : config.ValidName ns) :
    (∀ size, Limited h ns size →
      ((Quota.backend config).call (.getLimit .device ns) state).1.result = .ok size) ∧
    (Existing h ns → (∀ size, ¬ Limited h ns size) →
      ((Quota.backend config).call (.getLimit .device ns) state).1.result = .ok config.limit) ∧
    (¬ Existing h ns →
      ((Quota.backend config).call (.getLimit .device ns) state).1.result = .error .notExist) := by
  rcases Quota.getLimit_answer hs ht hns with ⟨hnone, hgot⟩ | ⟨limit, hsome, hgot⟩
  · refine ⟨fun size hlimited => ?_, fun hexisting => ?_, fun _ => hgot⟩
    · rw [← ha.limited, hnone] at hlimited
      cases hlimited
    · rw [← ha.existing, hnone] at hexisting
      cases hexisting
  · have hexisting : Existing h ns := ha.existing.mp (by rw [hsome]; rfl)
    rw [hgot]
    refine ⟨fun size hlimited => ?_, fun _ hnot => ?_, absurd hexisting⟩
    · rw [← ha.limited, hsome] at hlimited
      cases limit with
      | none => cases hlimited
      | some own =>
        have hsame : (own.toNat : Int) = size.toNat :=
          Option.some.inj (Option.some.inj hlimited)
        rw [Option.getD_some, UInt32.toNat_inj.mp (Int.ofNat_inj.mp hsame)]
    · cases limit with
      | none => rfl
      | some own => exact absurd ((ha.limited own).mp hsome) (hnot own)

/-- Reads tell the history: a read of a key returns the value of the last accepted write that was
neither deleted nor has expired, with the lifetime that it has left; otherwise it tells whether the
namespace is there. A read of a limit returns the last one given, or the one for all that have
none. -/
theorem reads_tell_history {start : State} (hempty : start.site.slot.IsEmpty)
    (hlaunch : (launch config start).1 = .ok ()) (run : List (Clock × Call)) (clock : Clock)
    (hclock : (run.map (·.1.unixSeconds) ++ [clock.unixSeconds]).Pairwise (· ≤ ·))
    (hnow : clock.unixSeconds < 2 ^ 62) (hns : config.ValidName ns)
    (hkey : config.ValidName key) :
    let replayed := Quota.replay config run (launch config start).2.2
    let h := replayed.1
    let state : State := { replayed.2 with clock := clock }
    let got := ((Quota.backend config).call (.getValue .device ns key) state).1.result
    let limit := ((Quota.backend config).call (.getLimit .device ns) state).1.result
    (∀ value rest, got = .ok ⟨value, rest⟩ ↔
      ∃ ttl written, Stored h ns key value ttl written ∧
        (ttl = 0 ∧ rest = 0 ∨ clock.unixSeconds < written + ttl.toNat ∧
          (rest.toNat : Int) = written + ttl.toNat - clock.unixSeconds)) ∧
    ((∀ found, got ≠ .ok found) →
      Existing h ns ∧ got = .error .unknownKey ∨ ¬ Existing h ns ∧ got = .error .notExist) ∧
    (∀ size, Limited h ns size → limit = .ok size) ∧
    (Existing h ns → (∀ size, ¬ Limited h ns size) → limit = .ok config.limit) ∧
    (¬ Existing h ns → limit = .error .notExist) := by
  obtain ⟨t₀, hs₀, hlink, hnone, hitems⟩ := launch_empty hempty hlaunch
  have hclock₀ : (0 :: (run.map (·.1.unixSeconds) ++ [clock.unixSeconds])).Pairwise (· ≤ ·) := by
    refine List.pairwise_cons.mpr ⟨fun now hnow => ?_, hclock⟩
    rcases List.mem_append.mp hnow with hnow | hnow
    · obtain ⟨made, _, rfl⟩ := List.mem_map.mp hnow
      exact made.1.unixSeconds_nonneg
    · rw [List.mem_singleton.mp hnow]
      exact clock.unixSeconds_nonneg
  obtain ⟨t, hs, ht, ha⟩ := Quota.replay_agrees hns hkey ⟨hs₀, hlink⟩
    (Tables.Sound.empty hnone hitems) (Agrees.initial hnone 0) hclock₀
  intro replayed h state got limit
  have hserves : state.site.Serves t := hs
  have hagrees : Agrees ns key h state.clock.unixSeconds t := ha
  exact ⟨hagrees.getValue_ok hserves ht hns hkey hnow,
    hagrees.getValue_missing hserves ht hns hkey, hagrees.getLimit_result hserves ht hns⟩

/-- A value written over another with a lifetime of five seconds, read three seconds later. -/
theorem reads_tell_history_overwritten :
    let config : Config := { path := "a.db" }
    let start : State := { clock := .atSecond 0 }
    let run : List (Clock × Call) :=
      [(.atSecond 10, .setValue .device "ns" "key" "old" 0),
        (.atSecond 11, .setValue .device "ns" "key" "text" 5),
        (.atSecond 12, .deleteNamespace .device "other")]
    let clock : Clock := .atSecond 14
    let replayed := Quota.replay config run (launch config start).2.2
    start.site.slot.IsEmpty ∧ (launch config start).1 = .ok () ∧
      (run.map (·.1.unixSeconds) ++ [clock.unixSeconds]).Pairwise (· ≤ ·) ∧
      clock.unixSeconds < 2 ^ 62 ∧ config.ValidName "ns" ∧ config.ValidName "key" ∧
      ((Quota.backend config).call (.getValue .device "ns" "key")
        { replayed.2 with clock := clock }).1.result = .ok ⟨"text", 2⟩ ∧
      ∃ ttl written, Stored replayed.1 "ns" "key" "text" ttl written ∧
        (ttl = 0 ∧ (2 : UInt32) = 0 ∨ 14 < written + ttl.toNat ∧
          ((2 : UInt32).toNat : Int) = written + ttl.toNat - 14) := by
  intro config start run clock replayed
  have hempty : start.site.slot.IsEmpty := trivial
  have hlaunch : (launch config start).1 = .ok () := by cbv
  have hclock : (run.map (·.1.unixSeconds) ++ [clock.unixSeconds]).Pairwise (· ≤ ·) := by
    decide
  have hnow : clock.unixSeconds < 2 ^ 62 := by decide
  have hns : config.ValidName "ns" := ⟨by decide, by decide⟩
  have hkey : config.ValidName "key" := ⟨by decide, by decide⟩
  have hgot : ((Quota.backend config).call (.getValue .device "ns" "key")
      { replayed.2 with clock := clock }).1.result = .ok ⟨"text", 2⟩ := by
    unfold replayed run
    cbv
  exact ⟨hempty, hlaunch, hclock, hnow, hns, hkey, hgot,
    ((reads_tell_history hempty hlaunch run clock hclock hnow hns hkey).1 "text" 2).mp hgot⟩

end Runs

end ScopedStore.Device
