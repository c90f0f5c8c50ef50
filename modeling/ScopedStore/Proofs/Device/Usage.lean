import ScopedStore.Proofs.Device.Reachable
import ScopedStore.Proofs.Listener.Recording

/-! How the recorded bytes of a namespace move against its limit. Usage within the limit is no
invariant, since a limit may be set below what is stored; what every move keeps is that usage stays
within the larger of what it was and the limit then in force. -/
namespace ScopedStore

/-- The namespace that a call is about, if it is about one. -/
def Call.namespace? : Call → Option String
  | .setValue _ ns _ _ _ | .getValue _ ns _ | .deleteKey _ ns _ | .deleteNamespace _ ns
  | .setLimit _ ns _ | .getLimit _ ns | .getKeys _ ns => some ns
  | .openStore | .getNamespaces _ | .getSizes _ | .flushCache => none

namespace Device

namespace Tables

variable {config : Config} {t : Tables}

theorem allowance_put (name key value : String) (expiresAt : Option Int) (other : String) :
    (t.put name key value expiresAt).allowance config other = t.allowance config other := by
  unfold allowance
  rw [limit?_put]
  split
  next he =>
    subst he
    rfl
  · rfl

theorem Sound.allowance_assign (h : t.Sound config) (name : String) (limit : UInt32)
    (other : String) :
    (t.assign name limit).allowance config other =
      if other = name then (limit.toNat : Int) else t.allowance config other := by
  unfold allowance
  rw [h.limit?_assign]
  split <;> rfl

theorem allowance_drop (name other : String) :
    (t.drop name).allowance config other =
      if other = name then (config.limit.toNat : Int) else t.allowance config other := by
  unfold allowance
  rw [limit?_drop]
  split <;> rfl

theorem allowance_keeping (keep : ItemRow → Bool) (other : String) :
    (t.keeping keep).allowance config other = t.allowance config other := rfl

theorem allowance_remove (name key other : String) :
    (t.remove name key).allowance config other = t.allowance config other := by
  rw [remove_eq_keeping, allowance_keeping]

end Tables

/-- The ways in which a call can bear on a namespace: usage falls or stays under an unchanged limit,
a write ends within the limit, the limit is replaced, or the namespace goes. -/
inductive Bearing (config : Config) (ns : String) (t t' : Tables) : Call → Bool → Prop where
  | lowered {c : Call} {accepted : Bool} (other : accepted = true → c.namespace? = some ns →
        ∀ scope key value ttl, c ≠ .setValue scope ns key value ttl)
      (usage : t'.spent ns ≤ t.spent ns) (limit : t'.allowance config ns = t.allowance config ns) :
      Bearing config ns t t' c accepted
  | written {key value : String} {ttl : UInt32} (usage : t'.spent ns ≤ t'.allowance config ns)
      (limit : t'.allowance config ns = t.allowance config ns) :
      Bearing config ns t t' (.setValue .device ns key value ttl) true
  | limited {size : UInt32} (usage : t'.spent ns = t.spent ns)
      (limit : t'.allowance config ns = size.toNat) :
      Bearing config ns t t' (.setLimit .device ns size) true
  | dropped (usage : t'.spent ns = 0) (limit : t'.allowance config ns = config.limit.toNat) :
      Bearing config ns t t' (.deleteNamespace .device ns) true

theorem Effect.bearing {config : Config} {now : Int} {t t' : Tables} {c : Call} {accepted : Bool}
    (h : Effect config now t c accepted t') (ht : t.Sound config) (ns : String) :
    Bearing config ns t t' c accepted := by
  cases h with
  | answered query =>
    refine .lowered (fun _ _ scope key value ttl hc => ?_) le_rfl rfl
    subst hc
    cases query
  | refused gone expired => exact .lowered (fun hok => by cases hok) (ht.spent_keeping_le _ ns) rfl
  | @stored name key value ttl hns hkey hvalue fits room =>
    have hpurged : (t.purged now).Sound config := ht.keeping _
    have hlimit : ((t.purged now).put name key value (Expiry.ofTtl ttl now)).allowance config ns =
        t.allowance config ns := Tables.allowance_put name key value _ ns
    have husage := hpurged.spent_put name key value (Expiry.ofTtl ttl now) ns
    by_cases he : ns = name
    · subst he
      rw [if_pos rfl] at husage
      exact .written (by rw [husage, hlimit]; exact fits) hlimit
    · rw [if_neg he] at husage
      refine .lowered (fun _ hsome => ?_) ?_ hlimit
      · exact absurd (Option.some.inj hsome).symm he
      · exact husage.trans_le (ht.spent_keeping_le _ ns)
  | @removed name key =>
    exact .lowered (fun _ _ _ _ _ _ hc => by cases hc) (ht.spent_remove_le name key ns)
      (Tables.allowance_remove name key ns)
  | @dropped name =>
    have husage := ht.spent_drop name ns
    have hlimit : (t.drop name).allowance config ns = _ := Tables.allowance_drop name ns
    by_cases he : ns = name
    · subst he
      rw [if_pos rfl] at husage hlimit
      exact .dropped husage hlimit
    · rw [if_neg he] at husage hlimit
      exact .lowered (fun _ _ _ _ _ _ hc => by cases hc) husage.le hlimit
  | @assigned name size hns room =>
    have husage := ht.spent_assign name size ns
    have hlimit := ht.allowance_assign name size ns
    by_cases he : ns = name
    · subst he
      rw [if_pos rfl] at hlimit
      exact .limited husage hlimit
    · rw [if_neg he] at hlimit
      exact .lowered (fun _ _ _ _ _ _ hc => by cases hc) husage.le hlimit

namespace Bearing

variable {config : Config} {ns : String} {t t' : Tables} {c : Call} {accepted : Bool}

theorem usage_le_max (h : Bearing config ns t t' c accepted) :
    t'.spent ns ≤ max (t.spent ns) (t'.allowance config ns) := by
  cases h with
  | lowered other usage limit => exact usage.trans (le_max_left _ _)
  | written usage limit => exact usage.trans (le_max_right _ _)
  | limited usage limit => exact usage.le.trans (le_max_left _ _)
  | dropped usage limit =>
    rw [usage, limit]
    exact (Int.natCast_nonneg _).trans (le_max_right _ _)

theorem usage_le_of_other (h : Bearing config ns t t' c accepted) (hc : c.namespace? ≠ some ns) :
    t'.spent ns ≤ t.spent ns := by
  cases h with
  | lowered other usage limit => exact usage
  | written | limited | dropped => exact absurd rfl hc

theorem usage_le_of_over (h : Bearing config ns t t' c accepted) (ht : t.Sound config)
    (hover : t.allowance config ns < t.spent ns) : t'.spent ns ≤ t.spent ns := by
  cases h with
  | lowered other usage limit => exact usage
  | written usage limit => exact usage.trans (limit ▸ hover.le)
  | limited usage limit => exact usage.le
  | dropped usage limit => exact usage.trans_le (ht.spent_nonneg ns)

/-- Only a limit set below what is stored takes a namespace over its limit. -/
theorem limit_lowered (h : Bearing config ns t t' c accepted)
    (hwithin : t.spent ns ≤ t.allowance config ns)
    (hover : t'.allowance config ns < t'.spent ns) :
    accepted = true ∧
      ∃ size, c = .setLimit .device ns size ∧ (size.toNat : Int) < t.spent ns := by
  cases h with
  | lowered other usage limit => omega
  | written usage limit => omega
  | @limited size usage limit => exact ⟨rfl, size, rfl, by omega⟩
  | dropped usage limit => omega

theorem usage_le_limit (h : Bearing config ns t t' c true) {scope : Scope} {key value : String}
    {ttl : UInt32} (hc : c = .setValue scope ns key value ttl) :
    t'.spent ns ≤ t'.allowance config ns := by
  cases h with
  | lowered other usage limit =>
    subst hc
    exact absurd rfl (other rfl rfl scope key value ttl)
  | written usage limit => exact usage
  | limited | dropped => cases hc

end Bearing

/-- The tables in the file at the path. -/
def Site.tables? (site : Site) : Option Tables :=
  match site.slot with
  | .file (.database content) => content.tables
  | _ => none

/-- The recorded bytes of a namespace, expired items included. -/
def State.usage (state : State) (ns : String) : Int :=
  state.site.tables?.elim 0 (·.spent ns)

/-- The limit in force for a namespace: its own, or the one for all that have none. -/
def State.limit (config : Config) (state : State) (ns : String) : Int :=
  state.site.tables?.elim config.limit.toNat (·.allowance config ns)

def State.Within (config : Config) (state : State) (ns : String) : Prop :=
  state.usage ns ≤ state.limit config ns

theorem Site.Stores.tables? {site : Site} {t : Tables} (h : site.Stores t) :
    site.tables? = some t := by
  unfold Site.tables?
  rw [h.slot]
  rfl

section Stored
variable {config : Config} {state : State} {t : Tables}

theorem State.usage_eq (h : state.site.Stores t) (ns : String) : state.usage ns = t.spent ns := by
  unfold usage
  rw [h.tables?]
  rfl

theorem State.limit_eq (h : state.site.Stores t) (ns : String) :
    state.limit config ns = t.allowance config ns := by
  unfold limit
  rw [h.tables?]
  rfl

end Stored

/-- The namespace that a move is about, if it is about one. -/
def Move.namespace? : Move → Option String
  | .call c => c.namespace?
  | .enrol _ | .close | .relaunch | .setClock _ => none

namespace Reachable

variable {config : Config} {state : State}

/-- A move of a reachable store changes no table, or is a call that bears on each namespace. -/
theorem run_cases (h : Reachable config state) (move : Move) :
    ∃ t t', state.site.Stores t ∧ (move.run config state).site.Stores t' ∧ t.Sound config ∧
      (t' = t ∨ ∃ c, move = .call c ∧ ∀ ns, Bearing config ns t t' c
        ((Quota.backend config).call c state).1.result.isOk) := by
  obtain ⟨t, hs, ht⟩ := h.stores
  obtain ⟨t', hs', hsame | ⟨c, hmove, heffect⟩⟩ := move.run_stores config hs
  · exact ⟨t, t', hs, hs', ht, .inl hsame⟩
  · exact ⟨t, t', hs, hs', ht, .inr ⟨c, hmove, heffect.bearing ht⟩⟩

theorem usage_le_max (h : Reachable config state) (move : Move) (ns : String) :
    (move.run config state).usage ns ≤
      max (state.usage ns) ((move.run config state).limit config ns) := by
  obtain ⟨t, t', hs, hs', _, rfl | ⟨c, _, hbearing⟩⟩ := h.run_cases move
  · rw [State.usage_eq hs, State.usage_eq hs']
    exact le_max_left _ _
  · rw [State.usage_eq hs, State.usage_eq hs', State.limit_eq hs']
    exact (hbearing ns).usage_le_max

theorem usage_le_of_other (h : Reachable config state) {move : Move} {ns : String}
    (hmove : move.namespace? ≠ some ns) : (move.run config state).usage ns ≤ state.usage ns := by
  obtain ⟨t, t', hs, hs', _, rfl | ⟨c, rfl, hbearing⟩⟩ := h.run_cases move
  · rw [State.usage_eq hs, State.usage_eq hs']
  · rw [State.usage_eq hs, State.usage_eq hs']
    exact (hbearing ns).usage_le_of_other hmove

theorem usage_le_of_over (h : Reachable config state) (move : Move) {ns : String}
    (hover : state.limit config ns < state.usage ns) :
    (move.run config state).usage ns ≤ state.usage ns := by
  obtain ⟨t, t', hs, hs', ht, rfl | ⟨c, rfl, hbearing⟩⟩ := h.run_cases move
  · rw [State.usage_eq hs, State.usage_eq hs']
  · rw [State.usage_eq hs, State.limit_eq hs] at hover
    rw [State.usage_eq hs, State.usage_eq hs']
    exact (hbearing ns).usage_le_of_over ht hover

theorem limit_lowered (h : Reachable config state) {move : Move} {ns : String}
    (hwithin : state.usage ns ≤ state.limit config ns)
    (hover : (move.run config state).limit config ns < (move.run config state).usage ns) :
    ∃ size, move = .call (.setLimit .device ns size) ∧
      ((Quota.backend config).call (.setLimit .device ns size) state).1.result.isOk = true ∧
      (size.toNat : Int) < state.usage ns := by
  obtain ⟨t, t', hs, hs', _, rfl | ⟨c, rfl, hbearing⟩⟩ := h.run_cases move
  · rw [State.usage_eq hs, State.limit_eq hs] at hwithin
    rw [State.usage_eq hs', State.limit_eq hs'] at hover
    omega
  · rw [State.usage_eq hs, State.limit_eq hs] at hwithin
    rw [State.usage_eq hs', State.limit_eq hs'] at hover
    obtain ⟨hok, size, rfl, hsize⟩ := (hbearing ns).limit_lowered hwithin hover
    exact ⟨size, rfl, hok, by rwa [State.usage_eq hs]⟩

theorem usage_le_limit (h : Reachable config state) {scope : Scope} {ns key value : String}
    {ttl : UInt32} (hok : ((Quota.backend config).call
      (.setValue scope ns key value ttl) state).1.result = .ok ()) :
    ((Quota.backend config).call (.setValue scope ns key value ttl) state).2.Within config ns := by
  obtain ⟨t, hs, ht⟩ := h.stores
  obtain ⟨t', hs', _, heffect⟩ :=
    Quota.call_stores config hs (.setValue scope ns key value ttl)
  rw [hok] at heffect
  unfold State.Within
  rw [State.usage_eq hs', State.limit_eq hs']
  exact (heffect.bearing ht ns).usage_le_limit rfl

end Reachable

def Move.runAll (config : Config) (moves : List Move) (state : State) : State :=
  moves.foldl (fun state move => move.run config state) state

section Runs
variable {config : Config} {state : State} {moves : List Move} {ns : String}

theorem Reachable.runAll (h : Reachable config state) (moves : List Move) :
    Reachable config (Move.runAll config moves state) := by
  induction moves generalizing state with
  | nil => exact h
  | cons move rest ih => exact ih (h.moved move)

theorem Reachable.crossing (h : Reachable config state) (hwithin : state.Within config ns)
    (hover : ¬ (Move.runAll config moves state).Within config ns) :
    ∃ before size rest, moves = before ++ .call (.setLimit .device ns size) :: rest ∧
      (Move.runAll config before state).Within config ns ∧
      ((Quota.backend config).call (.setLimit .device ns size)
        (Move.runAll config before state)).1.result.isOk = true ∧
      (size.toNat : Int) < (Move.runAll config before state).usage ns := by
  induction moves generalizing state with
  | nil => exact absurd hwithin hover
  | cons move rest ih =>
    by_cases hnext : (move.run config state).Within config ns
    · obtain ⟨before, size, rest', rfl, hreached⟩ := ih (h.moved move) hnext hover
      exact ⟨move :: before, size, rest', rfl, hreached⟩
    · obtain ⟨size, rfl, hok, hsize⟩ := h.limit_lowered hwithin (not_le.mp hnext)
      exact ⟨[], size, rest, rfl, hwithin, hok, hsize⟩

theorem Reachable.usage_le_while_over (h : Reachable config state)
    (hover : ∀ before move rest, moves = before ++ move :: rest →
      ¬ (Move.runAll config before state).Within config ns) :
    (Move.runAll config moves state).usage ns ≤ state.usage ns := by
  induction moves generalizing state with
  | nil => exact le_rfl
  | cons move rest ih =>
    have hfirst : (move.run config state).usage ns ≤ state.usage ns :=
      h.usage_le_of_over move (not_le.mp (hover [] move rest rfl))
    refine (ih (h.moved move) fun before next rest' he => ?_).trans hfirst
    exact hover (move :: before) next rest' (by rw [he]; rfl)

end Runs

def Move.perform (config : Config) : Move → Session State → Session State
  | call c, session => (session.call (Quota.backend config) c).2
  | enrol request, session => (session.enrol (Quota.backend config) request).2
  | move, session => { session with store := move.run config session.store }

def Move.performAll (config : Config) (moves : List Move) (session : Session State) :
    Session State :=
  moves.foldl (fun session move => move.perform config session) session

section Sessions
variable {config : Config} {session : Session State}

/-- Listeners that only record do not show in the store. -/
theorem Move.perform_recording (config : Config) (hrecords : session.OnlyRecords) (move : Move) :
    (move.perform config session).OnlyRecords ∧
      (move.perform config session).store = move.run config session.store := by
  cases move with
  | call c =>
    change (session.call (Quota.backend config) c).2.OnlyRecords ∧
      (session.call (Quota.backend config) c).2.store = _
    rw [Session.call_recording hrecords]
    exact ⟨hrecords, rfl⟩
  | enrol | close | relaunch | setClock => exact ⟨hrecords, rfl⟩

theorem Move.performAll_recording (config : Config) (hrecords : session.OnlyRecords)
    (moves : List Move) :
    (Move.performAll config moves session).OnlyRecords ∧
      (Move.performAll config moves session).store =
        Move.runAll config moves session.store := by
  induction moves generalizing session with
  | nil => exact ⟨hrecords, rfl⟩
  | cons move rest ih =>
    obtain ⟨hnext, hstore⟩ := move.perform_recording config hrecords
    obtain ⟨hlast, hrest⟩ := ih hnext
    rw [hstore] at hrest
    exact ⟨hlast, hrest⟩

/-- A namespace's usage stays within the larger of what it was and the limit then in force, an
accepted write ends within the limit, and calls about another namespace add nothing. So only a limit
set below the usage takes a namespace over its limit, and as long as it is over, its usage does not
grow. -/
theorem usage_grows_only_within_limit (hrecords : session.OnlyRecords)
    (hreach : Reachable config session.store) (ns : String) :
    (∀ move : Move, (move.perform config session).store.usage ns ≤
      max (session.store.usage ns) ((move.perform config session).store.limit config ns)) ∧
    (∀ scope key value ttl after,
      session.call (Quota.backend config) (.setValue scope ns key value ttl) = (.ok (), after) →
        after.store.Within config ns) ∧
    (∀ move : Move, move.namespace? ≠ some ns →
      (move.perform config session).store.usage ns ≤ session.store.usage ns) ∧
    (∀ moves, session.store.Within config ns →
      ¬ (Move.performAll config moves session).store.Within config ns →
      ∃ before size rest, moves = before ++ .call (.setLimit .device ns size) :: rest ∧
        (Move.performAll config before session).store.Within config ns ∧
        ((Move.performAll config before session).call (Quota.backend config)
          (.setLimit .device ns size)).1 = .ok () ∧
        (size.toNat : Int) < (Move.performAll config before session).store.usage ns) ∧
    (∀ moves, (∀ before move rest, moves = before ++ move :: rest →
        ¬ (Move.performAll config before session).store.Within config ns) →
      (Move.performAll config moves session).store.usage ns ≤ session.store.usage ns) := by
  have hstore (move : Move) :
      (move.perform config session).store = move.run config session.store :=
    (move.perform_recording config hrecords).2
  have hstores (moves : List Move) :
      (Move.performAll config moves session).store = Move.runAll config moves session.store :=
    (Move.performAll_recording config hrecords moves).2
  refine ⟨fun move => ?_, fun scope key value ttl after hcall => ?_, fun move hmove => ?_,
    fun moves hwithin hover => ?_, fun moves hover => ?_⟩
  · rw [hstore]
    exact hreach.usage_le_max move ns
  · rw [Session.call_recording hrecords] at hcall
    obtain ⟨hok, rfl⟩ := Prod.mk_inj.mp hcall
    exact hreach.usage_le_limit hok
  · rw [hstore]
    exact hreach.usage_le_of_other hmove
  · rw [hstores] at hover
    obtain ⟨before, size, rest, hmoves, hreached, hok, hsize⟩ := hreach.crossing hwithin hover
    obtain ⟨hbefore, hsame⟩ := Move.performAll_recording config hrecords before
    refine ⟨before, size, rest, hmoves, by rwa [hsame], ?_, by rwa [hsame]⟩
    rw [Session.call_recording hbefore, hsame]
    dsimp only
    cases hresult : ((Quota.backend config).call (.setLimit .device ns size)
        (Move.runAll config before session.store)).1.result with
    | ok => rfl
    | error cause => rw [hresult] at hok; cases hok
  · rw [hstores]
    refine hreach.usage_le_while_over fun before move rest he => ?_
    rw [← hstores]
    exact hover before move rest he

/-- A limit of three bytes set on seven stored ones: the usage stays over the limit and can only
fall. -/
theorem usage_grows_only_within_limit_over :
    let config : Config := { path := "a.db" }
    let start : State := { clock := .atSecond 0 }
    let moves : List Move :=
      [.call (.setValue .device "ns" "key" "text" 0), .call (.setLimit .device "ns" 3)]
    let session : Session State := { store := Move.runAll config moves (launch config start).2.2 }
    session.OnlyRecords ∧ Reachable config session.store ∧
      session.store.usage "ns" = 7 ∧ session.store.limit config "ns" = 3 ∧
      ∀ move : Move, (move.perform config session).store.usage "ns" ≤
        max (session.store.usage "ns") ((move.perform config session).store.limit config "ns") := by
  intro config start moves session
  have hrecords : session.OnlyRecords := fun _ => rfl
  have hok : (launch config start).1 = .ok () := by cbv
  have hlaunched : Reachable config (launch config start).2.2 := .launched trivial hok
  have hreach : Reachable config session.store := hlaunched.runAll moves
  refine ⟨hrecords, hreach, by unfold session moves; cbv, by unfold session moves; cbv, ?_⟩
  exact (usage_grows_only_within_limit hrecords hreach "ns").1

end Sessions

end Device

end ScopedStore
