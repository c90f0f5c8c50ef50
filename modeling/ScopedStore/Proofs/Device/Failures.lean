import ScopedStore.Proofs.Device.Answers

/-! How the transactions of the device store fail. A transaction is confined to a kind of image and
a kind of failure if its statements are: what a statement may fail with is settled once, and each
transaction follows by composition. -/
namespace ScopedStore.Device

/-- From images that hold a property a transaction ends in such images or fails as allowed. -/
def Tx.Confined {ε α : Type} (holds : Standing → Image → Prop) (allowed : ε → Prop)
    (tx : Tx ε α) : Prop :=
  ∀ standing image, holds standing image →
    (∀ a after, tx standing image = .ok (a, after) → holds standing after) ∧
      ∀ cause, tx standing image = .error cause → allowed cause

namespace Tx.Confined

variable {ε α β : Type} {holds : Standing → Image → Prop} {allowed : ε → Prop}

theorem pure (a : α) : Confined holds allowed (Pure.pure a : Tx ε α) := by
  intro standing image himage
  refine ⟨fun b after h => ?_, fun cause h => by cases h⟩
  obtain ⟨_, rfl⟩ := Tx.pure_eq_ok h
  exact himage

theorem throw {cause : ε} (h : allowed cause) :
    Confined holds allowed (MonadExcept.throw cause : Tx ε α) := by
  intro standing image himage
  refine ⟨fun b after he => (Tx.throw_ne_ok he).elim, fun cause' he => ?_⟩
  cases he
  exact h

theorem bind {tx : Tx ε α} {next : α → Tx ε β} (ht : Confined holds allowed tx)
    (hn : ∀ a, Confined holds allowed (next a)) : Confined holds allowed (tx >>= next) := by
  intro standing image himage
  obtain ⟨hok, herror⟩ := ht standing image himage
  cases h : tx standing image with
  | error cause =>
    have hfail : (tx >>= next) standing image = .error cause := by
      change (tx standing image >>= fun found => next found.1 standing found.2) = _
      rw [h]
      rfl
    rw [hfail]
    refine ⟨fun b after he => (nomatch he), fun cause' he => ?_⟩
    cases he
    exact herror cause h
  | ok found =>
    rw [Tx.bind_of_ok h]
    exact hn found.1 standing found.2 (hok found.1 found.2 h)

end Tx.Confined

namespace Quota
open Tx (Confined)

/-- The statements of the store's transactions are confined. -/
structure Statements (holds : Standing → Image → Prop) (allowed : StoreError → Prop) : Prop where
  «namespace» : ∀ ns, Confined holds allowed (lift (Tx.namespace ns))
  createNamespace : ∀ ns, Confined holds allowed (lift (Tx.createNamespace ns))
  setNamespaceLimit : ∀ id limit, Confined holds allowed (lift (Tx.setNamespaceLimit id limit))
  deleteNamespace : ∀ ns, Confined holds allowed (lift (Tx.deleteNamespace ns))
  entry : ∀ id key, Confined holds allowed (lift (Tx.entry id key))
  putEntry : ∀ id key value expiresAt,
    Confined holds allowed (lift (Tx.putEntry id key value expiresAt))
  deleteEntry : ∀ id key, Confined holds allowed (lift (Tx.deleteEntry id key))
  purgeExpired : ∀ now, Confined holds allowed (lift (Tx.purgeExpired now))
  namespaceUsage : ∀ id, Confined holds allowed (lift (Tx.namespaceUsage id))
  globalUsage : Confined holds allowed (lift Tx.globalUsage)
  keys : ∀ id now, Confined holds allowed (lift (Tx.keys id now))
  namespaces : Confined holds allowed (lift Tx.namespaces)
  namespaceSizes : ∀ now, Confined holds allowed (lift (Tx.namespaceSizes now))

section Transactions
variable {holds : Standing → Image → Prop} {allowed : StoreError → Prop} {config : Config}
variable (h : Statements holds allowed)
include h

theorem identify_confined (ns : String) (found : Option NamespaceRecord) :
    Confined holds allowed (identify ns found) := by
  cases found with
  | some record => exact .pure _
  | none => exact (h.createNamespace ns).bind fun _ => .pure _

theorem reckon_confined (ns key : String) (found : Option NamespaceRecord) :
    Confined holds allowed (reckon config ns key found) := by
  cases found with
  | some record =>
    exact (h.entry record.id key).bind fun _ => (h.namespaceUsage record.id).bind fun _ => .pure _
  | none => exact .pure _

theorem write_confined (now : Int) (ns key value : String) (ttl : UInt32) :
    Confined holds allowed (write config now ns key value ttl) := by
  refine (h.purgeExpired now).bind fun _ => (h.namespace ns).bind fun existing => ?_
  refine (reckon_confined h ns key existing).bind fun old => ?_
  dsimp only
  split
  · exact .pure _
  · refine h.globalUsage.bind fun total => ?_
    split
    · exact .pure _
    · refine (identify_confined h ns existing).bind fun id => ?_
      exact (h.putEntry id key value _).bind fun _ => .pure _

theorem find_confined (ns key : String) : Confined holds allowed (find ns key) := by
  refine (h.namespace ns).bind fun found => ?_
  cases found with
  | none => exact .pure _
  | some record =>
    refine (h.entry record.id key).bind fun entry => ?_
    cases entry <;> exact .pure _

theorem removeKey_confined (ns key : String) : Confined holds allowed (removeKey ns key) := by
  refine (h.namespace ns).bind fun found => ?_
  cases found with
  | none => exact .pure _
  | some record => exact (h.deleteEntry record.id key).bind fun _ => .pure _

theorem removeNamespace_confined (ns : String) : Confined holds allowed (removeNamespace ns) :=
  (h.deleteNamespace ns).bind fun _ => .pure _

theorem assignLimit_confined (hfull : allowed globalFull) (ns : String) (size : UInt32) :
    Confined holds allowed (assignLimit config ns size) := by
  refine (h.namespace ns).bind fun existing => ?_
  have hroom : Confined holds allowed (checkRoom config ns existing) := by
    cases existing with
    | some record => exact .pure _
    | none =>
      refine h.globalUsage.bind fun total => ?_
      split
      · exact .throw hfull
      · exact .pure _
  exact hroom.bind fun _ => (identify_confined h ns existing).bind fun id =>
    h.setNamespaceLimit id size

theorem readLimit_confined (hmissing : allowed .notExist) (ns : String) :
    Confined holds allowed (readLimit config ns) := by
  refine (h.namespace ns).bind fun found => ?_
  cases found with
  | none => exact .throw hmissing
  | some record => exact .pure _

theorem listKeys_confined (now : Int) (ns : String) :
    Confined holds allowed (listKeys now ns) := by
  refine (h.namespace ns).bind fun found => ?_
  cases found with
  | none => exact .pure _
  | some record => exact h.keys record.id now

end Transactions

section Failures
variable {allowed : StoreError → Prop} (hown : ∀ own : Error, allowed own.toStoreError)
include hown

theorem lift_failure {α : Type} (statement : Tx Error α) :
    Confined (fun _ _ => True) allowed (lift statement) := by
  intro standing image _
  refine ⟨fun _ _ _ => trivial, fun cause h => ?_⟩
  unfold lift Tx.mapError at h
  cases hs : statement standing image with
  | ok found => rw [hs] at h; cases h
  | error own =>
    rw [hs] at h
    cases h
    exact hown own

theorem statements_failure : Statements (fun _ _ => True) allowed := by
  constructor <;> intros <;> exact lift_failure hown _

theorem transact_failure {α : Type} {writing : Bool} {scope : Scope} {body : Tx StoreError α}
    {state state' : State} {cause : StoreError}
    (hbody : Confined (fun _ _ => True) allowed body)
    (h : transact writing scope body state = (.error cause, state')) : allowed cause := by
  unfold transact Handle.transact at h
  cases hstart : Handle.start writing scope state.site with
  | error own =>
    rw [hstart] at h
    cases h
    exact hown own
  | ok image =>
    rw [hstart] at h
    dsimp only at h
    cases hb : body ⟨state.site.isMoved, state.site.sawTables⟩ image with
    | ok found => rw [hb] at h; cases h
    | error own =>
      rw [hb] at h
      cases h
      exact (hbody _ _ trivial).2 _ hb

end Failures

theorem toStoreError_ne_invalidLength (own : Error) (detail : String) :
    own.toStoreError ≠ .invalidLength detail := by
  cases own <;> exact nofun

end Quota

/-- A reading or a change of tables that does not blame the file. -/
def Blameless {α : Type} (x : Except Error α) : Prop :=
  ∀ reason, x ≠ .error (.unavailable reason)

namespace Blameless

variable {α β : Type} {x : Except Error α} {f : α → Except Error β}

theorem ok (a : α) : Blameless (.ok a) := fun _ h => nomatch h

theorem bind (hx : Blameless x) (hf : ∀ a, Blameless (f a)) : Blameless (x >>= f) := by
  cases x with
  | ok a => exact hf a
  | error cause =>
    intro reason h
    cases h
    exact hx reason rfl

theorem map (hx : Blameless x) (g : α → β) : Blameless (x.map g) := by
  cases x with
  | ok a => exact .ok _
  | error cause =>
    intro reason h
    cases h
    exact hx reason rfl

theorem mapM {list : List α} (hf : ∀ a, Blameless (f a)) : Blameless (list.mapM f) := by
  induction list with
  | nil => exact .ok _
  | cons a rest ih =>
    rw [List.mapM_cons]
    exact (hf a).bind fun _ => ih.bind fun _ => .ok _

theorem storedBytes (number : Int) : Blameless (storedBytes number) := by
  unfold Device.storedBytes
  split
  · exact fun _ h => nomatch h
  · exact .ok _

theorem sumStored (numbers : List Int) : Blameless (sumStored numbers) := by
  unfold Device.sumStored
  generalize (0 : Int) = start
  induction numbers generalizing start with
  | nil => exact .ok start
  | cons number rest ih =>
    rw [List.foldlM_cons]
    refine bind ?_ ih
    dsimp only
    split
    · exact .ok _
    · exact fun _ h => nomatch h

variable (t : Tables)

theorem namespaceRecord? (ns : String) : Blameless (t.namespaceRecord? ns) := by
  unfold Tables.namespaceRecord?
  split
  · exact .ok _
  · split
    · exact .ok _
    · refine map ?_ _
      unfold storedLimit
      split
      · exact .ok _
      · exact fun _ h => nomatch h

theorem entryRecord? (id : Int) (key : String) : Blameless (t.entryRecord? id key) := by
  unfold Tables.entryRecord?
  split
  · exact .ok _
  · exact map (storedBytes _) _

theorem createNamespace (ns : String) : Blameless (t.createNamespace ns) := by
  unfold Tables.createNamespace
  split
  · exact fun _ h => nomatch h
  · exact .ok _

theorem putItem (id : Int) (key value : String) (expiresAt : Option Int) :
    Blameless (t.putItem id key value expiresAt) := by
  unfold Tables.putItem
  split
  · dsimp only
    split <;> exact .ok _
  · exact fun _ h => nomatch h

theorem namespaceUsage (id : Int) : Blameless (t.namespaceUsage id) :=
  (sumStored _).bind storedBytes

theorem globalUsage : Blameless t.globalUsage := by
  refine (sumStored _).bind fun names => (sumStored _).bind fun items => ?_
  dsimp only
  split
  · exact storedBytes _
  · exact fun _ h => nomatch h

theorem sizes (now : Int) : Blameless (t.sizes now) := by
  refine (mapM fun row => (sumStored _).bind fun total => .ok _).bind fun sums => ?_
  exact mapM fun sum => (storedBytes _).bind fun bytes => .ok _

end Blameless

namespace Quota
open Tx (Confined)

/-- What a transaction of a store in use runs on. -/
def InUse (standing : Standing) (image : Image) : Prop :=
  standing.isMoved = false ∧ ∃ version t, image = .ready version t

theorem toStoreError_ne_unavailable {cause : Error} (h : ∀ reason, cause ≠ .unavailable reason)
    (reason : String) : cause.toStoreError ≠ .unavailable reason := by
  cases cause with
  | unavailable own => exact absurd rfl (h own)
  | _ => exact fun he => nomatch he

theorem query_confined {α : Type} {first : String} {read : Tables → Except Error α}
    (hread : ∀ t, Blameless (read t)) :
    Confined InUse (fun cause => ∀ reason, cause ≠ .unavailable reason)
      (lift (Tx.query first read)) := by
  rintro standing _ ⟨hmoved, version, t, rfl⟩
  rw [Tx.lift_query]
  cases hr : read t with
  | ok found =>
    refine ⟨fun a after h => ?_, fun cause h => nomatch h⟩
    cases h
    exact ⟨hmoved, version, t, rfl⟩
  | error own =>
    refine ⟨fun a after h => (nomatch h), fun cause h => ?_⟩
    cases h
    exact toStoreError_ne_unavailable fun reason he => hread t reason (hr.trans (he ▸ rfl))

theorem update_confined {α : Type} {first : String}
    {change : Tables → Except Error (α × Tables)} {rewrites : Bool}
    (hchange : ∀ t, Blameless (change t)) :
    Confined InUse (fun cause => ∀ reason, cause ≠ .unavailable reason)
      (lift (Tx.update first change rewrites)) := by
  rintro ⟨moved, saw⟩ _ ⟨hmoved, version, t, rfl⟩
  obtain rfl : moved = false := hmoved
  cases hc : change t with
  | ok found =>
    obtain ⟨found, t'⟩ := found
    rw [Tx.update_ready hc]
    refine ⟨fun a after h => ?_, fun cause h => nomatch h⟩
    cases h
    exact ⟨rfl, version, t', rfl⟩
  | error own =>
    have hfail : lift (Tx.update first change rewrites) ⟨false, saw⟩ (.ready version t) =
        .error own.toStoreError := by
      unfold lift Tx.mapError Tx.update
      rw [Tx.bind_of_ok (Tx.tables_ready first), hc]
      rfl
    rw [hfail]
    refine ⟨fun a after h => (nomatch h), fun cause h => ?_⟩
    cases h
    exact toStoreError_ne_unavailable fun reason he => hchange t reason (hc.trans (he ▸ rfl))

theorem statements_inUse :
    Statements InUse fun cause => ∀ reason, cause ≠ .unavailable reason where
  «namespace» ns := query_confined fun t => .namespaceRecord? t ns
  createNamespace ns := update_confined fun t => .createNamespace t ns
  setNamespaceLimit _ _ := update_confined fun _ => .ok _
  deleteNamespace _ := update_confined fun _ => .ok _
  entry id key := query_confined fun t => .entryRecord? t id key
  putEntry id key value expiresAt :=
    update_confined fun t => (Blameless.putItem t id key value expiresAt).map _
  deleteEntry _ _ := update_confined fun _ => .ok _
  purgeExpired _ := update_confined fun _ => .ok _
  namespaceUsage id := query_confined fun t => .namespaceUsage t id
  globalUsage := query_confined fun t => .globalUsage t
  keys _ _ := query_confined fun _ => .ok _
  namespaces := query_confined fun _ => .ok _
  namespaceSizes now := query_confined fun t => .sizes t now

end Quota

end ScopedStore.Device
