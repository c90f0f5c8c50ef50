import Mathlib
import ScopedStore.Store.Scripted
import ScopedStore.Store.Layer

/-! Stacks of layers around any backend. All that a stack keeps of its layers is whether there is a
reconnect layer among them; nested ones add no retries and no reopenings. Flushing alone also tells
whether there is a cache layer. -/
namespace ScopedStore

/-- What can reach a backend. -/
inductive Request where
  | call (c : Call)
  | enrol (request : Enrolment)
  deriving DecidableEq

namespace Reconnect

variable {σ α : Type}

/-- What a second attempt is reported as. -/
def settled : Except StoreError α → Except StoreError α
  | .error (.unavailable reason) =>
    .error (.general ("store unavailable after reopen: " ++ reason))
  | result => result

/-- The courses that a call through a reconnect layer can take. -/
inductive Course (inner : Backend σ) (c : Call) (s : σ) : Answer c.Reply → σ → Prop where
  | served {answer : Answer c.Reply} {s' : σ} (attempt : inner.call c s = (answer, s'))
      (available : ∀ reason, answer.result ≠ .error (.unavailable reason)) :
      Course inner c s answer s'
  | unopened {first answer : Answer c.Reply} {opened : Answer Unit} {s₁ s₂ : σ} {reason : String}
      {cause : StoreError} (attempt : inner.call c s = (first, s₁))
      (down : first.result = .error (.unavailable reason))
      (reopening : inner.call .openStore s₁ = (opened, s₂)) (failed : opened.result = .error cause)
      (result : answer.result = .error (.general ("store reopen failed: " ++ cause.message)))
      (notices : answer.notices = first.notices ++ opened.notices) : Course inner c s answer s₂
  | retried {first second answer : Answer c.Reply} {opened : Answer Unit} {s₁ s₂ s₃ : σ}
      {reason : String} (attempt : inner.call c s = (first, s₁))
      (down : first.result = .error (.unavailable reason))
      (reopening : inner.call .openStore s₁ = (opened, s₂)) (ready : opened.result = .ok ())
      (retry : inner.call c s₂ = (second, s₃)) (result : answer.result = settled second.result)
      (notices : answer.notices = first.notices ++ opened.notices ++ second.notices) :
      Course inner c s answer s₃

variable {inner other : Backend σ} {c : Call} {s : σ}

theorem settled_ne_unavailable (result : Except StoreError α) (reason : String) :
    settled result ≠ .error (.unavailable reason) := by
  unfold settled
  split
  · simp
  next hne => exact hne reason

theorem settled_of_available {result : Except StoreError α}
    (h : ∀ reason, result ≠ .error (.unavailable reason)) : settled result = result := by
  unfold settled
  split
  next reason => exact absurd rfl (h reason)
  · rfl

theorem call_of_available
    (h : ∀ reason, (inner.call c s).1.result ≠ .error (.unavailable reason)) :
    call inner c s = inner.call c s := by
  unfold call
  cases ha : inner.call c s with
  | mk answer s' =>
    rw [ha] at h
    dsimp only
    split
    next reason hr => exact absurd hr (h reason)
    · rfl

theorem call_of_unopened {first : Answer c.Reply} {opened : Answer Unit} {s₁ s₂ : σ}
    {reason : String} {cause : StoreError} (attempt : inner.call c s = (first, s₁))
    (down : first.result = .error (.unavailable reason))
    (reopening : inner.call .openStore s₁ = (opened, s₂)) (failed : opened.result = .error cause) :
    (call inner c s).1.result = .error (.general ("store reopen failed: " ++ cause.message)) ∧
      (call inner c s).1.notices = first.notices ++ opened.notices ∧ (call inner c s).2 = s₂ := by
  simp only [call, attempt, down, reopening, failed]
  exact ⟨rfl, rfl, trivial⟩

theorem call_of_retried {first second : Answer c.Reply} {opened : Answer Unit} {s₁ s₂ s₃ : σ}
    {reason : String} (attempt : inner.call c s = (first, s₁))
    (down : first.result = .error (.unavailable reason))
    (reopening : inner.call .openStore s₁ = (opened, s₂)) (ready : opened.result = .ok ())
    (retry : inner.call c s₂ = (second, s₃)) :
    (call inner c s).1.result = settled second.result ∧
      (call inner c s).1.notices = first.notices ++ opened.notices ++ second.notices ∧
      (call inner c s).2 = s₃ := by
  simp only [call, attempt, down, reopening, ready, retry]
  split
  next again hagain => exact ⟨by rw [hagain]; rfl, rfl, rfl⟩
  next hne => exact ⟨(settled_of_available hne).symm, rfl, rfl⟩

theorem call_course (inner : Backend σ) (c : Call) (s : σ) :
    Course inner c s (call inner c s).1 (call inner c s).2 := by
  cases ha : inner.call c s with
  | mk first s₁ =>
    by_cases hdown : ∃ reason, first.result = .error (.unavailable reason)
    · obtain ⟨reason, hdown⟩ := hdown
      cases ho : inner.call .openStore s₁ with
      | mk opened s₂ =>
        cases hopened : opened.result with
        | error cause =>
          obtain ⟨hresult, hnotices, hstate⟩ := call_of_unopened ha hdown ho hopened
          rw [hstate]
          exact .unopened ha hdown ho hopened hresult hnotices
        | ok =>
          cases hs : inner.call c s₂ with
          | mk second s₃ =>
            obtain ⟨hresult, hnotices, hstate⟩ := call_of_retried ha hdown ho hopened hs
            rw [hstate]
            exact .retried ha hdown ho hopened hs hresult hnotices
    · have hup : ∀ reason, (inner.call c s).1.result ≠ .error (.unavailable reason) := by
        rw [ha]
        exact fun reason hr => hdown ⟨reason, hr⟩
      rw [call_of_available hup]
      exact .served rfl hup

theorem call_ne_unavailable (inner : Backend σ) (c : Call) (s : σ) (reason : String) :
    (call inner c s).1.result ≠ .error (.unavailable reason) := by
  cases call_course inner c s with
  | served attempt available => exact available reason
  | unopened attempt down reopening failed result notices => simp [result]
  | retried attempt down reopening ready retry result notices =>
    rw [result]
    exact settled_ne_unavailable _ reason

theorem call_congr (hc : inner.call c = other.call c)
    (hopen : inner.call .openStore = other.call .openStore) : call inner c = call other c := by
  funext s
  unfold call
  rw [hc, hopen]

theorem kept {part : σ → α} (h : ∀ c s, part (inner.call c s).2 = part s) {c : Call}
    {before after : σ} {answer : Answer c.Reply} (attempt : inner.call c before = (answer, after)) :
    part after = part before := by
  have hcall := h c before
  rw [attempt] at hcall
  exact hcall

/-- What no call of a backend changes, its attempts and reopenings do not change either. -/
theorem call_keeps {part : σ → α} (h : ∀ c s, part (inner.call c s).2 = part s) (c : Call)
    (s : σ) : part (call inner c s).2 = part s := by
  cases call_course inner c s with
  | served attempt available => exact kept h attempt
  | unopened attempt down reopening failed result notices =>
    exact (kept h reopening).trans (kept h attempt)
  | retried attempt down reopening ready retry result notices =>
    exact (kept h retry).trans ((kept h reopening).trans (kept h attempt))

/-- Where a call for data succeeds through a reconnect layer, the last attempt did it, in a state
that agrees with the first one in all that calls leave alone. -/
theorem call_ok {part : σ → α} (hpart : ∀ c s, part (inner.call c s).2 = part s) {reply : c.Reply}
    (h : (call inner c s).1.result = .ok reply) :
    ∃ s', part s' = part s ∧ (inner.call c s').1.result = .ok reply ∧
      (inner.call c s').2 = (call inner c s).2 := by
  have hcourse := call_course inner c s
  generalize call inner c s = made at h hcourse ⊢
  obtain ⟨answer, after⟩ := made
  cases hcourse with
  | served attempt available => exact ⟨s, rfl, by rw [attempt]; exact h, by rw [attempt]⟩
  | unopened attempt down reopening failed result notices => exact nomatch result.symm.trans h
  | @retried first second answer opened s₁ s₂ s₃ reason attempt down reopening ready retry result =>
    have hsecond : settled second.result = .ok reply := result.symm.trans h
    have hok : second.result = .ok reply := by
      unfold settled at hsecond
      split at hsecond
      · cases hsecond
      · exact hsecond
    refine ⟨s₂, (kept hpart reopening).trans (kept hpart attempt), ?_, ?_⟩
    · rw [retry]
      exact hok
    · rw [retry]

/-- An unavailable store has nothing to flush. -/
def forgiven : Except StoreError Unit → Except StoreError Unit
  | .error (.unavailable _) => .ok ()
  | result => result

theorem forgiven_forgiven (result : Except StoreError Unit) :
    forgiven (forgiven result) = forgiven result := by
  cases result with
  | ok => rfl
  | error cause => cases cause <;> rfl

theorem flush_outcome (inner : Backend σ) (s : σ) :
    (flush inner s).1.result = forgiven (inner.call .flushCache s).1.result ∧
      (flush inner s).2 = (inner.call .flushCache s).2 := by
  cases hf : inner.call .flushCache s with
  | mk answer s' =>
    cases hr : answer.result with
    | ok => simp [flush, forgiven, hf, hr]
    | error cause => cases cause <;> simp [flush, forgiven, hf, hr, Answer.withResult]

end Reconnect

theorem Reconnect.flush_notices {σ : Type} (inner : Backend σ) (s : σ) :
    (flush inner s).1.notices = (inner.call .flushCache s).1.notices := by
  unfold flush
  dsimp only
  split <;> rfl

theorem Cache.flush_notices {σ : Type} (inner : Backend σ) (s : σ) :
    (flush inner s).1.notices = (inner.call .flushCache s).1.notices := by
  unfold flush
  dsimp only
  split <;> rfl

theorem Cache.flush_outcome {σ : Type} (inner : Backend σ) (s : σ) :
    (flush inner s).1.result = .ok () ∧ (flush inner s).2 = (inner.call .flushCache s).2 := by
  unfold flush
  dsimp only
  split <;> exact ⟨rfl, rfl⟩

namespace Backend

variable {σ : Type} {outer inner : Backend σ}

theorem reconnecting_call {c : Call} (h : c.isData = true) :
    inner.reconnecting.call c = Reconnect.call inner c := by
  cases c with
  | openStore | flushCache => cases h
  | _ => rfl

/-- Two backends that only flushing can tell apart. -/
structure Like (outer inner : Backend σ) : Prop where
  call : ∀ c, c ≠ .flushCache → outer.call c = inner.call c
  enrol : outer.enrol = inner.enrol
  members : outer.members = inner.members

theorem Like.refl (inner : Backend σ) : Like inner inner := ⟨fun _ _ => rfl, rfl, rfl⟩

theorem Like.caching (h : Like outer inner) : Like outer.caching inner := by
  refine ⟨fun c hc => ?_, h.enrol, h.members⟩
  rw [← h.call c hc]
  cases c with
  | flushCache => exact absurd rfl hc
  | _ => rfl

theorem Like.reconnecting (h : Like outer inner) : Like outer.reconnecting inner.reconnecting := by
  refine ⟨fun c hc => ?_, h.enrol, h.members⟩
  have hopen := h.call .openStore (by simp)
  cases c with
  | openStore => exact hopen
  | flushCache => exact absurd rfl hc
  | _ => exact Reconnect.call_congr (h.call _ hc) hopen

/-- A reconnect layer never answers that the store is unavailable, so one more has nothing to do. -/
theorem like_reconnecting_twice (inner : Backend σ) :
    Like inner.reconnecting.reconnecting inner.reconnecting := by
  refine ⟨fun c hc => ?_, rfl, rfl⟩
  have hup {c : Call} (hdata : c.isData = true) (s : σ) (reason : String) :
      (inner.reconnecting.call c s).1.result ≠ .error (.unavailable reason) := by
    rw [reconnecting_call hdata]
    exact Reconnect.call_ne_unavailable inner c s reason
  cases c with
  | openStore => rfl
  | flushCache => exact absurd rfl hc
  | _ => exact funext fun s => Reconnect.call_of_available (hup rfl s)

/-- The same backend, writing down all that reaches it. -/
def watched (inner : Backend σ) : Backend (σ × List Request) where
  call c s :=
    let (answer, state) := inner.call c s.1
    (answer, (state, s.2 ++ [.call c]))
  enrol request s :=
    let (enrolled, state) := inner.enrol request s.1
    (enrolled, (state, s.2 ++ [.enrol request]))
  members s := inner.members s.1

theorem watched_call {c : Call} {s s' : σ × List Request} {answer : Answer c.Reply}
    (h : inner.watched.call c s = (answer, s')) :
    inner.call c s.1 = (answer, s'.1) ∧ s'.2 = s.2 ++ [.call c] := by
  cases h
  exact ⟨rfl, rfl⟩

/-- What reaches a backend through one reconnect layer: the call, and only if that found it
unavailable an opening, and only then perhaps the call once more. -/
theorem seen_reconnecting (inner : Backend σ) (c : Call) (s : σ × List Request) :
    (Reconnect.call inner.watched c s).2.2 = s.2 ++ [.call c] ∨
      (∃ reason, (inner.call c s.1).1.result = .error (.unavailable reason)) ∧
        ((Reconnect.call inner.watched c s).2.2 = s.2 ++ [.call c, .call .openStore] ∨
          (Reconnect.call inner.watched c s).2.2 =
            s.2 ++ [.call c, .call .openStore, .call c]) := by
  generalize hmade : Reconnect.call inner.watched c s = made
  have hcourse := Reconnect.call_course inner.watched c s
  rw [hmade] at hcourse
  obtain ⟨answer, after⟩ := made
  cases hcourse with
  | served attempt available => exact .inl (watched_call attempt).2
  | @unopened first answer opened s₁ s₂ reason cause attempt down reopening =>
    obtain ⟨hfirst, hseen⟩ := watched_call attempt
    refine .inr ⟨⟨reason, by rw [hfirst]; exact down⟩, .inl ?_⟩
    rw [(watched_call reopening).2, hseen]
    simp
  | @retried first second answer opened s₁ s₂ s₃ reason attempt down reopening ready retry =>
    obtain ⟨hfirst, hseen⟩ := watched_call attempt
    refine .inr ⟨⟨reason, by rw [hfirst]; exact down⟩, .inr ?_⟩
    rw [(watched_call retry).2, (watched_call reopening).2, hseen]
    simp

end Backend

namespace Layer

variable {σ : Type}

/-- The layers that a stack comes down to. -/
def normal (layers : List Layer) : List Layer :=
  if .reconnect ∈ layers then [.reconnect] else []

theorem stack_append_singleton (layers : List Layer) (layer : Layer) (inner : Backend σ) :
    stack (layers ++ [layer]) inner = layer.wrap (stack layers inner) := by
  simp [stack]

theorem normal_append_singleton {layer : Layer} (h : layer ≠ .reconnect) (layers : List Layer) :
    normal (layers ++ [layer]) = normal layers := by
  simp [normal, h.symm]

theorem stack_normal_of_mem {layers : List Layer} (h : .reconnect ∈ layers) (inner : Backend σ) :
    stack (normal layers) inner = inner.reconnecting := by
  rw [normal, if_pos h]
  rfl

theorem stack_like (layers : List Layer) (inner : Backend σ) :
    Backend.Like (stack layers inner) (stack (normal layers) inner) := by
  induction layers using List.reverseRecOn with
  | nil => exact .refl inner
  | append_singleton layers layer ih =>
    rw [stack_append_singleton]
    cases layer with
    | cache =>
      rw [normal_append_singleton (by simp)]
      exact ih.caching
    | boxed | shared =>
      rw [normal_append_singleton (by simp)]
      exact ih
    | reconnect =>
      have hlike := ih.reconnecting
      have hnormal : normal (layers ++ [.reconnect]) = [.reconnect] := by simp [normal]
      rw [hnormal]
      by_cases hr : Layer.reconnect ∈ layers
      · rw [stack_normal_of_mem hr] at hlike
        have hagain := Backend.like_reconnecting_twice inner
        exact ⟨fun c hc => (hlike.call c hc).trans (hagain.call c hc), hlike.enrol, hlike.members⟩
      · rw [normal, if_neg hr] at hlike
        exact hlike

/-- What flushing a stack results in, from what flushing its backend results in. -/
def flushed (layers : List Layer) (result : Except StoreError Unit) : Except StoreError Unit :=
  if .cache ∈ layers then .ok ()
  else if .reconnect ∈ layers then Reconnect.forgiven result
  else result

theorem flush_stack (layers : List Layer) (inner : Backend σ) (s : σ) :
    ((stack layers inner).call .flushCache s).1.result =
        flushed layers (inner.call .flushCache s).1.result ∧
      ((stack layers inner).call .flushCache s).2 = (inner.call .flushCache s).2 := by
  induction layers using List.reverseRecOn with
  | nil => exact ⟨rfl, rfl⟩
  | append_singleton layers layer ih =>
    obtain ⟨hresult, hstate⟩ := ih
    rw [stack_append_singleton]
    cases layer with
    | cache =>
      obtain ⟨hok, hsame⟩ := Cache.flush_outcome (stack layers inner) s
      exact ⟨hok.trans (by simp [flushed]), hsame.trans hstate⟩
    | boxed | shared => exact ⟨hresult.trans (by simp [flushed]), hstate⟩
    | reconnect =>
      obtain ⟨hforgiven, hsame⟩ := Reconnect.flush_outcome (stack layers inner) s
      refine ⟨hforgiven.trans ?_, hsame.trans hstate⟩
      rw [hresult]
      unfold flushed
      by_cases hc : Layer.cache ∈ layers
      · simp [hc, Reconnect.forgiven]
      · by_cases hr : Layer.reconnect ∈ layers
        · simp [hc, hr, Reconnect.forgiven_forgiven]
        · simp [hc, hr]

theorem flush_stack_notices (layers : List Layer) (inner : Backend σ) (s : σ) :
    ((stack layers inner).call .flushCache s).1.notices =
      (inner.call .flushCache s).1.notices := by
  induction layers using List.reverseRecOn with
  | nil => rfl
  | append_singleton layers layer ih =>
    rw [stack_append_singleton, ← ih]
    cases layer with
    | cache => exact Cache.flush_notices (stack layers inner) s
    | reconnect => exact Reconnect.flush_notices (stack layers inner) s
    | boxed | shared => rfl

theorem stack_enrol (layers : List Layer) (inner : Backend σ) :
    (stack layers inner).enrol = inner.enrol ∧ (stack layers inner).members = inner.members := by
  have hlike := stack_like layers inner
  rw [hlike.enrol, hlike.members]
  unfold normal
  split <;> exact ⟨rfl, rfl⟩

/-- What no call of a backend changes, no call through a stack changes either. -/
theorem stack_keeps {α : Type} {part : σ → α} {inner : Backend σ}
    (h : ∀ c s, part (inner.call c s).2 = part s) (layers : List Layer) (c : Call) (s : σ) :
    part ((stack layers inner).call c s).2 = part s := by
  by_cases hflush : c = .flushCache
  · subst hflush
    rw [(flush_stack layers inner s).2]
    exact h .flushCache s
  · rw [(stack_like layers inner).call c hflush]
    unfold normal
    split
    next hr =>
      change part (inner.reconnecting.call c s).2 = part s
      by_cases hdata : c.isData = true
      · rw [Backend.reconnecting_call hdata]
        exact Reconnect.call_keeps h c s
      · cases c with
        | openStore => exact h .openStore s
        | flushCache => exact absurd rfl hflush
        | _ => exact absurd rfl hdata
    next => exact h c s

/-- A call for data that succeeds through a stack was made of the backend, and did its work there,
in a state that agrees with the one of the call in all that calls leave alone. -/
theorem stack_call_ok {α : Type} {inner : Backend σ} {part : σ → α}
    (hpart : ∀ c s, part (inner.call c s).2 = part s)
    (layers : List Layer) {c : Call} {s : σ} {reply : c.Reply} (hc : c.isData = true)
    (h : ((stack layers inner).call c s).1.result = .ok reply) :
    ∃ s', part s' = part s ∧ (inner.call c s').1.result = .ok reply ∧
      (inner.call c s').2 = ((stack layers inner).call c s).2 := by
  have hflush : c ≠ .flushCache := by
    rintro rfl
    cases hc
  rw [(stack_like layers inner).call c hflush] at h ⊢
  by_cases hr : .reconnect ∈ layers
  · rw [stack_normal_of_mem hr, Backend.reconnecting_call hc] at h ⊢
    exact Reconnect.call_ok hpart h
  · rw [normal, if_neg hr] at h ⊢
    exact ⟨s, rfl, h, rfl⟩

/-- What a backend answers without being unavailable, it answers through every stack. -/
theorem stack_call_of_available {inner : Backend σ} (layers : List Layer) {c : Call} {s : σ}
    (hc : c.isData = true)
    (h : ∀ reason, (inner.call c s).1.result ≠ .error (.unavailable reason)) :
    (stack layers inner).call c s = inner.call c s := by
  have hflush : c ≠ .flushCache := by
    rintro rfl
    cases hc
  rw [(stack_like layers inner).call c hflush]
  by_cases hr : .reconnect ∈ layers
  · rw [stack_normal_of_mem hr, Backend.reconnecting_call hc, Reconnect.call_of_available h]
  · rw [normal, if_neg hr]
    rfl

/-- Through a stack a call for data fails as it does at the backend, or in general. -/
theorem stack_call_failure {inner : Backend σ} {allowed : StoreError → Prop} (layers : List Layer)
    {c : Call} (hc : c.isData = true) (hgeneral : ∀ detail, allowed (.general detail))
    (h : ∀ s cause, (inner.call c s).1.result = .error cause → allowed cause) (s : σ)
    (cause : StoreError) (hfail : ((stack layers inner).call c s).1.result = .error cause) :
    allowed cause := by
  have hflush : c ≠ .flushCache := by
    rintro rfl
    cases hc
  rw [(stack_like layers inner).call c hflush] at hfail
  by_cases hr : .reconnect ∈ layers
  · rw [stack_normal_of_mem hr, Backend.reconnecting_call hc] at hfail
    have hcourse := Reconnect.call_course inner c s
    generalize Reconnect.call inner c s = made at hcourse hfail
    obtain ⟨answer, after⟩ := made
    cases hcourse with
    | served attempt available => exact h s cause (by rw [attempt]; exact hfail)
    | unopened attempt down reopening failed result notices =>
      cases result.symm.trans hfail
      exact hgeneral _
    | @retried first second answer opened s₁ s₂ s₃ reason attempt down reopening ready retry
        result notices =>
      have hsettled : Reconnect.settled second.result = .error cause := result.symm.trans hfail
      unfold Reconnect.settled at hsettled
      split at hsettled
      · cases hsettled
        exact hgeneral _
      · exact h s₂ cause (by rw [retry]; exact hsettled)
  · rw [normal, if_neg hr] at hfail
    exact h s cause hfail

/-- What reaches a backend through a stack during one call. -/
def reaching (layers : List Layer) (inner : Backend σ) (c : Call) (s : σ) : List Request :=
  ((stack layers inner.watched).call c (s, [])).2.2

theorem reaching_of_available {inner : Backend σ} (layers : List Layer) {c : Call} {s : σ}
    (hc : c.isData = true)
    (h : ∀ reason, (inner.call c s).1.result ≠ .error (.unavailable reason)) :
    reaching layers inner c s = [.call c] := by
  have hwatched : (stack layers inner.watched).call c (s, []) = inner.watched.call c (s, []) :=
    stack_call_of_available layers hc h
  unfold reaching
  rw [hwatched]
  rfl

/-- A stack with a reconnect layer does what a single one does, and a stack without does what its
backend does; flushing, which reaches the backend once, also tells whether there is a cache layer.
Under a reconnect layer no call for data finds the store unavailable; it is made at most twice, with
one opening in between, and that only when the first attempt found the store unavailable. -/
theorem stack_normal_form (layers : List Layer) (inner : Backend σ) (s : σ) :
    (∀ c, c ≠ .flushCache →
      (stack layers inner).call c s = (stack (normal layers) inner).call c s ∧
        reaching layers inner c s = reaching (normal layers) inner c s) ∧
    (∀ request, (stack layers inner).enrol request s = inner.enrol request s ∧
      ((stack layers inner.watched).enrol request (s, [])).2.2 = [.enrol request]) ∧
    (.reconnect ∈ layers → ∀ c, c.isData = true →
      (∀ reason, ((stack layers inner).call c s).1.result ≠ .error (.unavailable reason)) ∧
      (reaching layers inner c s = [.call c] ∨
        (∃ reason, (inner.call c s).1.result = .error (.unavailable reason)) ∧
          (reaching layers inner c s = [.call c, .call .openStore] ∨
            reaching layers inner c s = [.call c, .call .openStore, .call c]))) ∧
    (((stack layers inner).call .flushCache s).1.result =
        flushed layers (inner.call .flushCache s).1.result ∧
      ((stack layers inner).call .flushCache s).2 = (inner.call .flushCache s).2 ∧
      reaching layers inner .flushCache s = [.call .flushCache]) := by
  have hlike := stack_like layers inner
  have hwatched := stack_like layers inner.watched
  refine ⟨fun c hc => ⟨?_, ?_⟩, fun request => ⟨?_, ?_⟩, fun hr c hdata => ?_, ?_⟩
  · rw [hlike.call c hc]
  · unfold reaching
    rw [hwatched.call c hc]
  · rw [hlike.enrol]
    unfold normal
    split <;> rfl
  · rw [hwatched.enrol]
    unfold normal
    split <;> rfl
  · have hc : c ≠ .flushCache := by
      rintro rfl
      cases hdata
    unfold reaching
    rw [hlike.call c hc, hwatched.call c hc, stack_normal_of_mem hr, stack_normal_of_mem hr,
      Backend.reconnecting_call hdata, Backend.reconnecting_call hdata]
    exact ⟨Reconnect.call_ne_unavailable inner c s, Backend.seen_reconnecting inner c (s, [])⟩
  · obtain ⟨hresult, hstate⟩ := flush_stack layers inner s
    refine ⟨hresult, hstate, ?_⟩
    unfold reaching
    rw [(flush_stack layers inner.watched (s, [])).2]
    rfl

/-- Two reconnect layers around a backend that stays unavailable: one opening, two attempts. -/
theorem stack_normal_form_nested :
    let layers : List Layer := [.reconnect, .cache, .boxed, .reconnect, .shared]
    let down : Option StoreError := some (.unavailable "gone")
    let start : Scripted := { failures := [down, down, down] }
    let c : Call := .getValue .device "ns" "key"
    c ≠ .flushCache ∧ .reconnect ∈ layers ∧ c.isData = true ∧
      (stack layers Scripted.backend).call c start =
        (stack [.reconnect] Scripted.backend).call c start ∧
      (∀ reason, ((stack layers Scripted.backend).call c start).1.result ≠
        .error (.unavailable reason)) ∧
      reaching layers Scripted.backend c start = [.call c, .call .openStore, .call c] := by
  intro layers down start c
  have hc : c ≠ .flushCache := by decide
  have hr : .reconnect ∈ layers := by decide
  have hdata : c.isData = true := rfl
  obtain ⟨hsame, _, hreconnect, _⟩ := stack_normal_form layers Scripted.backend start
  exact ⟨hc, hr, hdata, (hsame c hc).1, (hreconnect hr c hdata).1, rfl⟩

end Layer

end ScopedStore
