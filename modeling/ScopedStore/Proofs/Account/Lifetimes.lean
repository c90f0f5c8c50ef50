import Mathlib
import ScopedStore.Proofs.Account.Calls
import ScopedStore.Proofs.Time.Lifetimes

/-! How long a value still lives, as a read of the account store tells it. The service sends a
lifetime or a point in time, either to the nanosecond; a read tells whole seconds, and no end as a
zero. -/
namespace ScopedStore

/-- Nanoseconds from 1970. -/
def Clock.unixNanos (clock : Clock) : Int := clock.seconds * nanosPerSecond + clock.nanos

namespace Account

open Wire

variable {κ : Type}

namespace Remote

/-- The lifetime that a value is told to have, if its time is not over. -/
def lifetime? (value : Value) (now : Int) : Option UInt32 :=
  match value.ttl with
  | some lifetime => some (.ofNat (min lifetime.seconds.toNat Expiry.longest))
  | none => Expiry.remaining (value.expireTime.map Timestamp.unixSeconds) now

theorem received_eq (value : Value) (now : Int) :
    received value now =
      ((lifetime? value now).map (StoredValue.mk value.value)).elim (.error .unknownKey) .ok := by
  obtain ⟨key, text, ttl, instant⟩ := value
  cases ttl with
  | some lifetime => rfl
  | none =>
    cases instant with
    | none => rfl
    | some instant =>
      unfold received lifetime?
      dsimp only [Option.map_some]
      cases Expiry.remaining (some instant.unixSeconds) now <;> rfl

theorem received_eq_ok_iff {value : Value} {now : Int} {stored : StoredValue} :
    received value now = .ok stored ↔
      stored.value = value.value ∧ lifetime? value now = some stored.ttl := by
  obtain ⟨text, ttl⟩ := stored
  rw [received_eq]
  cases lifetime? value now with
  | none => simp
  | some left => simp [eq_comm]

theorem received_eq_unknownKey_iff {value : Value} {now : Int} :
    received value now = .error .unknownKey ↔ lifetime? value now = none := by
  rw [received_eq]
  cases lifetime? value now <;> simp

/-- A whole second before its end a value is never told to be without one, but a lifetime of less
than a second counts as none. -/
theorem lifetime?_eq_zero_iff {value : Value} {now : Int} :
    lifetime? value now = some 0 ↔
      value.ttl = none ∧ value.expireTime = none ∨
        ∃ lifetime, value.ttl = some lifetime ∧ lifetime.seconds = 0 := by
  unfold lifetime?
  cases value.ttl with
  | some lifetime =>
    have hzero : UInt32.ofNat (min lifetime.seconds.toNat Expiry.longest) = 0 ↔
        lifetime.seconds = 0 := by
      rw [← UInt32.toNat_inj, Expiry.toNat_ofNat_min, ← UInt64.toNat_inj]
      simp [Expiry.longest]
    simp [hzero]
  | none =>
    cases value.expireTime with
    | none => simp [Expiry.remaining]
    | some instant =>
      have hends : Expiry.remaining (some instant.unixSeconds) now ≠ some 0 := by
        rw [ne_eq, Expiry.remaining_eq_some_iff]
        have : (0 : UInt32).toNat = 0 := rfl
        unfold Expiry.longest
        omega
      simp [hends]

section Reads
variable (client : Client κ) (told : Scope) (layers : List Layer) (state : State κ)

/-- A read tells of no end where the reply carries neither a lifetime nor a point in time, and also
where it carries a lifetime of less than a second. -/
theorem read_as_endless_iff (ns name : String) :
    (∃ text, ((Layer.stack layers (backend client told)).call (.getValue .account ns name)
        state).1.result = .ok ⟨text, 0⟩) ↔
      ∃ value, (client.perform (.getValue ⟨key ns name⟩) state.client).1.result =
          .ok ⟨some value⟩ ∧
        (value.ttl = none ∧ value.expireTime = none ∨
          ∃ lifetime, value.ttl = some lifetime ∧ lifetime.seconds = 0) := by
  rw [stack_read]
  cases (client.perform (.getValue ⟨key ns name⟩) state.client).1.result with
  | error status => simp [Except.mapError, Except.bind]
  | ok response =>
    obtain ⟨value⟩ := response
    cases value with
    | none => simp [Except.mapError, Except.bind, answered]
    | some value =>
      simp only [Except.mapError, Except.bind, answered]
      simp [received_eq_ok_iff, lifetime?_eq_zero_iff]

/-- A value whose lifetime is half a second is told to be without an end. -/
theorem fleeting_value_read_as_endless :
    ∃ half : Duration, Duration.parse? "0.5s" = some half ∧ half.nanos = 500000000 ∧
      ((backend Prepared.client .account).call (.getValue .account "ns" "key")
        { clock := .atSecond 50
          client :=
            { next := some (.ok ⟨some { value := "v", ttl := some half }⟩) } }).1.result =
        .ok ⟨"v", 0⟩ :=
  ⟨⟨0, 500000000, by decide⟩, by decide +kernel, rfl, rfl⟩

end Reads

/-- Rounded down to seconds, two instants are as far apart as they are, but for less than a
second. -/
theorem rounded_difference (instant : Timestamp) {clock : Clock}
    (hnanos : clock.nanos < nanosPerSecond) :
    |(instant.unixSeconds - clock.seconds) * nanosPerSecond -
      (instant.unixNanos - clock.unixNanos)| < nanosPerSecond := by
  have := instant.nanos_lt
  unfold nanosPerSecond at hnanos
  rw [abs_lt]
  unfold Timestamp.unixNanos Clock.unixNanos nanosPerSecond
  constructor <;> omega

section Instants
variable (client : Client κ) (told : Scope) (layers : List Layer) (state : State κ)
variable {value : Value} {instant : Timestamp}

/-- A value that ends at an instant is not there from then on. Before, the lifetime that a read
tells is at least a second and within a second of what is left, or the longest there is where less
than a second more would not be told. -/
theorem absolute_expiry_never_overrun (ns name : String)
    (hclock : 0 ≤ state.clock.seconds) (hnanos : state.clock.nanos < nanosPerSecond)
    (hreply : (client.perform (.getValue ⟨key ns name⟩) state.client).1.result =
      .ok ⟨some value⟩)
    (httl : value.ttl = none) (hends : value.expireTime = some instant) :
    let answer := ((Layer.stack layers (backend client told)).call
      (.getValue .account ns name) state).1
    let left := instant.unixNanos - state.clock.unixNanos
    (left ≤ 0 → answer.result = .error .unknownKey) ∧
      (∀ stored, answer.result = .ok stored →
        stored.value = value.value ∧ 1 ≤ stored.ttl.toNat ∧
          (|stored.ttl.toNat * nanosPerSecond - left| < nanosPerSecond ∨
            stored.ttl.toNat = 2 ^ 32 - 1 ∧ (2 ^ 32 - 2) * nanosPerSecond < left)) ∧
      (nanosPerSecond ≤ left → ∃ stored, answer.result = .ok stored) := by
  intro answer left
  have hnow : state.clock.unixSeconds = state.clock.seconds := Int.max_eq_left hclock
  have hanswer : answer.result = received value state.clock.seconds := by
    unfold answer
    rw [stack_read, hreply, hnow]
    rfl
  have hlifetime : lifetime? value state.clock.seconds =
      Expiry.remaining (some instant.unixSeconds) state.clock.seconds := by
    rw [lifetime?, httl, hends]
    rfl
  have hround : |(instant.unixSeconds - state.clock.seconds) * nanosPerSecond - left| <
      nanosPerSecond := rounded_difference instant hnanos
  obtain ⟨hlow, hhigh⟩ := abs_lt.mp hround
  have hsecond : (nanosPerSecond : Int) = 1000000000 := rfl
  rw [hsecond] at hlow hhigh
  rw [hanswer, hsecond]
  clear_value left
  refine ⟨fun hpast => ?_, fun stored hstored => ?_, fun hahead => ?_⟩
  · have hover : instant.unixSeconds ≤ state.clock.seconds := by omega
    rw [received_eq_unknownKey_iff, hlifetime, Expiry.remaining, if_pos hover]
  · obtain ⟨hvalue, htold⟩ := received_eq_ok_iff.mp hstored
    rw [hlifetime, Expiry.remaining_eq_some_iff, show (Expiry.longest : Int) = 2 ^ 32 - 1 from rfl]
      at htold
    obtain ⟨hbefore, hmin⟩ := htold
    refine ⟨hvalue, by omega, ?_⟩
    rcases Int.lt_or_le (2 ^ 32 - 1) (instant.unixSeconds - state.clock.seconds) with hlong | hshort
    · exact .inr (by omega)
    · rw [Int.min_eq_left hshort] at hmin
      rw [hmin, abs_lt]
      exact .inl ⟨hlow, hhigh⟩
  · have hbefore : ¬ instant.unixSeconds ≤ state.clock.seconds := by omega
    exact ⟨⟨value.value, _⟩, received_eq_ok_iff.mpr ⟨rfl, hlifetime.trans (if_neg hbefore)⟩⟩

/-- An hour east of Greenwich, nine and a half seconds are told as ten. -/
theorem absolute_expiry_never_overrun_halfway :
    ∃ instant : Timestamp, Timestamp.parse? "1970-01-01T01:01:00.25+01:00" = some instant ∧
      let value : Value := { value := "v", expireTime := some instant }
      let state : State Prepared :=
        { clock := ⟨50, 750000000⟩, client := { next := some (.ok ⟨some value⟩) } }
      let answer := ((Layer.stack [.cache, .reconnect] (backend Prepared.client .account)).call
        (.getValue .account "ns" "key") state).1
      let left := instant.unixNanos - state.clock.unixNanos
      left = 9500000000 ∧ answer.result = .ok ⟨"v", 10⟩ ∧
        |(10 : Int) * nanosPerSecond - left| < nanosPerSecond := by
  refine ⟨⟨1970, 1, 1, 1, 1, 0, 250000000, 60, by decide, by decide, by decide, by decide,
    by decide, by decide, by decide, by decide⟩, by decide +kernel, ?_⟩
  intro value state answer left
  have hleft : left = 9500000000 := by decide
  have hanswer : answer.result = .ok ⟨"v", 10⟩ := rfl
  obtain ⟨-, htold, -⟩ := absolute_expiry_never_overrun Prepared.client .account
    [.cache, .reconnect] state "ns" "key" (by decide) (by decide) rfl rfl rfl
  obtain ⟨-, -, hnear | ⟨hlongest, -⟩⟩ := htold ⟨"v", 10⟩ hanswer
  · exact ⟨hleft, hanswer, hnear⟩
  · cases hlongest

end Instants

end Remote

end Account

end ScopedStore
