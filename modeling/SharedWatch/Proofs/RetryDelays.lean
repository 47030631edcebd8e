import Mathlib.Data.Nat.Basic
import SharedWatch.Backoff

/-!
# Delays before retries

A policy that has been accepted makes a loop rest for a millisecond at least, whatever random part is
taken off the delay.

* `RetryPolicy.accepted_iff`: which policies are accepted.
* `Backoff.millis_rawDelay_pos`, `Backoff.millis_jitter_pos`: a delay is a millisecond at least.
* `Backoff.next_rests`: so is the delay before the next attempt, if there is one.
* `Backoff.isExhausted_iff`: when the retries are used up.
-/

namespace SharedWatch

namespace Span

@[simp]
theorem millis_ofMillis (ms : Nat) : (ofMillis ms).millis = ms :=
  Nat.mul_div_cancel ms (by decide)

theorem millis_mono {a b : Span} (le : a.nanos ≤ b.nanos) : a.millis ≤ b.millis :=
  Nat.div_le_div_right le

theorem scale?_eq_some {d e : Span} {k : Nat} (scaled : d.scale? k = some e) :
    e.nanos = d.nanos * k := by
  unfold scale? at scaled
  split at scaled
  · cases scaled
    rfl
  · cases scaled

theorem shorter_cases (a b : Span) : a.shorter b = a ∨ a.shorter b = b := by
  unfold shorter
  split
  · exact .inl rfl
  · exact .inr rfl

end Span

namespace RetryPolicy

variable {p : RetryPolicy} {name : String}

/-- A policy is accepted if its time limit and its base delay are not zero, and its longest delay is
no shorter than its base delay. -/
theorem accepted_iff : p.validate name = .ok () ↔
    0 < p.timeoutMs ∧ 0 < p.baseDelayMs ∧ p.baseDelayMs ≤ p.maxDelayMs := by
  unfold validate refusal?
  have zero (n : UInt64) : 0 < n ↔ n ≠ 0 := by
    rw [UInt64.lt_iff_toNat_lt, Ne, ← UInt64.toNat_inj]
    exact Nat.pos_iff_ne_zero
  simp only [zero]
  split <;> rename_i refused
  · constructor
    · exact nofun
    · rintro ⟨limit, base, cap⟩
      simp [limit, base, UInt64.not_lt.mpr cap] at refused
  · split at refused
    · cases refused
    · rename_i limit
      split at refused
      · cases refused
      · rename_i base
        split at refused
        · cases refused
        · rename_i cap
          exact ⟨fun _ => ⟨limit, base, UInt64.not_lt.mp cap⟩, fun _ => rfl⟩

end RetryPolicy

namespace Backoff

variable {p : RetryPolicy} {name : String}

-- An equation of functions: on a given attempt, checking it would start to compute the delay.
theorem rawDelay_eq : rawDelay = fun p attempt =>
    match p.baseDelay.scale? (Nat.pow 2 (min attempt 31)) with
    | some d => d.shorter p.maxDelay
    | none => p.maxDelay := (rfl)

/-- Before the random part is taken off, a delay is a millisecond at least. -/
theorem millis_rawDelay_pos (accepted : p.validate name = .ok ()) (attempt : Nat) :
    0 < (rawDelay p attempt).millis := by
  obtain ⟨_, base, cap⟩ := RetryPolicy.accepted_iff.mp accepted
  have base : 1 ≤ p.baseDelayMs.toNat := UInt64.lt_iff_toNat_lt.mp base
  have longest : 0 < p.maxDelay.millis := by
    rw [RetryPolicy.maxDelay, Span.millis_ofMillis]
    exact Nat.lt_of_lt_of_le base (UInt64.le_iff_toNat_le.mp cap)
  simp only [rawDelay_eq]
  split
  · rename_i d scaled
    rcases d.shorter_cases p.maxDelay with same | same
    · rw [same]
      have grown : p.baseDelay.nanos ≤ d.nanos := by
        rw [Span.scale?_eq_some scaled]
        exact Nat.le_mul_of_pos_right _ (Nat.pow_pos (by decide))
      have first : p.baseDelay.millis = p.baseDelayMs.toNat := Span.millis_ofMillis _
      exact Nat.lt_of_lt_of_le (first ▸ base) (Span.millis_mono grown)
    · rw [same]
      exact longest
  · exact longest

/-- The random part is never all of a delay. -/
theorem millis_jitter_pos {d : Span} (pos : 0 < d.millis) (draws : Draws) :
    0 < (jitter d draws).1.millis := by
  unfold jitter
  split
  · exact pos
  · have part : (draws.draw (d.millis / 5)).1 ≤ d.millis / 5 := Nat.min_le_right _ _
    simp only [Span.millis_ofMillis]
    omega

/-- While retries are left, a failure is counted, and its attempt has a delay. -/
theorem next_left {b : Backoff} (left : b.isExhausted = false) (draws : Draws) :
    (b.next draws).1 = some (jitter (rawDelay b.policy b.attempts) draws).1 ∧
      (b.next draws).2.1 = { b with attempts := min (b.attempts + 1) (wordCount - 1) } := by
  unfold next
  rw [left, if_neg Bool.false_ne_true]
  split
  rename_i d draws' jittered
  rw [jittered]
  exact ⟨rfl, rfl⟩

/-- While retries are left, a loop whose policy has been accepted rests for a millisecond at least. -/
theorem next_rests {b : Backoff} (accepted : b.policy.validate name = .ok ())
    (left : b.isExhausted = false) (draws : Draws) :
    ∃ d, (b.next draws).1 = some d ∧ 0 < d.millis ∧ (b.next draws).2.1.policy = b.policy := by
  obtain ⟨delay, counted⟩ := next_left left draws
  refine ⟨_, delay, millis_jitter_pos (millis_rawDelay_pos accepted b.attempts) draws, ?_⟩
  rw [counted]

/-- The first failure does not use the retries up. -/
theorem isExhausted_of_first {b : Backoff} (first : b.attempts = 0) : b.isExhausted = false := by
  unfold isExhausted RetryPolicy.isUnlimited
  rw [first]
  cases unlimited : b.policy.maxRetries == 0 with
  | true => rfl
  | false =>
    have some : b.policy.maxRetries.toNat ≠ 0 := fun zero =>
      absurd (UInt64.toNat_inj.mp zero) (by simpa using unlimited)
    simp [some]

/-- A loop that has counted a streak of failures gives up if that is as long as the policy allows. -/
theorem isExhausted_iff {p : RetryPolicy} {c : Nat} :
    isExhausted ⟨p, min c (wordCount - 1)⟩ = true ↔ p.maxRetries ≠ 0 ∧ p.maxRetries.toNat ≤ c := by
  have small : p.maxRetries.toNat ≤ wordCount - 1 := Nat.le_pred_of_lt p.maxRetries.toNat_lt
  unfold isExhausted RetryPolicy.isUnlimited
  rw [Bool.and_eq_true, decide_eq_true_eq, Nat.le_min]
  simp [small]

/-- The exponent is the length of the streak, since it never matters beyond 31. -/
theorem rawDelay_min (p : RetryPolicy) (c : Nat) : rawDelay p (min c (wordCount - 1)) = rawDelay p c := by
  have same : min (min c (wordCount - 1)) 31 = min c 31 := by
    have big : 31 ≤ wordCount - 1 := by decide
    omega
  simp only [rawDelay_eq, same]

end Backoff

end SharedWatch
