import Mathlib.Algebra.Group.Nat.Defs
import Mathlib.Data.List.Induction
import SharedWatch.Proofs.RetryDelays

/-!
# The pace of retries

Delays double from failure to failure until they reach the longest one, and stay there.  However a retry
sequence is used, it says before how many attempts to rest and how long.

* `Backoff.nanos_rawDelay`: the delay of an attempt in one formula; `Backoff.nanos_rawDelay_mono`: delays
  never get shorter.
* `Backoff.jitter_bounds`: what is left of a delay without its random part.
* `Backoff.factorWord`, `Backoff.jitterWord`: the same in words of fixed width, which never wrap around.
* `Backoff.Use`, `Backoff.uses`: failures and resets in any order.
* `retries_keep_pace`: all of this for a sequence in use.
-/

namespace SharedWatch

/-- The number that the source offers next. -/
def Draws.offer (d : Draws) : UInt64 := (d.offers[d.taken % d.offers.length]?).getD 0

theorem Draws.draw_fst (d : Draws) (hi : Nat) : (d.draw hi).1 = min d.offer.toNat hi := by
  unfold draw offer
  cases d.offers[d.taken % d.offers.length]? <;> rfl

namespace RetryPolicy

/-- How many of a number of failures are followed by a retry. -/
def granted (p : RetryPolicy) (failures : Nat) : Nat :=
  if p.maxRetries = 0 then failures else min failures p.maxRetries.toNat

theorem millis_maxDelay (p : RetryPolicy) : p.maxDelay.millis = p.maxDelayMs.toNat :=
  Span.millis_ofMillis _

theorem millis_maxDelay_lt (p : RetryPolicy) : p.maxDelay.millis < wordCount := by
  rw [millis_maxDelay]
  exact p.maxDelayMs.toNat_lt

end RetryPolicy

namespace Backoff

/-! ## The delay of an attempt -/

/-- No delay that is ever asked for is longer than what a span can hold. -/
theorem nanos_maxDelay_le (p : RetryPolicy) : p.maxDelay.nanos ≤ Span.longest.nanos := by
  have small : p.maxDelayMs.toNat < wordCount := p.maxDelayMs.toNat_lt
  show p.maxDelayMs.toNat * 1000000 ≤ wordCount * 1000000000 - 1
  unfold wordCount at *
  omega

/-- The base delay doubled with each attempt, up to 31 times, and the longest delay at most.  If there is
no span so long, the longest delay is shorter than that. -/
theorem nanos_rawDelay (p : RetryPolicy) (attempt : Nat) : (rawDelay p attempt).nanos =
    min (p.baseDelay.nanos * 2 ^ min attempt 31) p.maxDelay.nanos := by
  have cap := nanos_maxDelay_le p
  simp only [rawDelay_eq]
  split <;> rename_i scaled
  · rw [← Nat.pow_eq, ← Span.scale?_eq_some scaled]
    unfold Span.shorter
    split <;> omega
  · unfold Span.scale? at scaled
    split at scaled
    · cases scaled
    · rename_i longer
      exact (Nat.min_eq_right (Nat.le_trans cap (Nat.le_of_not_le longer))).symm

/-- A delay is a whole number of milliseconds. -/
theorem rawDelay_whole (p : RetryPolicy) (attempt : Nat) : (rawDelay p attempt).nanos =
    min (p.baseDelayMs.toNat * 2 ^ min attempt 31) p.maxDelayMs.toNat * 1000000 := by
  rw [nanos_rawDelay, ← Nat.mul_min_mul_right]
  show min (p.baseDelayMs.toNat * 1000000 * _) _ = _
  rw [Nat.mul_right_comm]
  rfl

/-- Delays never get shorter from one attempt to the next. -/
theorem nanos_rawDelay_mono (p : RetryPolicy) {a a' : Nat} (le : a ≤ a') :
    (rawDelay p a).nanos ≤ (rawDelay p a').nanos := by
  have exponents : min a 31 ≤ min a' 31 := by omega
  rw [nanos_rawDelay, nanos_rawDelay]
  have grown := Nat.mul_le_mul_left p.baseDelay.nanos (Nat.pow_le_pow_right (n := 2) (by decide) exponents)
  omega

theorem millis_rawDelay_lt (p : RetryPolicy) (attempt : Nat) :
    (rawDelay p attempt).millis < wordCount := by
  refine Nat.lt_of_le_of_lt (Span.millis_mono ?_) p.millis_maxDelay_lt
  rw [nanos_rawDelay]
  exact Nat.min_le_right _ _

/-! ## The random part -/

/-- Up to a fifth of its whole milliseconds is taken off a delay. -/
theorem jitter_bounds (p : RetryPolicy) (attempt : Nat) (draws : Draws) :
    (rawDelay p attempt).nanos - (rawDelay p attempt).millis / 5 * 1000000 ≤
      (jitter (rawDelay p attempt) draws).1.nanos ∧
    (jitter (rawDelay p attempt) draws).1.nanos ≤ (rawDelay p attempt).nanos := by
  have whole : (rawDelay p attempt).nanos = (rawDelay p attempt).millis * 1000000 := by
    unfold Span.millis
    rw [rawDelay_whole]
    omega
  generalize rawDelay p attempt = d at whole ⊢
  unfold jitter
  split
  · exact ⟨Nat.sub_le _ _, Nat.le_refl _⟩
  · have part : (draws.draw (d.millis / 5)).1 ≤ d.millis / 5 := Nat.min_le_right _ _
    show _ ≤ (d.millis - (draws.draw (d.millis / 5)).1) * 1000000 ∧
      (d.millis - (draws.draw (d.millis / 5)).1) * 1000000 ≤ _
    omega

/-! ## Words -/

/-- The factor of an attempt, as a word of 32 bits. -/
def factorWord (attempt : Nat) : UInt32 := 1 <<< UInt32.ofNat (min attempt 31)

/-- A delay less its random part, computed in words of 64 bits. -/
def jitterWord (d : Span) (offer : UInt64) : Span :=
  let millis := UInt64.ofNat d.millis
  if millis < 5 then d else .ofMillis (millis - min offer (millis / 5)).toNat

theorem toNat_factorWord (attempt : Nat) : (factorWord attempt).toNat = 2 ^ min attempt 31 := by
  have small : min attempt 31 < 32 := by omega
  have words : ∀ k < 32, ((1 : UInt32) <<< UInt32.ofNat k).toNat = 2 ^ k := by decide
  exact words _ small

/-- A delay whose milliseconds fit into a word is computed without wrapping around. -/
theorem jitter_eq_jitterWord {d : Span} (small : d.millis < wordCount) (draws : Draws) :
    (jitter d draws).1 = jitterWord d draws.offer := by
  have same : (UInt64.ofNat d.millis).toNat = d.millis := UInt64.toNat_ofNat_of_lt' small
  have fifth : (UInt64.ofNat d.millis / 5).toNat = d.millis / 5 := by
    rw [UInt64.toNat_div, same]
    rfl
  have part : (min draws.offer (UInt64.ofNat d.millis / 5)).toNat =
      min draws.offer.toNat (d.millis / 5) := by
    rw [← fifth]
    show (if draws.offer ≤ UInt64.ofNat d.millis / 5 then draws.offer else _).toNat = _
    split <;> rename_i le <;> rw [UInt64.le_iff_toNat_le] at le <;> omega
  have short : UInt64.ofNat d.millis < 5 ↔ d.millis < 5 := by
    rw [UInt64.lt_iff_toNat_lt, same]
    rfl
  unfold jitter jitterWord
  simp only [short]
  split
  · rfl
  · show Span.ofMillis (d.millis - (draws.draw (d.millis / 5)).1) = _
    rw [UInt64.toNat_sub_of_le, same, part, Draws.draw_fst]
    rw [UInt64.le_iff_toNat_le, same, part]
    omega

/-! ## Use -/

/-- What is done with a retry sequence. -/
inductive Use
  /-- A failure is recorded, with a source of random numbers. -/
  | fails (draws : Draws)
  /-- The failures are forgotten. -/
  | recovers

/-- What becomes of a retry sequence that is used. -/
def use (b : Backoff) : Use → Backoff
  | .fails draws => (b.next draws).2.1
  | .recovers => b.reset

/-- What becomes of a retry sequence that is used again and again. -/
def uses (b : Backoff) (us : List Use) : Backoff := us.foldl use b

/-- How many failures there have been since the last recovery, or since the beginning. -/
def failures (us : List Use) : Nat :=
  us.foldl (fun k u => match u with | .fails _ => k + 1 | .recovers => 0) 0

/-- The delays that failures get, one after the other. -/
def delays (b : Backoff) : List Draws → List (Option Span)
  | [] => []
  | draws :: rest => (b.next draws).1 :: (b.next draws).2.1.delays rest

/-- Once the retries are used up, a failure changes nothing. -/
theorem next_exhausted {b : Backoff} (spent : b.isExhausted = true) (draws : Draws) :
    b.next draws = (none, b, draws) := if_pos spent

theorem next_eq_none_iff (b : Backoff) (draws : Draws) :
    (b.next draws).1 = none ↔ b.isExhausted = true := by
  cases spent : b.isExhausted with
  | true => simp [next_exhausted spent]
  | false => simp [(next_left spent draws).1]

/-- A failure is counted if a retry follows. -/
theorem next_granted {p : RetryPolicy} {k : Nat} (draws : Draws) :
    ((⟨p, min (p.granted k) (wordCount - 1)⟩ : Backoff).next draws).2.1 =
      ⟨p, min (p.granted (k + 1)) (wordCount - 1)⟩ := by
  cases spent : isExhausted ⟨p, min (p.granted k) (wordCount - 1)⟩ with
  | true =>
    obtain ⟨limited, most⟩ := isExhausted_iff.mp spent
    rw [next_exhausted spent]
    unfold RetryPolicy.granted at most ⊢
    simp only [if_neg limited] at most ⊢
    have all : min (k + 1) p.maxRetries.toNat = min k p.maxRetries.toNat := by omega
    rw [all]
  | false =>
    rw [(next_left spent draws).2]
    have left : p.granted (k + 1) = p.granted k + 1 := by
      unfold RetryPolicy.granted at spent ⊢
      by_cases limited : p.maxRetries = 0
      · simp only [if_pos limited]
      · simp only [if_neg limited] at spent ⊢
        have fewer : ¬ p.maxRetries.toNat ≤ min k p.maxRetries.toNat := fun most =>
          Bool.false_ne_true (spent.symm.trans (isExhausted_iff.mpr ⟨limited, most⟩))
        omega
    simp only [mk.injEq, true_and]
    omega

theorem uses_snoc (b : Backoff) (us : List Use) (u : Use) : b.uses (us ++ [u]) = (b.uses us).use u :=
  List.foldl_append

theorem failures_snoc (us : List Use) (u : Use) : failures (us ++ [u]) =
    match u with | .fails _ => failures us + 1 | .recovers => 0 := by
  unfold failures
  rw [List.foldl_append]
  rfl

/-- The attempts that a sequence counts are the failures since the last recovery that a retry has
followed. -/
theorem uses_eq (p : RetryPolicy) (us : List Use) :
    uses ⟨p, 0⟩ us = ⟨p, min (p.granted (failures us)) (wordCount - 1)⟩ := by
  induction us using List.reverseRecOn with
  | nil =>
    have none : p.granted 0 = 0 := by simp [RetryPolicy.granted]
    show (⟨p, 0⟩ : Backoff) = ⟨p, min (p.granted 0) (wordCount - 1)⟩
    rw [none]
    rfl
  | append_singleton us u ih =>
    rw [uses_snoc, ih, failures_snoc]
    cases u with
    | fails draws => exact next_granted draws
    | recovers =>
      have none : p.granted 0 = 0 := by simp [RetryPolicy.granted]
      show (⟨p, 0⟩ : Backoff) = ⟨p, min (p.granted 0) (wordCount - 1)⟩
      rw [none]
      rfl

/-- The retries are used up by as many failures as the policy has retries. -/
theorem isExhausted_uses (p : RetryPolicy) (us : List Use) :
    (uses ⟨p, 0⟩ us).isExhausted = true ↔ p.maxRetries ≠ 0 ∧ p.maxRetries.toNat ≤ failures us := by
  rw [uses_eq, isExhausted_iff]
  unfold RetryPolicy.granted
  by_cases limited : p.maxRetries = 0
  · simp [limited]
  · simp only [if_neg limited, Nat.le_min, Nat.le_refl, and_true]

/-- A failure that is granted a delay gets that of its place since the last recovery. -/
theorem next_uses {p : RetryPolicy} {us : List Use} {draws : Draws} {d : Span}
    (delayed : ((uses ⟨p, 0⟩ us).next draws).1 = some d) :
    d = (jitter (rawDelay p (failures us)) draws).1 := by
  have left : (uses ⟨p, 0⟩ us).isExhausted = false := by
    refine Bool.eq_false_iff.mpr fun spent => ?_
    rw [(next_eq_none_iff _ draws).mpr spent] at delayed
    cases delayed
  have all : p.granted (failures us) = failures us := by
    unfold RetryPolicy.granted
    by_cases limited : p.maxRetries = 0
    · exact if_pos limited
    · have fewer : ¬ p.maxRetries.toNat ≤ failures us := fun most =>
        Bool.false_ne_true (left.symm.trans ((isExhausted_uses p us).mpr ⟨limited, most⟩))
      rw [if_neg limited]
      omega
  rw [(next_left left draws).1, uses_eq, all, rawDelay_min] at delayed
  exact (Option.some.inj delayed).symm

/-- From a recovery on, as many failures get a delay as the policy has retries, or all of them. -/
theorem delays_isSome (p : RetryPolicy) (us : List Use) (ds : List Draws) :
    ((uses ⟨p, 0⟩ us).delays ds).map Option.isSome = (List.range ds.length).map fun i =>
      decide (p.maxRetries = 0 ∨ failures us + i < p.maxRetries.toNat) := by
  induction ds generalizing us with
  | nil => rfl
  | cons draws ds ih =>
    have next : ((uses ⟨p, 0⟩ us).next draws).2.1 = uses ⟨p, 0⟩ (us ++ [.fails draws]) :=
      (uses_snoc ⟨p, 0⟩ us (.fails draws)).symm
    have first : ((uses ⟨p, 0⟩ us).next draws).1.isSome =
        decide (p.maxRetries = 0 ∨ failures us < p.maxRetries.toNat) := by
      rw [Bool.eq_iff_iff, decide_eq_true_eq, Option.isSome_iff_ne_none, Ne, next_eq_none_iff,
        isExhausted_uses]
      by_cases limited : p.maxRetries = 0 <;> simp [limited]
    rw [delays, List.map_cons, first, next, ih, failures_snoc, List.length_cons, List.range_succ_eq_map,
      List.map_cons, List.map_map]
    refine congrArg _ (List.map_congr_left fun i _ => ?_)
    show _ = decide (p.maxRetries = 0 ∨ failures us + (i + 1) < p.maxRetries.toNat)
    rw [Nat.add_assoc, Nat.add_comm 1 i]

/-- A retry sequence in use.  The delay of attempt `a` is the base delay doubled `a` times, 31 times at
most, and no longer than the longest one; it never gets shorter, and no word is too small for it.  What a
failure is answered is between that delay and a fifth of its milliseconds less, and a millisecond at least
if the policy has been accepted.  A policy with `n` retries grants a delay to exactly `n` failures from
each recovery on; a failure that gets none is not counted.  A policy without a bound always grants one. -/
theorem retries_keep_pace (p : RetryPolicy) :
    (∀ a, (rawDelay p a).nanos = min (p.baseDelay.nanos * 2 ^ min a 31) p.maxDelay.nanos ∧
      (∀ a', a ≤ a' → (rawDelay p a).nanos ≤ (rawDelay p a').nanos) ∧
      (factorWord a).toNat = 2 ^ min a 31 ∧ (rawDelay p a).millis < wordCount ∧
      ∀ draws, (jitter (rawDelay p a) draws).1 = jitterWord (rawDelay p a) draws.offer) ∧
    ∀ us, (uses ⟨p, 0⟩ us).policy = p ∧
      (uses ⟨p, 0⟩ us).attempts = min (p.granted (failures us)) (wordCount - 1) ∧
      (∀ draws d, ((uses ⟨p, 0⟩ us).next draws).1 = some d →
        (rawDelay p (failures us)).nanos - (rawDelay p (failures us)).millis / 5 * 1000000 ≤ d.nanos ∧
        d.nanos ≤ (rawDelay p (failures us)).nanos ∧ d.nanos ≤ p.maxDelay.nanos ∧
        ∀ name, p.validate name = .ok () → 1 ≤ d.millis) ∧
      (∀ draws, ((uses ⟨p, 0⟩ us).next draws).1 = none ↔
        p.maxRetries ≠ 0 ∧ p.maxRetries.toNat ≤ failures us) ∧
      (∀ draws, ((uses ⟨p, 0⟩ us).next draws).1 = none →
        ((uses ⟨p, 0⟩ us).next draws).2.1 = uses ⟨p, 0⟩ us) ∧
      ∀ ds, ((uses ⟨p, 0⟩ us).reset.delays ds).map Option.isSome =
        (List.range ds.length).map fun i => decide (p.maxRetries = 0 ∨ i < p.maxRetries.toNat) := by
  refine ⟨fun a => ⟨nanos_rawDelay p a, fun _ => nanos_rawDelay_mono p, toNat_factorWord a,
    millis_rawDelay_lt p a, jitter_eq_jitterWord (millis_rawDelay_lt p a)⟩, fun us => ?_⟩
  have after := uses_eq p us
  refine ⟨congrArg policy after, congrArg attempts after, fun draws d delayed => ?_, fun draws => ?_,
    fun draws ended => ?_, fun ds => ?_⟩
  · obtain ⟨least, most⟩ := jitter_bounds p (failures us) draws
    have capped : (rawDelay p (failures us)).nanos ≤ p.maxDelay.nanos := by
      rw [nanos_rawDelay]
      exact Nat.min_le_right _ _
    rw [next_uses delayed]
    exact ⟨least, most, Nat.le_trans most capped, fun name accepted =>
      millis_jitter_pos (millis_rawDelay_pos accepted _) draws⟩
  · rw [next_eq_none_iff, isExhausted_uses]
  · rw [next_exhausted ((next_eq_none_iff _ draws).mp ended)]
  · have recovered : (uses ⟨p, 0⟩ us).reset = uses ⟨p, 0⟩ (us ++ [.recovers]) :=
      (uses_snoc ⟨p, 0⟩ us .recovers).symm
    have none : failures (us ++ [.recovers]) = 0 := failures_snoc us .recovers
    rw [recovered, delays_isSome, none]
    simp only [Nat.zero_add]

/-- Two retries, and a longest delay that is not a power of two times the base delay: after a recovery
the second failure rests for 20 ms less a fifth at most, the third for nothing. -/
theorem retries_keep_pace_two :
    let p : RetryPolicy := { maxRetries := 2, baseDelayMs := 12, maxDelayMs := 20 }
    let us : List Use := [.fails {}, .fails {}, .fails {}, .recovers, .fails {}]
    p.validate "list_watch" = .ok () ∧
    ((uses ⟨p, 0⟩ us).next { offers := [3] }).1 = some (.ofMillis 17) ∧ 1 ≤ (Span.ofMillis 17).millis ∧
    ((uses ⟨p, 0⟩ (us ++ [.fails {}])).next {}).1 = none := by
  intro p us
  have accepted : p.validate "list_watch" = .ok () := by decide
  have delayed : ((uses ⟨p, 0⟩ us).next { offers := [3] }).1 = some (.ofMillis 17) := by decide
  obtain ⟨_, _, rests, _⟩ := (retries_keep_pace p).2 us
  obtain ⟨_, _, _, ends, _⟩ := (retries_keep_pace p).2 (us ++ [.fails {}])
  exact ⟨accepted, delayed, (rests _ _ delayed).2.2.2 _ accepted, (ends {}).mpr (by decide)⟩

end Backoff

end SharedWatch
