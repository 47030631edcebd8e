import SharedWatch.Policy
import SharedWatch.Word

/-!
# Backoff

Delays between retries.  The delay of attempt `a` is the base delay doubled `a` times (31 times at
most), capped by the longest delay, less a random part of up to a fifth of its milliseconds, so
that many streams that fail together do not reconnect in lockstep.

* `Backoff.rawDelay`: the delay before the random part is taken off.
* `Backoff.next`: records one failure and yields the delay before the next attempt, or nothing once
  the retries are used up.
* `Draws`: the source of the random part, a list of offers that is used round and round.
-/

namespace SharedWatch

/-- A source of random numbers: offers that are used in turn, round and round. -/
structure Draws where
  /-- The offers; without any, every draw is zero. -/
  offers : List UInt64 := []
  /-- How many draws have been made. -/
  taken : Nat := 0
deriving DecidableEq

/-- Draws a number between zero and `hi`. -/
def Draws.draw (d : Draws) (hi : Nat) : Nat × Draws :=
  let offer := (d.offers[d.taken % d.offers.length]?).elim 0 UInt64.toNat
  (min offer hi, { d with taken := d.taken + 1 })

/-- The state of one retry sequence. -/
structure Backoff where
  /-- The policy that the delays follow. -/
  policy : RetryPolicy
  /-- Consecutive failures since the last reset, at most `2 ^ 64 - 1`. -/
  attempts : Nat := 0
deriving DecidableEq

namespace Backoff

/-- Whether the retries are used up. -/
def isExhausted (b : Backoff) : Bool :=
  !b.policy.isUnlimited && decide (b.policy.maxRetries.toNat ≤ b.attempts)

/-- The delay of an attempt before its random part is taken off. -/
def rawDelay (p : RetryPolicy) (attempt : Nat) : Span :=
  match p.baseDelay.scale? (Nat.pow 2 (min attempt 31)) with
  | some d => d.shorter p.maxDelay
  | none => p.maxDelay

/-- Takes a random part of up to a fifth off a delay; a delay under five milliseconds is kept, and
draws nothing. -/
def jitter (d : Span) (draws : Draws) : Span × Draws :=
  if d.millis < 5 then (d, draws)
  else
    let (part, draws) := draws.draw (d.millis / 5)
    (.ofMillis (d.millis - part), draws)

/-- Records one failure: the delay before the next attempt, or nothing once the retries are used
up. -/
def next (b : Backoff) (draws : Draws) : Option Span × Backoff × Draws :=
  if b.isExhausted then (none, b, draws)
  else
    let (d, draws) := jitter (rawDelay b.policy b.attempts) draws
    (some d, { b with attempts := min (b.attempts + 1) (wordCount - 1) }, draws)

/-- Records `n` failures, one after the other. -/
def nextMany (b : Backoff) (draws : Draws) : Nat → List (Option Span) × Backoff × Draws
  | 0 => ([], b, draws)
  | n + 1 =>
    let (d, b, draws) := b.next draws
    let (ds, b, draws) := b.nextMany draws n
    (d :: ds, b, draws)

/-- Forgets the failures recorded so far. -/
def reset (b : Backoff) : Backoff := { b with attempts := 0 }

end Backoff

end SharedWatch
