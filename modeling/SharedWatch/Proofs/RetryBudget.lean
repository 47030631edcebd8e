import SharedWatch.Proofs.RetryDelays
import SharedWatch.Proofs.StreamIntake

/-!
# The budget of retries

How long a loop goes on is decided by what its stream has taken in: how many cycles have ended since the
last full read, and what the last of them failed with.

* `Intake.streak`, `Intake.lastFailure`: these two.
* `Stream.Budgeted`: a stream has been given up when the streak is longer than its policy allows, and not
  before.
* `Hub.Retries`: so it is, and the loop of the stream counts the streak.
* `retry_budget_kept`: so it is in every run; where the loop goes on, it rests for the delay of the last
  attempt.
-/

namespace SharedWatch

namespace Intake

/-- How many cycles have ended since the last full read. -/
def count (c : Nat) : Intake → Nat
  | .read _ _ => 0
  | .heard _ => c
  | .ended _ => c + 1

/-- The text of the last failure since the last full read.  That a version is no longer served does not
count. -/
def failure (f : Option String) : Intake → Option String
  | .read _ _ => none
  | .heard _ | .ended .closed | .ended (.failed (.expired _)) => f
  | .ended (.failed failure) => some failure.message

/-- How many cycles have ended since the last full read, or since the beginning. -/
def streak (xs : List Intake) : Nat := xs.foldl count 0

/-- The text of the last failure since the last full read, or since the beginning. -/
def lastFailure (xs : List Intake) : Option String := xs.foldl failure none

theorem streak_snoc (xs : List Intake) (x : Intake) : streak (xs ++ [x]) = x.count (streak xs) :=
  List.foldl_append

theorem lastFailure_snoc (xs : List Intake) (x : Intake) :
    lastFailure (xs ++ [x]) = x.failure (lastFailure xs) := List.foldl_append

/-- When a cycle whose full read has succeeded ends, the streak is one. -/
theorem streak_read (xs : List Intake) (items : List Object) (version : String) (es : List Change)
    (ending : CycleEnd) :
    streak (xs ++ .read items version :: (es.map .heard ++ [.ended ending])) = 1 := by
  have heard (c : Nat) : (es.map Intake.heard).foldl count c = c := by
    induction es with
    | nil => rfl
    | cons e es ih => exact ih
  unfold streak
  rw [List.foldl_append, List.foldl_cons, List.foldl_append, heard]
  rfl

end Intake

/-- Why a stream of a policy has been given up, if it has. -/
def RetryPolicy.verdict (p : RetryPolicy) (xs : List Intake) : Option String :=
  if p.maxRetries ≠ 0 ∧ Intake.streak xs = p.maxRetries.toNat + 1 then
    some ((Intake.lastFailure xs).getD "retries exhausted")
  else none

open Intake (streak lastFailure)

/-! ## Streams -/

namespace Stream

variable {st st' : Stream} {xs : List Intake}

/-- What a stream that has not been stopped shows of what it has taken in. -/
structure Budgeted (st : Stream) (xs : List Intake) : Prop where
  created : st.state = .created → xs = []
  error : st.isStopped = false → st.cache.lastError = lastFailure xs
  verdict : st.isStopped = false → st.abandoned = st.policy.verdict xs
  bound : st.isStopped = false → st.policy.maxRetries ≠ 0 →
    streak xs ≤ st.policy.maxRetries.toNat + 1

theorem budgeted_new (key : ObjectKey) (policy : RetryPolicy) (issuer : Option Nat) :
    Budgeted { key, policy, issuer } [] where
  created _ := rfl
  error _ := rfl
  verdict _ := by
    have short : streak [] ≠ policy.maxRetries.toNat + 1 := nofun
    rw [RetryPolicy.verdict, if_neg fun spent => short spent.2]
  bound _ _ := Nat.zero_le _

theorem Budgeted.bides (budgeted : st.Budgeted xs) (bides : st.Bides st') : st'.Budgeted xs := by
  refine ⟨fun created => ?_, fun running => ?_, fun running => ?_, fun running => ?_⟩
  · rcases bides.state with same | stopped
    · exact budgeted.created (same.symm.trans created)
    · cases created.symm.trans stopped
  · rw [bides.cache]
    exact budgeted.error (bides.before running)
  · rw [bides.abandoned, bides.policy]
    exact budgeted.verdict (bides.before running)
  · rw [bides.policy]
    exact budgeted.bound (bides.before running)

/-- A stream that is started has taken nothing in. -/
theorem Budgeted.starts (budgeted : st.Budgeted xs) (created : st.state = .created) :
    Budgeted { st with state := .syncing } xs := by
  have running : st.isStopped = false := by simp [isStopped, created]
  exact ⟨by simp, fun _ => budgeted.error running, fun _ => budgeted.verdict running,
    fun _ => budgeted.bound running⟩

/-- The cache remembers the last failure. -/
theorem lastError_take (running : st.isStopped = false) (x : Intake) :
    (st.take x).1.cache.lastError = x.failure st.cache.lastError := by
  cases x with
  | read items version =>
    show (st.replace items version).1.cache.lastError = none
    rw [replace, if_neg (by simp [running])]
  | heard e =>
    show (st.receive e).1.cache.lastError = st.cache.lastError
    unfold receive
    split
    · rfl
    · rfl
  | ended ending =>
    cases ending with
    | closed => rfl
    | failed f => cases f <;> rfl

end Stream

namespace Backoff

/-- One more failure of a streak that the policy allows. -/
theorem next_streak {p : RetryPolicy} {c : Nat} (draws : Draws)
    (allowed : p.maxRetries ≠ 0 → c ≤ p.maxRetries.toNat) :
    p.maxRetries ≠ 0 ∧ c + 1 = p.maxRetries.toNat + 1 ∧
      ((⟨p, min c (wordCount - 1)⟩ : Backoff).next draws).1 = none ∨
    (p.maxRetries ≠ 0 → c + 1 ≤ p.maxRetries.toNat) ∧
      ((⟨p, min c (wordCount - 1)⟩ : Backoff).next draws).1 =
        some (jitter (rawDelay p c) draws).1 ∧
      ((⟨p, min c (wordCount - 1)⟩ : Backoff).next draws).2.1 =
        ⟨p, min (c + 1) (wordCount - 1)⟩ := by
  cases spent : isExhausted ⟨p, min c (wordCount - 1)⟩ with
  | true =>
    obtain ⟨limited, most⟩ := isExhausted_iff.mp spent
    have all := allowed limited
    unfold next
    rw [if_pos spent]
    exact .inl ⟨limited, by omega, rfl⟩
  | false =>
    have left (limited : p.maxRetries ≠ 0) : c + 1 ≤ p.maxRetries.toNat :=
      Nat.lt_of_not_le fun most =>
        Bool.false_ne_true (spent.symm.trans (isExhausted_iff.mpr ⟨limited, most⟩))
    obtain ⟨delay, counted⟩ := next_left spent draws
    refine .inr ⟨left, ?_, ?_⟩
    · rw [delay, rawDelay_min]
    · rw [counted]
      simp only [mk.injEq, true_and]
      omega

end Backoff

namespace Hub

variable {h h' : Hub} {n id : Nat} {l : Loop} {st st' : Stream} {xs : List Intake}
  {at? of? : Option Nat}

/-- What a loop has counted of what its stream has taken in. -/
structure Counts (l : Loop) (st : Stream) (xs : List Intake) : Prop where
  backoff : l.backoff = ⟨st.policy, min (streak xs) (wordCount - 1)⟩
  allowed : st.policy.maxRetries ≠ 0 → streak xs ≤ st.policy.maxRetries.toNat

/-- The stream of number `n` has taken in `xs`, and its loop has counted that. -/
structure Retries (n : Nat) (xs : List Intake) (h : Hub) : Prop where
  blank : h.streams[n]? = none → xs = []
  stream : ∀ {st : Stream}, h.streams[n]? = some st → st.Budgeted xs
  loops : ∀ l ∈ h.loops, l.stream = n →
    ∃ st, h.streams[n]? = some st ∧ (st.isStopped = false → Counts l st xs)

theorem Counts.bides (counts : Counts l st xs) (bides : st.Bides st') : Counts l st' xs := by
  refine ⟨?_, ?_⟩
  · rw [bides.policy]
    exact counts.backoff
  · rw [bides.policy]
    exact counts.allowed

/-- The stream of a loop that goes on has not been given up. -/
theorem Counts.verdict (counts : Counts l st xs) : st.policy.verdict xs = none := by
  unfold RetryPolicy.verdict
  refine if_neg fun ⟨limited, spent⟩ => ?_
  have := counts.allowed limited
  omega

namespace Retries

theorem initial (n : Nat) (limit : Nat) (draws : Draws) : Retries n [] (start limit draws) where
  blank _ := rfl
  stream found := nomatch found
  loops _ mem := (List.not_mem_nil mem).elim

/-- What spares the stream and its loop leaves it so. -/
theorem spares (retries : Retries n xs h) (spares : h.Spares at? of? h')
    (minds : h.Minds at? of?) (other : at? ≠ some n) :
    Retries n xs h' where
  blank none := by
    cases found : h.streams[n]? with
    | none => exact retries.blank found
    | some st =>
      obtain ⟨_, here, _⟩ := spares.old found
      cases none.symm.trans here
  stream {st'} found' := by
    cases found : h.streams[n]? with
    | none =>
      obtain ⟨key, policy, born⟩ := spares.born other found found'
      rw [retries.blank found]
      exact (Stream.budgeted_new key policy .none).bides born
    | some st =>
      obtain ⟨_, here, _, bides⟩ := spares.old found
      cases here.symm.trans found'
      exact (retries.stream found).bides (bides other)
  loops l mem stream := by
    obtain ⟨st, found, counts⟩ :=
      retries.loops l ((spares.loops_of minds other stream).mp mem) stream
    obtain ⟨st', here, _, bides⟩ := spares.old found
    have bides := bides other
    exact ⟨st', here, fun running => (counts (bides.before running)).bides bides⟩

/-- The loop of a stream that has just been started has counted nothing. -/
theorem counts_started (empty : xs = []) (backoff : l.backoff = { policy := st.policy }) :
    Counts l st xs := by
  subst empty
  exact ⟨backoff, fun _ => Nat.zero_le _⟩

/-- Nothing but a step of its loop touches it. -/
theorem concerns (n : Nat) (xs : List Intake) : Concerns n (Retries n xs) where
  spares retries spares := retries.spares spares (minds_none _ _) nofun
  others := spares
  ends {h h' st st'} retries found found' bides fewer :=
    { blank := fun none => nomatch none.symm.trans found'
      stream := fun found₂ => by
        cases found'.symm.trans found₂
        exact (retries.stream found).bides bides
      loops := fun k mem stream => by
        obtain ⟨_, found₁, counts⟩ := retries.loops k (fewer mem) stream
        cases found.symm.trans found₁
        exact ⟨st', found', fun running => (counts (bides.before running)).bides bides⟩ }
  starts {h i st} retries found created parent := by
    have later {st₀ : Stream} (found₀ : h.streams[n]? = some st₀) :
        ∃ st₁, (h.startStream i parent).2.streams[n]? = some st₁ ∧
          (st₁.isStopped = false → st₀.isStopped = false) ∧ st₁.policy = st₀.policy := by
      obtain ⟨st₁, found₁, rfl | ⟨rfl, rfl⟩⟩ := started_old found created parent found₀
      · exact ⟨st₁, found₁, id, rfl⟩
      · cases found.symm.trans found₀
        exact ⟨_, found₁, fun _ => by simp [Stream.isStopped, created], rfl⟩
    refine ⟨fun none => ?_, fun {st'} found' => ?_, fun l mem stream => ?_⟩
    · cases found₀ : h.streams[n]? with
      | none => exact retries.blank found₀
      | some st₀ =>
        obtain ⟨_, here, _⟩ := later found₀
        cases none.symm.trans here
    · rcases streams_started_cases found created found' with ⟨rfl, rfl⟩ | old
      · exact (retries.stream found).starts created
      · exact retries.stream old
    · rcases loops_started_cases found created mem with old | ⟨here, fresh⟩
      · obtain ⟨st₀, found₀, counts⟩ := retries.loops l old stream
        obtain ⟨st₁, found₁, running, policy⟩ := later found₀
        refine ⟨st₁, found₁, fun now => ⟨?_, ?_⟩⟩
        · rw [policy]
          exact (counts (running now)).backoff
        · rw [policy]
          exact (counts (running now)).allowed
      · obtain rfl : i = n := here.symm.trans stream
        obtain ⟨st₁, found₁, _, policy⟩ := later found
        exact ⟨st₁, found₁, fun _ =>
          counts_started ((retries.stream found).created created) (policy ▸ fresh)⟩
  opens {h m mux} retries tended known key := by
    rw [openStream_eq]
    have empty (past : h.streams.length ≤ n) : xs = [] :=
      retries.blank (List.getElem?_eq_none_iff.mpr past)
    refine ⟨fun none => ?_, fun {st'} found' => ?_, fun l mem stream => ?_⟩
    · have past : (h.streams ++ [opened m mux key]).length ≤ n := List.getElem?_eq_none_iff.mp none
      rw [List.length_append] at past
      exact empty (Nat.le_trans (Nat.le_add_right _ _) past)
    · rcases streams_append_cases found' with old | ⟨rfl, rfl⟩
      · exact retries.stream old
      · rw [empty (Nat.le_refl _)]
        exact (Stream.budgeted_new key mux.settings.listWatch (some m)).starts rfl
    · rcases List.mem_append.mp mem with old | new
      · obtain ⟨st, found, counts⟩ := retries.loops l old stream
        have bound := (List.getElem?_eq_some_iff.mp found).1
        exact ⟨st, (List.getElem?_append_left bound).trans found, counts⟩
      · obtain rfl := List.mem_singleton.mp new
        obtain rfl : h.streams.length = n := stream
        exact ⟨opened m mux key, List.getElem?_concat_length,
          fun _ => counts_started (empty (Nat.le_refl _)) rfl⟩

end Retries

/-- A loop that has counted a streak goes on to count, or has been given up. -/
theorem Counts.backoffAfter? (counts : Counts l st xs) (h : Hub) (x : Option Intake) :
    (h.backoffAfter? l x = none ∧ st.policy.maxRetries ≠ 0 ∧
      streak (xs ++ x.toList) = st.policy.maxRetries.toNat + 1) ∨
    h.backoffAfter? l x = some ⟨st.policy, min (streak (xs ++ x.toList)) (wordCount - 1)⟩ ∧
      (st.policy.maxRetries ≠ 0 → streak (xs ++ x.toList) ≤ st.policy.maxRetries.toNat) := by
  cases x with
  | none =>
    rw [Option.toList_none, List.append_nil]
    exact .inr ⟨congrArg some counts.backoff, counts.allowed⟩
  | some x =>
    rw [Option.toList_some, Intake.streak_snoc]
    cases x with
    | read items version =>
      refine .inr ⟨congrArg some ?_, fun _ => Nat.zero_le _⟩
      rw [counts.backoff]
      exact congrArg (Backoff.mk _) (Nat.zero_min _).symm
    | heard e => exact .inr ⟨congrArg some counts.backoff, counts.allowed⟩
    | ended ending =>
      unfold Hub.backoffAfter? Intake.count
      rw [counts.backoff]
      rcases Backoff.next_streak h.draws counts.allowed with
        ⟨limited, spent, none⟩ | ⟨left, some, more⟩
      · exact .inl ⟨by rw [none]; rfl, limited, spent⟩
      · exact .inr ⟨by rw [some, more]; rfl, left⟩

/-- One step of the loop of the stream adds to what the stream has taken in. -/
theorem Stride.retries {x : Option Intake} (stride : h.Stride l st x h')
    (retries : Retries l.stream xs h) (regular : h.Regular) (stirs : Stirs h h') (mem : l ∈ h.loops)
    (found : h.streams[l.stream]? = some st) : Retries l.stream (xs ++ x.toList) h' := by
  obtain ⟨st', found', learns⟩ := stride.learns found
  obtain ⟨_, here, begun⟩ := regular.tended.begun l mem
  cases found.symm.trans here
  obtain ⟨_, here, begun'⟩ := stirs.started found begun
  cases found'.symm.trans here
  have before (running : st'.isStopped = false) : st.isStopped = false := learns.before running
  have counts (running : st.isStopped = false) : Counts l st xs := by
    obtain ⟨_, here, counts⟩ := retries.loops l mem rfl
    cases found.symm.trans here
    exact counts running
  have error (running : st'.isStopped = false) :
      st'.cache.lastError = lastFailure (xs ++ x.toList) := by
    rw [learns.cache]
    have known := (retries.stream found).error (before running)
    cases x with
    | none =>
      rw [Option.toList_none, List.append_nil]
      exact known
    | some x =>
      rw [Option.toList_some, Intake.lastFailure_snoc, ← known]
      exact Stream.lastError_take (before running) x
  -- Only what the loop has decided tells whether the stream has been given up.
  have decided (running : st'.isStopped = false) :
      st'.abandoned = st'.policy.verdict (xs ++ x.toList) ∧
      (st'.policy.maxRetries ≠ 0 → streak (xs ++ x.toList) ≤ st'.policy.maxRetries.toNat + 1) ∧
      ∀ k ∈ h'.loops, k.stream = l.stream → Counts k st' (xs ++ x.toList) := by
    have known := counts (before running)
    have alive : st.abandoned = none :=
      ((retries.stream found).verdict (before running)).trans known.verdict
    rcases known.backoffAfter? h x with ⟨spent, limited, most⟩ | ⟨left, allowed⟩
    · obtain ⟨loops, st₁, found₁, gone⟩ := stride.givesUp found spent
      cases found'.symm.trans found₁
      rw [learns.policy]
      refine ⟨?_, fun _ => Nat.le_of_eq most, fun k old stream => ?_⟩
      · rw [gone, RetryPolicy.verdict, if_pos ⟨limited, most⟩, ← error running, learns.cache]
      · rw [loops, List.mem_filter] at old
        have same := regular.tended.sole k old.1 l mem stream
        simp [same] at old
    · obtain ⟨⟨l', mem', stream', counted⟩, st₁, found₁, kept⟩ := stride.goesOn mem found left
      cases found'.symm.trans found₁
      have tended := (regular.stirs stirs).tended
      have goes {k : Loop} (backoff : k.backoff = ⟨st.policy, _⟩) : Counts k st' (xs ++ x.toList) :=
        ⟨by rw [learns.policy]; exact backoff, by rw [learns.policy]; exact allowed⟩
      refine ⟨?_, fun limited => ?_, fun k old stream => ?_⟩
      · rw [kept, alive]
        exact (goes counted).verdict.symm
      · rw [learns.policy] at limited ⊢
        exact Nat.le_succ_of_le (allowed limited)
      · rw [tended.same old mem' (tended.sole k old l' mem' (stream.trans stream'.symm))]
        exact goes counted
  exact {
    blank := fun none => nomatch none.symm.trans found'
    stream := fun {st₂} found₂ => by
      cases found'.symm.trans found₂
      exact ⟨fun created => absurd created begun', error, fun running => (decided running).1,
        fun running => (decided running).2.1⟩
    loops := fun k old stream => ⟨st', found', fun running => (decided running).2.2 k old stream⟩ }

/-- Every event adds what the stream takes in at it. -/
theorem Retries.course {e : Event} (retries : Retries n xs h) (regular : h.Regular)
    (course : h.Course e (h.step e)) :
    Retries n (xs ++ (h.intake? n e).toList) (h.step e) := by
  by_cases own : ∃ id l st, e = .loop id ∧ h.loop? id = some (l, st) ∧ l.stream = n
  · obtain ⟨id, l, st, rfl, found, rfl⟩ := own
    show Retries l.stream _ (h.loopStep id)
    rw [intake?_eq found, loopStep_eq found]
    cases stepped : h.stepLoop l st with
    | none =>
      rw [offer?_of_waits stepped, Option.toList_none, List.append_nil]
      exact retries
    | some h' =>
      exact (stepLoop_stride stepped).retries retries regular
        ((stepLoop_cases stepped).stirs regular found) (mem_of_loop? found) (stream_of_loop? found)
  · have others (id : Nat) (l : Loop) (st : Stream) (steps : e = .loop id)
        (found : h.loop? id = some (l, st)) : l.stream ≠ n :=
      fun here => own ⟨id, l, st, steps, found, here⟩
    rw [intake?_of_others others, Option.toList_none, List.append_nil]
    exact (concerns n xs).course retries regular course others

/-- So it is after every run. -/
theorem retries_run (limit : Nat) (draws : Draws) (es : List Event) (n : Nat) :
    Retries n ((start limit draws).intakes n es) ((start limit draws).run es) := by
  induction es using List.reverseRecOn with
  | nil => exact .initial n limit draws
  | append_singleton es e ih =>
    have course := run_course limit draws es e
    rw [run_snoc] at course ⊢
    rw [intakes_snoc]
    exact ih.course (regular_run limit draws es) course

/-! ## Rest -/

/-- The stream of number `n` has been started, and has no other loop than `l`. -/
structure Sole (n : Nat) (l : Loop) (h : Hub) : Prop where
  begun : ∃ st, h.streams[n]? = some st ∧ st.state ≠ .created
  sole : ∀ k ∈ h.loops, k.stream = n → k = l

namespace Sole

theorem spares (alone : Sole n l h) (spares : h.Spares at? of? h')
    (minds : h.Minds at? of?) (other : at? ≠ some n) :
    Sole n l h' where
  begun := by
    obtain ⟨st, found, begun⟩ := alone.begun
    obtain ⟨st', found', _, bides⟩ := spares.old found
    exact ⟨st', found', (bides other).started begun⟩
  sole k mem stream := alone.sole k ((spares.loops_of minds other stream).mp mem) stream

theorem concerns (n : Nat) (l : Loop) : Concerns n (Sole n l) where
  spares alone spares := alone.spares spares (minds_none _ _) nofun
  others := spares
  ends {h h' st st'} alone found found' bides fewer := by
    obtain ⟨_, here, begun⟩ := alone.begun
    cases found.symm.trans here
    exact ⟨⟨st', found', bides.started begun⟩, fun k mem => alone.sole k (fewer mem)⟩
  starts {h i st} alone found created parent := by
    obtain ⟨st₀, found₀, begun⟩ := alone.begun
    have other : i ≠ n := by
      rintro rfl
      cases found.symm.trans found₀
      exact begun created
    obtain ⟨st₁, found₁, rfl | ⟨here, _⟩⟩ := started_old found created parent found₀
    · refine ⟨⟨st₁, found₁, begun⟩, fun k mem stream => ?_⟩
      rcases loops_started_cases found created mem with old | ⟨here, _⟩
      · exact alone.sole k old stream
      · exact absurd (here.symm.trans stream) other
    · exact absurd here other
  opens {h m mux} alone tended known key := by
    obtain ⟨st₀, found₀, begun⟩ := alone.begun
    have bound := (List.getElem?_eq_some_iff.mp found₀).1
    rw [openStream_eq]
    refine ⟨⟨st₀, (List.getElem?_append_left bound).trans found₀, begun⟩, fun k mem stream => ?_⟩
    rcases List.mem_append.mp mem with old | new
    · exact alone.sole k old stream
    · obtain rfl := List.mem_singleton.mp new
      exact absurd stream (Nat.ne_of_gt bound)

/-- Until its time has come, a loop that rests is left alone, unless it ends. -/
theorem course {e : Event} {t : Nat} (alone : Sole n l h) (regular : h.Regular)
    (course : h.Course e (h.step e)) (rests : l.stage = .resting t) (early : h.now < t) :
    Sole n l (h.step e) := by
  by_cases own : ∃ id k st, e = .loop id ∧ h.loop? id = some (k, st) ∧ k.stream = n
  · -- The loop has to wait.
    obtain ⟨id, k, st, rfl, found, here⟩ := own
    obtain rfl := alone.sole k (mem_of_loop? found) here
    have waits : h.stepLoop k st = none := by
      unfold stepLoop
      simp only [rests, Nat.not_le_of_lt early, if_false]
    show Sole n k (h.loopStep id)
    rw [loopStep_eq found, waits]
    exact alone
  · exact (concerns n l).course alone regular course
      fun id k st steps found here => own ⟨id, k, st, steps, found, here⟩

end Sole

/-- The clock does not go back. -/
theorem Course.now {e : Event} (course : h.Course e h') : h.now ≤ h'.now := by
  cases course with
  | gentle gentle _ => exact Nat.le_of_eq gentle.now.symm
  | starts n parent gentle =>
    exact Nat.le_of_eq ((modest_startStream _ n parent).now.trans gentle.now).symm
  | steps id => exact Nat.le_of_eq (modest_loopStep h id).now.symm
  | ends id => exact Nat.le_of_eq (modest_loopEnd h id).now.symm
  | waits ms => exact Nat.le_add_right _ _
  | drops _ _ before after _ => exact Nat.le_of_eq (after.now.trans before.now).symm
  | turns _ asked takes turned =>
    have same := takes.modest.now.trans asked.gentle.now
    exact Nat.le_trans (Nat.le_of_eq same.symm) (SparingSteps.clock turned.sparing)

/-- Until its time has come, a loop that rests is left alone throughout every run, unless it ends. -/
theorem sole_run {limit : Nat} {draws : Draws} {es : List Event} {t : Nat}
    (alone : Sole n l ((start limit draws).run es)) (rests : l.stage = .resting t) (fs : List Event)
    (early : ((start limit draws).run (es ++ fs)).now < t) :
    Sole n l ((start limit draws).run (es ++ fs)) := by
  induction fs using List.reverseRecOn with
  | nil => rwa [List.append_nil]
  | append_singleton fs e ih =>
    rw [← List.append_assoc] at early ⊢
    have course := run_course limit draws (es ++ fs) e
    have before := Nat.lt_of_le_of_lt course.now early
    rw [run_snoc] at course ⊢
    exact (ih before).course (regular_run limit draws (es ++ fs)) course rests before

/-! ## The budget -/

/-- When a loop of a policy goes on, `c` cycles having ended before the one that ends now. -/
def resumption (h : Hub) (p : RetryPolicy) (c : Nat) : Nat :=
  h.now + (Backoff.jitter (Backoff.rawDelay p c) h.draws).1.millis

/-- When a cycle ends, the loop rests for the delay of the attempt, or is over.  Neither the cached object
nor the handlers change. -/
theorem Retries.ended {e : Event} {ending : CycleEnd} (retries : Retries n xs h) (regular : h.Regular)
    (found : h.streams[n]? = some st) (running : st.isStopped = false)
    (taken : h.intake? n e = some (.ended ending)) :
    ∃ st', (h.step e).streams[n]? = some st' ∧ st'.isStopped = false ∧
      st'.cache.item = st.cache.item ∧ st'.handlers = st.handlers ∧
      (st'.isAbandoned = true ∧ (∀ k ∈ (h.step e).loops, k.stream ≠ n) ∨
        st'.isAbandoned = false ∧ ∃ l ∈ (h.step e).loops, l.stream = n ∧
          l.stage = .resting (h.resumption st.policy (streak xs)) ∧ Sole n l (h.step e)) := by
  obtain ⟨id, l, st₀, rfl, loop, rfl, offered⟩ := offer?_of_intake? taken
  have here := stream_of_loop? loop
  cases found.symm.trans here
  have mem := mem_of_loop? loop
  have counts : Counts l st xs := by
    obtain ⟨_, here, counts⟩ := retries.loops l mem rfl
    cases found.symm.trans here
    exact counts running
  have alive : st.abandoned = none :=
    ((retries.stream found).verdict running).trans counts.verdict
  obtain ⟨h', stepped⟩ : ∃ h', h.stepLoop l st = some h' := by
    cases stepped : h.stepLoop l st with
    | none => cases offered.symm.trans (offer?_of_waits stepped)
    | some h' => exact ⟨h', rfl⟩
  have eq : h.step (.loop id) = h' := by
    show h.loopStep id = h'
    rw [loopStep_eq loop, stepped]
    rfl
  have stirs := (stepLoop_cases stepped).stirs regular loop
  have stride := stepLoop_stride stepped
  rw [offered] at stride
  rw [eq]
  obtain ⟨st', found', learns⟩ := stride.learns found
  obtain ⟨handlers, same⟩ := learns.quiet (.inl rfl)
  obtain ⟨lastError, noted⟩ := st.note_eq ending
  have item : st'.cache.item = st.cache.item := by
    have cache : st'.cache = (st.note ending).cache := learns.cache
    rw [cache, noted]
  refine ⟨st', found', same.trans running, item, handlers, ?_⟩
  -- The loop has no sibling, before and after.
  have sole {k : Loop} (old : k ∈ h.loops) (stream : k.stream = l.stream) : k = l :=
    regular.tended.same old mem (regular.tended.sole k old l mem stream)
  have ⟨_, here₀, begun⟩ := regular.tended.begun l mem
  cases found.symm.trans here₀
  have begun' := stirs.started found begun
  cases stride with
  | ends backend trace ending =>
    cases endCycle_ended (h := { h with backend, trace }) found ending with
    | givesUp next streams loops =>
      refine .inl ⟨?_, fun k old stream => ?_⟩
      · rw [streams, List.getElem?_set_self (List.getElem?_eq_some_iff.mp found).1] at found'
        cases found'
        rfl
      · rw [loops, List.mem_filter] at old
        obtain rfl := sole old.1 stream
        simp at old
    | rests d next streams loops =>
      have delay : d = (Backoff.jitter (Backoff.rawDelay st.policy (streak xs)) h.draws).1 := by
        have next : (l.backoff.next h.draws).1 = some d := next
        rw [counts.backoff] at next
        rcases Backoff.next_streak h.draws counts.allowed with ⟨_, _, spent⟩ | ⟨_, left, _⟩
        · cases next.symm.trans spent
        · exact Option.some.inj (next.symm.trans left)
      let rest (k : Loop) : Loop := { k with
        backoff := (l.backoff.next h.draws).2.1, stage := .resting (h.now + d.millis),
        ticket := h.tickets }
      have loops' : (({ h with backend, trace } : Hub).endCycle l ending).loops =
        (h.updateLoop l.id rest).loops := loops
      obtain ⟨rested, only⟩ := regular.tended.updated mem (f := rest) fun _ => rfl
      refine .inr ⟨?_, rest l, loops' ▸ rested, rfl, ?_, begun', fun k old => only k (loops' ▸ old)⟩
      · rw [streams, List.getElem?_set_self (List.getElem?_eq_some_iff.mp found).1] at found'
        cases found'
        unfold Stream.isAbandoned
        rw [noted, alive]
        rfl
      · show Stage.resting (h.now + d.millis) = _
        rw [delay]
        rfl

/-- In every run, a stream that has not been stopped has been given up when more cycles have ended since
the last full read than its policy allows to retry, and not before; the reason is the last failure since.
When a cycle ends and the stream is not given up, its loop rests for the delay of the attempt, and then
begins the next cycle. -/
theorem retry_budget_kept {limit : Nat} {draws : Draws} {es : List Event} {h : Hub} {n : Nat}
    {st : Stream} {xs : List Intake} (ran : h = (start limit draws).run es)
    (taken : xs = (start limit draws).intakes n es) (found : h.streams[n]? = some st)
    (running : st.isStopped = false) :
    (st.policy.maxRetries = 0 → st.abandoned = none) ∧
    (st.policy.maxRetries ≠ 0 → streak xs ≤ st.policy.maxRetries.toNat + 1 ∧
      (st.isAbandoned = true ↔ streak xs = st.policy.maxRetries.toNat + 1)) ∧
    (∀ ys items version (changes : List Change) ending,
      xs = ys ++ .read items version :: (changes.map .heard ++ [.ended ending]) →
      st.abandoned = none) ∧
    (∀ reason, st.abandoned = some reason →
      reason = (lastFailure xs).getD "retries exhausted") ∧
    ∀ e ending, h.intake? n e = some (.ended ending) →
      ∃ st', (h.step e).streams[n]? = some st' ∧ st'.isStopped = false ∧
        st'.cache.item = st.cache.item ∧ st'.handlers = st.handlers ∧
        (st'.isAbandoned = true ∧ (∀ k ∈ (h.step e).loops, k.stream ≠ n) ∨
          st'.isAbandoned = false ∧ ∃ l ∈ (h.step e).loops, l.stream = n ∧
            (∀ fs, ((h.step e).run fs).now < h.resumption st.policy (streak xs) →
              ∀ k ∈ ((h.step e).run fs).loops, k.stream = n → k = l) ∧
            ∀ g : Hub, h.resumption st.policy (streak xs) ≤ g.now →
              g.stepLoop l st' = some (g.beginCycle l st')) := by
  have retries : Retries n xs h := ran ▸ taken ▸ retries_run limit draws es n
  have regular : h.Regular := ran ▸ regular_run limit draws es
  have verdict := (retries.stream found).verdict running
  unfold RetryPolicy.verdict at verdict
  refine ⟨fun unlimited => ?_, fun limited => ⟨(retries.stream found).bound running limited, ?_⟩,
    fun ys items version changes ending cycle => ?_, fun reason gone => ?_, fun e ending ends => ?_⟩
  · rw [verdict, if_neg fun spent => spent.1 unlimited]
  · unfold Stream.isAbandoned
    rw [verdict]
    by_cases most : streak xs = st.policy.maxRetries.toNat + 1
    · simp [limited, most]
    · simp [most]
  · have one : streak xs = 1 := cycle ▸ Intake.streak_read ys items version changes ending
    rw [verdict, if_neg]
    rintro ⟨limited, most⟩
    have : st.policy.maxRetries.toNat = 0 := by omega
    exact limited (UInt64.toNat_inj.mp this)
  · rw [verdict] at gone
    split at gone
    · exact (Option.some.inj gone).symm
    · cases gone
  · obtain ⟨st', found', running', item, handlers, next⟩ :=
      retries.ended regular found running ends
    refine ⟨st', found', running', item, handlers,
      next.imp_right fun ⟨alive, l, mem, own, rests, alone⟩ => ?_⟩
    refine ⟨alive, l, mem, own, fun fs early => ?_, fun g due => ?_⟩
    · have step : h.step e = (start limit draws).run (es ++ [e]) := by rw [run_snoc, ran]
      rw [step] at alone early ⊢
      rw [← run_append] at early ⊢
      exact (sole_run alone rests fs early).sole
    · unfold stepLoop
      simp only [rests, due, if_true]

/-- A stream that may retry twice has read once, has lost its connection, and has failed to read. -/
def failedSinceRead : List Event :=
  [.command 0 (.apply ⟨"ns", "a"⟩ "x"),
    .command 1 (.newStream "s" ⟨"ns", "a"⟩ { maxRetries := 2 }), .command 2 (.startStream "s" none),
    .loop 0, .loop 0, .loop 0, .loop 0, .command 3 .disconnect, .loop 0, .command 4 (.failLists 2),
    .wait 100, .loop 0, .loop 0, .wait 200, .loop 0]

/-- When it fails to read once more, it is given up with the object that it has read. -/
theorem retry_budget_kept_spent : ∃ st,
    ((start 4 {}).run (failedSinceRead ++ [.loop 0])).streams[0]? = some st ∧
    streak ((start 4 {}).intakes 0 (failedSinceRead ++ [.loop 0])) = 3 ∧ st.isAbandoned = true ∧
    st.abandoned = some "Store unavailable: injected list failure" ∧
    st.cache.item = some ⟨⟨"ns", "a"⟩, "1", "x"⟩ := by
  have seen : ((start 4 {}).run (failedSinceRead ++ [.loop 0])).streams[0]?.map
      (fun st => (st.isStopped, st.policy.maxRetries, st.cache.item)) =
        some (false, 2, some ⟨⟨"ns", "a"⟩, "1", "x"⟩) := by decide
  have ended : streak ((start 4 {}).intakes 0 (failedSinceRead ++ [.loop 0])) = 3 := by decide
  obtain ⟨st, found, seen⟩ := Option.map_eq_some_iff.mp seen
  obtain ⟨running, retries, item⟩ := Prod.mk.inj seen |>.imp_right Prod.mk.inj
  obtain ⟨_, spent, _, reason, _⟩ := retry_budget_kept rfl rfl found running
  have gone : st.isAbandoned = true := (spent (by rw [retries]; decide)).2.mpr (by
    rw [ended, retries]
    rfl)
  obtain ⟨why, given⟩ := Option.isSome_iff_exists.mp gone
  refine ⟨st, found, ended, gone, ?_, item⟩
  rw [given, reason why given]
  decide

end Hub

end SharedWatch
