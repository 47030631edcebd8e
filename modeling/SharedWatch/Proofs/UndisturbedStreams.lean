import SharedWatch.Proofs.Fanout
import SharedWatch.Proofs.RetryBudget

/-!
# Streams that are left alone

What becomes of a stream that nobody joins, leaves or stops is decided by what it takes in.

* `Stream.Alike`: two streams that look the same to handlers and callers.
* `Stream.CachesOwn`: a stream caches no other object than its own.
* `Hub.Undisturbed`: nobody joins or leaves a stream, or stops it.
* `Undisturbed.run`: what such a stream takes in is all that its handlers learn of.
* `item?_run`: a stream that may retry for ever shows what it has cached.
-/

namespace SharedWatch

namespace Stream

variable {st st' st'' : Stream} {xs ys : List Intake}

/-- Two streams that look the same to handlers and callers. -/
structure Alike (st st' : Stream) : Prop where
  key : st'.key = st.key
  policy : st'.policy = st.policy
  handlers : st'.handlers = st.handlers
  isStopped : st'.isStopped = st.isStopped
  item : st'.cache.item = st.cache.item
  hasSynced : st'.hasSynced = st.hasSynced

theorem Alike.refl (st : Stream) : st.Alike st := ⟨rfl, rfl, rfl, rfl, rfl, rfl⟩

theorem Alike.trans (first : st.Alike st') (second : st'.Alike st'') : st.Alike st'' where
  key := second.key.trans first.key
  policy := second.policy.trans first.policy
  handlers := second.handlers.trans first.handlers
  isStopped := second.isStopped.trans first.isStopped
  item := second.item.trans first.item
  hasSynced := second.hasSynced.trans first.hasSynced

theorem Alike.symm (alike : st.Alike st') : st'.Alike st :=
  ⟨alike.key.symm, alike.policy.symm, alike.handlers.symm, alike.isStopped.symm, alike.item.symm,
    alike.hasSynced.symm⟩

/-- Noting the end of a cycle shows nowhere. -/
theorem alike_note (st : Stream) (ending : CycleEnd) : st.Alike (st.note ending) := by
  obtain ⟨lastError, eq⟩ := st.note_eq ending
  rw [eq]
  exact ⟨rfl, rfl, rfl, rfl, rfl, rfl⟩

/-- What streams that look the same take in leaves them so, and makes the same callback. -/
theorem Alike.take (alike : st.Alike st') (x : Intake) :
    (st.take x).1.Alike (st'.take x).1 ∧ (st'.take x).2 = (st.take x).2 := by
  obtain ⟨key, policy, handlers, isStopped, item, hasSynced⟩ := alike
  cases x with
  | read items version =>
    show (st.replace items version).1.Alike (st'.replace items version).1 ∧
      (st'.replace items version).2 = (st.replace items version).2
    have same : st'.pick items = st.pick items := by
      unfold pick
      rw [key]
    unfold replace
    rw [isStopped]
    split
    · exact ⟨⟨key, policy, handlers, isStopped, item, hasSynced⟩, rfl⟩
    · rw [same, item]
      exact ⟨⟨key, policy, handlers, rfl, rfl, rfl⟩, rfl⟩
  | heard e =>
    show (st.receive e).1.Alike (st'.receive e).1 ∧ (st'.receive e).2 = (st.receive e).2
    unfold receive
    rw [isStopped, key]
    split
    · exact ⟨⟨key, policy, handlers, isStopped, item, hasSynced⟩, rfl⟩
    · rw [item]
      exact ⟨⟨rfl, policy, handlers, isStopped, rfl, hasSynced⟩, rfl⟩
  | ended ending =>
    have noted := (st.alike_note ending).symm
    have noted' := st'.alike_note ending
    exact ⟨(noted.trans ⟨key, policy, handlers, isStopped, item, hasSynced⟩).trans noted', rfl⟩

/-- So it is with all that they take in. -/
theorem Alike.takes (alike : st.Alike st') (xs : List Intake) :
    (st.takes xs).Alike (st'.takes xs) ∧ st'.told xs = st.told xs := by
  induction xs generalizing st st' with
  | nil => exact ⟨alike, rfl⟩
  | cons x xs ih =>
    obtain ⟨next, same⟩ := alike.take x
    obtain ⟨last, told⟩ := ih next
    refine ⟨last, ?_⟩
    unfold Stream.told
    rw [same, told]

/-! ## The cached object -/

/-- The cached object is the one that the stream is for. -/
def CachesOwn (st : Stream) : Prop := ∀ o, st.cache.item = some o → st.key.owns o = true

theorem Turn.cachesOwn (turn : st.Turn st') (own : st.CachesOwn) : st'.CachesOwn := by
  cases turn with
  | stays => exact own
  | starts _ => exact own
  | halts =>
    unfold halt
    split
    · exact own
    · exact own
  | leaves left =>
    obtain ⟨_, _, _, rfl⟩ := detach_eq_ok left
    exact own
  | enters _ _ _ => exact own
  | resyncs _ =>
    unfold move
    split
    · exact own
    · exact own
  | reads items version _ =>
    rcases st.replace_cases items version with ⟨_, eq⟩ | ⟨_, eq⟩
    · rw [eq]
      exact own
    · rw [eq]
      intro o found
      exact (List.mem_filter.mp (List.mem_of_getLast? found)).2
  | hears e _ =>
    unfold receive
    split
    · exact own
    · rename_i concerns
      intro o after
      obtain ⟨_, mine⟩ : st.isStopped = false ∧ st.key.owns e.object = true := by
        simpa using concerns
      cases e with
      | added new =>
        cases after
        exact mine
      | modified new =>
        cases after
        exact mine
      | deleted old => cases after
  | fails _ => exact own
  | givesUp _ => exact own

/-- A stream that runs shows what it has cached. -/
theorem CachesOwn.item? (own : st.CachesOwn) (running : st.isStopped = false)
    (alive : st.abandoned = none) : st.item? = .ok st.cache.item := by
  unfold Stream.item?
  rw [running, alive]
  cases cached : st.cache.item with
  | none => rfl
  | some o =>
    have mine := own o cached
    simp [mine]

end Stream

namespace Hub

variable {h h' : Hub} {n id : Nat} {l : Loop} {st st' : Stream} {e : Event} {at? of? : Option Nat}

/-! ## Streams that are left alone -/

/-- The handlers of the stream of number `n`, and whether it has been stopped. -/
def audience (h : Hub) (n : Nat) : Option (List (Nat × HandlerRef) × Bool) :=
  (h.streams[n]?).map fun st => (st.handlers, st.isStopped)

/-- Whether an event is a step of the loop of the stream of number `n` at which no handler is called. -/
def isSilent (h : Hub) (n : Nat) : Event → Bool
  | .loop id => (h.loop? id).any fun (l, st) => l.stream = n && (st.news? (h.offer? l st)).isNone
  | _ => false

/-- Nobody joins or leaves the stream of number `n`, and nobody stops it, while something else happens
than that its loop goes on in silence. -/
def Undisturbed (h : Hub) (n : Nat) : List Event → Prop
  | [] => True
  | e :: es => (h.isSilent n e ∨ (h.step e).audience n = h.audience n) ∧ (h.step e).Undisturbed n es

instance decidableUndisturbed (h : Hub) (n : Nat) : (es : List Event) → Decidable (h.Undisturbed n es)
  | [] => .isTrue trivial
  | e :: es =>
    have := decidableUndisturbed (h.step e) n es
    inferInstanceAs (Decidable ((_ ∨ _) ∧ _))

theorem undisturbed_append {es fs : List Event} (undisturbed : h.Undisturbed n (es ++ fs)) :
    h.Undisturbed n es := by
  induction es generalizing h with
  | nil => trivial
  | cons e es ih => exact ⟨undisturbed.1, ih undisturbed.2⟩

/-- The stream of number `n` has seen what `st` has seen. -/
def Beholds (n : Nat) (st : Stream) (h : Hub) : Prop :=
  ∃ st', h.streams[n]? = some st' ∧ st'.key = st.key ∧ st'.policy = st.policy ∧
    st'.cache = st.cache ∧ st'.hasSynced = st.hasSynced

namespace Beholds

theorem bides {st₁ st₂ : Stream} (beholds : Beholds n st h) (found : h.streams[n]? = some st₁)
    (found' : h'.streams[n]? = some st₂) (bides : st₁.Bides st₂) : Beholds n st h' := by
  obtain ⟨_, here, key, policy, cache, synced⟩ := beholds
  cases found.symm.trans here
  exact ⟨st₂, found', bides.key.trans key, bides.policy.trans policy, bides.cache.trans cache,
    bides.hasSynced.trans synced⟩

theorem spares (beholds : Beholds n st h) (spares : h.Spares at? of? h') (other : at? ≠ some n) :
    Beholds n st h' := by
  obtain ⟨st₁, found, _⟩ := id beholds
  obtain ⟨st₂, found', _, bides⟩ := spares.old found
  exact beholds.bides found found' (bides other)

/-- Nothing but a step of its loop shows the stream anything. -/
theorem concerns (n : Nat) (st : Stream) : Concerns n (Beholds n st) where
  spares beholds spared := beholds.spares spared nofun
  others beholds spared _ := beholds.spares spared
  ends beholds found found' bided _ := beholds.bides found found' bided
  starts {h i st₀} beholds found created parent := by
    obtain ⟨st₁, found₁, seen⟩ := beholds
    obtain ⟨st₂, found₂, rfl | ⟨_, rfl⟩⟩ := started_old found created parent found₁
    · exact ⟨_, found₂, seen⟩
    · exact ⟨_, found₂, seen⟩
  opens {h m mux} beholds tended known key := by
    obtain ⟨st₁, found₁, seen⟩ := beholds
    rw [openStream_eq]
    have bound := (List.getElem?_eq_some_iff.mp found₁).1
    exact ⟨st₁, (List.getElem?_append_left bound).trans found₁, seen⟩

end Beholds

theorem audience_eq (found : h.streams[n]? = some st) :
    h.audience n = some (st.handlers, st.isStopped) := by
  unfold audience
  rw [found]
  rfl

/-- An audience that stays the same has the same handlers, and the stream has not been stopped since. -/
theorem of_audience (found : h.streams[n]? = some st) (found' : h'.streams[n]? = some st')
    (same : h'.audience n = h.audience n) :
    st'.handlers = st.handlers ∧ st'.isStopped = st.isStopped := by
  rw [audience_eq found, audience_eq found'] at same
  exact Prod.mk.inj (Option.some.inj same)

/-- The steps of its loop show a stream what the loop has for it. -/
theorem alike_loopStep (loop : h.loop? id = some (l, st))
    (alone : h.isSilent l.stream (.loop id) ∨ (h.loopStep id).audience l.stream = h.audience l.stream) :
    ∃ st', (h.loopStep id).streams[l.stream]? = some st' ∧ (st.after (h.offer? l st)).Alike st' := by
  have found := stream_of_loop? loop
  have eq := loopStep_eq loop
  cases stepped : h.stepLoop l st with
  | none =>
    rw [stepped] at eq
    rw [eq, offer?_of_waits stepped]
    exact ⟨st, found, .refl st⟩
  | some h' =>
    rw [stepped, Option.getD_some] at eq
    rw [eq] at alone ⊢
    obtain ⟨st', found', learns⟩ := (stepLoop_stride stepped).learns found
    have face := st.face_after (h.offer? l st)
    have audience : st'.handlers = st.handlers ∧ st'.isStopped = st.isStopped := by
      rcases alone with silent | same
      · refine learns.quiet (.inl ?_)
        unfold isSilent at silent
        simpa [loop] using silent
      · exact of_audience found found' same
    exact ⟨st', found', learns.key.trans (congrArg Face.key face).symm,
      learns.policy.trans (st.policy_after _).symm, audience.1.trans (congrArg Face.handlers face).symm,
      audience.2.trans (congrArg Face.isStopped face).symm, congrArg Cache.item learns.cache,
      learns.hasSynced⟩

/-- Whatever happens to a stream that is left alone, it has taken in what its loop had for it. -/
theorem alike_step (regular : h.Regular) (course : h.Course e (h.step e))
    (found : h.streams[n]? = some st)
    (alone : h.isSilent n e ∨ (h.step e).audience n = h.audience n) :
    ∃ st', (h.step e).streams[n]? = some st' ∧ (st.after (h.intake? n e)).Alike st' := by
  by_cases own : ∃ id l, e = .loop id ∧ h.loop? id = some (l, st) ∧ l.stream = n
  · obtain ⟨id, l, rfl, loop, rfl⟩ := own
    rw [intake?_eq loop]
    exact alike_loopStep loop alone
  -- Nothing that somebody else does shows the stream anything.
  have others (id : Nat) (l : Loop) (st₀ : Stream) (steps : e = .loop id)
      (loop : h.loop? id = some (l, st₀)) : l.stream ≠ n := by
    intro here
    have found₀ := stream_of_loop? loop
    rw [here] at found₀
    cases found.symm.trans found₀
    exact own ⟨id, l, steps, loop, here⟩
  have quiet : h.intake? n e = none := intake?_of_others others
  have loud : ¬ h.isSilent n e = true := by
    intro silent
    cases e with
    | loop id =>
      unfold isSilent at silent
      cases loop : h.loop? id with
      | none => simp [loop] at silent
      | some x =>
        have here := others id _ _ rfl loop
        simp [loop, here] at silent
    | _ => cases silent
  have beholds : Beholds n st (h.step e) :=
    (Beholds.concerns n st).course ⟨st, found, rfl, rfl, rfl, rfl⟩ regular course others
  obtain ⟨st', found', key, policy, cache, synced⟩ := beholds
  obtain ⟨handlers, stopped⟩ := of_audience found found' (alone.resolve_left loud)
  rw [quiet]
  exact ⟨st', found', key, policy, handlers, stopped, congrArg Cache.item cache, synced⟩

/-! ## Runs -/

/-- A stream that is left alone has seen, at the end of a run, what it has taken in, and its handlers have
been told of it. -/
theorem Undisturbed.run {limit : Nat} {draws : Draws} {es₀ es : List Event}
    (found : ((start limit draws).run es₀).streams[n]? = some st)
    (alone : ((start limit draws).run es₀).Undisturbed n es) :
    ∃ st', (((start limit draws).run es₀).run es).streams[n]? = some st' ∧
      (st.takes (((start limit draws).run es₀).intakes n es)).Alike st' ∧
      ∀ k ∈ st.handlers.map (·.1), (((start limit draws).run es₀).run es).toldTo k =
        ((start limit draws).run es₀).toldTo k ++
          st.told (((start limit draws).run es₀).intakes n es) := by
  induction es generalizing es₀ st with
  | nil => exact ⟨st, found, .refl st, fun _ _ => (List.append_nil _).symm⟩
  | cons e es ih =>
    have course := run_course limit draws es₀ e
    have enlisted := enlisted_run limit draws es₀
    have regular := regular_run limit draws es₀
    have next : (start limit draws).run (es₀ ++ [e]) = ((start limit draws).run es₀).step e :=
      run_snoc _ _ _
    rw [next] at course
    obtain ⟨still, later⟩ := alone
    obtain ⟨st₁, found₁, alike₁⟩ := alike_step regular course found still
    rw [← next] at later found₁
    obtain ⟨st', found', alike', told'⟩ := ih found₁ later
    obtain ⟨same, same'⟩ := alike₁.takes (((start limit draws).run (es₀ ++ [e])).intakes n es)
    rw [next] at found' alike' told' same same'
    generalize (start limit draws).run es₀ = h at *
    have handlers : (st.after (h.intake? n e)).handlers = st.handlers :=
      congrArg Face.handlers (st.face_after _)
    unfold intakes
    rw [Stream.takes_after, Stream.told_after]
    refine ⟨st', found', same.trans alike', fun k mem => ?_⟩
    show ((h.step e).run es).toldTo k = _
    rw [told' k (by rw [alike₁.handlers, handlers]; exact mem), enlisted.toldTo_step found mem e, same',
      List.append_assoc]

/-- A stream that may retry for ever is not given up. -/
theorem alive_run (limit : Nat) (draws : Draws) (es : List Event)
    (found : ((start limit draws).run es).streams[n]? = some st) (running : st.isStopped = false)
    (unlimited : st.policy.maxRetries = 0) : st.abandoned = none := by
  rw [((retries_run limit draws es n).stream found).verdict running]
  exact if_neg fun spent => spent.1 unlimited

/-- It shows what it has cached, unless it has been stopped. -/
theorem item?_run (limit : Nat) (draws : Draws) (es : List Event)
    (found : ((start limit draws).run es).streams[n]? = some st) (running : st.isStopped = false)
    (unlimited : st.policy.maxRetries = 0) : st.item? = .ok st.cache.item := by
  have own : st.CachesOwn :=
    Stirs.all (run_stirs es (regular_start limit draws)) (fun _ _ _ => nofun) Stream.Turn.cachesOwn
      (fun found => nomatch found) found
  exact own.item? running (alive_run limit draws es found running unlimited)

end Hub

end SharedWatch
