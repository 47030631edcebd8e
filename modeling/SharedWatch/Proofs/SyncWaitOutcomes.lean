import SharedWatch.Proofs.SyncWaits
import SharedWatch.Proofs.CurrentReading
import SharedWatch.Proofs.RunningLoopsGauge
import SharedWatch.Proofs.Shutdown

/-!
# How a wait for the first sync ends

A wait may be over for five reasons, and several of them may have come by the time at which the waiter
has a turn.  Then one of them counts, whatever the order in which they have come.

* `SyncEnd`: the reasons; `SyncEnd.rank`, `SyncEnd.verdict`: which counts, and what the waiter is told.
* `Hub.HasCome`, `Hub.IsFirst`: a reason has come, and none that counts more.
* `hasCome_run`: what has come has come for good.
* `waitOutcome?_of_first`: a wait that is over ends as the first reason says.
* `first_reason_counts`: so it is in every run.
* `unheeded_parent`: a parent whose firing nobody has heeded yet is no reason.
-/

namespace SharedWatch

/-- Why a wait for the first sync of a stream may be over. -/
inductive SyncEnd
  /-- The stream has synced. -/
  | synced
  /-- The stream has been given up for a reason. -/
  | abandoned (reason : String)
  /-- The stream has been stopped. -/
  | stopped
  /-- The caller has given up. -/
  | cancelled
  /-- The bound on the wait has passed. -/
  | expired (limit : Span)
deriving DecidableEq

namespace SyncEnd

/-- Of several reasons, the one of the lowest rank counts. -/
def rank : SyncEnd → Nat
  | synced => 0
  | abandoned _ => 1
  | stopped => 2
  | cancelled => 3
  | expired _ => 4

/-- What a waiter for the stream of a key is told. -/
def verdict (key : ObjectKey) : SyncEnd → Except WatchError Unit
  | synced => .ok ()
  | abandoned reason => .error (.abandoned key reason)
  | stopped => .error (.streamStopped key)
  | cancelled => .error (.cancelled key)
  | expired limit => .error (.syncTimeout key limit)

end SyncEnd

namespace Stream

variable {st st' : Stream}

/-- The loop of a stream that will never deliver again is to end. -/
def Heeds (st : Stream) : Prop := st.isDead = true → st.cancelled = true

theorem Turn.heeds (turn : st.Turn st') (heeds : st.Heeds) : st'.Heeds := by
  have dead_of_gaveUp {st : Stream} (gaveUp : st.isAbandoned = true) : st.isDead = true := by
    unfold isDead
    rw [gaveUp, Bool.or_true]
  -- What neither stops the stream nor gives it up leaves the loop as it is.
  have runs (now : st'.isStopped = false) (same : st'.abandoned = st.abandoned)
      (loop : st'.cancelled = st.cancelled) : st'.Heeds := by
    intro dead
    unfold isDead isAbandoned at dead
    rw [now, same, Bool.false_or] at dead
    exact loop.trans (heeds (dead_of_gaveUp dead))
  cases turn with
  | stays => exact heeds
  | starts created => exact runs rfl rfl rfl
  | halts =>
    unfold halt
    split
    · exact heeds
    · exact fun _ => rfl
  | leaves left =>
    obtain ⟨_, _, _, rfl⟩ := detach_eq_ok left
    exact heeds
  | enters _ _ _ => exact heeds
  | resyncs _ =>
    cases stopped : st.isStopped with
    | true => rwa [move_of_stopped stopped]
    | false =>
      unfold move at runs ⊢
      rw [stopped] at runs ⊢
      exact runs rfl rfl rfl
  | reads items version _ =>
    rcases st.replace_cases items version with ⟨_, eq⟩ | ⟨_, eq⟩
    · rwa [eq]
    · rw [eq] at runs ⊢
      exact runs rfl rfl rfl
  | hears e _ =>
    obtain ⟨cache, eq⟩ := st.receive_fst e
    rw [eq]
    exact heeds
  | fails _ => exact heeds
  | givesUp _ => exact fun _ => rfl

end Stream

namespace Hub

variable {h h' g : Hub} {c : PendingCall} {n : Nat} {st : Stream} {w : SyncWait} {x : SyncEnd}

/-- In every run, a stream's loop is to end exactly if the stream will never deliver again. -/
theorem cancelled_iff_isDead {limit : Nat} {draws : Draws} (reached : Stirs (start limit draws) h)
    (found : h.streams[n]? = some st) : st.cancelled = true ↔ st.isDead = true :=
  ⟨reached.concluded (fun found => nomatch found) found,
    reached.all (fun _ _ _ => nofun) Stream.Turn.heeds (fun found => nomatch found) found⟩

/-! ## Reasons -/

/-- A reason for a wait for a stream to be over is there. -/
def Shows (h : Hub) (w : SyncWait) (st : Stream) : SyncEnd → Prop
  | .synced => st.hasSynced = true
  | .abandoned reason => st.abandoned = some reason
  | .stopped => st.isStopped = true
  | .cancelled => h.hasFired w.token = true
  | .expired limit => ∃ expiry, w.limit = some (limit, expiry) ∧ expiry ≤ h.now

/-- A reason for a wait to be over has come. -/
def HasCome (h : Hub) (w : SyncWait) (x : SyncEnd) : Prop :=
  ∃ st, h.streams[w.stream]? = some st ∧ h.Shows w st x

/-- A reason has come, and none that counts more. -/
def IsFirst (h : Hub) (w : SyncWait) (x : SyncEnd) : Prop :=
  h.HasCome w x ∧ ∀ y, h.HasCome w y → x.rank ≤ y.rank

/-- Of the reasons that have come, one comes first. -/
theorem exists_first (come : h.HasCome w x) : ∃ y, h.IsFirst w y := by
  induction rank : x.rank using Nat.strong_induction_on generalizing x with
  | _ k ih =>
    by_cases first : ∀ y, h.HasCome w y → x.rank ≤ y.rank
    · exact ⟨x, come, first⟩
    · push Not at first
      obtain ⟨y, come', lower⟩ := first
      exact ih y.rank (rank ▸ lower) come' rfl

/-- What becomes of a wait for a stream by its bound alone. -/
def lapse? (h : Hub) (w : SyncWait) (st : Stream) : Option (Except WatchError Unit) :=
  w.limit.bind fun bound =>
    if bound.2 ≤ h.now then some (.error (.syncTimeout st.key bound.1)) else none

theorem waitOutcome?_eq (found : h.streams[w.stream]? = some st) :
    h.waitOutcome? w = (st.syncOutcome? (h.hasFired w.token)).or (h.lapse? w st) := by
  unfold waitOutcome? lapse?
  simp only [found]
  cases st.syncOutcome? (h.hasFired w.token) with
  | some outcome => rfl
  | none => cases w.limit <;> rfl

theorem terminationError_of_alive (alive : st.abandoned = none) :
    st.terminationError = .streamStopped st.key := by
  unfold Stream.terminationError
  rw [alive]

theorem terminationError_of_gone {reason : String} (gone : st.abandoned = some reason) :
    st.terminationError = .abandoned st.key reason := by
  unfold Stream.terminationError
  rw [gone]

/-- A wait whose stream has neither synced nor ended is over by its token or its bound. -/
theorem waitOutcome?_of_running (found : h.streams[w.stream]? = some st)
    (never : st.hasSynced = false) (looped : st.cancelled = false) : h.waitOutcome? w =
      if h.hasFired w.token then some (.error (.cancelled st.key)) else h.lapse? w st := by
  rw [waitOutcome?_eq found]
  unfold Stream.syncOutcome?
  simp only [never, looped, Bool.false_eq_true, if_false]
  cases h.hasFired w.token <;> rfl

section

variable (found : h.streams[w.stream]? = some st)
  (ends : st.cancelled = true ↔ st.isDead = true)
include found ends

/-- The loop goes on of a stream that has neither been stopped nor given up. -/
theorem looped_of_none (running : ¬ h.HasCome w .stopped)
    (alive : ∀ reason, ¬ h.HasCome w (.abandoned reason)) : st.cancelled = false := by
  have running : st.isStopped = false :=
    Bool.eq_false_iff.mpr fun come => running ⟨st, found, come⟩
  have alive : st.abandoned = none :=
    Option.eq_none_iff_forall_ne_some.mpr fun reason come => alive reason ⟨st, found, come⟩
  rw [← Bool.not_eq_true, ends]
  simp [Stream.isDead, Stream.isAbandoned, running, alive]

/-- A wait ends as the first of the reasons says that have come. -/
theorem waitOutcome?_of_first (first : h.IsFirst w x) :
    h.waitOutcome? w = some (x.verdict st.key) := by
  obtain ⟨⟨st₀, found₀, shows⟩, least⟩ := first
  cases found.symm.trans found₀
  have absent {y : SyncEnd} (lower : y.rank < x.rank) : ¬ h.HasCome w y :=
    fun come => absurd (least y come) (Nat.not_le_of_lt lower)
  have never (later : SyncEnd.synced.rank < x.rank) : st.hasSynced = false :=
    Bool.eq_false_iff.mpr fun come => absent later ⟨st, found, come⟩
  have finished (never : st.hasSynced = false) (dead : st.isDead = true) :
      h.waitOutcome? w = some (.error st.terminationError) := by
    rw [waitOutcome?_eq found]
    unfold Stream.syncOutcome?
    simp only [never, ends.mpr dead, Bool.false_eq_true, if_false, if_true, Option.some_or]
  have looped (later : SyncEnd.stopped.rank < x.rank) : st.cancelled = false :=
    looped_of_none found ends (absent later) fun reason =>
      absent (y := .abandoned reason) (Nat.lt_trans (Nat.lt_succ_self 1) later)
  cases x with
  | synced => exact waitOutcome?_of_synced found shows
  | abandoned reason =>
    have gone : st.abandoned = some reason := shows
    have dead : st.isDead = true := by simp [Stream.isDead, Stream.isAbandoned, gone]
    rw [finished (never Nat.zero_lt_one) dead, terminationError_of_gone gone]
    rfl
  | stopped =>
    have stopped : st.isStopped = true := shows
    have dead : st.isDead = true := by simp [Stream.isDead, stopped]
    have alive : st.abandoned = none := Option.eq_none_iff_forall_ne_some.mpr fun reason come =>
      absent (y := .abandoned reason) (Nat.lt_succ_self 1) ⟨st, found, come⟩
    rw [finished (never (by decide)) dead, terminationError_of_alive alive]
    rfl
  | cancelled =>
    have fired : h.hasFired w.token = true := shows
    rw [waitOutcome?_of_running found (never (by decide)) (looped (by decide)), if_pos fired]
    rfl
  | expired limit =>
    obtain ⟨expiry, bound, passed⟩ := shows
    have last {y : SyncEnd} (early : y.rank < 4) : ¬ h.HasCome w y := absent early
    have waits : ¬ h.hasFired w.token = true := fun come =>
      last (y := .cancelled) (by decide) ⟨st, found, come⟩
    rw [waitOutcome?_of_running found (never (show 0 < 4 by decide)) (looped (show 2 < 4 by decide)),
      if_neg waits]
    unfold lapse?
    rw [bound, Option.bind_some, if_pos passed]
    rfl

/-- A wait is not over exactly while no reason has come. -/
theorem waitOutcome?_eq_none_iff : h.waitOutcome? w = none ↔ ∀ x, ¬ h.HasCome w x := by
  constructor
  · intro waits x come
    obtain ⟨y, first⟩ := exists_first come
    cases waits.symm.trans (waitOutcome?_of_first found ends first)
  · intro absent
    have never : st.hasSynced = false :=
      Bool.eq_false_iff.mpr fun come => absent .synced ⟨st, found, come⟩
    have waits : ¬ h.hasFired w.token = true := fun come => absent .cancelled ⟨st, found, come⟩
    have looped := looped_of_none found ends (absent .stopped) fun reason => absent _
    rw [waitOutcome?_of_running found never looped, if_neg waits]
    unfold lapse?
    cases limit : w.limit with
    | none => rfl
    | some bound =>
      obtain ⟨span, expiry⟩ := bound
      rw [Option.bind_some, if_neg fun passed =>
        absent (.expired span) ⟨st, found, expiry, limit, passed⟩]

end

/-! ## What has come has come for good -/

/-- The stream of number `n` has been given up for a reason. -/
def GivenUp (n : Nat) (reason : String) (h : Hub) : Prop :=
  ∃ st, h.streams[n]? = some st ∧ st.abandoned = some reason

namespace GivenUp

variable {reason : String} {at? of? : Option Nat}

theorem spares (givenUp : GivenUp n reason h) (spares : h.Spares at? of? h') (other : at? ≠ some n) :
    GivenUp n reason h' := by
  obtain ⟨st, found, gone⟩ := givenUp
  obtain ⟨st', found', _, bides⟩ := spares.old found
  exact ⟨st', found', (bides other).abandoned.trans gone⟩

theorem concerns (n : Nat) (reason : String) : Concerns n (GivenUp n reason) where
  spares givenUp spares := givenUp.spares spares nofun
  others givenUp spares _ other := givenUp.spares spares other
  ends {_ _ _ st'} givenUp found found' bides _ := by
    obtain ⟨_, here, gone⟩ := givenUp
    cases found.symm.trans here
    exact ⟨st', found', bides.abandoned.trans gone⟩
  starts {_ _ _} givenUp found created parent := by
    obtain ⟨st₀, found₀, gone⟩ := givenUp
    obtain ⟨st₁, found₁, rfl | ⟨_, rfl⟩⟩ := started_old found created parent found₀
    · exact ⟨st₁, found₁, gone⟩
    · exact ⟨_, found₁, gone⟩
  opens {h m mux} givenUp _ _ key := by
    obtain ⟨st₀, found₀, gone⟩ := givenUp
    rw [openStream_eq]
    have bound := (List.getElem?_eq_some_iff.mp found₀).1
    exact ⟨st₀, (List.getElem?_append_left bound).trans found₀, gone⟩

/-- A stream that has been given up has no loop any more, and so it has been given up for good. -/
theorem step {e : Event} (givenUp : GivenUp n reason h) (staffed : h.Staffed) (regular : h.Regular)
    (course : h.Course e h') : GivenUp n reason h' := by
  refine (concerns n reason).course givenUp regular course fun id l st _ found here => ?_
  obtain ⟨st₀, found₀, gone⟩ := givenUp
  cases gone.symm.trans ((staffed.streams found₀).alive l (mem_of_loop? found) here)

end GivenUp

theorem givenUp_run (limit : Nat) (draws : Draws) {es : List Event} {reason : String}
    (givenUp : GivenUp n reason ((start limit draws).run es)) (fs : List Event) :
    GivenUp n reason ((start limit draws).run (es ++ fs)) := by
  induction fs using List.reverseRecOn with
  | nil => rwa [List.append_nil]
  | append_singleton fs e ih =>
    rw [← List.append_assoc]
    exact ih.step (staffed_run limit draws (es ++ fs)) (regular_run limit draws (es ++ fs))
      (run_course limit draws (es ++ fs) e)

/-- A reason that has come is there for good. -/
theorem hasCome_run {limit : Nat} {draws : Draws} {es : List Event}
    (come : ((start limit draws).run es).HasCome w x) (fs : List Event) :
    ((start limit draws).run (es ++ fs)).HasCome w x := by
  have stirs : Stirs ((start limit draws).run es) ((start limit draws).run (es ++ fs)) := by
    rw [run_append]
    exact run_stirs fs (regular_run limit draws es)
  have lasts := lasts_run limit draws es fs
  obtain ⟨st, found, shows⟩ := come
  obtain ⟨st', found'⟩ :=
    Option.isSome_iff_exists.mp (lasts.streams w.stream (Option.isSome_of_eq_some found))
  cases x with
  | synced => exact stirs.synced found shows
  | abandoned reason => exact givenUp_run limit draws ⟨st, found, shows⟩ fs
  | stopped =>
    obtain ⟨st', found', stopped, _⟩ := stirs.rests found shows
    exact ⟨st', found', decide_eq_true stopped⟩
  | cancelled =>
    have fired : w.token ∈ ((start limit draws).run es).fired := List.contains_iff_mem.mp shows
    exact ⟨st', found', List.contains_iff_mem.mpr (lasts.fired fired)⟩
  | expired bound =>
    obtain ⟨expiry, limited, passed⟩ := shows
    exact ⟨st', found', expiry, limited, Nat.le_trans passed lasts.now⟩

/-! ## Answers -/

/-- Whoever waits in vain is told why. -/
theorem returned_conclude
    (known : ∀ k, c.request.manager? = some k → (h.managers[k]?).isSome = true) (e : WatchError) :
    (h.conclude c w (.error e)).returned = h.returned ++ [(c.id, .failed e)] := by
  have refused (g : Hub) (m : Nat) (key : ObjectKey) (ref : HandlerRef) :
      ∃ g', g.concludeSubscribe m key ref w.stream (.error e) = (.error e, g') ∧
        g'.returned = g.returned :=
    ⟨_, rfl, (gentle_giveUp g m key w.stream _).returned⟩
  have failed (g : Hub) : (g.finish c (.failed e)).returned = g.returned ++ [(c.id, .failed e)] := by
    rw [finish_plain (plain_failed e)]
    rfl
  unfold conclude
  cases asked : c.request with
  | awaitSync n token => exact failed _
  | subscribe m key ref token =>
    obtain ⟨g, eq, same⟩ := refused (h.dropCall c.id) m key ref
    simp only [eq]
    rw [failed, same]
    rfl
  | register k owner target token =>
    obtain ⟨manager, known⟩ := Option.isSome_iff_exists.mp (known k (by rw [asked]; rfl))
    have known' : (h.dropCall c.id).managers[k]? = some manager := known
    obtain ⟨g, eq, same⟩ := refused (h.dropCall c.id) manager.multiplexer (owner.target target)
      manager.handler
    simp only [known', eq]
    rw [finishTurn_plain (plain_failed e)]
    show g.returned ++ _ = _
    rw [same]
    rfl
  | _ => exact failed _

/-- Whoever wants nothing but to wait is told how the wait has ended. -/
theorem conclude_awaitSync {token : Nat} (asked : c.request = .awaitSync n token)
    (outcome : Except WatchError Unit) :
    h.conclude c w outcome = (h.dropCall c.id).answer c.id (.ofUnit outcome) := by
  unfold conclude
  simp only [asked]
  rw [finish_plain, dropCall_of_free (call?_dropCall h c.id)]
  cases outcome <;> exact nofun

/-- Whoever wants no reference is answered, and that is all. -/
theorem conclude_plain (plain : c.request.isSubscriber = false) (outcome : Except WatchError Unit) :
    ∃ reply, h.conclude c w outcome = (h.dropCall c.id).answer c.id reply := by
  have other : ∃ reply, (h.dropCall c.id).finish c
      ((h.dropCall c.id).concludeCurrent w.stream outcome) = (h.dropCall c.id).answer c.id reply := by
    rw [finish_plain (concludeCurrent_plain _ _ _), dropCall_of_free (call?_dropCall h c.id)]
    exact ⟨_, rfl⟩
  cases asked : c.request with
  | awaitSync n token => exact ⟨_, conclude_awaitSync asked outcome⟩
  | subscribe m key ref token =>
    rw [asked] at plain
    cases plain
  | register k owner target token =>
    rw [asked] at plain
    cases plain
  | _ =>
    unfold conclude
    simp only [asked]
    exact other

/-! ## Turns -/

theorem step_syncing (found : h.call? c.id = some c) (waits : c.phase = .syncing w) :
    h.step (.call c.id) = (h.waitOutcome? w).elim h (h.conclude c w) := by
  show h.callTurn c.id = _
  unfold callTurn
  simp only [found, waits]
  cases h.waitOutcome? w <;> rfl

/-- What becomes of a call that waits for the first sync of a stream, when it has a turn.  Nothing, while
no reason has come for the wait to be over.  Else the call waits no longer, and goes on as the first reason
says: it is told why it has waited in vain, and unless it is to take a reference, that is all that
happens. -/
structure SyncTurn (h : Hub) (c : PendingCall) (w : SyncWait) (st : Stream) (h' : Hub) : Prop where
  waits : (∀ x, ¬ h.HasCome w x) → h' = h
  ends : (∃ x, h.HasCome w x) → h'.call? c.id = none
  first : ∀ x, h.IsFirst w x → h' = h.conclude c w (x.verdict st.key)
  failed : ∀ x e, h.IsFirst w x → x.verdict st.key = .error e →
    h'.returned = h.returned ++ [(c.id, .failed e)]
  plain : ∀ x, h.IsFirst w x → c.request.isSubscriber = false →
    ∃ reply, h' = (h.dropCall c.id).answer c.id reply
  awaited : ∀ x n token, h.IsFirst w x → c.request = .awaitSync n token →
    h' = (h.dropCall c.id).answer c.id (.ofUnit (x.verdict st.key))

theorem syncTurn (turn : h' = (h.waitOutcome? w).elim h (h.conclude c w))
    (known : ∀ k, c.request.manager? = some k → (h.managers[k]?).isSome = true)
    (found : h.streams[w.stream]? = some st) (ends : st.cancelled = true ↔ st.isDead = true) :
    h.SyncTurn c w st h' := by
  have goesOn {x : SyncEnd} (first : h.IsFirst w x) : h' = h.conclude c w (x.verdict st.key) := by
    rw [turn, waitOutcome?_of_first found ends first]
    rfl
  refine ⟨fun absent => ?_, fun ⟨x, come⟩ => ?_, fun x first => goesOn first, fun x e first told => ?_,
    fun x first plain => ?_, fun x n token first asked => ?_⟩
  · rw [turn, (waitOutcome?_eq_none_iff found ends).mpr absent]
    rfl
  · obtain ⟨y, first⟩ := exists_first come
    rw [goesOn first]
    exact call?_conclude h c w _
  · rw [goesOn first, told]
    exact returned_conclude known e
  · rw [goesOn first]
    exact conclude_plain plain _
  · rw [goesOn first]
    exact conclude_awaitSync asked _

/-- A call begins to wait as calls do everything. -/
theorem Opens.stirs (opens : h.Opens c w g) : Stirs h g := by
  have began {h' : Hub} {m : Nat} {key : ObjectKey} {token : Nat}
      (begun : h'.beginSubscribe m key token = (.ok w, g)) : Stirs h' g := by
    rcases beginSubscribe_cases h' m key token with ⟨e, eq⟩ | ⟨mux, w', _, _, eq⟩
    · cases eq.symm.trans begun
    · cases eq.symm.trans begun
      exact (lives_acquire h' m mux key).stirs
  cases opens with
  | awaits => exact .refl
  | subscribes _ _ begun => exact began begun
  | reads => exact .refl
  | registers _ _ gets _ begun => exact gets.aside.stirs.trans (began begun)
  | readsOwner _ _ gets _ _ => exact gets.aside.stirs.trans (aside_leaveTurn _ _ c.id).stirs

/-- The turn in which a call begins to wait is one in which it waits. -/
theorem Opens.syncTurn (opens : h.Opens c w g) (here : h.call? c.id = some c)
    (found : g.streams[w.stream]? = some st) (ends : st.cancelled = true ↔ st.isDead = true) :
    (g.beginWait c w).SyncTurn c w st (h.step (.call c.id)) := by
  refine Hub.syncTurn ?_ (fun k own => ?_) found ends
  · show h.callTurn c.id = _
    rw [opens.callTurn here]
    unfold waitOrConclude
    simp only
    cases (g.beginWait c w).waitOutcome? w <;> rfl
  · have managed := opens.lasts.managed.trans (gentle_beginWait g c w).managed
    exact isSome_of_managed managed (opens.managed own)

/-- Whoever wants nothing but to wait begins to do so at once, and so does a subscriber, unless the key
is refused. -/
theorem opens_of_fresh (fresh : c.phase = .fresh) :
    (∀ n token, c.request = .awaitSync n token → h.Opens c ⟨n, token, none⟩ h) ∧
    ∀ m key ref token mux, c.request = .subscribe m key ref token → h.multiplexers[m]? = some mux →
      keyRefusal? key = none → ∃ w g, h.Opens c w g := by
  refine ⟨fun n token asked => .awaits fresh asked, fun m key ref token mux asked known accepted => ?_⟩
  have begun : h.beginSubscribe m key token = (.ok ((h.acquire m mux key).2.boundedWait mux
      (h.acquire m mux key).1 token), (h.acquire m mux key).2) := by
    unfold beginSubscribe
    simp only [known, accepted]
  exact ⟨_, _, .subscribes fresh asked begun⟩

/-! ## Runs -/

/-- A call that is left alone stays as it is throughout every run. -/
theorem calls_run (limit : Nat) (draws : Draws) {es : List Event}
    (mem : c ∈ ((start limit draws).run es).calls) {fs : List Event}
    (left : ∀ e ∈ fs, ¬ Touches c.id e) : c ∈ ((start limit draws).run (es ++ fs)).calls := by
  induction fs using List.reverseRecOn with
  | nil => rwa [List.append_nil]
  | append_singleton fs e ih =>
    have before := ih fun e mem => left e (List.mem_append_left _ mem)
    rw [← List.append_assoc, run_snoc]
    exact calls_step (moment_run limit draws (es ++ fs)).books (holds_run limit draws (es ++ fs))
      (left e (List.mem_append_right _ (List.mem_singleton_self e))) before

/-- When its parent has fired, the loop of a stream stops the stream as it ends. -/
theorem stopped_of_loopEnd {id : Nat} {l : Loop} (staffed : h.Staffed)
    (ends : st.cancelled = true ↔ st.isDead = true) (found : h.loop? id = some (l, st))
    (own : l.stream = w.stream) (fired : h.hasFired l.parent = true) :
    (h.step (.loopEnd id)).HasCome w .stopped := by
  have here := stream_of_loop? found
  cases looped : st.cancelled with
  | false =>
    obtain ⟨st', found', stopped⟩ := loopEnd_stops found fired looped
    exact ⟨st', own ▸ found', stopped⟩
  | true =>
    -- A stream that has been given up has no loop, so this one has been stopped before.
    have alive := (staffed.streams here).alive l (mem_of_loop? found) rfl
    have stopped : st.isStopped = true := by
      simpa [Stream.isDead, Stream.isAbandoned, alive] using ends.mp looped
    refine ⟨st, ?_, stopped⟩
    have ended : (h.loopEnd id).streams = h.streams := by
      unfold loopEnd
      simp only [found, looped, if_true]
      unfold endLoop
      simp only
      split <;> rfl
    show (h.loopEnd id).streams[w.stream]? = some st
    rw [ended, ← own, here]

/-- A wait for the first sync of a stream is over as soon as one of five reasons has come: the stream has
synced, has been given up or been stopped, the caller has given up, or the bound has passed, if there is
one.  Of several reasons the first of this list counts, in whatever order they have come.  So it is in the
turn in which a call begins to wait, which it does for the stream, with the token and within the bound that
its request asks for, and in every later one.  Until a reason has come the call stays as it is, as long as
nobody drops it.  A parent that fires is a reason once the loop of the stream has heeded it. -/
theorem first_reason_counts {limit : Nat} {draws : Draws} {es : List Event} {h : Hub}
    (ran : h = (start limit draws).run es) {c : PendingCall} (mem : c ∈ h.calls) :
    (c.phase = .fresh → (∀ n token, c.request = .awaitSync n token → h.Opens c ⟨n, token, none⟩ h) ∧
      ∀ m key ref token mux, c.request = .subscribe m key ref token → h.multiplexers[m]? = some mux →
        keyRefusal? key = none → ∃ w g, h.Opens c w g) ∧
    (∀ w g, h.Opens c w g → g.now = h.now ∧ g.returned = h.returned ∧ g.Fits c.request w ∧
      ∃ st, g.streams[w.stream]? = some st ∧
        (g.beginWait c w).SyncTurn c w st (h.step (.call c.id))) ∧
    (∀ c' ∈ (h.step (.call c.id)).calls, c'.id = c.id → ∀ w, c'.phase = .syncing w →
      (c.phase = .syncing w ∨ ∃ g, h.Opens c w g) ∧ ∀ x, ¬ (h.step (.call c.id)).HasCome w x) ∧
    ∀ w, c.phase = .syncing w →
      (∃ fs gs c₀ g, es = fs ++ .call c.id :: gs ∧ c₀ ∈ ((start limit draws).run fs).calls ∧
        c₀.id = c.id ∧ c₀.request = c.request ∧ ((start limit draws).run fs).Opens c₀ w g) ∧
      ∀ fs, (∀ e ∈ fs, ¬ Touches c.id e) → ∀ g, g = h.run fs →
        c ∈ g.calls ∧ (∀ x, h.HasCome w x → g.HasCome w x) ∧
        (∃ st, g.streams[w.stream]? = some st ∧ g.SyncTurn c w st (g.step (.call c.id))) ∧
        ∀ id l st, g.loop? id = some (l, st) → l.stream = w.stream → g.hasFired l.parent = true →
          (g.step (.loopEnd id)).HasCome w .stopped := by
  subst ran
  have reached (es : List Event) : Stirs (start limit draws) ((start limit draws).run es) :=
    run_stirs es (regular_start limit draws)
  have valid := valid_run limit draws es c mem
  have books := (moment_run limit draws es).books
  have here := call?_of_mem books.toIndexed mem
  refine ⟨opens_of_fresh, fun w g opens => ?_, fun c' mem' own w waits => ?_, fun w waits =>
    ⟨opened_run limit draws es mem waits, fun fs left g later => ?_⟩⟩
  · have modest := opens.before.1
    have fits := opens.fits books valid.aims
    obtain ⟨st, found⟩ := Option.isSome_iff_exists.mp fits.here
    exact ⟨modest.now, modest.returned, fits, st, found, opens.syncTurn here found
      (cancelled_iff_isDead ((reached es).trans opens.stirs) found)⟩
  · have indexed' := (moment_run limit draws (es ++ [.call c.id])).books.toIndexed
    have reached' := reached (es ++ [.call c.id])
    have valid' := valid_run limit draws (es ++ [.call c.id]) c'
    rw [run_snoc] at indexed' reached' valid'
    have here' := call?_of_mem indexed' mem'
    obtain ⟨begun, idle⟩ := (begins_callTurn here c' (own ▸ here')).2 w waits
    obtain ⟨st, found⟩ := Option.isSome_iff_exists.mp ((valid' mem').here w waits)
    exact ⟨begun, (waitOutcome?_eq_none_iff found (cancelled_iff_isDead reached' found)).mp idle⟩
  · rw [← run_append] at later
    subst later
    have mem' := calls_run limit draws mem left
    have valid' := valid_run limit draws (es ++ fs) c mem'
    have here' := call?_of_mem (moment_run limit draws (es ++ fs)).books.toIndexed mem'
    obtain ⟨st, found⟩ := Option.isSome_iff_exists.mp (valid'.here w waits)
    refine ⟨mem', fun x come => hasCome_run come fs, ⟨st, found, syncTurn (step_syncing here' waits)
      (fun k => valid'.managed w k waits) found (cancelled_iff_isDead (reached _) found)⟩, ?_⟩
    intro id l st looped own fired
    have ends := cancelled_iff_isDead (reached (es ++ fs)) (stream_of_loop? looped)
    exact stopped_of_loopEnd (staffed_run limit draws (es ++ fs)) ends looped own fired

/-- Somebody waits for the first sync of a stream that may retry once. -/
def waitedOnce : List Event :=
  [.command 0 (.newStream "s" ⟨"ns", "a"⟩ { maxRetries := 1 }), .command 1 (.startStream "s" none),
    .command 2 (.awaitSync "s" (some "t")), .call 2]

/-- The stream is given up, then it is stopped, and then the caller gives up. -/
def overThrice : List Event :=
  [.command 3 (.failLists 2), .loop 0, .loop 0, .wait 100, .loop 0, .loop 0,
    .command 4 (.stopStream "s"), .command 5 (.cancel "t")]

/-- The waiter is told that the stream has been given up, and why. -/
theorem first_reason_counts_abandoned :
    (((start 4 {}).run waitedOnce).run overThrice).hasFired 1 = true ∧
    (((start 4 {}).run waitedOnce).run overThrice).streams.map (·.isStopped) = [true] ∧
    ((((start 4 {}).run waitedOnce).run overThrice).step (.call 2)).returned =
      [(2, .failed (.abandoned ⟨"ns", "a"⟩ "Store unavailable: injected list failure"))] := by
  have waits := (@first_reason_counts 4 {} waitedOnce _ rfl
    ⟨2, .awaitSync 0 1, .syncing ⟨0, 1, none⟩, 2, none⟩ (List.mem_singleton_self _)).2.2.2 _ rfl
  obtain ⟨_, _, ⟨st, found, turn⟩, _⟩ := waits.2 overThrice (by simp [overThrice, Touches]) _ rfl
  have state : ((((start 4 {}).run waitedOnce).run overThrice).streams[0]?).map
      (fun st => (st.key, st.hasSynced, st.abandoned)) =
        some (⟨"ns", "a"⟩, false, some "Store unavailable: injected list failure") := by
    decide
  rw [found, Option.map_some, Option.some.injEq, Prod.mk.injEq, Prod.mk.injEq] at state
  obtain ⟨hkey, never, gone⟩ := state
  have first : (((start 4 {}).run waitedOnce).run overThrice).IsFirst ⟨0, 1, none⟩
      (.abandoned "Store unavailable: injected list failure") := by
    refine ⟨⟨st, found, gone⟩, fun y come => ?_⟩
    obtain ⟨st', found', shows⟩ := come
    cases found.symm.trans found'
    cases y with
    | synced => cases never.symm.trans shows
    | _ => simp [SyncEnd.rank]
  have told := turn.failed _ _ first rfl
  rw [hkey] at told
  exact ⟨by decide, by decide, told⟩

/-- Somebody subscribes whose token has fired, and so has that of the multiplexer. -/
def firedBoth : List Event :=
  [.command 0 (.cancel "root"), .command 1 (.cancel "t"),
    .command 2 (.newMultiplexer "m" {} (some "root")),
    .command 3 (.subscribe "m" ⟨"ns1", "s1"⟩ ⟨"ha", []⟩ "a" (some "t"))]

/-- The parent of the stream has fired before the caller has given up, but nobody has heeded it yet. -/
theorem unheeded_parent :
    ((start 4 {}).run firedBoth).multiplexers.map (·.root) = [0] ∧
    ((start 4 {}).run firedBoth).fired = [1, 0] ∧
    (((start 4 {}).run firedBoth).step (.call 3)).loops.map (·.parent) = [0] ∧
    (((start 4 {}).run firedBoth).step (.call 3)).returned =
      [(3, .failed (.cancelled ⟨"ns1", "s1"⟩))] ∧
    (((start 4 {}).run firedBoth).step (.call 3)).returned ≠
      [(3, .failed (.streamStopped ⟨"ns1", "s1"⟩))] := by
  decide

end Hub

end SharedWatch
