import SharedWatch.Proofs.RegistrationsGauge

/-!
# Subscribers that go away

A subscriber that fails gives its reference back.  One that is made to go away while it waits gives
its turn at a manager on, as one that fails does, but keeps its reference, which nobody gives back
any more.

* `Hub.fail`: a subscriber fails at once, wherever it waits.
* `Hub.Holding`: it holds a reference to the stream that is that of its key.
* `Hub.Alike`: the hubs agree in entries, streams and managers.
* `abort_alike`: a subscriber that goes away does what one that fails does, unless it holds a
  reference.
-/

namespace SharedWatch

namespace Hub

/-- A subscriber fails at once, wherever it waits. -/
def fail (h : Hub) (c : PendingCall) (failure : WatchError) : Hub :=
  match c.phase with
  | .syncing w => h.conclude c w (.error failure)
  | .fresh | .queued _ => match c.request.manager? with
    | some g => h.finishTurn c g (.failed failure)
    | none => h.finish c (.failed failure)

/-- A call waits with a reference to the stream of an entry, which is that of its key. -/
def Holding (h : Hub) (c : PendingCall) (m : Nat) (key : ObjectKey) (e : Monitor) : Prop :=
  c.waitsOn? = some e.stream ∧ h.target? c.request = some (m, key) ∧ h.monitor? m key = some e

/-- The hubs agree in entries, streams and managers. -/
structure Alike (h h' : Hub) : Prop where
  multiplexers : h'.multiplexers = h.multiplexers
  streams : h'.streams = h.streams
  managers : h'.managers = h.managers

variable {h h' : Hub} {n m : Nat} {key : ObjectKey} {c : PendingCall} {e : Monitor}

/-! ## Managers -/

/-- The managers of a hub in which a call has given on its turn, if it needed one. -/
def managersWithout (h : Hub) (c : PendingCall) : List Manager :=
  c.request.manager?.elim h.managers fun g => h.managers.modify g (·.leave c.id)

theorem managers_stopStream (h : Hub) (n : Nat) : (h.stopStream n).2.managers = h.managers := by
  unfold stopStream
  simp only
  split
  · exact (rest_haltStream h n).1
  · exact (rest_haltStream h n).1

theorem managers_release (h : Hub) (m : Nat) (key : ObjectKey) (n : Nat) :
    (h.release m key n).managers = h.managers := by
  have given (mux : Multiplexer) (e : Monitor) :
      (h.giveBack m mux key e).2.managers = h.managers := by
    unfold giveBack
    split
    · exact managers_stopStream _ _
    · rfl
  unfold release
  split
  · rfl
  · split
    · rfl
    · split
      · simp only
        split <;> exact given _ _
      · rfl

/-! ## A subscriber that goes away -/

/-- A subscriber that goes away leaves entries and streams alone; what it holds is lost. -/
theorem abort_leaves (found : h.call? c.id = some c) :
    (h.abort c.id).2.multiplexers = h.multiplexers ∧ (h.abort c.id).2.streams = h.streams ∧
      (h.abort c.id).2.managers = h.managersWithout c ∧
      (h.abort c.id).2.dealings = c.waitsOn?.toList.map .lost ++ h.dealings := by
  have left : ∀ g, g = (c.waitsOn?.elim h fun n => (h.bypass n .aborted).deal (.lost n)) →
      g.multiplexers = h.multiplexers ∧ g.streams = h.streams ∧ g.managers = h.managers ∧
        g.dealings = c.waitsOn?.toList.map .lost ++ h.dealings := by
    rintro g rfl
    cases c.waitsOn? with
    | none => exact ⟨rfl, rfl, rfl, rfl⟩
    | some n =>
      have bypassed : (h.bypass n .aborted).managers = h.managers := by
        unfold bypass
        split <;> rfl
      exact ⟨(apart_bypass h n .aborted).multiplexers, (beside_bypass h n .aborted).streams,
        bypassed, congrArg (Dealing.lost n :: ·) (Prod.mk.inj (accounts_bypass h n .aborted)).1⟩
  obtain ⟨multiplexers, streams, managers, dealings⟩ := left _ rfl
  unfold abort managersWithout
  rw [found]
  simp only
  cases c.request.manager? with
  | none => exact ⟨multiplexers, streams, managers, dealings⟩
  | some g =>
    refine ⟨multiplexers, streams, ?_, dealings⟩
    exact congrArg (fun managers : List Manager => managers.modify g (·.leave c.id)) managers

/-! ## A subscriber that fails -/

/-- A subscriber that holds nothing fails without a trace. -/
theorem fail_idle (subscribes : c.request.isSubscriber = true) (idle : c.waitsOn? = none)
    (failure : WatchError) : (h.fail c failure).multiplexers = h.multiplexers ∧
      (h.fail c failure).streams = h.streams ∧
      (h.fail c failure).managers = h.managersWithout c := by
  unfold fail managersWithout
  cases phase : c.phase with
  | syncing w => simp [PendingCall.waitsOn?, phase, subscribes] at idle
  | fresh => cases c.request.manager? <;> exact ⟨rfl, rfl, rfl⟩
  | queued counted => cases c.request.manager? <;> exact ⟨rfl, rfl, rfl⟩

/-- A subscriber that waits gives up when it fails, and returns. -/
theorem conclude_failed {w : SyncWait} (target : h.target? c.request = some (m, key))
    (failure : WatchError) : h.conclude c w (.error failure) =
      c.request.manager?.elim
        ((h.giveUp c.id m key w.stream ("subscribe failed: " ++ failure.message)).finish c
          (.failed failure))
        ((h.giveUp c.id m key w.stream ("subscribe failed: " ++ failure.message)).finishTurn c ·
          (.failed failure)) := by
  unfold conclude
  cases asked : c.request with
  | subscribe m' key' ref token =>
    rw [asked] at target
    cases target
    rfl
  | register g owner object token =>
    rw [asked] at target
    obtain ⟨manager, known, same⟩ := Option.map_eq_some_iff.mp target
    cases same
    simp only [show (h.dropCall c.id).managers = h.managers from rfl, known]
    rfl
  | _ => rw [asked] at target; cases target

/-- A subscriber that waits gives up when it fails. -/
theorem fail_waiting (waits : c.waitsOn? = some n) (target : h.target? c.request = some (m, key))
    (failure : WatchError) : ∃ message,
      (h.fail c failure).multiplexers = (h.giveUp c.id m key n message).multiplexers ∧
      (h.fail c failure).streams = (h.giveUp c.id m key n message).streams ∧
      (h.fail c failure).managers = h.managersWithout c := by
  refine ⟨"subscribe failed: " ++ failure.message, ?_⟩
  have managers : (h.giveUp c.id m key n ("subscribe failed: " ++ failure.message)).managers =
      h.managers := managers_release _ m key n
  unfold PendingCall.waitsOn? at waits
  unfold fail managersWithout
  cases phase : c.phase with
  | fresh => rw [phase] at waits; cases waits
  | queued counted => rw [phase] at waits; cases waits
  | syncing w =>
    rw [phase] at waits
    simp only at waits
    split at waits
    · obtain rfl := Option.some.inj waits
      simp only
      rw [conclude_failed target]
      generalize h.giveUp c.id m key w.stream ("subscribe failed: " ++ failure.message) = g at *
      cases c.request.manager? with
      | none => exact ⟨rfl, rfl, managers⟩
      | some i =>
        refine ⟨rfl, rfl, ?_⟩
        exact congrArg (fun managers : List Manager => managers.modify i (·.leave c.id)) managers
    · cases waits

/-- A subscriber that does not hold a reference to the stream of its key fails without a trace. -/
theorem fail_leaves (books : h.Books none) (found : h.call? c.id = some c)
    (subscribes : c.request.isSubscriber = true) (free : ∀ m key e, ¬ h.Holding c m key e)
    (failure : WatchError) : (h.fail c failure).multiplexers = h.multiplexers ∧
      (h.fail c failure).streams = h.streams ∧
      (h.fail c failure).managers = h.managersWithout c := by
  cases waits : c.waitsOn? with
  | none => exact fail_idle subscribes waits failure
  | some n =>
    obtain ⟨f, m, _, _, target⟩ := books.waiting (List.mem_of_find?_eq_some found) waits
    obtain ⟨message, multiplexers, streams, managers⟩ := fail_waiting waits target failure
    rcases release_cases ((h.dropCall c.id).say .warn message) m f.key n with
      ⟨same, _⟩ | ⟨mux, e, known, entry, rfl, _⟩
    · have unchanged : h.giveUp c.id m f.key n message = (h.dropCall c.id).say .warn message := same
      rw [unchanged] at multiplexers streams
      exact ⟨multiplexers, streams, managers⟩
    · exact absurd ⟨waits, target, (monitor?_eq known).trans entry⟩ (free m f.key e)

/-- A subscriber that holds a reference to the stream of its key gives it back when it fails; the
stream stops with the last one. -/
theorem fail_gives_back (holding : h.Holding c m key e) (failure : WatchError) :
    (∀ m' key', (h.fail c failure).monitor? m' key' = if m' = m ∧ key' = key then
      (if e.refcount ≤ 1 then none else some { e with refcount := e.refcount - 1 })
        else h.monitor? m' key') ∧
    (e.refcount ≤ 1 → ∀ st, (h.fail c failure).streams[e.stream]? = some st →
      st.isStopped = true) := by
  obtain ⟨waits, target, found⟩ := holding
  obtain ⟨message, multiplexers, streams, _⟩ := fail_waiting waits target failure
  have here : ((h.dropCall c.id).say .warn message).monitor? m key = some e := found
  rcases release_cases ((h.dropCall c.id).say .warn message) m key e.stream with
    ⟨_, absent⟩ | ⟨mux, e', known, entry, _, aside⟩
  · exact absurd rfl (absent e here)
  · rw [monitor?_eq known, entry] at here
    cases here
    constructor
    · intro m' key'
      have same : (h.fail c failure).monitor? m' key' =
          (h.giveUp c.id m key e.stream message).monitor? m' key' := by
        unfold monitor?
        rw [multiplexers]
      exact same.trans ((aside.apart.monitor? m' key').trans (monitor?_giveBack known key m' key'))
    · intro last st stream
      have kept : (h.giveUp c.id m key e.stream message).streams = _ := aside.streams
      rw [streams, kept] at stream
      have face := face?_eq_some.mpr ⟨st, stream, rfl⟩
      rw [(giveBack_last mux last).2.face?] at face
      have halted := face?_haltStream ((h.dropCall c.id).say .warn message) e.stream e.stream
      rw [if_pos rfl] at halted
      obtain ⟨f, _, same⟩ := Option.map_eq_some_iff.mp (halted.symm.trans face)
      exact (congrArg Face.isStopped same).symm.trans f.isStopped_halt

/-! ## The comparison -/

/-- A subscriber that goes away does what one that fails does, unless it holds a reference to the
stream of its key. -/
theorem alike_iff (books : h.Books none) (found : h.call? c.id = some c)
    (subscribes : c.request.isSubscriber = true) (failure : WatchError) :
    (h.fail c failure).Alike (h.abort c.id).2 ↔ ∀ m key e, ¬ h.Holding c m key e := by
  obtain ⟨multiplexers, streams, managers, _⟩ := abort_leaves found
  constructor
  · intro alike m key e holding
    have given := (fail_gives_back holding failure).1 m key
    have kept : (h.fail c failure).monitor? m key = some e := by
      unfold monitor?
      rw [← alike.multiplexers, multiplexers]
      exact holding.2.2
    have counted := books.counted holding.2.2
    rw [if_pos ⟨rfl, rfl⟩, kept] at given
    split at given
    · cases given
    · have less := congrArg (Option.elim · 0 Monitor.refcount) given
      simp only [Option.elim_some] at less
      omega
  · intro free
    obtain ⟨multiplexers', streams', managers'⟩ := fail_leaves books found subscribes free failure
    exact ⟨multiplexers.trans multiplexers'.symm, streams.trans streams'.symm,
      managers.trans managers'.symm⟩

/-- However a subscriber fails, it gives its turn on as one does that goes away. -/
theorem managers_fail (books : h.Books none) (found : h.call? c.id = some c)
    (subscribes : c.request.isSubscriber = true) (failure : WatchError) :
    (h.fail c failure).managers = h.managersWithout c := by
  cases waits : c.waitsOn? with
  | none => exact (fail_idle subscribes waits failure).2.2
  | some n =>
    obtain ⟨f, m, _, _, target⟩ := books.waiting (List.mem_of_find?_eq_some found) waits
    obtain ⟨_, _, _, managers⟩ := fail_waiting waits target failure
    exact managers

/-- The live registrations of a key at a multiplexer. -/
def liveOf (h : Hub) (m : Nat) (key : ObjectKey) : List Registration :=
  h.live.filter fun r => r.issuer = some m ∧ r.key = key

/-- They are the registrations of the stream to which the entry leads. -/
theorem Roll.liveOf_eq (roll : h.Roll) (indexed : h.Indexed) (found : h.monitor? m key = some e) :
    h.liveOf m key = h.outstandingAt e.stream := by
  unfold liveOf live outstandingAt
  rw [List.filter_filter]
  refine List.filter_congr fun r out => ?_
  have granted := (List.mem_filter.mp out).1
  rw [Bool.eq_iff_iff, Bool.and_eq_true, decide_eq_true_eq, decide_eq_true_eq]
  constructor
  · rintro ⟨⟨issuer, rfl⟩, current⟩
    obtain ⟨m', e', issuer', found', own⟩ := stream_of_isCurrent current
    rw [issuer] at issuer'
    cases issuer'
    rw [found] at found'
    cases found'
    exact own.symm
  · intro own
    exact ⟨roll.belongs indexed granted found own.symm,
      roll.isCurrent indexed granted found own.symm⟩

/-- A subscriber that goes away leaves entries and streams as they are, and managers as one that fails
does.  In entries and streams, too, it does what one that fails does, unless it holds a reference to
the stream of its key: this one goes back when it fails, and is lost when it goes away.  So as long as
no registration has given back more than it was granted, an entry counts the live registrations of
its key, the subscribers that wait, and those that were lost. -/
theorem abort_alike {limit : Nat} {draws : Draws} {es : List Event} {h : Hub}
    (ran : h = (start limit draws).run es) :
    (∀ (c : PendingCall) (failure : WatchError), h.call? c.id = some c →
      c.request.isSubscriber = true →
      ((h.abort c.id).2.multiplexers = h.multiplexers ∧ (h.abort c.id).2.streams = h.streams ∧
        (h.abort c.id).2.managers = (h.fail c failure).managers) ∧
      ((h.fail c failure).Alike (h.abort c.id).2 ↔ ∀ m key e, ¬ h.Holding c m key e) ∧
      ∀ m key e, h.Holding c m key e →
        (h.abort c.id).2.dealings = .lost e.stream :: h.dealings ∧
        (∀ m' key', (h.fail c failure).monitor? m' key' = if m' = m ∧ key' = key then
          (if e.refcount ≤ 1 then none else some { e with refcount := e.refcount - 1 })
            else h.monitor? m' key') ∧
        (e.refcount ≤ 1 → ∀ st, (h.fail c failure).streams[e.stream]? = some st →
          st.isStopped = true)) ∧
    (h.Sound → ∀ (m : Nat) (key : ObjectKey) (e : Monitor), h.HasEntry m key e → e.refcount =
      (h.liveOf m key).length + h.waiters e.stream + h.dealings.count (.lost e.stream)) := by
  have books : h.Books none := ran ▸ (moment_run limit draws es).books
  have tally : h.Tally [] := ran ▸ tally_run limit draws es
  have roll : h.Roll := ran ▸ roll_run limit draws es
  constructor
  · intro c failure found subscribes
    obtain ⟨multiplexers, streams, managers, dealings⟩ := abort_leaves found
    refine ⟨⟨multiplexers, streams, ?_⟩, alike_iff books found subscribes failure,
      fun m key e holding => ⟨?_, fail_gives_back holding failure⟩⟩
    · exact managers.trans (managers_fail books found subscribes failure).symm
    · rw [dealings, holding.1]
      rfl
  · intro sound m key e entry
    have found := books.hasEntry_iff.mp entry
    rw [roll.liveOf_eq books.toIndexed found]
    exact tally.references roll sound found

/-- Once the multiplexer has been shut down, it does not matter how a subscriber ends that waited. -/
theorem abort_alike_shut_down : ∃ c, ((start 4 {}).run shutDownWhileWaiting).call? 1 = some c ∧
    c.waitsOn? = some 0 ∧ (((start 4 {}).run shutDownWhileWaiting).fail c
      (.streamStopped ⟨"ns", "a"⟩)).Alike (((start 4 {}).run shutDownWhileWaiting).abort c.id).2 := by
  have seen : (((start 4 {}).run shutDownWhileWaiting).call? 1).map (fun c => (c.id, c.waitsOn?,
      c.request.isSubscriber, ((start 4 {}).run shutDownWhileWaiting).target? c.request)) =
        some (1, some 0, true, some (0, ⟨"ns", "a"⟩)) := by decide
  obtain ⟨c, found, looks⟩ := Option.map_eq_some_iff.mp seen
  simp only [Prod.mk.injEq] at looks
  obtain ⟨same, waits, subscribes, target⟩ := looks
  have pending : ((start 4 {}).run shutDownWhileWaiting).call? c.id = some c := by
    rw [same]
    exact found
  obtain ⟨ends, _⟩ := @abort_alike 4 {} shutDownWhileWaiting _ rfl
  refine ⟨c, found, waits, (ends c _ pending subscribes).2.1.mpr fun m key e holding => ?_⟩
  have nowhere : ((start 4 {}).run shutDownWhileWaiting).monitor? 0 ⟨"ns", "a"⟩ = none := by decide
  obtain ⟨_, target', entry⟩ := holding
  rw [target] at target'
  cases target'
  rw [nowhere] at entry
  cases entry

/-- A subscriber waits for the first sync, and goes away. -/
def abortedWhileWaiting : List Event :=
  [.command 0 (.newMultiplexer "m" {} none),
    .command 1 (.subscribe "m" ⟨"ns", "a"⟩ ⟨"first", []⟩ "r" none), .call 1,
    .command 2 (.abort 1)]

/-- Its reference stays behind, although no call is left and no registration is live; it would not
have stayed if the subscriber had failed. -/
theorem abort_leaves_reference :
    ((start 4 {}).run abortedWhileWaiting).monitor? 0 ⟨"ns", "a"⟩ = some ⟨0, 1⟩ ∧
      ((start 4 {}).run abortedWhileWaiting).calls.length = 0 ∧
      ((start 4 {}).run abortedWhileWaiting).liveOf 0 ⟨"ns", "a"⟩ = [] ∧
      ((((start 4 {}).run (abortedWhileWaiting.take 3)).call? 1).map fun c =>
        (((start 4 {}).run (abortedWhileWaiting.take 3)).fail c
          (.streamStopped ⟨"ns", "a"⟩)).monitor? 0 ⟨"ns", "a"⟩) = some none := by
  decide

end Hub

end SharedWatch
