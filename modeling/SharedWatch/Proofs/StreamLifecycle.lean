import SharedWatch.Proofs.ActiveStreamsGauge
import SharedWatch.Proofs.SharingSteps
import SharedWatch.Proofs.DeedTellings

/-!
# The lifetime of a stream

What can be relied on in every run, at every moment of it, in the middle of a delivery as well as
between two events.

* `Hub.IsOver`: nothing more becomes of a stream.
* `Hub.Lifelong`: streams change state one step at a time, have one loop at most, never lose their
  sync flag, are stopped once, and are over from then on.
* `lifecycle_followed`: so it is throughout every run.
-/

namespace SharedWatch

namespace Hub

open Relation (ReflTransGen)

variable {h g : Hub} {n m : Nat} {st : Stream}

/-! ## What a stream tells -/

/-- What the handlers of the stream of number `n` have been told, in order. -/
def toldBy (h : Hub) (n : Nat) : List Telling := h.tellings.filter (·.stream = n)

theorem toldBy_invoke (other : m ≠ n) (handler : Nat × HandlerRef) (c : Callback) :
    (h.invoke m handler c).toldBy n = h.toldBy n := by
  unfold toldBy
  rw [tellings_invoke, List.filter_append]
  simp [other]

theorem toldBy_deliver (other : m ≠ n) (c : Callback) :
    (h.deliver m c).toldBy n = h.toldBy n := by
  unfold deliver
  split
  · rfl
  · rename_i st found
    clear found
    generalize st.handlers = handlers
    induction handlers generalizing h with
    | nil => rfl
    | cons handler handlers ih => exact ih.trans (toldBy_invoke other handler c)

theorem toldBy_attachHandler (other : m ≠ n) (ref : HandlerRef) :
    (h.attachHandler m ref).2.toldBy n = h.toldBy n := by
  unfold attachHandler
  split
  · rfl
  · split
    · rfl
    · simp only
      split
      · exact toldBy_invoke other _ _
      · rfl

theorem toldBy_delivers {st' : Stream} {callback : Option Callback} {h' : Hub}
    (delivers : h.Delivers m st' callback h') (quiet : m = n → callback = none) :
    h'.toldBy n = h.toldBy n := by
  obtain ⟨g, g', before, after, rfl⟩ := delivers
  have same : g'.toldBy n = h.toldBy n :=
    congrArg (List.filter _) (after.tellings.trans before.tellings)
  by_cases own : m = n
  · rw [quiet own]
    exact same
  · cases callback with
    | none => exact same
    | some c => exact (toldBy_deliver own c).trans same

/-- A loop has no news for a stopped stream. -/
theorem News.none_of_stopped {l : Loop} {x : Stream × Option Callback} (news : h.News l st x)
    (stopped : st.isStopped = true) : x.2 = none := by
  cases news with
  | read _ => rw [Stream.replace_stopped stopped]
  | arrived _ _ => rw [Stream.receive_stopped stopped]
  | played _ => rw [Stream.receive_stopped stopped]

theorem attachHandler_of_stopped (found : h.streams[n]? = some st) (stopped : st.isStopped = true)
    (ref : HandlerRef) : h.attachHandler n ref = (.error (.streamStopped st.key), h) := by
  unfold attachHandler
  simp only [found, stopped, if_true]

/-- A deed that begins when a stream has been stopped tells nothing on behalf of the stream. -/
theorem Deed.silent {h' : Hub} (deed : Deed h h') (found : h.streams[n]? = some st)
    (stopped : st.isStopped = true) : h'.toldBy n = h.toldBy n := by
  have attached {g : Hub} (same : g.streams = h.streams) (tellings : g.tellings = h.tellings)
      (m : Nat) (ref : HandlerRef) : (g.attachHandler m ref).2.toldBy n = h.toldBy n := by
    have told : g.toldBy n = h.toldBy n := congrArg (List.filter _) tellings
    by_cases own : m = n
    · subst own
      rw [attachHandler_of_stopped (same ▸ found) stopped]
      exact told
    · exact (toldBy_attachHandler own ref).trans told
  cases deed with
  | calm calm => exact congrArg (List.filter _) calm.lives.keeps.tellings
  | attach m ref =>
    have beside := beside_bypass h m .attached
    exact attached beside.streams beside.tellings m ref
  | join _ _ _ =>
    rename_i c m ref _ _ _ _
    exact attached (g := h.dropCall c.id) rfl rfl m ref
  | loop here stepped =>
    rename_i id l st₀
    have found₀ := stream_of_loop? here
    rcases (stepLoop_cases stepped).still_or_delivers found₀ with
      still | ⟨g, g', x, news, before, _, delivers, after⟩
    · exact congrArg (List.filter _) still.tellings
    · have quiet : l.stream = n → x.2 = none := by
        rintro rfl
        rw [found] at found₀
        cases found₀
        exact news.none_of_stopped stopped
      have last : h'.toldBy n = g'.toldBy n := congrArg (List.filter _) after.tellings
      have first : g.toldBy n = h.toldBy n := congrArg (List.filter _) before.tellings
      exact (last.trans (toldBy_delivers delivers quiet)).trans first
  | loopEnd id =>
    rcases loopEnd_cases h id with still | ⟨m, still⟩
    · exact congrArg (List.filter _) still.tellings
    · exact congrArg (List.filter _) (still.tellings.trans (keeps_haltStream h m).tellings)

/-! ## Stopped streams -/

/-- A stopped stream stays stopped, and keeps what it has seen of its object. -/
theorem Stirs.rests {h' : Hub} (stirs : Stirs h h') (found : h.streams[n]? = some st)
    (stopped : st.isStopped = true) : ∃ st', h'.streams[n]? = some st' ∧ st'.state = .stopped ∧
      st'.cache.seen = st.cache.seen ∧ st'.hasSynced = st.hasSynced ∧
        st'.handlers.Sublist st.handlers := by
  induction stirs with
  | refl => exact ⟨st, found, of_decide_eq_true stopped, rfl, rfl, .refl _⟩
  | tail _ stir ih =>
    obtain ⟨st₁, found₁, state₁, seen₁, synced₁, handlers₁⟩ := ih
    obtain ⟨st₂, found₂, turn⟩ := stir.turns.old found₁
    obtain ⟨state₂, seen₂, synced₂, handlers₂⟩ := turn.rests (decide_eq_true state₁)
    exact ⟨st₂, found₂, state₂, seen₂.trans seen₁, synced₂.trans synced₁,
      handlers₂.trans handlers₁⟩

theorem Stirs.synced {h' : Hub} (stirs : Stirs h h') (found : h.streams[n]? = some st)
    (synced : st.hasSynced = true) : ∃ st', h'.streams[n]? = some st' ∧ st'.hasSynced = true := by
  induction stirs with
  | refl => exact ⟨st, found, synced⟩
  | tail _ stir ih =>
    obtain ⟨st₁, found₁, synced₁⟩ := ih
    obtain ⟨st₂, found₂, turn⟩ := stir.turns.old found₁
    exact ⟨st₂, found₂, turn.synced synced₁⟩

theorem stopStream_of_stopped (found : h.streams[n]? = some st) (stopped : st.isStopped = true) :
    (h.stopStream n).1 = false := by
  unfold stopStream haltStream
  simp only [found, stopped, if_true]

theorem haltStream_stops (found : h.streams[n]? = some st) :
    ∃ st', (h.haltStream n).2.streams[n]? = some st' ∧ st'.isStopped = true := by
  have halted : (h.updateStream n (·.halt)).streams[n]? = some st.halt := by
    rw [streams_updateStream, if_pos rfl, found]
    rfl
  unfold haltStream
  simp only [found]
  split
  · rename_i stopped
    exact ⟨st, found, stopped⟩
  · rename_i running
    have stops : st.halt.isStopped = true := by
      unfold Stream.halt
      rw [if_neg running]
      rfl
    simp only
    split <;> exact ⟨st.halt, halted, stops⟩

theorem streams_stopStream (h : Hub) (n : Nat) :
    (h.stopStream n).2.streams = (h.haltStream n).2.streams := by
  unfold stopStream
  simp only
  split <;> rfl

/-- Once a stream has been stopped, no call stops it again. -/
theorem Stirs.stopStream_eq_false {h' : Hub} (stirs : Stirs h h')
    (found : h.streams[n]? = some st) (stopped : st.isStopped = true) :
    (h'.stopStream n).1 = false := by
  obtain ⟨st', found', state, _⟩ := stirs.rests found stopped
  exact stopStream_of_stopped found' (decide_eq_true state)

/-- The loop of a stream whose parent has fired stops the stream when it ends. -/
theorem loopEnd_stops {id : Nat} {l : Loop} (found : h.loop? id = some (l, st))
    (fired : h.hasFired l.parent = true) (running : st.cancelled = false) :
    ∃ st', (h.loopEnd id).streams[l.stream]? = some st' ∧ st'.isStopped = true := by
  have ended (g : Hub) : (g.endLoop l).streams = g.streams := by
    unfold endLoop
    simp only
    split <;> rfl
  obtain ⟨st', found', stopped⟩ := haltStream_stops (stream_of_loop? found)
  refine ⟨st', ?_, stopped⟩
  unfold loopEnd
  simp only [found, running, fired, Bool.false_eq_true, if_false, if_true]
  rw [ended]
  exact found'

/-- Nothing more becomes of the stream of number `n`. -/
structure IsOver (h : Hub) (n : Nat) (st : Stream) : Prop where
  /-- It has no handlers. -/
  handlers : st.handlers = []
  /-- It stays stopped, with what it has seen and without handlers. -/
  later : ∀ g, Stirs h g → ∃ st', g.streams[n]? = some st' ∧ st'.state = .stopped ∧
    st'.cache.item = st.cache.item ∧ st'.cache.version = st.cache.version ∧
      st'.hasSynced = st.hasSynced ∧ st'.handlers = []
  /-- It tells nobody anything any more. -/
  silent : ∀ g, Deeds h g → g.toldBy n = h.toldBy n
  /-- A delivery that begins now calls nobody. -/
  deliver : ∀ c, h.deliver n c = h
  start : ∀ parent, h.startStream n parent = (.error (.streamStopped st.key), h)
  attach : ∀ ref, h.attachHandler n ref = (.error (.streamStopped st.key), h)
  item : st.item? = .error (.streamStopped st.key)

theorem Regular.isOver (regular : h.Regular) (found : h.streams[n]? = some st)
    (stopped : st.isStopped = true) : h.IsOver n st where
  handlers := (regular.honest found).stopped stopped
  later g stirs := by
    obtain ⟨st', found', state, seen, synced, handlers⟩ := stirs.rests found stopped
    rw [(regular.honest found).stopped stopped] at handlers
    exact ⟨st', found', state, congrArg Prod.fst seen, congrArg Prod.snd seen, synced,
      List.sublist_nil.mp handlers⟩
  silent g deeds := by
    induction deeds with
    | refl => rfl
    | tail before deed ih =>
      obtain ⟨st', found', state, _⟩ := (Deeds.stirs before regular).rests found stopped
      exact (deed.silent found' (decide_eq_true state)).trans ih
  deliver c := by
    unfold deliver
    simp only [found, (regular.honest found).stopped stopped, List.foldl_nil]
  start parent := by
    have state : st.state = .stopped := of_decide_eq_true stopped
    unfold startStream Stream.start?
    simp only [found, state]
  attach ref := attachHandler_of_stopped found stopped ref
  item := by
    unfold Stream.item?
    rw [if_pos stopped]

/-! ## All through a run -/

/-- What can be relied on of all streams, now and from now on. -/
structure Lifelong (h : Hub) : Prop where
  /-- Whatever happens next, states stay or change as states do. -/
  moves : ∀ g, Stir h g → ∀ (n : Nat) (st : Stream), h.streams[n]? = some st →
    ∃ st', g.streams[n]? = some st' ∧ (st'.state = st.state ∨ st.state.Moves st'.state)
  /-- A stream begins as one that has neither been started nor seen anything. -/
  begins : ∀ g, Stir h g → ∀ (n : Nat) (st' : Stream), h.streams[n]? = none → g.streams[n]? = some st' →
    st'.state = .created ∧ st'.hasSynced = false ∧ st'.cache = {} ∧ st'.handlers = []
  /-- One loop at most tends a stream. -/
  sole : ∀ l ∈ h.loops, ∀ l' ∈ h.loops, l.stream = l'.stream → l = l'
  /-- Starting a stream once more does nothing. -/
  starts : ∀ (n : Nat) (st : Stream) (parent : Nat), h.streams[n]? = some st → st.state ≠ .created →
    (h.startStream n parent).2 = h
  /-- Who is synced, or has something in the cache, has the sync flag. -/
  flag : ∀ (n : Nat) (st : Stream), h.streams[n]? = some st →
    st.state = .synced ∨ st.cache.item ≠ none ∨ st.cache.version ≠ "" → st.hasSynced = true
  /-- The sync flag stays. -/
  flagged : ∀ g, Stirs h g → ∀ (n : Nat) (st : Stream), h.streams[n]? = some st → st.hasSynced = true →
    ∃ st', g.streams[n]? = some st' ∧ st'.hasSynced = true
  /-- After a call that has stopped a stream, no other one does. -/
  stops : ∀ n, (h.stopStream n).1 = true → ∀ g, Stirs (h.stopStream n).2 g →
    (g.stopStream n).1 = false
  /-- After a loop has stopped its stream because its parent has fired, no call does. -/
  cancels : ∀ id l st, h.loop? id = some (l, st) → h.hasFired l.parent = true →
    st.cancelled = false → ∀ g, Stirs (h.loopEnd id) g → (g.stopStream l.stream).1 = false
  /-- A stopped stream is over. -/
  isOver : ∀ (n : Nat) (st : Stream), h.streams[n]? = some st → st.isStopped = true → h.IsOver n st

theorem Regular.lifelong (regular : h.Regular) : h.Lifelong where
  moves g stir n st found := by
    obtain ⟨st', found', turn⟩ := stir.turns.old found
    exact ⟨st', found', turn.state⟩
  begins g stir n st' none found' := by
    obtain ⟨_, _, _, rfl⟩ := stir.turns.new none found'
    exact ⟨rfl, rfl, rfl, rfl⟩
  sole l mem l' mem' same :=
    regular.tended.same mem mem' (regular.tended.sole l mem l' mem' same)
  starts n st parent found begun := startStream_of_begun found begun parent
  flag n st found seen := by
    have honest := regular.honest found
    rcases seen with synced | something
    · exact honest.synced synced
    · cases flag : st.hasSynced with
      | true => rfl
      | false =>
        have nothing := honest.seen flag
        have item : st.cache.item = none := congrArg Prod.fst nothing
        have version : st.cache.version = "" := congrArg Prod.snd nothing
        rcases something with some | some
        · exact absurd item some
        · exact absurd version some
  flagged g stirs n st found synced := stirs.synced found synced
  stops n stopped g stirs := by
    cases found : h.streams[n]? with
    | none =>
      unfold stopStream haltStream at stopped
      simp only [found] at stopped
      cases stopped
    | some st =>
      obtain ⟨st', found', stops⟩ := haltStream_stops found
      rw [← streams_stopStream] at found'
      exact stirs.stopStream_eq_false found' stops
  cancels id l st found fired running g stirs := by
    obtain ⟨st', found', stops⟩ := loopEnd_stops found fired running
    exact stirs.stopStream_eq_false found' stops
  isOver n st found stopped := regular.isOver found stopped

/-- A stream that is over tells nobody anything for the rest of a run. -/
theorem Regular.silent (regular : h.Regular) (found : h.streams[n]? = some st)
    (stopped : st.isStopped = true) (es : List Event) : (h.run es).toldBy n = h.toldBy n := by
  induction es generalizing h st with
  | nil => rfl
  | cons e es ih =>
    have stirs := step_stirs e regular
    obtain ⟨st', found', state, _⟩ := stirs.rests found stopped
    refine (ih (regular.stirs stirs) found' (decide_eq_true state)).trans ?_
    cases script : e.isScript with
    | true => exact congrArg (List.filter _) (still_script script).tellings
    | false => exact (regular.isOver found stopped).silent _ (step_deeds script)

/-- Streams follow their lifecycle throughout every run, whatever the store answers, and whatever
handlers do while they are called: they may start and stop streams, shut multiplexers down, remove
handlers and fire tokens.  What happens from one moment of a run to a later one is a sequence of single
things, and what can be relied on at every moment on the way is `Lifelong`: states move one step at a
time, one loop runs at most, one stop at most is told that it has stopped the stream, the sync flag
stays, and a stopped stream stays as it is.  Such a stream tells nobody anything for the rest of the run.
An event is one poll of a task, and is not interrupted by others. -/
theorem lifecycle_followed (limit : Nat) (draws : Draws) :
    (∀ es fs, Stirs ((start limit draws).run es) ((start limit draws).run (es ++ fs))) ∧
      (∀ es fs, (∀ e ∈ fs, e.isScript = false) →
        Deeds ((start limit draws).run es) ((start limit draws).run (es ++ fs))) ∧
      (∀ es fs (n : Nat) (st : Stream), ((start limit draws).run es).streams[n]? = some st →
        st.isStopped = true →
        ((start limit draws).run (es ++ fs)).toldBy n = ((start limit draws).run es).toldBy n) ∧
      ∀ es h, Stirs ((start limit draws).run es) h → h.Lifelong := by
  have regular (es : List Event) := regular_run limit draws es
  refine ⟨fun es fs => ?_, fun es fs plain => ?_, fun es fs n st found stopped => ?_,
    fun es h reached => ((regular es).stirs reached).lifelong⟩
  · rw [run_append]
    exact run_stirs fs (regular es)
  · rw [run_append]
    exact run_deeds plain
  · rw [run_append]
    exact (regular es).silent found stopped fs

/-- The run of a stream whose first handler stops it when it is called. -/
def stoppedInside : List Event :=
  [.command 0 (.apply ⟨"ns", "a"⟩ "x"), .command 1 (.newStream "s" ⟨"ns", "a"⟩ {}),
    .command 2 (.attach "s" ⟨"first", [(.add, .stop "s")]⟩ "r"), .call 2,
    .command 3 (.attach "s" ⟨"second", []⟩ "q"), .call 3,
    .command 4 (.startStream "s" none), .loop 0, .loop 0, .loop 0, .loop 0]

/-- The stream has told both handlers, and is over although its loop has not ended. -/
theorem lifecycle_followed_inside : ∃ st,
    ((start 4 {}).run stoppedInside).streams[0]? = some st ∧ st.isStopped = true ∧
      ((start 4 {}).run stoppedInside).loops.length = 1 ∧
      (((start 4 {}).run stoppedInside).toldBy 0).map (·.handler) = [1, 2] ∧
      ((start 4 {}).run stoppedInside).IsOver 0 st := by
  obtain ⟨_, _, _, lifelong⟩ := lifecycle_followed 4 {}
  have seen : ((start 4 {}).run stoppedInside).streams[0]?.map (·.isStopped) = some true := by
    decide
  obtain ⟨st, found, stopped⟩ := Option.map_eq_some_iff.mp seen
  exact ⟨st, found, stopped, by decide, by decide,
    (lifelong stoppedInside _ .refl).isOver 0 st found stopped⟩

end Hub

end SharedWatch
