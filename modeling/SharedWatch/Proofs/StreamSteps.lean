import SharedWatch.Proofs.SingleLoop

/-!
# What becomes of a stream

A deed can do much to a stream: a full read is delivered, and a handler stops the stream in the middle
of the delivery.  Here deeds are cut into pieces so small that each does one thing to one stream.

* `Lifecycle.Moves`: the changes of state that there are.
* `Stream.Turn`: one thing is done to a stream.
* `Hub.Stir`: one thing happens, to a stream or beside streams; `Hub.Stirs`: any number of them.
* `Hub.Regular`: loops tend streams that have been started, and read feeds of those that have synced.
* `Deed.stirs`, `step_stirs`, `run_stirs`: deeds, events and runs are made of such pieces.
-/

namespace SharedWatch

/-- The changes of state that there are. -/
inductive Lifecycle.Moves : Lifecycle → Lifecycle → Prop
  | start : Moves created syncing
  | sync : Moves syncing synced
  | resync : Moves synced syncing
  | stop {state : Lifecycle} : state ≠ stopped → Moves state stopped

/-- Whether a loop at a stage has delivered a full read, and watches from there. -/
def Stage.hasRead : Stage → Bool
  | .opening _ _ _ | .consuming _ _ => true
  | _ => false

namespace Stream

/-- The stream has synced, or has been stopped. -/
def Settled (st : Stream) : Prop := st.hasSynced = true ∨ st.isStopped = true

/-- One thing is done to a stream. -/
inductive Turn : Stream → Stream → Prop
  | stays (st : Stream) : Turn st st
  | starts {st : Stream} : st.state = .created → Turn st { st with state := .syncing }
  | halts (st : Stream) : Turn st st.halt
  | leaves {st st' : Stream} {n : Nat} {r : Registration} : st.detach n r = .ok st' → Turn st st'
  | enters {st : Stream} (handler : Nat) (ref : HandlerRef) :
    st.isStopped = false → Turn st (st.attach handler ref)
  | resyncs {st : Stream} : st.state ≠ .created → Turn st (st.move .syncing)
  | reads {st : Stream} (items : List Object) (version : String) :
    st.state ≠ .created → Turn st (st.replace items version).1
  | hears {st : Stream} (e : Change) : st.Settled → Turn st (st.receive e).1
  | fails (st : Stream) (f : StoreFailure) : Turn st (st.noteFailure f)
  | givesUp (st : Stream) (reason : String) : Turn st (st.abandon reason)

variable {st st' : Stream}

theorem halt_of_stopped (stopped : st.isStopped = true) : st.halt = st := by
  rw [halt, if_pos stopped]

theorem move_of_stopped (stopped : st.isStopped = true) (state : Lifecycle) :
    st.move state = st := by
  rw [move, if_pos stopped]

/-- A full read syncs a stream, unless it has been stopped. -/
theorem replace_cases (st : Stream) (items : List Object) (version : String) :
    st.isStopped = true ∧ st.replace items version = (st, none) ∨
    st.isStopped = false ∧ (st.replace items version).1 =
      { st with cache := { item := st.pick items, version }, state := .synced, hasSynced := true } := by
  cases stopped : st.isStopped with
  | true => exact .inl ⟨rfl, replace_stopped stopped items version⟩
  | false =>
    refine .inr ⟨rfl, ?_⟩
    rw [replace, if_neg (by simp [stopped])]

/-- A change changes the cache at most. -/
theorem receive_fst (st : Stream) (e : Change) :
    ∃ cache, (st.receive e).1 = { st with cache } := by
  unfold receive
  split
  · exact ⟨st.cache, rfl⟩
  · exact ⟨_, rfl⟩

theorem settled_replace (st : Stream) (items : List Object) (version : String) :
    (st.replace items version).1.Settled := by
  rcases st.replace_cases items version with ⟨stopped, eq⟩ | ⟨_, eq⟩
  · rw [eq]
    exact .inr stopped
  · rw [eq]
    exact .inl rfl

theorem Keeps.settled (keeps : st.Keeps st') (settled : st.Settled) : st'.Settled :=
  settled.imp keeps.hasSynced.trans keeps.stopped

namespace Turn

/-- The state stays, or changes as states do. -/
theorem state (turn : st.Turn st') : st'.state = st.state ∨ st.state.Moves st'.state := by
  cases turn with
  | stays => exact .inl rfl
  | starts created => exact .inr (created ▸ .start)
  | halts =>
    unfold halt
    split
    · exact .inl rfl
    · rename_i running
      exact .inr (.stop fun stopped => running (decide_eq_true stopped))
  | leaves left =>
    obtain ⟨_, _, _, rfl⟩ := detach_eq_ok left
    exact .inl rfl
  | enters _ _ _ => exact .inl rfl
  | resyncs begun =>
    unfold move
    split
    · exact .inl rfl
    · rename_i running
      cases now : st.state with
      | created => exact absurd now begun
      | syncing => exact .inl rfl
      | synced => exact .inr .resync
      | stopped => exact absurd (decide_eq_true now) running
  | reads items version begun =>
    rcases st.replace_cases items version with ⟨_, eq⟩ | ⟨running, eq⟩
    · exact .inl (congrArg (·.1.state) eq)
    · rw [eq]
      cases now : st.state with
      | created => exact absurd now begun
      | syncing => exact .inr .sync
      | synced => exact .inl rfl
      | stopped => exact absurd (decide_eq_true now) (ne_true_of_eq_false running)
  | hears e _ =>
    obtain ⟨cache, eq⟩ := st.receive_fst e
    rw [eq]
    exact .inl rfl
  | fails _ => exact .inl rfl
  | givesUp _ => exact .inl rfl

/-- What has been started stays started. -/
theorem started (turn : st.Turn st') (begun : st.state ≠ .created) : st'.state ≠ .created := by
  rcases turn.state with same | moves
  · exact same ▸ begun
  · generalize st.state = before at moves
    generalize st'.state = after at moves
    cases moves <;> exact nofun

/-- A stopped stream stays as it is, as far as anybody but its loop can see. -/
theorem rests (turn : st.Turn st') (stopped : st.isStopped = true) :
    st'.state = .stopped ∧ st'.cache.seen = st.cache.seen ∧ st'.hasSynced = st.hasSynced ∧
      st'.handlers.Sublist st.handlers := by
  have now : st.state = .stopped := of_decide_eq_true stopped
  cases turn with
  | stays => exact ⟨now, rfl, rfl, .refl _⟩
  | starts created => cases created.symm.trans now
  | halts =>
    rw [halt_of_stopped stopped]
    exact ⟨now, rfl, rfl, .refl _⟩
  | leaves left =>
    obtain ⟨_, _, _, rfl⟩ := detach_eq_ok left
    exact ⟨now, rfl, rfl, List.filter_sublist⟩
  | enters _ _ running => cases running.symm.trans stopped
  | resyncs _ =>
    rw [move_of_stopped stopped]
    exact ⟨now, rfl, rfl, .refl _⟩
  | reads _ _ _ =>
    rw [replace_stopped stopped]
    exact ⟨now, rfl, rfl, .refl _⟩
  | hears e _ =>
    rw [receive_stopped stopped]
    exact ⟨now, rfl, rfl, .refl _⟩
  | fails _ => exact ⟨now, rfl, rfl, .refl _⟩
  | givesUp _ => exact ⟨now, rfl, rfl, .refl _⟩

/-- What has synced has synced for ever. -/
theorem synced (turn : st.Turn st') (synced : st.hasSynced = true) : st'.hasSynced = true := by
  cases turn with
  | halts =>
    unfold halt
    split <;> exact synced
  | leaves left =>
    obtain ⟨_, _, _, rfl⟩ := detach_eq_ok left
    exact synced
  | resyncs _ =>
    unfold move
    split <;> exact synced
  | reads items version _ =>
    rcases st.replace_cases items version with ⟨_, eq⟩ | ⟨_, eq⟩
    · rw [eq]
      exact synced
    · rw [eq]
  | hears e _ =>
    obtain ⟨cache, eq⟩ := st.receive_fst e
    rw [eq]
    exact synced
  | stays | starts _ | enters _ _ _ | fails _ | givesUp _ => exact synced

theorem settled (turn : st.Turn st') (settled : st.Settled) : st'.Settled :=
  settled.imp turn.synced fun stopped => decide_eq_true (turn.rests stopped).1

end Turn

/-- What the state and the cache of a stream say of it is true. -/
structure Honest (st : Stream) : Prop where
  synced : st.state = .synced → st.hasSynced = true
  seen : st.hasSynced = false → st.cache.seen = (none, "")
  stopped : st.isStopped = true → st.handlers = []

theorem honest_new (key : ObjectKey) (policy : RetryPolicy) (issuer : Option Nat) :
    Honest { key, policy, issuer } := ⟨nofun, fun _ => rfl, nofun⟩

theorem Turn.honest (turn : st.Turn st') (honest : st.Honest) : st'.Honest := by
  cases turn with
  | stays => exact honest
  | starts created =>
    exact ⟨nofun, honest.seen, nofun⟩
  | halts =>
    unfold halt
    split
    · exact honest
    · exact ⟨nofun, honest.seen, fun _ => rfl⟩
  | leaves left =>
    obtain ⟨_, _, _, rfl⟩ := detach_eq_ok left
    refine ⟨honest.synced, honest.seen, fun stopped => ?_⟩
    rw [honest.stopped stopped, List.filter_nil]
  | enters _ _ running =>
    refine ⟨honest.synced, honest.seen, fun stopped => ?_⟩
    cases running.symm.trans stopped
  | resyncs _ =>
    unfold move
    split
    · exact honest
    · exact ⟨nofun, honest.seen, nofun⟩
  | reads items version _ =>
    rcases st.replace_cases items version with ⟨_, eq⟩ | ⟨_, eq⟩
    · rw [eq]
      exact honest
    · rw [eq]
      exact ⟨fun _ => rfl, nofun, nofun⟩
  | hears e settled =>
    rcases settled with synced | stopped
    · obtain ⟨cache, eq⟩ := st.receive_fst e
      rw [eq]
      refine ⟨honest.synced, fun never => ?_, honest.stopped⟩
      cases never.symm.trans synced
    · rw [receive_stopped stopped]
      exact honest
  | fails _ => exact ⟨honest.synced, honest.seen, honest.stopped⟩
  | givesUp _ => exact ⟨honest.synced, honest.seen, honest.stopped⟩

end Stream

namespace Hub

open Relation (ReflTransGen)

variable {h h' h'' : Hub} {id n : Nat} {l : Loop} {st : Stream}

/-! ## One thing happens -/

/-- Loops move, and streams stay as they are.  Only the loop of a settled stream begins to watch. -/
structure Steers (h h' : Hub) : Prop where
  streams : h'.streams = h.streams
  started : h'.started = h.started
  ids : (h'.loops.map (·.id)).Sublist (h.loops.map (·.id))
  loops : ∀ l' ∈ h'.loops, ∃ l ∈ h.loops, l.id = l'.id ∧ l.stream = l'.stream ∧
    (l'.stage.hasRead = true → l.stage.hasRead = true ∨
      ∀ st, h.streams[l.stream]? = some st → st.Settled)

/-- One thing happens. -/
inductive Stir : Hub → Hub → Prop
  | life {h h' : Hub} : Life h h' → Stir h h'
  | called {h : Hub} (e : LogEntry) : Stir h (h.record e)
  | turn {h : Hub} {n : Nat} {st st' : Stream} :
    h.streams[n]? = some st → st.Turn st' → Stir h (h.updateStream n fun _ => st')
  | steers {h h' : Hub} : h.Steers h' → Stir h h'

/-- Such things happen, one after the other. -/
abbrev Stirs : Hub → Hub → Prop := ReflTransGen Stir

/-- The streams of the first hub are streams of the second one, where one thing has been done to each
at most; any other is new. -/
structure Turns (h h' : Hub) : Prop where
  old : ∀ {n : Nat} {st : Stream}, h.streams[n]? = some st →
    ∃ st', h'.streams[n]? = some st' ∧ st.Turn st'
  new : ∀ {n : Nat} {st' : Stream}, h.streams[n]? = none → h'.streams[n]? = some st' →
    ∃ key policy issuer, st' = { key, policy, issuer }

theorem Turns.of_streams (same : h'.streams = h.streams) : h.Turns h' where
  old {n st} found := ⟨st, same ▸ found, .stays st⟩
  new none some := by
    rw [same, none] at some
    cases some

theorem turns_updateStream {f : Stream → Stream}
    (turn : ∀ st, h.streams[n]? = some st → st.Turn (f st)) : h.Turns (h.updateStream n f) where
  old {i st} found := by
    rw [streams_updateStream, found]
    split
    · rename_i here
      exact ⟨f st, rfl, turn st (here ▸ found)⟩
    · exact ⟨st, rfl, .stays st⟩
  new {i st'} none some := by
    rw [streams_updateStream, none] at some
    split at some <;> cases some

/-- One thing at most is done to a stream in its life. -/
theorem Life.turns (life : Life h h') : h.Turns h' := by
  cases life with
  | beside beside => exact .of_streams beside.streams
  | create key policy issuer =>
    refine ⟨fun {i st} found => ⟨st, ?_, .stays st⟩, fun {i st'} none some => ?_⟩
    · exact (List.getElem?_append_left (List.getElem?_eq_some_iff.mp found).1).trans found
    · unfold Hub.createStream at some
      rw [List.getElem?_append_right (List.getElem?_eq_none_iff.mp none)] at some
      exact ⟨key, policy, issuer, List.mem_singleton.mp (List.mem_of_getElem? some)⟩
  | start n parent =>
    unfold Hub.startStream
    split
    · exact .of_streams rfl
    · rename_i st found
      split
      · exact .of_streams rfl
      · exact .of_streams rfl
      · rename_i st' started
        obtain ⟨created, rfl⟩ := Stream.start?_eq_ok started
        have turns : h.Turns (h.updateStream n fun _ => { st with state := .syncing }) :=
          turns_updateStream fun st₀ found₀ => by
            rw [found] at found₀
            cases found₀
            exact .starts created
        exact ⟨turns.old, turns.new⟩
  | halt n =>
    have turns : h.Turns (h.updateStream n (·.halt)) := turns_updateStream fun st _ => .halts st
    unfold Hub.haltStream
    split
    · exact .of_streams rfl
    · split
      · exact .of_streams rfl
      · simp only
        split
        · exact turns
        · exact ⟨turns.old, turns.new⟩
  | detach found left =>
    refine turns_updateStream fun st₀ found₀ => ?_
    rw [found] at found₀
    cases found₀
    exact .leaves left
  | openWatch sel version name =>
    unfold Hub.openWatch
    split <;> exact .of_streams rfl
  | store _ => exact .of_streams rfl
  | poll _ _ => exact .of_streams rfl
  | dropWatch _ => exact .of_streams rfl

theorem Stir.turns (stir : Stir h h') : h.Turns h' := by
  cases stir with
  | life life => exact life.turns
  | called e => exact .of_streams rfl
  | turn found turn =>
    refine turns_updateStream fun st₀ found₀ => ?_
    rw [found] at found₀
    cases found₀
    exact turn
  | steers steers => exact .of_streams steers.streams

/-! ## What lasts -/

/-- Loops tend streams that have been started, watch for those that have synced or been stopped, and
streams are honest. -/
structure Regular (h : Hub) : Prop where
  tended : h.Tended
  honest : ∀ {n : Nat} {st : Stream}, h.streams[n]? = some st → st.Honest
  read : ∀ l ∈ h.loops, l.stage.hasRead = true →
    ∀ st, h.streams[l.stream]? = some st → st.Settled

theorem regular_start (limit : Nat) (draws : Draws) : (start limit draws).Regular where
  tended := ⟨List.nodup_nil, fun _ mem => (List.not_mem_nil mem).elim,
    fun _ mem => (List.not_mem_nil mem).elim, fun _ mem => (List.not_mem_nil mem).elim⟩
  honest found := nomatch found
  read _ mem := (List.not_mem_nil mem).elim

theorem Tended.steers (tended : h.Tended) (steers : h.Steers h') : h'.Tended where
  ids := tended.ids.sublist steers.ids
  started l' mem := by
    obtain ⟨l, old, id, _⟩ := steers.loops l' mem
    rw [steers.started, ← id]
    exact tended.started l old
  begun l' mem := by
    obtain ⟨l, old, _, stream, _⟩ := steers.loops l' mem
    rw [steers.streams, ← stream]
    exact tended.begun l old
  sole l₁ mem₁ l₂ mem₂ same := by
    obtain ⟨k₁, old₁, id₁, stream₁, _⟩ := steers.loops l₁ mem₁
    obtain ⟨k₂, old₂, id₂, stream₂, _⟩ := steers.loops l₂ mem₂
    rw [← id₁, ← id₂]
    exact tended.sole k₁ old₁ k₂ old₂ (by rw [stream₁, stream₂, same])

theorem Tended.stir (tended : h.Tended) (stir : Stir h h') : h'.Tended := by
  cases stir with
  | life life => exact tended.lapse life.lapse
  | called e => exact tended.lapse (lapse_record h e)
  | turn found turn =>
    refine tended.updateStream fun st₀ found₀ begun => ?_
    rw [found] at found₀
    cases found₀
    exact turn.started begun
  | steers steers => exact tended.steers steers

/-- A loop that watches after one thing has happened watched before, or its stream is settled. -/
theorem Stir.read (stir : Stir h h') {l' : Loop} (mem : l' ∈ h'.loops)
    (reads : l'.stage.hasRead = true) : ∃ l ∈ h.loops, l.stream = l'.stream ∧
      (l.stage.hasRead = true ∨ ∀ st, h.streams[l.stream]? = some st → st.Settled) := by
  cases stir with
  | life life =>
    rcases life.lapse.loops with ⟨same, _⟩ | ⟨new, _, _, more, _, _, fresh, _⟩
    · exact ⟨l', same ▸ mem, rfl, .inl reads⟩
    · rw [more, List.mem_append, List.mem_singleton] at mem
      rcases mem with old | rfl
      · exact ⟨l', old, rfl, .inl reads⟩
      · rw [fresh] at reads
        cases reads
  | called e => exact ⟨l', mem, rfl, .inl reads⟩
  | turn _ _ => exact ⟨l', mem, rfl, .inl reads⟩
  | steers steers =>
    obtain ⟨l, old, _, stream, read⟩ := steers.loops l' mem
    exact ⟨l, old, stream, read reads⟩

theorem Regular.stir (regular : h.Regular) (stir : Stir h h') : h'.Regular where
  tended := regular.tended.stir stir
  honest {n st'} found' := by
    cases found : h.streams[n]? with
    | none =>
      obtain ⟨key, policy, issuer, rfl⟩ := stir.turns.new found found'
      exact Stream.honest_new key policy issuer
    | some st =>
      obtain ⟨st₁, found₁, turn⟩ := stir.turns.old found
      rw [found'] at found₁
      cases found₁
      exact turn.honest (regular.honest found)
  read l' mem reads st' found' := by
    obtain ⟨l, old, stream, read⟩ := stir.read mem reads
    obtain ⟨st, found, _⟩ := regular.tended.begun l old
    obtain ⟨st₁, found₁, turn⟩ := stir.turns.old found
    rw [stream, found'] at found₁
    cases found₁
    rcases read with read | settled
    · exact turn.settled (regular.read l old read st found)
    · exact turn.settled (settled st found)

theorem Regular.stirs (regular : h.Regular) (stirs : Stirs h h') : h'.Regular := by
  induction stirs with
  | refl => exact regular
  | tail _ stir ih => exact ih.stir stir

/-! ## Pieces -/

theorem Lives.stirs (lives : Lives h h') : Stirs h h' :=
  ReflTransGen.mono (fun _ _ life => Stir.life life) _ _ lives

theorem Beside.stirs (beside : h.Beside h') : Stirs h h' := .single (.life (.beside beside))

theorem Aside.stirs (aside : h.Aside h') : Stirs h h' := aside.toBeside.stirs

theorem Beats.stirs (beats : Beats h h') : Stirs h h' := by
  induction beats with
  | refl => exact .refl
  | tail _ beat ih =>
    cases beat with
    | called e => exact ih.tail (.called e)
    | calm calm => exact ih.trans (Lives.stirs calm.lives)

theorem stirs_updateStream {f : Stream → Stream}
    (turn : ∀ st, h.streams[n]? = some st → st.Turn (f st)) : Stirs h (h.updateStream n f) := by
  cases found : h.streams[n]? with
  | none =>
    have same : h.updateStream n f = h := by
      unfold updateStream
      rw [List.modify_eq_self (List.getElem?_eq_none_iff.mp found)]
    rw [same]
  | some st =>
    have same : h.updateStream n f = h.updateStream n fun _ => f st := by
      unfold updateStream
      congr 1
      apply List.ext_getElem?
      intro i
      rw [List.getElem?_modify, List.getElem?_modify]
      split
      · rename_i here
        rw [← here, found]
        rfl
      · rfl
    rw [same]
    exact .single (.turn found (turn st found))

theorem stirs_backend (h : Hub) (backend : Backend) : Stirs h { h with backend } :=
  .single (.steers ⟨rfl, rfl, .refl _, fun l mem => ⟨l, mem, rfl, rfl, .inl⟩⟩)

/-- The loop of a number changes.  It may begin to watch if its stream is settled. -/
theorem stirs_updateLoop {f : Loop → Loop} (ids : ∀ l, (f l).id = l.id)
    (streams : ∀ l, (f l).stream = l.stream)
    (read : ∀ l ∈ h.loops, l.id = id → (f l).stage.hasRead = true →
      l.stage.hasRead = true ∨ ∀ st, h.streams[l.stream]? = some st → st.Settled) :
    Stirs h (h.updateLoop id f) := by
  refine .single (.steers ⟨rfl, rfl, ?_, fun l' mem => ?_⟩)
  · have same : (h.updateLoop id f).loops.map (·.id) = h.loops.map (·.id) := by
      unfold updateLoop
      rw [List.map_map]
      refine List.map_congr_left fun l _ => ?_
      simp only [Function.comp]
      split
      · exact ids l
      · rfl
    exact same ▸ .refl _
  · obtain ⟨l, old, rfl⟩ := List.mem_map.mp mem
    by_cases own : l.id = id
    · rw [if_pos own]
      exact ⟨l, old, (ids l).symm, (streams l).symm, read l old own⟩
    · rw [if_neg own]
      exact ⟨l, old, rfl, rfl, .inl⟩

/-- The loop of a number comes to a stage at which it does not watch. -/
theorem stirs_enter (h : Hub) (id : Nat) {stage : Stage} (plain : stage.hasRead = false) :
    Stirs h (h.enter id stage) :=
  (aside_takeTicket h).stirs.trans (stirs_updateLoop (fun _ => rfl) (fun _ => rfl)
    fun _ _ _ read => nomatch plain.symm.trans read)

/-- The loop of a number comes to watch, or goes on watching. -/
theorem stirs_enter_watch (h : Hub) (id : Nat) (stage : Stage)
    (read : ∀ l ∈ h.loops, l.id = id → l.stage.hasRead = true ∨
      ∀ st, h.streams[l.stream]? = some st → st.Settled) : Stirs h (h.enter id stage) :=
  (aside_takeTicket h).stirs.trans (stirs_updateLoop (fun _ => rfl) (fun _ => rfl)
    fun l mem own _ => read l mem own)

/-- Letting go of a connection is a matter of the store. -/
theorem stirs_release (h : Hub) (stage : Stage) : Stirs h (match stage with
    | .consuming feed _ => { h with backend := h.backend.release feed }
    | _ => h) := by
  split
  · exact stirs_backend h _
  · exact .refl

theorem stirs_endLoop (h : Hub) (l : Loop) : Stirs h (h.endLoop l) := by
  have gone : Stirs h { h with loops := h.loops.filter fun k => k.id != l.id } :=
    .single (.steers ⟨rfl, rfl, List.filter_sublist.map _, fun k mem =>
      ⟨k, (List.mem_filter.mp mem).1, rfl, rfl, .inl⟩⟩)
  exact gone.trans (stirs_release _ l.stage)

/-! ## Steps of a loop -/

theorem stirs_beginCycle (l : Loop) (st : Stream)
    (begun : ∀ st, h.streams[l.stream]? = some st → st.state ≠ .created) :
    Stirs h (h.beginCycle l st) := by
  have moved : Stirs h (h.updateStream l.stream (·.move .syncing)) :=
    stirs_updateStream fun st found => .resyncs (begun st found)
  exact (moved.trans (stirs_backend _ _)).trans (stirs_enter _ _ rfl)

theorem stirs_heed (h : Hub) (l : Loop) : Stirs h (h.heed l) :=
  (aside_takeTicket h).stirs.trans
    (stirs_updateLoop (fun _ => rfl) (fun _ => rfl) fun _ _ _ => .inl)

theorem stirs_reportEnd (h : Hub) (n : Nat) (ending : CycleEnd) :
    Stirs h (h.reportEnd n ending) := by
  unfold reportEnd
  split
  · exact .refl
  · exact (aside_say _ _ _).stirs
  · exact (aside_say _ _ _).stirs.trans (stirs_updateStream fun st _ => .fails st _)

theorem stirs_abandon (h : Hub) (l : Loop) (key : ObjectKey) (lastError : Option String) :
    Stirs h (h.abandon l key lastError) := by
  have given (g : Hub) (reason : String) : Stirs g (g.updateStream l.stream (·.abandon reason)) :=
    stirs_updateStream fun st _ => .givesUp st reason
  exact (((aside_say h _ _).stirs.trans (given _ _)).trans (stirs_endLoop _ l)).trans
    (aside_say _ _ _).stirs

theorem stirs_endCycle (h : Hub) (l : Loop) (ending : CycleEnd) :
    Stirs h (h.endCycle l ending) := by
  have told := ((stirs_release h l.stage).trans (stirs_reportEnd _ l.stream ending)).trans
    (aside_countRestart _ ending.reason).stirs
  have rests (g : Hub) (backoff : Backoff) (t : Nat) :
      Stirs g ((g.updateLoop l.id fun l => { l with backoff }).enter l.id (.resting t)) := by
    have counted : Stirs g (g.updateLoop l.id fun l => { l with backoff }) :=
      stirs_updateLoop (fun _ => rfl) (fun _ => rfl) fun _ _ _ => .inl
    exact counted.trans (stirs_enter _ _ rfl)
  unfold endCycle
  simp only
  split
  · exact (told.trans (aside_draws _ _).stirs).trans (rests _ _ _)
  · split
    · exact (told.trans (aside_draws _ _).stirs).trans (stirs_endLoop _ l)
    · exact (told.trans (aside_draws _ _).stirs).trans (stirs_abandon _ _ _ _)

theorem stirs_callTimedOut (h : Hub) (l : Loop) : Stirs h (h.callTimedOut l) :=
  (aside_say h _ _).stirs.trans (stirs_endCycle _ l _)

theorem stirs_listAnswered (h : Hub) (l : Loop) (st : Stream)
    (answer : Scripted (List Object × String)) : Stirs h (h.listAnswered l st answer) := by
  unfold listAnswered
  simp only
  split
  · exact (stirs_backend h _).trans (stirs_endCycle _ l _)
  · exact (stirs_backend h _).trans
      (stirs_updateLoop (fun _ => rfl) (fun _ => rfl) fun _ _ _ => nofun)

/-- Once a stream has seen the object change, its handlers are called. -/
theorem Delivers.stirs {st' : Stream} {callback : Option Callback}
    (delivers : h.Delivers n st' callback h') (found : h.streams[n]? = some st)
    (turn : st.Turn st') : Stirs h h' :=
  (ReflTransGen.single (.turn found turn)).trans (Beats.stirs delivers.beats)

section Step

variable (regular : h.Regular) (found : h.loop? id = some (l, st))
include regular found

/-- The loop of a number is the only one of its number. -/
theorem Regular.own {k : Loop} (mem : k ∈ h.loops) (same : k.id = l.id) : k = l :=
  regular.tended.same mem (mem_of_loop? found) same

theorem Regular.begun {st₀ : Stream} (here : h.streams[l.stream]? = some st₀) :
    st₀.state ≠ .created := by
  obtain ⟨st₁, here₁, begun⟩ := regular.tended.begun l (mem_of_loop? found)
  rw [here] at here₁
  cases here₁
  exact begun

theorem stirs_watchAnswered (opens : l.stage.hasRead = true) (version : String)
    (answer : Scripted (List FeedItem × Bool)) :
    Stirs h (h.watchAnswered l st version answer) := by
  unfold watchAnswered
  simp only
  split
  · exact (stirs_backend h _).trans (stirs_endCycle _ l _)
  · refine (stirs_backend h _).trans (stirs_enter_watch _ _ _ fun k mem same => .inl ?_)
    rw [regular.own found mem same]
    exact opens

/-- A full read syncs the stream before its handlers are called, so it is settled when the loop begins
to watch. -/
theorem stirs_reconcile (items : List Object) (version : String) :
    Stirs h (h.reconcile l st items version) := by
  have here := stream_of_loop? found
  have delivers := replace_delivers here items version
  have delivered : Stirs h (h.replace l.stream items version) :=
    delivers.stirs here (.reads items version (regular.begun found here))
  have told : (h.updateStream l.stream fun _ => (st.replace items version).1).streams[l.stream]? =
      some (st.replace items version).1 := by
    rw [streams_updateStream, if_pos rfl, here]
    rfl
  obtain ⟨st', found', keeps⟩ := delivers.beats.lapses.old told
  have settled : st'.Settled := keeps.settled (st.settled_replace items version)
  have mem : l ∈ h.loops := mem_of_loop? found
  have tends : l ∈ (h.updateStream l.stream fun _ => (st.replace items version).1).loops := mem
  have kept : l ∈ (h.replace l.stream items version).loops :=
    delivers.beats.lapses.keeps_loop tends
  have regular' := regular.stirs delivered
  unfold reconcile
  refine delivered.trans ?_
  generalize h.replace l.stream items version = g at found' kept regular' ⊢
  have reset : Stirs g (g.updateLoop l.id fun l => { l with backoff := l.backoff.reset }) :=
    stirs_updateLoop (fun _ => rfl) (fun _ => rfl) fun _ _ _ => .inl
  refine (reset.trans (stirs_backend _ _)).trans (stirs_enter_watch _ _ _ fun k mem same => .inr ?_)
  obtain ⟨k₀, mem₀, rfl⟩ := List.mem_map.mp mem
  have own : k₀ = l := by
    refine regular'.tended.same mem₀ kept ?_
    split at same <;> exact same
  subst own
  intro st₀ here₀
  simp only [if_true] at here₀
  have here₀ : g.streams[k₀.stream]? = some st₀ := here₀
  rw [found'] at here₀
  cases here₀
  exact settled

/-- One step of a loop does one thing after the other. -/
theorem LoopStep.stirs (step : h.LoopStep l st h') : Stirs h h' := by
  have here := stream_of_loop? found
  have settled (reads : l.stage.hasRead = true) : st.Settled :=
    regular.read l (mem_of_loop? found) reads st here
  cases step with
  | first _ =>
    exact (stirs_heed h l).trans (stirs_beginCycle l st fun _ here => regular.begun found here)
  | again _ => exact stirs_beginCycle l st fun _ here => regular.begun found here
  | timedOut _ => exact stirs_callTimedOut h l
  | listAnswered _ => exact stirs_listAnswered h l st _
  | reconcile _ => exact stirs_reconcile regular found _ _
  | watchAnswered stage => exact stirs_watchAnswered regular found (by rw [stage]; rfl) _ _
  | arrived stage _ =>
    rename_i e store _
    have here' : (h.updateStore fun _ => store).streams[l.stream]? = some st := here
    exact (stirs_backend h _).trans ((receive_delivers here' e).stirs here'
      (.hears e (settled (by rw [stage]; rfl))))
  | broken _ _ => exact (stirs_backend h _).trans (stirs_endCycle _ l _)
  | closed _ _ => exact (stirs_backend h _).trans (stirs_endCycle _ l _)
  | played stage =>
    rename_i e rest ends _
    have reads : l.stage.hasRead = true := by rw [stage]; rfl
    have moved : Stirs h (h.updateLoop l.id fun l =>
        { l with stage := .consuming (.scripted rest ends) none }) := by
      refine stirs_updateLoop (fun _ => rfl) (fun _ => rfl) fun k mem same _ => .inl ?_
      rw [regular.own found mem same]
      exact reads
    have here' : (h.updateLoop l.id fun l =>
      { l with stage := .consuming (.scripted rest ends) none }).streams[l.stream]? = some st := here
    exact moved.trans ((receive_delivers here' e).stirs here' (.hears e (settled reads)))
  | playedOut ending _ => exact stirs_endCycle h l ending
  | paused stage =>
    refine stirs_enter_watch h l.id _ fun k mem same => .inl ?_
    rw [regular.own found mem same, stage]
    rfl

end Step

/-! ## Deeds and runs -/

theorem stirs_attachHandler (h : Hub) (n : Nat) (ref : HandlerRef) :
    Stirs h (h.attachHandler n ref).2 := by
  rcases attachHandler_cases h n ref with ⟨same, _⟩ | ⟨st, found, running, beats⟩
  · rw [same]
  · have counted : Stirs h { h with attached := h.attached + 1 } :=
      .single (.steers ⟨rfl, rfl, .refl _, fun l mem => ⟨l, mem, rfl, rfl, .inl⟩⟩)
    have entered : Stirs { h with attached := h.attached + 1 } (h.addHandler n ref) := by
      refine stirs_updateStream fun st₀ found₀ => .enters _ _ ?_
      have found₀ : h.streams[n]? = some st₀ := found₀
      rw [found] at found₀
      cases found₀
      exact running
    exact (counted.trans entered).trans (Beats.stirs beats)

theorem stirs_loopEnd (h : Hub) (id : Nat) : Stirs h (h.loopEnd id) := by
  unfold Hub.loopEnd
  split
  · exact .refl
  · split
    · exact stirs_endLoop h _
    · split
      · exact (ReflTransGen.single (.life (.halt _))).trans (stirs_endLoop _ _)
      · exact .refl

/-- Every deed does one thing after the other. -/
theorem Deed.stirs (deed : Deed h h') (regular : h.Regular) : Stirs h h' := by
  cases deed with
  | calm calm => exact Lives.stirs calm.lives
  | attach n ref =>
    exact (beside_bypass h n .attached).stirs.trans (stirs_attachHandler _ n ref)
  | join _ _ _ =>
    exact ((Lives.stirs (lives_calls h _)).trans (stirs_attachHandler _ _ _)).trans
      (beside_deal _ _).stirs
  | loop found stepped => exact (stepLoop_cases stepped).stirs regular found
  | loopEnd id => exact stirs_loopEnd h id

theorem Deeds.stirs (deeds : Deeds h h') (regular : h.Regular) : Stirs h h' := by
  induction deeds with
  | refl => exact .refl
  | tail _ deed ih => exact ih.trans (deed.stirs (regular.stirs ih))

/-- A stream that has been started is not made anew. -/
theorem Stirs.started (stirs : Stirs h h') (found : h.streams[n]? = some st)
    (begun : st.state ≠ .created) : ∃ st', h'.streams[n]? = some st' ∧ st'.state ≠ .created := by
  induction stirs with
  | refl => exact ⟨st, found, begun⟩
  | tail _ stir ih =>
    obtain ⟨st₁, found₁, begun₁⟩ := ih
    obtain ⟨st₂, found₂, turn⟩ := stir.turns.old found₁
    exact ⟨st₂, found₂, turn.started begun₁⟩

/-- What is true of new streams, and lasts whatever is done to a stream, is true of all streams. -/
theorem Stirs.all {P : Stream → Prop} (stirs : Stirs h h')
    (new : ∀ key policy issuer, P { key, policy, issuer })
    (turn : ∀ {st st' : Stream}, st.Turn st' → P st → P st')
    (all : ∀ {n : Nat} {st : Stream}, h.streams[n]? = some st → P st)
    (found' : h'.streams[n]? = some st) : P st := by
  induction stirs generalizing n st with
  | refl => exact all found'
  | @tail g h' _ stir ih =>
    cases found : g.streams[n]? with
    | none =>
      obtain ⟨key, policy, issuer, rfl⟩ := stir.turns.new found found'
      exact new key policy issuer
    | some st₀ =>
      obtain ⟨_, here, turned⟩ := stir.turns.old found
      cases here.symm.trans found'
      exact turn turned (ih found)

/-- Every event does one thing after the other. -/
theorem step_stirs (e : Event) (regular : h.Regular) : Stirs h (h.step e) := by
  cases script : e.isScript with
  | false => exact Deeds.stirs (step_deeds script) regular
  | true =>
    cases e with
    | command id c =>
      unfold step
      simp only
      split
      · cases c with
        | scriptList call => exact stirs_backend h _
        | scriptWatch call => exact stirs_backend h _
        | _ => cases script
      · exact .refl
    | _ => cases script

/-- So does every run. -/
theorem run_stirs (es : List Event) (regular : h.Regular) : Stirs h (h.run es) := by
  induction es generalizing h with
  | nil => exact .refl
  | cons e es ih =>
    have first := step_stirs e regular
    exact first.trans (ih (regular.stirs first))

theorem regular_run (limit : Nat) (draws : Draws) (es : List Event) :
    ((start limit draws).run es).Regular :=
  (regular_start limit draws).stirs (run_stirs es (regular_start limit draws))

end Hub

end SharedWatch
