import SharedWatch.Proofs.CallTurns
import SharedWatch.Scenario.Poll

/-!
# How far a loop reaches

A loop changes its own stream and nothing else of the streams and loops, apart from what handlers do
in between.

* `Hub.Within`: only one stream and one loop change, and nothing of what is shared.
* `Hub.Piece`: such a change, or the reaction of a handler; `LoopStep.pieces`: every step of a loop
  is made of these.
* `Hub.Spares`: elsewhere nothing is started, moves, syncs or is abandoned; `Hub.SparingSteps`: apart
  from what handlers start.
* `Minds.task`: so it is when the task of a loop is polled.
* `Hub.Lasting`: a property that nothing but loops touch; `Lasting.course`: whatever happens leaves it,
  if the steps and ends of loops do.
-/

namespace SharedWatch

namespace Hub

open Relation (ReflTransGen)

variable {h h' h'' : Hub} {n id : Nat} {at? of? : Option Nat} {l : Loop} {st : Stream}

/-- The stream of number `n` has been started. -/
def Begun (h : Hub) (n : Nat) : Prop := ∃ st, h.streams[n]? = some st ∧ st.state ≠ .created

/-- Only the stream of number `n` and one loop, if any, change, apart from the store and from what is
counted and recorded. -/
structure Within (n : Nat) (of? : Option Nat) (h h' : Hub) : Prop where
  now : h'.now = h.now
  started : h'.started = h.started
  fired : h'.fired = h.fired
  multiplexers : h'.multiplexers = h.multiplexers
  managers : h'.managers = h.managers
  calls : h'.calls = h.calls
  dealings : h'.dealings = h.dealings
  streams : ∀ {i : Nat}, i ≠ n → h'.streams[i]? = h.streams[i]?
  identities : h'.streams.map (·.identity) = h.streams.map (·.identity)
  begun : ∀ {i : Nat}, h.Begun i → h'.Begun i
  loops : ∀ {l : Loop}, of? ≠ some l.id → (l ∈ h'.loops ↔ l ∈ h.loops)
  own : ∀ l' ∈ h'.loops, of? = some l'.id → ∃ l ∈ h.loops, l.id = l'.id ∧
    (l.stream, l.parent) = (l'.stream, l'.parent)
  recorders : h'.recorders = h.recorders

theorem Within.refl (n : Nat) (of? : Option Nat) (h : Hub) : h.Within n of? h :=
  ⟨rfl, rfl, rfl, rfl, rfl, rfl, rfl, fun _ => rfl, rfl, id, fun _ => Iff.rfl,
    fun l mem _ => ⟨l, mem, rfl, rfl⟩, rfl⟩

theorem Within.trans (first : h.Within n of? h') (second : h'.Within n of? h'') :
    h.Within n of? h'' where
  now := second.now.trans first.now
  started := second.started.trans first.started
  fired := second.fired.trans first.fired
  multiplexers := second.multiplexers.trans first.multiplexers
  managers := second.managers.trans first.managers
  calls := second.calls.trans first.calls
  dealings := second.dealings.trans first.dealings
  streams other := (second.streams other).trans (first.streams other)
  identities := second.identities.trans first.identities
  begun begun := second.begun (first.begun begun)
  loops other := (second.loops other).trans (first.loops other)
  own l'' mem here := by
    obtain ⟨l', mem', here', same'⟩ := second.own l'' mem here
    obtain ⟨l, old, own, same⟩ := first.own l' mem' (here' ▸ here)
    exact ⟨l, old, own.trans here', same.trans same'⟩
  recorders := second.recorders.trans first.recorders

/-- The stream of number `n` has just told a handler `c`, and `entry` is the record of that.  What the
handler does about it is written down at the recorder of that number. -/
structure HasCalled (h : Hub) (n number : Nat) (c : Callback) (entry : LogEntry) : Prop where
  latest : h.log.getLast? = some entry
  stream : entry.stream = n
  recorder : entry.ref = .recorder number
  event : entry.event = .called c

/-- A change within a stream and its loop, or the reaction of one of its handlers to a call. -/
inductive Piece (n : Nat) (of? : Option Nat) : Hub → Hub → Prop
  | within {h h' : Hub} : h.Within n of? h' → Piece n of? h h'
  | reacts {h : Hub} {entry : LogEntry} {number : Nat} {c : Callback} : h.HasCalled n number c entry →
    Piece n of? h (h.react entry number c.kind)

/-- Pieces, one after the other. -/
abbrev Pieces (n : Nat) (of? : Option Nat) : Hub → Hub → Prop := ReflTransGen (Piece n of?)

theorem Within.pieces (within : h.Within n of? h') : Pieces n of? h h' := .single (.within within)

/-! ## Small changes -/

theorem within_say (h : Hub) (level : SharedWatch.Level) (message : String) :
    h.Within n of? (h.say level message) := { Within.refl n of? h with }

theorem within_record (h : Hub) (e : LogEntry) : h.Within n of? (h.record e) :=
  { Within.refl n of? h with }

theorem within_countDelivery (h : Hub) (kind : String) : h.Within n of? (h.countDelivery kind) :=
  { Within.refl n of? h with }

theorem within_backend (h : Hub) (backend : Backend) : h.Within n of? { h with backend } :=
  { Within.refl n of? h with }

theorem begun_updateStream {f : Stream → Stream} {i : Nat}
    (started : ∀ st, h.streams[n]? = some st → st.state ≠ .created → (f st).state ≠ .created)
    (begun : h.Begun i) : (h.updateStream n f).Begun i := by
  obtain ⟨st, found, running⟩ := begun
  unfold Begun
  rw [streams_updateStream, found]
  split
  · rename_i here
    exact ⟨f st, rfl, started st (here ▸ found) running⟩
  · exact ⟨st, rfl, running⟩

theorem within_updateStream {f : Stream → Stream}
    (same : ∀ st, h.streams[n]? = some st → (f st).identity = st.identity)
    (started : ∀ st, h.streams[n]? = some st → st.state ≠ .created → (f st).state ≠ .created) :
    h.Within n of? (h.updateStream n f) :=
  { Within.refl n of? h with
    begun := begun_updateStream started
    streams := fun other => by
      rw [streams_updateStream, if_neg fun same => other same.symm]
    identities := map_updateStream same }

theorem within_updateLoop (h : Hub) {f : Loop → Loop} (ids : ∀ l, (f l).id = l.id)
    (posts : ∀ l, ((f l).stream, (f l).parent) = (l.stream, l.parent)) :
    h.Within n (some id) (h.updateLoop id f) :=
  { Within.refl n (some id) h with
    own := fun l' mem _ => by
      obtain ⟨l, old, rfl⟩ := List.mem_map.mp mem
      split
      · exact ⟨l, old, (ids l).symm, (posts l).symm⟩
      · exact ⟨l, old, rfl, rfl⟩
    loops := fun {l} other => by
      unfold updateLoop
      rw [List.mem_map]
      constructor
      · rintro ⟨k, mem, rfl⟩
        split at other
        · rename_i own
          exact absurd (congrArg some ((ids k).trans own).symm) other
        · rename_i own
          rw [if_neg own]
          exact mem
      · exact fun mem => ⟨l, mem, if_neg fun own => other (congrArg some own.symm)⟩ }

theorem within_enter (h : Hub) (id : Nat) (stage : Stage) : h.Within n (some id) (h.enter id stage) := by
  have taken : h.Within n (some id) h.takeTicket.2 :=
    { Within.refl n (some id) h with }
  exact taken.trans (within_updateLoop _ (fun _ => rfl) fun _ => rfl)

theorem within_release (h : Hub) (stage : Stage) : h.Within n of? (match stage with
    | .consuming feed _ => { h with backend := h.backend.release feed }
    | _ => h) := by
  split
  · exact within_backend h _
  · exact .refl n of? h

theorem within_endLoop (h : Hub) (l : Loop) : h.Within n (some l.id) (h.endLoop l) := by
  have gone : h.Within n (some l.id) { h with loops := h.loops.filter fun k => k.id != l.id } :=
    { Within.refl n (some l.id) h with
      loops := fun {k} other => by
        have other : k.id ≠ l.id := fun same => other (congrArg some same.symm)
        rw [List.mem_filter]
        simp [other]
      own := fun k mem _ => ⟨k, (List.mem_filter.mp mem).1, rfl, rfl⟩ }
  exact gone.trans (within_release _ l.stage)

theorem within_haltStream (h : Hub) (n : Nat) : h.Within n of? (h.haltStream n).2 := by
  have halted : h.Within n of? (h.updateStream n (·.halt)) :=
    within_updateStream (fun st _ => st.bides_halt.identity) fun st _ => st.bides_halt.started
  unfold haltStream
  split
  · exact .refl n of? h
  · split
    · exact .refl n of? h
    · simp only
      split
      · exact halted
      · exact { halted with }

/-! ## Steps of a loop -/

theorem within_beginCycle (h : Hub) (l : Loop) (st : Stream) :
    h.Within l.stream (some l.id) (h.beginCycle l st) := by
  have ages (st : Stream) : st.Ages (st.move .syncing) := st.ages_move nofun nofun
  have moved : h.Within l.stream (some l.id) (h.updateStream l.stream (·.move .syncing)) :=
    within_updateStream (fun st _ => Stream.identity_of_face (st.face_move nofun))
      fun st _ => (ages st).started
  exact (moved.trans (within_backend _ _)).trans (within_enter _ _ _)

theorem within_endCycle (h : Hub) (l : Loop) (ending : CycleEnd) :
    h.Within l.stream (some l.id) (h.endCycle l ending) := by
  have reported (g : Hub) : g.Within l.stream (some l.id) (g.reportEnd l.stream ending) := by
    unfold reportEnd
    split
    · exact .refl _ _ g
    · exact within_say g _ _
    · exact (within_say g _ _).trans (within_updateStream (fun _ _ => rfl) fun _ _ => id)
  have counted (g : Hub) (draws : Draws) :
      g.Within l.stream (some l.id) { g.countRestart ending.reason with draws } :=
    { Within.refl l.stream (some l.id) g with }
  have told (draws : Draws) := ((within_release h l.stage).trans (reported _)).trans (counted _ draws)
  have rests (g : Hub) (backoff : Backoff) (t : Nat) : g.Within l.stream (some l.id)
      ((g.updateLoop l.id fun l => { l with backoff }).enter l.id (.resting t)) :=
    (within_updateLoop g (f := fun l => { l with backoff }) (fun _ => rfl) fun _ => rfl).trans (within_enter _ _ _)
  unfold endCycle
  simp only
  split
  · exact (told _).trans (rests _ _ _)
  · split
    · exact (told _).trans (within_endLoop _ l)
    · rename_i st _
      have given (g : Hub) (reason : String) :
          g.Within l.stream (some l.id) (g.updateStream l.stream (·.abandon reason)) :=
        within_updateStream (fun _ _ => rfl) fun _ _ => id
      have ended (g : Hub) : g.Within l.stream (some l.id) (g.endLoop { l with stage := .fresh }) :=
        within_endLoop g { l with stage := .fresh }
      exact (told _).trans ((((within_say _ _ _).trans (given _ _)).trans (ended _)).trans
        (within_say _ _ _))

theorem pieces_invoke (h : Hub) (n : Nat) (handler : Nat × HandlerRef) (c : Callback) :
    Pieces n of? h (h.invoke n handler c) := by
  have called (entry : LogEntry) : Pieces n of? h (h.record entry) := (within_record h entry).pieces
  unfold invoke
  simp only
  split
  · exact called _
  · rename_i number recorder
    exact (called _).tail (.reacts ⟨List.getLast?_concat, rfl, recorder, rfl⟩)

theorem pieces_deliver (h : Hub) (n : Nat) (c : Callback) : Pieces n of? h (h.deliver n c) := by
  unfold deliver
  split
  · exact .refl
  · rename_i st found
    clear found
    generalize st.handlers = handlers
    induction handlers generalizing h with
    | nil => exact .refl
    | cons handler handlers ih =>
      exact ((pieces_invoke h n handler c).trans (within_countDelivery _ _).pieces).trans (ih _)

theorem pieces_attachHandler (h : Hub) (n : Nat) (ref : HandlerRef) :
    Pieces n of? h (h.attachHandler n ref).2 := by
  have entered : h.Within n of? (h.addHandler n ref) := by
    have counted : h.Within n of? { h with attached := h.attached + 1 } :=
      { Within.refl n of? h with }
    exact counted.trans (within_updateStream (fun _ _ => rfl) fun _ _ => id)
  unfold attachHandler
  split
  · exact .refl
  · split
    · exact .refl
    · simp only
      split
      · exact (entered.pieces.trans (pieces_invoke _ _ _ _)).trans (within_countDelivery _ _).pieces
      · exact entered.pieces

/-- Once a stream has seen the object change, its handlers are called. -/
theorem pieces_replace (h : Hub) (n : Nat) (items : List Object) (version : String) :
    Pieces n of? h (h.replace n items version) := by
  have said (foreign : List Object) (g : Hub) : g.Within n of? (foreign.foldl
      (fun h _ => h.say .warn "list returned a foreign object, ignoring") g) := by
    induction foreign generalizing g with
    | nil => exact .refl n of? g
    | cons o foreign ih => exact (within_say g _ _).trans (ih _)
  unfold replace
  split
  · exact .refl
  · rename_i st found
    have seen {g : Hub} (aside : h.Aside g) :
        g.Within n of? (g.updateStream n fun _ => (st.replace items version).1) := by
      refine within_updateStream (fun st₀ found₀ => ?_) fun st₀ found₀ => ?_
      · cases found.symm.trans (aside.streams ▸ found₀)
        exact Stream.identity_of_face (st.face_replace items version)
      · cases found.symm.trans (aside.streams ▸ found₀)
        exact (st.ages_replace items version).started
    have told (g : Hub) (b : Bool) (callback : Option Callback) : Pieces n of? g
        (callback.elim (if b then g.say .info "watch stream synced" else g)
          ((if b then g.say .info "watch stream synced" else g).deliver n)) := by
      have synced : g.Within n of? (if b then g.say .info "watch stream synced" else g) := by
        split
        · exact within_say g _ _
        · exact .refl n of? g
      cases callback with
      | none => exact synced.pieces
      | some c => exact synced.pieces.trans (pieces_deliver _ n c)
    have warned := aside_says (items.filter fun o => !st.key.owns o) h .warn
      "list returned a foreign object, ignoring"
    exact ((said _ h).trans (seen warned)).pieces.trans (told _ _ _)

theorem pieces_receive (h : Hub) (n : Nat) (e : Change) : Pieces n of? h (h.receive n e) := by
  unfold receive
  split
  · exact .refl
  · rename_i st found
    have seen : h.Within n of? ((if st.key.owns e.object then h else h.say .warn
        "watch delivered a foreign object, ignoring").updateStream n fun _ => (st.receive e).1) := by
      have same : ∀ st₀, h.streams[n]? = some st₀ → (st.receive e).1.identity = st₀.identity := by
        intro st₀ found₀
        cases found.symm.trans found₀
        exact Stream.identity_of_face (st.face_receive e)
      have started : ∀ st₀, h.streams[n]? = some st₀ → st₀.state ≠ .created →
          (st.receive e).1.state ≠ .created := by
        intro st₀ found₀
        cases found.symm.trans found₀
        exact (st.ages_receive e).started
      split
      · exact within_updateStream same started
      · exact (within_say h _ _).trans (within_updateStream same started)
    simp only
    cases (st.receive e).2 with
    | none => exact seen.pieces
    | some c => exact seen.pieces.trans (pieces_deliver _ n c)

/-- Every step of a loop is made of pieces. -/
theorem LoopStep.pieces (step : h.LoopStep l st h') : Pieces l.stream (some l.id) h h' := by
  have asked (g : Hub) (backend : Backend) : g.Within l.stream (some l.id) { g with backend } :=
    within_backend g backend
  have moved (g : Hub) (stage : Stage) :
      g.Within l.stream (some l.id) (g.updateLoop l.id fun l => { l with stage }) :=
    within_updateLoop g (fun _ => rfl) fun _ => rfl
  have reset (g : Hub) :
      g.Within l.stream (some l.id) (g.updateLoop l.id fun l => { l with backoff := l.backoff.reset }) :=
    within_updateLoop g (fun _ => rfl) fun _ => rfl
  have ended (g : Hub) (ending : CycleEnd) := within_endCycle g l ending
  have entered (g : Hub) (stage : Stage) : g.Within l.stream (some l.id) (g.enter l.id stage) :=
    within_enter g l.id stage
  cases step with
  | first _ =>
    have heeded : h.Within l.stream (some l.id) (h.heed l) := by
      have taken : h.Within l.stream (some l.id) h.takeTicket.2 := { Within.refl _ _ h with }
      exact taken.trans (within_updateLoop _ (fun _ => rfl) fun _ => rfl)
    exact (heeded.trans (within_beginCycle _ l st)).pieces
  | again _ => exact (within_beginCycle h l st).pieces
  | timedOut _ => exact ((within_say h _ _).trans (ended _ _)).pieces
  | listAnswered _ =>
    unfold Hub.listAnswered
    simp only
    split
    · exact ((asked h _).trans (ended _ _)).pieces
    · exact ((asked h _).trans (moved _ _)).pieces
  | reconcile _ =>
    have replaced (items : List Object) (version : String) :
        Pieces l.stream (some l.id) h (h.replace l.stream items version) := pieces_replace _ _ _ _
    exact (replaced _ _).trans (((reset _).trans (asked _ _)).trans (entered _ _)).pieces
  | watchAnswered _ =>
    unfold Hub.watchAnswered
    simp only
    split
    · exact ((asked h _).trans (ended _ _)).pieces
    · exact ((asked h _).trans (entered _ _)).pieces
  | arrived _ _ => exact (asked h _).pieces.trans (pieces_receive _ _ _)
  | broken _ _ => exact ((asked h _).trans (ended _ _)).pieces
  | closed _ _ => exact ((asked h _).trans (ended _ _)).pieces
  | played _ => exact (moved h _).pieces.trans (pieces_receive _ _ _)
  | playedOut ending _ => exact (ended h ending).pieces
  | paused _ => exact (entered h _).pieces

/-- A loop that ends may stop its stream. -/
theorem within_loopEnd (found : h.loop? id = some (l, st)) : h.Within l.stream (some id) (h.loopEnd id) := by
  obtain rfl : l.id = id := by simpa using List.find?_some (loop?_eq_some found).1
  unfold loopEnd
  rw [found]
  simp only
  split
  · exact within_endLoop h l
  · split
    · exact (within_haltStream h l.stream).trans (within_endLoop _ l)
    · exact .refl _ _ h

/-! ## What is out of reach -/

/-- Apart from one stream and one loop, if any, nothing is started, moves, syncs or is abandoned.  New
streams are no multiplexer's, and have not been started. -/
structure Spares (n id : Option Nat) (h h' : Hub) : Prop where
  clock : h.now ≤ h'.now
  started : h.started ≤ h'.started
  balance : n = none → h'.imbalance = h.imbalance
  fired : h.fired ⊆ h'.fired
  roots : h.multiplexers.map (fun mux => (mux.root, mux.settings)) <+:
    h'.multiplexers.map fun mux => (mux.root, mux.settings)
  loops : ∀ {l : Loop}, id ≠ some l.id → (l ∈ h'.loops ↔ l ∈ h.loops)
  own : ∀ l' ∈ h'.loops, id = some l'.id → ∃ l ∈ h.loops, l.id = l'.id ∧
    (l.stream, l.parent) = (l'.stream, l'.parent)
  old : ∀ {i : Nat} {st : Stream}, h.streams[i]? = some st →
    ∃ st', h'.streams[i]? = some st' ∧ st'.identity = st.identity ∧ (n ≠ some i → st.Bides st')
  begun : ∀ {i : Nat}, h.Begun i → h'.Begun i
  new : ∀ {i : Nat} {st' : Stream}, h.streams[i]? = none → h'.streams[i]? = some st' →
    st'.issuer = none
  born : ∀ {i : Nat} {st' : Stream}, n ≠ some i → h.streams[i]? = none →
    h'.streams[i]? = some st' → ∃ key policy, Stream.Bides { key, policy, issuer := none } st'

theorem Spares.refl (at? of? : Option Nat) (h : Hub) : h.Spares at? of? h :=
  ⟨Nat.le_refl _, Nat.le_refl _, fun _ => rfl, List.Subset.refl _, List.prefix_rfl, fun _ => Iff.rfl,
    fun l mem _ => ⟨l, mem, rfl, rfl⟩, fun {_ st} found => ⟨st, found, rfl, fun _ => .refl st⟩, id,
    fun none some => (nomatch none.symm.trans some),
    fun _ none some => (nomatch none.symm.trans some)⟩

theorem Spares.trans (first : h.Spares at? of? h') (second : h'.Spares at? of? h'') :
    h.Spares at? of? h'' where
  clock := Nat.le_trans first.clock second.clock
  started := Nat.le_trans first.started second.started
  balance idle := (second.balance idle).trans (first.balance idle)
  fired := fun _ mem => second.fired (first.fired mem)
  roots := first.roots.trans second.roots
  loops other := (second.loops other).trans (first.loops other)
  own l'' mem here := by
    obtain ⟨l', mem', here', same'⟩ := second.own l'' mem here
    obtain ⟨l, old, here'', same⟩ := first.own l' mem' (here' ▸ here)
    exact ⟨l, old, here''.trans here', same.trans same'⟩
  old found := by
    obtain ⟨st', found', same, bides⟩ := first.old found
    obtain ⟨st'', found'', same', bides'⟩ := second.old found'
    exact ⟨st'', found'', same'.trans same, fun other => (bides other).trans (bides' other)⟩
  begun begun := second.begun (first.begun begun)
  new {i st''} none found'' := by
    cases found' : h'.streams[i]? with
    | none => exact second.new found' found''
    | some st' =>
      obtain ⟨_, here, same, _⟩ := second.old found'
      cases here.symm.trans found''
      exact (congrArg Prod.snd same).trans (first.new none found')
  born {i st''} other none found'' := by
    cases found' : h'.streams[i]? with
    | none => exact second.born other found' found''
    | some st' =>
      obtain ⟨_, here, _, bides⟩ := second.old found'
      cases here.symm.trans found''
      obtain ⟨key, policy, born⟩ := first.born other none found'
      exact ⟨key, policy, born.trans (bides other)⟩

theorem Gentle.spares {who : Option Nat} (gentle : h.Gentle who h') (at? of? : Option Nat) :
    h.Spares at? of? h' where
  clock := Nat.le_of_eq gentle.now.symm
  started := gentle.started
  balance _ := gentle.balance
  fired := gentle.fired
  roots := gentle.roots
  loops _ := by rw [gentle.loops]
  own l' mem _ := ⟨l', gentle.loops ▸ mem, rfl, rfl⟩
  old found := by
    obtain ⟨st', found', bides⟩ := gentle.old found
    exact ⟨st', found', bides.identity, fun _ => bides⟩
  begun := by
    rintro i ⟨st, found, running⟩
    obtain ⟨st', found', bides⟩ := gentle.old found
    exact ⟨st', found', bides.started running⟩
  new none some := by
    obtain ⟨_, _, bides⟩ := gentle.born none some
    exact bides.issuer
  born _ := gentle.born

/-- One thing that happens: what spares all but a stream and a loop, or a stream that is started. -/
inductive SparingStep (at? of? : Option Nat) : Hub → Hub → Prop
  | spares {h h' : Hub} : h.Spares at? of? h' → SparingStep at? of? h h'
  | starts (h : Hub) (n parent : Nat) : SparingStep at? of? h (h.startStream n parent).2

/-- Such things, one after the other. -/
abbrev SparingSteps (at? of? : Option Nat) : Hub → Hub → Prop := ReflTransGen (SparingStep at? of?)

theorem Spares.steps (spares : h.Spares at? of? h') : SparingSteps at? of? h h' :=
  .single (.spares spares)

theorem Rouses.sparing {who : Option Nat} (rouses : Rouses who h h') (at? of? : Option Nat) :
    SparingSteps at? of? h h' := by
  induction rouses with
  | refl => exact .refl
  | tail _ rouse ih =>
    cases rouse with
    | gentle gentle => exact ih.tail (.spares (gentle.spares at? of?))
    | starts n parent => exact ih.tail (.starts _ n parent)

/-- A call that goes on, and does not take a reference, starts nothing itself. -/
theorem Turned.sparing {c : PendingCall} (turned : Turned h c h') : SparingSteps none none h h' := by
  have spared {who : Option Nat} {h h' : Hub} (gentle : h.Gentle who h') : h.Spares none none h' :=
    gentle.spares none none
  have dealt (g : Hub) (d : Dealing) : g.Spares none none (g.deal d) :=
    { Spares.refl none none g with }
  have managed (g : Hub) (k : Nat) (f : Manager → Manager) :
      g.Spares none none (g.updateManager k f) := { Spares.refl none none g with }
  have answered (g : Hub) (id : Nat) (reply : Reply) : g.Spares none none (g.answer id reply) :=
    { Spares.refl none none g with }
  have enrolled (g : Hub) (bind : Option String) (r : Registration) :
      g.Spares none none (g.enroll bind r) := by
    cases bind with
    | none => exact .refl none none g
    | some name => exact { Spares.refl none none g with }
  cases turned with
  | waits gentle _ _ => exact (spared gentle).steps
  | answers gentle _ _ => exact ((spared gentle).trans (answered _ _ _)).steps
  | attaches _ rouses _ _ _ _ =>
    exact (Rouses.sparing rouses none none).tail (.spares ((enrolled _ _ _).trans (answered _ _ _)))
  | subscribes _ rouses more _ _ _ _ =>
    have granted := (dealt _ _).trans (spared more)
    exact (Rouses.sparing rouses none none).tail
      (.spares ((granted.trans (enrolled _ _ _)).trans (answered _ _ _)))
  | registers _ _ _ _ rouses more _ _ _ _ =>
    have inserted := ((dealt _ _).trans (managed _ _ _)).trans (spared more)
    exact (Rouses.sparing rouses none none).tail (.spares (inserted.trans (answered _ _ _)))
  | unregisters _ _ _ _ left more _ =>
    obtain ⟨h₁, same, after⟩ := gentle_of_unsubscribe left
    have given : h.Spares none none h₁ := by
      rcases same with rfl | ⟨late, rfl⟩
      · exact .refl none none _
      · exact dealt _ _
    have unsubscribed := given.trans (spared after)
    exact (((unsubscribed.trans (managed _ _ _)).trans (spared more)).trans (answered _ _ _)).steps

theorem spares_put (h : Hub) (m : Nat) (key : ObjectKey) (e : Monitor) :
    h.Spares none none (h.updateMultiplexer m (·.put key e)) :=
  { Spares.refl none none h with roots := (modest_put h m key e).roots }

theorem Within.spares (within : h.Within n of? h') : h.Spares (some n) of? h' where
  clock := Nat.le_of_eq within.now.symm
  started := Nat.le_of_eq within.started.symm
  balance := nofun
  fired := within.fired ▸ List.Subset.refl _
  roots := within.multiplexers ▸ List.prefix_rfl
  loops := within.loops
  own := within.own
  begun := within.begun
  old {i st} found := by
    have same := congrArg (·[i]?) within.identities
    simp only [List.getElem?_map, found, Option.map_some, Option.map_eq_some_iff] at same
    obtain ⟨st', found', same⟩ := same
    refine ⟨st', found', same, fun other => ?_⟩
    have elsewhere := within.streams fun same => other (congrArg some same.symm)
    cases found.symm.trans (elsewhere.symm.trans found')
    exact .refl st
  new {i st'} none some := by
    have same := congrArg (·[i]?) within.identities
    simp [none, some] at same
  born {i st'} _ none some := by
    have same := congrArg (·[i]?) within.identities
    simp [none, some] at same

theorem Pieces.sparing (pieces : Pieces n of? h h') : SparingSteps (some n) of? h h' := by
  induction pieces with
  | refl => exact .refl
  | tail _ piece ih =>
    cases piece with
    | within within => exact ih.tail (.spares within.spares)
    | @reacts _ number c _ =>
      exact ih.trans (Rouses.sparing (rouses_react _ _ number c.kind) _ _)

theorem Pieces.clears (pieces : Pieces n of? h h') : h.Clears h' := by
  induction pieces with
  | refl => exact .refl h
  | tail _ piece ih =>
    cases piece with
    | within within => exact ih.trans (clears_of_same within.multiplexers within.fired)
    | @reacts _ number c _ => exact ih.trans (Rouses.clears (rouses_react _ _ number c.kind))

theorem known_of_roots {m : Nat} {x : Nat × Settings}
    (roots : h.multiplexers.map (fun mux => (mux.root, mux.settings)) <+:
      h'.multiplexers.map fun mux => (mux.root, mux.settings))
    (known : (h.multiplexers[m]?).map (fun mux => (mux.root, mux.settings)) = some x) :
    (h'.multiplexers[m]?).map (fun mux => (mux.root, mux.settings)) = some x := by
  obtain ⟨more, eq⟩ := roots
  rw [← List.getElem?_map] at known ⊢
  rw [← eq, List.getElem?_append_left (List.getElem?_eq_some_iff.mp known).1]
  exact known

/-! ## Loops and their streams -/

theorem loop?_eq_none (gone : ∀ l ∈ h.loops, l.id ≠ id) : h.loop? id = none := by
  have none : h.loops.find? (·.id = id) = none :=
    List.find?_eq_none.mpr fun l mem => by simpa using gone l mem
  unfold loop?
  rw [none]
  rfl

/-- The loop of number `of?`, if one is given, has been started, and is that of stream `at?`. -/
structure Minds (at? of? : Option Nat) (h : Hub) : Prop where
  started : ∀ {id : Nat}, of? = some id → id < h.started
  stream : ∀ l ∈ h.loops, of? = some l.id → at? = some l.stream

theorem minds_none (at? : Option Nat) (h : Hub) : h.Minds at? none := ⟨nofun, fun _ _ => nofun⟩

/-- A loop that there is minds its own stream. -/
theorem Tended.minds (tended : h.Tended) (mem : l ∈ h.loops) :
    h.Minds (some l.stream) (some l.id) where
  started same := Option.some.inj same ▸ tended.started l mem
  stream l' mem' own := by rw [tended.same mem' mem (Option.some.inj own).symm]

theorem Minds.spares (minds : h.Minds at? of?) (spares : h.Spares at? of? h') :
    h'.Minds at? of? where
  started own := Nat.lt_of_lt_of_le (minds.started own) spares.started
  stream l' mem own := by
    obtain ⟨l, old, id, same⟩ := spares.own l' mem own
    exact (minds.stream l old (id ▸ own)).trans (congrArg (fun p => some p.1) same)

/-- The loop of a stream that is started is another. -/
theorem Minds.starts (minds : h.Minds at? of?) (n parent : Nat) :
    (h.startStream n parent).2.Minds at? of? where
  started own := Nat.lt_of_lt_of_le (minds.started own) (modest_startStream h n parent).started
  stream l mem own := by
    rcases startStream_cases h n parent with same | ⟨_, l', _, _, id, _, _, loops, _⟩
    · exact minds.stream l (same ▸ mem) own
    · rw [loops] at mem
      rcases List.mem_append.mp mem with old | new
      · exact minds.stream l old own
      · obtain rfl := List.mem_singleton.mp new
        exact absurd (minds.started own) (id ▸ Nat.lt_irrefl _)

/-- Only the loop that is not spared comes or goes, and it is not that of another stream. -/
theorem Spares.loops_of {i : Nat} (spares : h.Spares at? of? h') (minds : h.Minds at? of?)
    (other : at? ≠ some i) (stream : l.stream = i) : l ∈ h'.loops ↔ l ∈ h.loops := by
  by_cases mine : of? = some l.id
  · constructor
    · intro mem
      exact absurd ((minds.spares spares).stream l mem mine) (by rwa [stream])
    · intro mem
      exact absurd (minds.stream l mem mine) (by rwa [stream])
  · exact spares.loops mine

/-! ## Many such things -/

namespace SparingSteps

theorem minds (steps : SparingSteps at? of? h h') (minds : h.Minds at? of?) : h'.Minds at? of? := by
  induction steps with
  | refl => exact minds
  | tail _ step ih =>
    cases step with
    | spares spares => exact ih.spares spares
    | starts n parent => exact ih.starts n parent

theorem clock (steps : SparingSteps at? of? h h') : h.now ≤ h'.now := by
  induction steps with
  | refl => exact Nat.le_refl _
  | tail _ step ih =>
    cases step with
    | spares spares => exact Nat.le_trans ih spares.clock
    | starts n parent => exact Nat.le_trans ih (Nat.le_of_eq (modest_startStream _ n parent).now.symm)

theorem fired (steps : SparingSteps at? of? h h') : h.fired ⊆ h'.fired := by
  induction steps with
  | refl => exact List.Subset.refl _
  | tail _ step ih =>
    cases step with
    | spares spares => exact List.Subset.trans ih spares.fired
    | starts n parent => exact List.Subset.trans ih (modest_startStream _ n parent).fired

theorem roots (steps : SparingSteps at? of? h h') :
    h.multiplexers.map (fun mux => (mux.root, mux.settings)) <+:
      h'.multiplexers.map fun mux => (mux.root, mux.settings) := by
  induction steps with
  | refl => exact List.prefix_rfl
  | tail _ step ih =>
    cases step with
    | spares spares => exact ih.trans spares.roots
    | starts n parent => exact ih.trans (modest_startStream _ n parent).roots

/-- Every stream is still there; elsewhere, it has seen nothing. -/
theorem old (steps : SparingSteps at? of? h h') {i : Nat} (found : h.streams[i]? = some st) :
    ∃ st', h'.streams[i]? = some st' ∧ st'.identity = st.identity ∧
      (at? ≠ some i → st.Endures st') := by
  induction steps with
  | refl => exact ⟨st, found, rfl, fun _ => .refl st⟩
  | tail _ step ih =>
    obtain ⟨st₁, found₁, same₁, endures₁⟩ := ih
    cases step with
    | spares spares =>
      obtain ⟨st₂, found₂, same₂, bides⟩ := spares.old found₁
      exact ⟨st₂, found₂, same₂.trans same₁, fun other => (endures₁ other).trans (bides other).endures⟩
    | starts n parent =>
      obtain ⟨st₂, found₂, endures⟩ := endures_startStream n parent found₁
      exact ⟨st₂, found₂, endures.identity.trans same₁, fun other => (endures₁ other).trans endures⟩

theorem begun (steps : SparingSteps at? of? h h') {i : Nat} (begun : h.Begun i) : h'.Begun i := by
  induction steps with
  | refl => exact begun
  | tail _ step ih =>
    cases step with
    | spares spares => exact spares.begun ih
    | starts n parent =>
      obtain ⟨st, found, running⟩ := ih
      obtain ⟨st', found', endures⟩ := endures_startStream n parent found
      exact ⟨st', found', endures.started running⟩

/-- Streams that are new are no multiplexer's. -/
theorem new (steps : SparingSteps at? of? h h') {i : Nat} {st' : Stream}
    (none : h.streams[i]? = none) (found' : h'.streams[i]? = some st') : st'.issuer = .none := by
  induction steps generalizing st' with
  | refl => cases none.symm.trans found'
  | @tail g g' _ step ih =>
    cases found : g.streams[i]? with
    | some st =>
      cases step with
      | spares spares =>
        obtain ⟨_, here, same, _⟩ := spares.old found
        cases here.symm.trans found'
        exact (congrArg Prod.snd same).trans (ih found)
      | starts n parent =>
        obtain ⟨_, here, endures⟩ := endures_startStream n parent found
        cases here.symm.trans found'
        exact endures.issuer.trans (ih found)
    | none =>
      cases step with
      | spares spares => exact spares.new found found'
      | starts n parent => exact absurd found' (by rw [unborn_startStream n parent found]; exact nofun)

/-- A stream that has been started keeps its loop, and gets no other. -/
theorem loops_of (steps : SparingSteps at? of? h h') (minds : h.Minds at? of?) {i : Nat}
    (other : at? ≠ some i) (begun : h.Begun i) (stream : l.stream = i) :
    l ∈ h'.loops ↔ l ∈ h.loops := by
  induction steps with
  | refl => exact Iff.rfl
  | @tail g _ before step ih =>
    cases step with
    | spares spares =>
      exact (spares.loops_of (SparingSteps.minds before minds) other stream).trans ih
    | starts n parent =>
      refine Iff.trans ?_ ih
      rcases startStream_cases g n parent with same | ⟨st, l', here, created, _, own, _, loops, _⟩
      · rw [same]
      · obtain ⟨st', found, running⟩ := SparingSteps.begun before begun
        rw [loops, List.mem_append, List.mem_singleton]
        refine ⟨Or.rec id ?_, .inl⟩
        rintro rfl
        rw [← stream, own, here] at found
        cases found
        exact absurd created running

end SparingSteps

theorem mem_loop? (found : h.loop? id = some (l, st)) : l ∈ h.loops ∧ l.id = id :=
  ⟨mem_of_loop? found, by simpa using List.find?_some (loop?_eq_some found).1⟩

/-- Whatever a loop does, it does at its own stream. -/
theorem sparing_loopStep (found : h.loop? id = some (l, st)) :
    SparingSteps (some l.stream) (some id) h (h.loopStep id) := by
  obtain ⟨_, rfl⟩ := mem_loop? found
  unfold Hub.loopStep
  rw [found]
  simp only
  cases stepped : h.stepLoop l st with
  | none => exact .refl
  | some h' => exact Pieces.sparing (stepLoop_cases stepped).pieces

theorem Minds.loopStep (minds : h.Minds (some n) (some id)) :
    SparingSteps (some n) (some id) h (h.loopStep id) := by
  cases found : h.loop? id with
  | none =>
    unfold Hub.loopStep
    rw [found]
  | some x =>
    obtain ⟨mem, rfl⟩ := mem_loop? found
    rw [minds.stream _ mem rfl]
    exact sparing_loopStep found

theorem Minds.loopEnd (minds : h.Minds (some n) (some id)) :
    h.Spares (some n) (some id) (h.loopEnd id) := by
  cases found : h.loop? id with
  | none =>
    unfold Hub.loopEnd
    rw [found]
    exact .refl _ _ h
  | some x =>
    obtain ⟨mem, rfl⟩ := mem_loop? found
    rw [minds.stream _ mem rfl]
    exact (within_loopEnd found).spares

/-- So it is for any number of steps. -/
theorem Minds.steps (minds : h.Minds (some n) (some id)) (k : Nat) :
    SparingSteps (some n) (some id) h (h.run (List.replicate k (.loop id))) := by
  induction k generalizing h with
  | zero => exact .refl
  | succ k ih => exact minds.loopStep.trans (ih (SparingSteps.minds minds.loopStep minds))

/-- And so it is when the task of a loop is polled. -/
theorem Minds.task (minds : h.Minds (some n) (some id)) (k : Nat) (ends : Bool) :
    SparingSteps (some n) (some id) h (h.runPoll (.task id k ends)) := by
  have steps := minds.steps k
  rw [runPoll_task]
  split
  · exact steps.tail (.spares (SparingSteps.minds steps minds).loopEnd)
  · exact steps

/-! ## Streams that are started -/

/-- A stream that is started gets a loop. -/
theorem startStream_eq {parent : Nat} (found : h.streams[n]? = some st)
    (created : st.state = .created) :
    (h.startStream n parent).2 =
      (((h.updateStream n fun _ => { st with state := .syncing }).addActive 1).say .info
        "starting watch stream").addLoop n st.policy parent := by
  unfold startStream
  rw [found]
  simp only [Stream.start?, created]

theorem streams_started {parent : Nat} (found : h.streams[n]? = some st) (created : st.state = .created) :
    (h.startStream n parent).2.streams =
      (h.updateStream n fun _ => { st with state := .syncing }).streams := by
  rw [startStream_eq found created]
  rfl

/-- Every stream is still there; the one that is started syncs. -/
theorem started_old {i : Nat} {st₀ : Stream} (found : h.streams[n]? = some st)
    (created : st.state = .created) (parent : Nat) (found₀ : h.streams[i]? = some st₀) :
    ∃ st₁, (h.startStream n parent).2.streams[i]? = some st₁ ∧
      (st₁ = st₀ ∨ n = i ∧ st₁ = { st₀ with state := .syncing }) := by
  rw [streams_started found created, streams_updateStream, found₀]
  split
  · rename_i here
    subst here
    cases found.symm.trans found₀
    exact ⟨_, rfl, .inr ⟨rfl, rfl⟩⟩
  · exact ⟨st₀, rfl, .inl rfl⟩

/-- The streams are those that there were; the one that is started syncs. -/
theorem streams_started_cases {parent i : Nat} {st' : Stream} (found : h.streams[n]? = some st)
    (created : st.state = .created) (found' : (h.startStream n parent).2.streams[i]? = some st') :
    n = i ∧ st' = { st with state := .syncing } ∨ h.streams[i]? = some st' := by
  rw [streams_started found created, streams_updateStream] at found'
  split at found'
  · rename_i here
    subst here
    rw [found] at found'
    exact .inl ⟨rfl, (Option.some.inj found').symm⟩
  · exact .inr found'

/-- The loops are those that there were, and that of the stream. -/
theorem loops_started_cases {parent : Nat} (found : h.streams[n]? = some st)
    (created : st.state = .created) (mem : l ∈ (h.startStream n parent).2.loops) :
    l ∈ h.loops ∨ l.stream = n ∧ l.backoff = { policy := st.policy } := by
  rw [startStream_eq found created] at mem
  rcases List.mem_append.mp mem with old | new
  · exact .inl old
  · obtain rfl := List.mem_singleton.mp new
    exact .inr ⟨rfl, rfl⟩

/-! ## Streams that multiplexers make -/

/-- A stream as it is when multiplexer `m` has just started it. -/
def opened (m : Nat) (mux : Multiplexer) (key : ObjectKey) : Stream :=
  { key, policy := mux.settings.listWatch, issuer := some m, state := .syncing }

/-- A stream that a multiplexer makes is started at once. -/
theorem openStream_eq (h : Hub) (m : Nat) (mux : Multiplexer) (key : ObjectKey) :
    (h.openStream m mux key).2 =
      ((((({ h with streams := h.streams ++ [opened m mux key] } : Hub).addActive 1).say .info
        "starting watch stream").addLoop h.streams.length mux.settings.listWatch mux.root).say .info
          "watch stream created") := by
  have made : (h.streams ++ [({ key, policy := mux.settings.listWatch,
                                issuer := some m } : Stream)])[h.streams.length]? =
      some { key, policy := mux.settings.listWatch, issuer := some m } := by simp
  have begun (st : Stream) (f : Stream → Stream) :
      (h.streams ++ [st]).modify h.streams.length f = h.streams ++ [f st] := by
    rw [List.modify_eq_set_getElem?]
    simp
  unfold openStream createStream startStream
  simp only [made, Stream.start?, updateStream, begun]
  rfl

/-- The streams are those that there were, and the new one. -/
theorem streams_append_cases {streams : List Stream} {st' : Stream}
    (found : (streams ++ [st])[n]? = some st') :
    streams[n]? = some st' ∨ n = streams.length ∧ st' = st := by
  rw [List.getElem?_append] at found
  split at found
  · exact .inl found
  · rename_i past
    obtain ⟨here, rfl⟩ := List.getElem?_eq_some_iff.mp found
    rw [List.length_singleton] at here
    exact .inr ⟨by omega, by simp⟩

/-- The loops are those that there were, of streams that there were, and that of the new stream. -/
theorem loops_opened_cases (tended : h.Tended) {m : Nat} {mux : Multiplexer} {key : ObjectKey}
    (mem : l ∈ (({ h with streams := h.streams ++ [opened m mux key] } : Hub).addLoop h.streams.length
      mux.settings.listWatch mux.root).loops)
    (found : (h.streams ++ [opened m mux key])[l.stream]? = some st) :
    l ∈ h.loops ∧ h.streams[l.stream]? = some st ∨
      l.parent = mux.root ∧ l.backoff = { policy := mux.settings.listWatch } ∧
        st = opened m mux key := by
  rcases List.mem_append.mp mem with before | new
  · obtain ⟨st₀, here, _⟩ := tended.begun l before
    have inside := (List.getElem?_eq_some_iff.mp here).1
    rcases streams_append_cases found with old | ⟨past, _⟩
    · exact .inl ⟨before, old⟩
    · omega
  · obtain rfl := List.mem_singleton.mp new
    rcases streams_append_cases found with old | ⟨_, rfl⟩
    · exact absurd (List.getElem?_eq_some_iff.mp old).1 (Nat.lt_irrefl _)
    · exact .inr ⟨rfl, rfl, rfl⟩

/-! ## What outlasts everything but the steps of loops -/

/-- A property that nothing touches but loops, when streams are started, be it by somebody who has made
them before, be it by a multiplexer that makes them. -/
structure Lasting (P : Hub → Prop) : Prop where
  spares : ∀ {h h' : Hub}, P h → h.Spares none none h' → P h'
  starts : ∀ {h : Hub} {n : Nat} {st : Stream}, P h → h.streams[n]? = some st →
    st.state = .created → ∀ parent, P (h.startStream n parent).2
  opens : ∀ {h : Hub} {m : Nat} {mux : Multiplexer}, P h → h.Tended →
    h.multiplexers[m]? = some mux → ∀ key, P (h.openStream m mux key).2

namespace Lasting

variable {P : Hub → Prop}

theorem gentle (lasting : Lasting P) {who : Option Nat} (kept : P h) (gentle : h.Gentle who h') :
    P h' := lasting.spares kept (gentle.spares none none)

theorem startStream (lasting : Lasting P) (kept : P h) (n parent : Nat) :
    P (h.startStream n parent).2 := by
  cases found : h.streams[n]? with
  | none =>
    unfold Hub.startStream
    rwa [found]
  | some st =>
    by_cases created : st.state = .created
    · exact lasting.starts kept found created parent
    · rwa [startStream_of_begun found created]

theorem acquire (lasting : Lasting P) (kept : P h) (tended : h.Tended) {m : Nat}
    {mux : Multiplexer} (known : h.multiplexers[m]? = some mux) (key : ObjectKey) :
    P (h.acquire m mux key).2 := by
  have opened := lasting.opens kept tended known key
  unfold Hub.acquire
  split
  · split
    · exact lasting.spares kept (spares_put h m key _)
    · exact lasting.gentle (lasting.spares opened (spares_put _ m key _)) (gentle_retire _ _)
  · exact lasting.spares opened (spares_put _ m key _)

/-- A call that goes on may have a stream made first. -/
theorem takes (lasting : Lasting P) {c : PendingCall} {h₁ h₂ : Hub} (kept : P h)
    (regular : h.Regular) (asked : Asked h c h₁) (takes : Takes h₁ c h₂) : P h₂ := by
  have asking := lasting.gentle kept asked.gentle
  cases takes with
  | idle => exact asking
  | takes _ known =>
    exact lasting.acquire asking (regular.stirs asked.aside.stirs).tended known _

theorem sparing (lasting : Lasting P) (kept : P h) (steps : SparingSteps none none h h') : P h' := by
  induction steps with
  | refl => exact kept
  | tail _ step ih =>
    cases step with
    | spares spares => exact lasting.spares ih spares
    | starts n parent => exact lasting.startStream ih n parent

/-- If it outlasts what the event of a loop does, it outlasts any event. -/
theorem course (lasting : Lasting P) {e : Event} (kept : P h) (regular : h.Regular)
    (steps : ∀ id, e = .loop id → P (h.loopStep id))
    (ends : ∀ id, e = .loopEnd id → P (h.loopEnd id)) (course : h.Course e h') : P h' := by
  cases course with
  | gentle gentle _ => exact lasting.gentle kept gentle
  | starts n parent gentle => exact lasting.startStream (lasting.gentle kept gentle) n parent
  | steps id => exact steps id rfl
  | ends id => exact ends id rfl
  | waits ms =>
    exact lasting.spares kept { Spares.refl none none h with clock := Nat.le_add_right _ _ }
  | @drops _ _ n _ g _ _ _ before after _ =>
    have lost : P (g.deal (.lost n)) :=
      lasting.spares (lasting.gentle kept before) { Spares.refl none none g with }
    exact lasting.gentle lost after
  | turns _ asked takes turned =>
    exact lasting.sparing (lasting.takes kept regular asked takes) turned.sparing

end Lasting

end Hub

end SharedWatch
