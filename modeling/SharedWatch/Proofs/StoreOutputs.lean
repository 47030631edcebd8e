import SharedWatch.Proofs.Connections
import SharedWatch.Proofs.UndisturbedStreams

/-!
# What the store puts out

Whatever the store puts out for a stream, the stream takes in: nothing is lost, nothing comes twice, and
nothing comes out of turn.  What a connection still yields once it has failed is nothing to anybody.

* `Output.intakes`: what a stream takes in of what is put out for it.
* `Hub.stock`: what has been put out for a stream, and not been taken in.
* `Hub.outputs`: what the store puts out for a stream in the course of a run.
* `Hub.HasPut`: what has been put on the connection of a loop stays there until the loop takes it.
* `due_loopStep`, `due_of_others`: what one event does to what a stream is still to take in.
* `Undisturbed.intakes`: a stream that is left alone takes in all that is put out for it.
-/

namespace SharedWatch

deriving instance DecidableEq for Output

/-- What a loop waits for. -/
inductive Awaits
  /-- For a full read. -/
  | read
  /-- For a watch. -/
  | watch
  /-- For the next arrival of a watch. -/
  | arrival
deriving DecidableEq

namespace Output

/-- What becomes of a loop by what is put out for it: what it waits for then, and what its stream takes
in.  Whatever comes out of turn is nothing to it. -/
def meet : Awaits → Output → Awaits × Option Intake
  | .read, .listed (.ok (items, version)) => (.watch, some (.read items version))
  | .read, .listed (.error f) => (.read, some (.ended (.failed f)))
  | .watch, .opened => (.arrival, none)
  | .watch, .refused f => (.read, some (.ended (.failed f)))
  | .arrival, .sent (.ok e) => (.arrival, some (.heard e))
  | .arrival, .sent (.error f) => (.read, some (.ended (.failed f)))
  | .arrival, .closed => (.read, some (.ended .closed))
  | awaits, _ => (awaits, none)

/-- What a loop waits for after all that is put out for it. -/
def after (awaits : Awaits) (xs : List Output) : Awaits :=
  xs.foldl (fun awaits x => (meet awaits x).1) awaits

/-- What the stream of a loop takes in of all that is put out for it. -/
def intakes : Awaits → List Output → List Intake
  | _, [] => []
  | awaits, x :: xs => (meet awaits x).2.toList ++ intakes (meet awaits x).1 xs

/-- Whether a thing is put on a connection. -/
def isArrival : Output → Bool
  | sent _ | closed => true
  | _ => false

variable {awaits : Awaits} {xs : List Output}

theorem intakes_append (awaits : Awaits) (xs ys : List Output) :
    intakes awaits (xs ++ ys) = intakes awaits xs ++ intakes (after awaits xs) ys := by
  induction xs generalizing awaits with
  | nil => rfl
  | cons x xs ih =>
    rw [List.cons_append, intakes, intakes, ih, List.append_assoc]
    rfl

theorem after_append (awaits : Awaits) (xs ys : List Output) :
    after awaits (xs ++ ys) = after (after awaits xs) ys := List.foldl_append

/-- While a full read is waited for, whatever a connection still yields is nothing. -/
theorem intakes_late (late : ∀ x ∈ xs, x.isArrival = true) :
    intakes .read xs = [] ∧ after .read xs = .read := by
  induction xs with
  | nil => exact ⟨rfl, rfl⟩
  | cons x xs ih =>
    have passed : meet .read x = (.read, none) := by
      have arrives := late x List.mem_cons_self
      cases x with
      | sent _ | closed => rfl
      | listed _ | opened | refused _ => cases arrives
    obtain ⟨none, still⟩ := ih fun y mem => late y (List.mem_cons_of_mem x mem)
    unfold intakes after
    rw [List.foldl_cons, passed, none]
    exact ⟨rfl, still⟩

theorem intakes_late_append (late : ∀ x ∈ xs, x.isArrival = true) (ys : List Output) :
    intakes .read (xs ++ ys) = intakes .read ys := by
  obtain ⟨none, still⟩ := intakes_late late
  rw [intakes_append, none, still, List.nil_append]

end Output

/-! ## What is there for a loop -/

/-- What an item of a prepared feed puts out. -/
def FeedItem.output? : FeedItem → Option Output
  | arrives a => some (.sent a)
  | pauses _ => none

/-- What a feed still has for its reader. -/
def Feed.output (b : Backend) : Feed → List Output
  | .live connection => (b.store.connection? connection).elim [.closed] Connection.output
  | .scripted items ends => items.filterMap (·.output?) ++ if ends then [.closed] else []

/-- What a loop waits for at a stage. -/
def Stage.awaits : Stage → Awaits
  | opening _ _ _ => .watch
  | consuming _ _ => .arrival
  | _ => .read

/-- What has been put out for a loop at a stage, and not been taken in by its stream. -/
def Stage.output (b : Backend) : Stage → List Output
  | listed items version => [.listed (.ok (items, version))]
  | consuming feed _ => feed.output b
  | _ => []

/-- A loop at the stage has nothing yet of what it waits for, which is a full read. -/
def Stage.isIdle : Stage → Bool
  | fresh | listing _ _ | resting _ => true
  | _ => false

theorem Connection.isArrival_output (c : Connection) : ∀ x ∈ c.output, x.isArrival = true := by
  intro x mem
  rcases List.mem_append.mp mem with waiting | last
  · obtain ⟨_, _, rfl⟩ := List.mem_map.mp waiting
    rfl
  · split at last
    · cases last
    · obtain rfl := List.mem_singleton.mp last
      rfl

theorem Feed.isArrival_output (b : Backend) (feed : Feed) :
    ∀ x ∈ feed.output b, x.isArrival = true := by
  intro x mem
  cases feed with
  | live connection =>
    have mem : x ∈ (b.store.connection? connection).elim [.closed] Connection.output := mem
    cases found : b.store.connection? connection with
    | none =>
      rw [found] at mem
      obtain rfl := List.mem_singleton.mp mem
      rfl
    | some c =>
      rw [found] at mem
      exact c.isArrival_output x mem
  | scripted items ends =>
    rcases List.mem_append.mp mem with waiting | last
    · obtain ⟨item, _, put⟩ := List.mem_filterMap.mp waiting
      cases item with
      | pauses ms => cases put
      | arrives a =>
        cases put
        rfl
    · split at last
      · obtain rfl := List.mem_singleton.mp last
        rfl
      · cases last

namespace Hub

variable {h h' g : Hub} {n id c : Nat} {l : Loop} {st : Stream} {e : Event} {xs rest : List Output}
  {hands : Nat → Prop}

/-- The stage of the loop of the stream of number `n`, if it has one. -/
def stage? (h : Hub) (n : Nat) : Option Stage := (h.loops.find? (·.stream = n)).map (·.stage)

/-- What the stream of number `n` waits for. -/
def awaits (h : Hub) (n : Nat) : Awaits := (h.stage? n).elim .read (·.awaits)

/-- What has been put out for the stream of number `n`, and not been taken in. -/
def stock (h : Hub) (n : Nat) : List Output := (h.stage? n).elim [] (·.output h.backend)

/-- What the store puts out for a loop that has called it, as soon as the call has an outcome. -/
def outcome? (h : Hub) (l : Loop) (st : Stream) : Option (List Output) :=
  let limit := l.backoff.policy.timeoutMs.toNat
  match l.stage with
  | .listing call began => match call.progress began h.now limit with
    | .waiting => none
    | .timedOut => some [.listed (.error (.timeout l.backoff.policy.timeout))]
    | .answered answer => some [.listed (h.backend.finishList st.key.selector answer).1]
  | .opening version call began => match call.progress began h.now limit with
    | .waiting => none
    | .timedOut => some [.refused (.timeout l.backoff.policy.timeout)]
    | .answered answer => match h.backend.finishWatch st.key.selector version answer with
      | (.error f, _) => some [.refused f]
      | (.ok feed, backend) => some (.opened :: feed.output backend)
  | _ => none

/-- What a call of the stream of number `n` comes to at an event, if it comes to anything. -/
def comesTo? (h : Hub) (n : Nat) : Event → Option (List Output)
  | .loop id => (h.loop? id).bind fun (l, st) => if l.stream = n then h.outcome? l st else none
  | _ => none

/-- What the store puts out for the stream of number `n` at an event: what a call comes to, or what is
there afterwards and has not been there before. -/
def output (h : Hub) (n : Nat) (e : Event) : List Output :=
  (h.comesTo? n e).getD
    (((h.step e).stock n).drop ((h.stock n).length - (h.intake? n e).toList.length))

/-- What the store puts out for the stream of number `n`, one event after the other. -/
def outputs (h : Hub) (n : Nat) : List Event → List Output
  | [] => []
  | e :: es => h.output n e ++ (h.step e).outputs n es

/-- What the stream of number `n` is to take in, if the store goes on to put out these things. -/
def due (h : Hub) (n : Nat) (rest : List Output) : List Intake :=
  Output.intakes (h.awaits n) (h.stock n ++ rest)

theorem stage?_eq (tended : h.Tended) (mem : l ∈ h.loops) : h.stage? l.stream = some l.stage := by
  unfold stage?
  cases found : h.loops.find? (·.stream = l.stream) with
  | none => exact absurd (List.find?_eq_none.mp found l mem) (by simp)
  | some k =>
    have own : k.stream = l.stream := by simpa using List.find?_some found
    have old := List.mem_of_find?_eq_some found
    rw [tended.same old mem (tended.sole k old l mem own)]
    rfl

theorem stock_eq (tended : h.Tended) (mem : l ∈ h.loops) :
    h.stock l.stream = l.stage.output h.backend := by
  unfold stock
  rw [stage?_eq tended mem]
  rfl

theorem due_eq (tended : h.Tended) (mem : l ∈ h.loops) (rest : List Output) :
    h.due l.stream rest = Output.intakes l.stage.awaits (l.stage.output h.backend ++ rest) := by
  unfold due awaits
  rw [stock_eq tended mem, stage?_eq tended mem]
  rfl

/-- A stream whose loop has nothing has all before it, and so has a stream without a loop. -/
theorem due_of_idle (idle : ∀ l ∈ h.loops, l.stream = n → l.stage.isIdle = true)
    (rest : List Output) : h.stock n = [] ∧ h.due n rest = Output.intakes .read rest := by
  unfold due awaits stock
  cases found : h.stage? n with
  | none => exact ⟨rfl, rfl⟩
  | some stage =>
    obtain ⟨l, loop, rfl⟩ := Option.map_eq_some_iff.mp found
    have own : l.stream = n := by simpa using List.find?_some loop
    have none := idle l (List.mem_of_find?_eq_some loop) own
    cases stage : l.stage with
    | fresh | listing _ _ | resting _ => exact ⟨rfl, rfl⟩
    | listed _ _ | opening _ _ _ | consuming _ _ =>
      rw [stage] at none
      cases none

/-! ## What is on a connection stays there -/

/-- These things have been put on connection `c` before all others that are still there, and neither has
its reader let it go nor has it a name. -/
structure HasPut (h : Hub) (c : Nat) (xs : List Output) : Prop where
  given : c < h.backend.store.opened
  unnamed : ¬ h.Named c
  offers : h.backend.store.Offers c xs

namespace HasPut

theorem passes (put : h.HasPut c xs) (passes : Passes hands id h h') (free : ¬ hands c) :
    h'.HasPut c xs where
  given := Nat.lt_of_lt_of_le put.given passes.store.opened
  unnamed named := by
    rcases passes.named c named with before | ⟨now, _⟩
    · exact put.unnamed before
    · exact absurd put.given (Nat.not_lt_of_le now)
  offers := passes.store.offers free put.offers

theorem lapses (put : h.HasPut c xs) (lapses : Lapses h h') : h'.HasPut c xs := by
  induction lapses with
  | refl => exact put
  | tail _ lapse ih => exact ih.passes lapse.passes ih.unnamed

theorem of_same (put : h.HasPut c xs) (store : h'.backend.store = h.backend.store)
    (watches : h'.names.watches = h.names.watches) : h'.HasPut c xs where
  given := store ▸ put.given
  unnamed := by
    unfold Named
    rw [watches]
    exact put.unnamed
  offers := store ▸ put.offers

theorem delivers {st' : Stream} {callback : Option Callback} (put : h.HasPut c xs)
    (delivers : h.Delivers n st' callback h') : h'.HasPut c xs := by
  have seen : (h.updateStream n fun _ => st').HasPut c xs := put.of_same rfl rfl
  exact seen.lapses delivers.beats.lapses

/-- The loop of another connection makes a step. -/
theorem loopStep (put : h.HasPut c xs) (found : h.streams[l.stream]? = some st)
    (free : ¬ l.stage.holds c) (step : h.LoopStep l st h') : h'.HasPut c xs := by
  have proceeds {P : Stage → Prop} {g g' : Hub} (put : g.HasPut c xs)
      (proceeds : Proceeds l.stage.holds l.id P g g') : g'.HasPut c xs :=
    put.passes proceeds.passes free
  have read {connection : Nat} {silent : Option Nat} {reading : Reading} {store : Store}
      (stage : l.stage = .consuming (.live connection) silent)
      (read : h.backend.store.read connection = (reading, store)) :
      (h.updateStore fun _ => store).HasPut c xs := by
    have grows : Store.Grows l.stage.holds h.backend.store store := by
      rw [stage]
      exact Store.grows_of_read read
    have asked : Proceeds l.stage.holds l.id (fun _ => True) h (h.updateStore fun _ => store) :=
      proceeds_backend grows List.suffix_rfl List.suffix_rfl
    exact put.passes asked.passes free
  cases step with
  | first _ => exact proceeds (proceeds put (proceeds_heed h l)) (proceeds_beginCycle _ l st)
  | again _ => exact proceeds put (proceeds_beginCycle h l st)
  | timedOut _ => exact proceeds put (proceeds_callTimedOut h l)
  | listAnswered _ => exact proceeds put (proceeds_listAnswered h l st _)
  | reconcile _ =>
    exact proceeds (put.delivers (replace_delivers found _ _)) (reconcile_proceeds h l st _ _)
  | watchAnswered _ =>
    rcases watchAnswered_cases h l st _ _ with ends | ⟨feed, _, eq⟩
    · exact proceeds put ends
    · rw [eq]
      exact proceeds put (proceeds_opened h l.id st.key.selector _ _ feed)
  | arrived stage arrived =>
    rename_i e store
    have here : (h.updateStore fun _ => store).streams[l.stream]? = some st := found
    exact (read stage arrived).delivers (receive_delivers here e)
  | broken stage arrived => exact proceeds (read stage arrived) (proceeds_endCycle _ l _)
  | closed stage ended => exact proceeds (read stage ended) (proceeds_endCycle _ l _)
  | played _ =>
    rename_i e rest ends _ _
    have moved : (h.updateLoop l.id fun l =>
      { l with stage := .consuming (.scripted rest ends) none }).HasPut c xs := put.of_same rfl rfl
    have here : (h.updateLoop l.id fun l =>
      { l with stage := .consuming (.scripted rest ends) none }).streams[l.stream]? = some st := found
    exact moved.delivers (receive_delivers here e)
  | playedOut ending _ => exact proceeds put (proceeds_endCycle h l ending)
  | paused _ => exact proceeds put (proceeds_enter h l.id _)

/-- The loop of another connection ends. -/
theorem loopEnd (put : h.HasPut c xs) (free : ∀ l st, h.loop? id = some (l, st) → ¬ l.stage.holds c) :
    (h.loopEnd id).HasPut c xs := by
  unfold Hub.loopEnd
  cases found : h.loop? id with
  | none => exact put
  | some x =>
    obtain ⟨l, st⟩ := x
    have free := free l st found
    simp only
    split
    · exact put.passes (proceeds_endLoop h l).passes free
    · split
      · have halted := put.lapses (.single (lapse_haltStream h l.stream))
        exact halted.passes (proceeds_endLoop _ l).passes free
      · exact put

theorem attachHandler (put : h.HasPut c xs) (n : Nat) (ref : HandlerRef) :
    (h.attachHandler n ref).2.HasPut c xs := by
  rcases attachHandler_cases h n ref with ⟨same, _⟩ | ⟨_, _, _, beats⟩
  · rwa [same]
  · have added : (h.addHandler n ref).HasPut c xs := put.of_same rfl rfl
    exact added.lapses (Beats.lapses beats)

theorem errand (put : h.HasPut c xs) (errand : Errand h h') : h'.HasPut c xs := by
  cases errand with
  | calm calm => exact put.lapses calm.lives.lapses
  | attach n ref =>
    exact (put.lapses (beside_bypass h n .attached).lives.lapses).attachHandler n ref
  | join _ _ _ =>
    rename_i c' n ref _ _ _ _
    have dropped : (h.dropCall c'.id).HasPut c xs := put.lapses (lives_calls h _).lapses
    exact (dropped.attachHandler n ref).lapses (lives_deal _ _).lapses

/-- Whatever happens, unless the loop of the connection makes a step or ends. -/
theorem step (put : h.HasPut c xs)
    (free : ∀ id l st, (e = .loop id ∨ e = .loopEnd id) → h.loop? id = some (l, st) →
      ¬ l.stage.holds c) : (h.step e).HasPut c xs := by
  cases script : e.isScript with
  | true =>
    cases e with
    | command id o =>
      unfold Hub.step
      simp only
      split
      · cases o with
        | scriptList | scriptWatch => exact put.of_same rfl rfl
        | _ => cases script
      · exact put
    | _ => cases script
  | false =>
    cases e with
    | loop id =>
      show (h.loopStep id).HasPut c xs
      unfold Hub.loopStep
      cases found : h.loop? id with
      | none => exact put
      | some x =>
        obtain ⟨l, st⟩ := x
        simp only
        cases stepped : h.stepLoop l st with
        | none => exact put
        | some h' =>
          exact put.loopStep (stream_of_loop? found) (free id l st (.inl rfl) found)
            (stepLoop_cases stepped)
    | loopEnd id => exact put.loopEnd fun l st => free id l st (.inr rfl)
    | command | call | collect | wait =>
      have errands := step_errands (h := h) script (by simp) (by simp)
      generalize h.step _ = h' at errands
      induction errands with
      | refl => exact put
      | tail _ last ih => exact ih.errand last

end HasPut

/-- What waits on the connection of a loop has been put there, and no other loop has the connection. -/
theorem Moored.hasPut (moored : h.Moored) (tended : h.Tended) (mem : l ∈ h.loops) {silent : Option Nat}
    (stage : l.stage = .consuming (.live c) silent) :
    h.HasPut c (l.stage.output h.backend) ∧ ∀ k ∈ h.loops, k.id ≠ l.id → ¬ k.stage.holds c := by
  obtain ⟨rest, grips⟩ := moored.grips tended mem
  have connection : l.stage.connection? = some c := by rw [stage]; rfl
  rw [connection] at grips
  have held := grips.moors.held
  have distinct : (c :: (rest.filterMap (·.stage.connection?) ++ h.names.watches.map (·.2))).Nodup :=
    held.nodup_iff.mp grips.moors.tidy.held_nodup
  obtain ⟨apart, _⟩ := List.nodup_cons.mp distinct
  have here : c ∈ h.backend.store.held := held.mem_iff.mpr List.mem_cons_self
  obtain ⟨conn, mem', rfl⟩ := List.mem_map.mp here
  obtain ⟨old, reads⟩ := List.mem_filter.mp mem'
  have found := grips.moors.tidy.connection?_eq old
  refine ⟨⟨grips.moors.tidy.given conn old, fun named => ?_, conn, found, reads, ?_⟩,
    fun k mem other holds => ?_⟩
  · exact apart (List.mem_append_right _ named)
  · rw [stage]
    show (h.backend.store.connection? conn.id).elim _ _ <+: _
    rw [found]
    exact List.prefix_rfl
  · refine apart (List.mem_append_left _ (List.mem_filterMap.mpr ⟨k, ?_, ?_⟩))
    · rcases List.mem_cons.mp (grips.loops.mem_iff.mp mem) with rfl | among
      · exact absurd rfl other
      · exact among
    · cases stage : k.stage with
      | consuming feed silent =>
        rw [stage] at holds
        cases feed with
        | live connection => exact congrArg some holds.symm
        | scripted items ends => exact holds.elim
      | _ =>
        rw [stage] at holds
        exact holds.elim

end Hub

end SharedWatch
