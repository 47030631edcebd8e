import SharedWatch.Proofs.StreamLifecycle
import SharedWatch.Proofs.LoopFrame

/-!
# What a stream takes in

All that a stream ever learns of its object it learns from its loop, one thing at a time: that a full
read has succeeded, that a change has arrived, or that a cycle has ended.

* `Intake`: these things; `Stream.take`: what becomes of a stream by them.
* `Hub.intake?`, `Hub.intakes`: what a stream takes in at an event, and in a run.
* `Hub.Stride`: one step of a loop, by what its stream takes in; `stepLoop_stride`: every step is one.
* `tellings_deliver_eq`: a delivery calls every handler once, in order.
* `Stride.learns`, `Stride.goesOn`, `Stride.givesUp`: what becomes of the stream and of the loop.
* `Hub.Concerns`: a property that nothing but the steps of one loop touches; `Concerns.course`: every other
  event leaves it.
-/

namespace SharedWatch

deriving instance DecidableEq for CycleEnd

/-- What a stream takes in from its loop. -/
inductive Intake
  /-- A full read has succeeded. -/
  | read (items : List Object) (version : String)
  /-- A change has arrived. -/
  | heard (e : Change)
  /-- A cycle has ended. -/
  | ended (ending : CycleEnd)
deriving DecidableEq

namespace Stream

/-- Notes the end of a cycle.  That a version is no longer served is nothing worth noting. -/
def note (st : Stream) : CycleEnd → Stream
  | .closed | .failed (.expired _) => st
  | .failed f => st.noteFailure f

/-- What becomes of a stream by what it takes in, and the callback for its handlers. -/
def take (st : Stream) : Intake → Stream × Option Callback
  | .read items version => st.replace items version
  | .heard e => st.receive e
  | .ended ending => (st.note ending, none)

/-- What becomes of a stream by a list of things that it takes in. -/
def takes (st : Stream) (xs : List Intake) : Stream := xs.foldl (fun st x => (st.take x).1) st

/-- What becomes of a stream by what it takes in, if anything. -/
def after (st : Stream) (x : Option Intake) : Stream := x.elim st fun x => (st.take x).1

/-- The callback for the handlers of a stream that takes something in, if there is one. -/
def news? (st : Stream) (x : Option Intake) : Option Callback := x.bind fun x => (st.take x).2

/-- The callbacks that a list of things make, one after the other. -/
def told (st : Stream) : List Intake → List Callback
  | [] => []
  | x :: xs => (st.take x).2.toList ++ (st.take x).1.told xs

/-- `st'` is `st` after it has taken something in, if anything.  In between, handlers that were called
may have stopped it, or left. -/
structure Learns (st : Stream) (x : Option Intake) (st' : Stream) : Prop where
  key : st'.key = st.key
  policy : st'.policy = st.policy
  cache : st'.cache = (st.after x).cache
  hasSynced : st'.hasSynced = (st.after x).hasSynced
  stopped : st.isStopped = true → st'.isStopped = true
  quiet : st.news? x = none ∨ st.handlers = [] →
    st'.handlers = st.handlers ∧ st'.isStopped = st.isStopped

theorem Learns.before {st st' : Stream} {x : Option Intake} (learns : st.Learns x st')
    (running : st'.isStopped = false) : st.isStopped = false := by
  cases stopped : st.isStopped with
  | false => rfl
  | true => exact (learns.stopped stopped).symm.trans running

theorem note_eq (st : Stream) (ending : CycleEnd) :
    ∃ lastError, st.note ending = { st with cache := { st.cache with lastError } } := by
  cases ending with
  | closed => exact ⟨_, rfl⟩
  | failed f => cases f <;> exact ⟨_, rfl⟩

theorem face_take (st : Stream) (x : Intake) : (st.take x).1.face = st.face := by
  cases x with
  | read items version => exact st.face_replace items version
  | heard e => exact st.face_receive e
  | ended ending =>
    obtain ⟨lastError, eq⟩ := st.note_eq ending
    show (st.note ending).face = st.face
    rw [eq]
    rfl

/-- What a stream takes in changes its cache and its state at most. -/
theorem take_eq (st : Stream) (x : Intake) : ∃ cache state hasSynced,
    (st.take x).1 = { st with cache, state, hasSynced } := by
  cases x with
  | read items version =>
    rcases st.replace_cases items version with ⟨_, eq⟩ | ⟨_, eq⟩
    · exact ⟨_, _, _, congrArg Prod.fst eq⟩
    · exact ⟨_, _, _, eq⟩
  | heard e =>
    obtain ⟨_, eq⟩ := st.receive_fst e
    exact ⟨_, _, _, eq⟩
  | ended ending =>
    obtain ⟨_, eq⟩ := st.note_eq ending
    exact ⟨_, _, _, eq⟩

theorem policy_take (st : Stream) (x : Intake) : (st.take x).1.policy = st.policy := by
  obtain ⟨_, _, _, eq⟩ := st.take_eq x
  rw [eq]

theorem abandoned_take (st : Stream) (x : Intake) : (st.take x).1.abandoned = st.abandoned := by
  obtain ⟨_, _, _, eq⟩ := st.take_eq x
  rw [eq]

theorem abandoned_move (st : Stream) (state : Lifecycle) : (st.move state).abandoned = st.abandoned := by
  obtain ⟨_, eq⟩ := st.move_eq state
  rw [eq]

theorem takes_append (st : Stream) (xs ys : List Intake) :
    st.takes (xs ++ ys) = (st.takes xs).takes ys := List.foldl_append

/-- A stream that takes something in, if anything, and then more. -/
theorem takes_after (st : Stream) (x : Option Intake) (xs : List Intake) :
    st.takes (x.toList ++ xs) = (st.after x).takes xs := by
  cases x <;> rfl

theorem told_after (st : Stream) (x : Option Intake) (xs : List Intake) :
    st.told (x.toList ++ xs) = (st.news? x).toList ++ (st.after x).told xs := by
  cases x <;> rfl

theorem face_takes (st : Stream) (xs : List Intake) : (st.takes xs).face = st.face := by
  induction xs generalizing st with
  | nil => rfl
  | cons x xs ih => exact (ih _).trans (st.face_take x)

theorem policy_takes (st : Stream) (xs : List Intake) : (st.takes xs).policy = st.policy := by
  induction xs generalizing st with
  | nil => rfl
  | cons x xs ih => exact (ih _).trans (st.policy_take x)

theorem face_after (st : Stream) (x : Option Intake) : (st.after x).face = st.face := by
  cases x with
  | none => rfl
  | some x => exact st.face_take x

theorem policy_after (st : Stream) (x : Option Intake) : (st.after x).policy = st.policy := by
  cases x with
  | none => rfl
  | some x => exact st.policy_take x

theorem told_append (st : Stream) (xs ys : List Intake) :
    st.told (xs ++ ys) = st.told xs ++ (st.takes xs).told ys := by
  induction xs generalizing st with
  | nil => rfl
  | cons x xs ih =>
    rw [List.cons_append, told, told, ih, List.append_assoc]
    rfl

end Stream

namespace Hub

/-- What a feed has to offer, if anything. -/
def arrival? (h : Hub) : Feed → Option Intake
  | .live connection => match (h.backend.store.read connection).1 with
    | .arrived (.ok e) => some (.heard e)
    | .arrived (.error f) => some (.ended (.failed f))
    | .ended => some (.ended .closed)
    | .idle => none
  | .scripted (.arrives (.ok e) :: _) _ => some (.heard e)
  | .scripted (.arrives (.error f) :: _) _ => some (.ended (.failed f))
  | .scripted (.pauses _ :: _) _ => none
  | .scripted [] ends => if ends then some (.ended .closed) else none

/-- What the stream of a loop takes in at the next step of the loop, if anything. -/
def offer? (h : Hub) (l : Loop) (st : Stream) : Option Intake :=
  let limit := l.backoff.policy.timeoutMs.toNat
  match l.stage with
  | .fresh | .resting _ => none
  | .listing call began => match call.progress began h.now limit with
    | .waiting => none
    | .timedOut => some (.ended (.failed (.timeout l.backoff.policy.timeout)))
    | .answered answer => match (h.backend.finishList st.key.selector answer).1 with
      | .error f => some (.ended (.failed f))
      | .ok _ => none
  | .listed items version => some (.read items version)
  | .opening version call began => match call.progress began h.now limit with
    | .waiting => none
    | .timedOut => some (.ended (.failed (.timeout l.backoff.policy.timeout)))
    | .answered answer => match (h.backend.finishWatch st.key.selector version answer).1 with
      | .error f => some (.ended (.failed f))
      | .ok _ => none
  | .consuming feed silentUntil =>
    if silentUntil.all (· ≤ h.now) then h.arrival? feed else none

/-- What the stream of number `n` takes in at an event, if anything. -/
def intake? (h : Hub) (n : Nat) : Event → Option Intake
  | .loop id => match h.loop? id with
    | some (l, st) => if l.stream = n then h.offer? l st else none
    | none => none
  | _ => none

/-- What the stream of number `n` takes in, one event after the other. -/
def intakes (h : Hub) (n : Nat) : List Event → List Intake
  | [] => []
  | e :: es => (h.intake? n e).toList ++ (h.step e).intakes n es

variable {h h' g : Hub} {n id : Nat} {l : Loop} {st st' : Stream}

theorem intakes_append (h : Hub) (n : Nat) (es fs : List Event) :
    h.intakes n (es ++ fs) = h.intakes n es ++ (h.run es).intakes n fs := by
  induction es generalizing h with
  | nil => rfl
  | cons e es ih =>
    rw [List.cons_append, intakes, intakes, ih, List.append_assoc]
    rfl

theorem intakes_snoc (h : Hub) (n : Nat) (es : List Event) (e : Event) :
    h.intakes n (es ++ [e]) = h.intakes n es ++ ((h.run es).intake? n e).toList := by
  rw [intakes_append, intakes, intakes, List.append_nil]

/-! ## Strides of a loop -/

/-- A loop works, and its stream does not notice. -/
structure Plods (h : Hub) (l : Loop) (h' : Hub) : Prop where
  tellings : h'.tellings = h.tellings
  metrics : h'.metrics = h.metrics
  attached : h'.attached = h.attached
  streams : h'.streams = h.streams
  loops : ∃ f : Loop → Loop, (∀ k, (f k).id = k.id ∧ (f k).stream = k.stream ∧
    (f k).backoff = k.backoff) ∧ h'.loops = (h.updateLoop l.id f).loops

/-- One step of a loop, by what its stream takes in. -/
inductive Stride (h : Hub) (l : Loop) (st : Stream) : Option Intake → Hub → Prop
  | works {h' : Hub} : h.Plods l h' → Stride h l st none h'
  | begins {g : Hub} : h.Plods l g → Stride h l st none (g.beginCycle l st)
  | reads (items : List Object) (version : String) :
    Stride h l st (some (.read items version)) (h.reconcile l st items version)
  | hears {g : Hub} (e : Change) : h.Plods l g → Stride h l st (some (.heard e)) (g.receive l.stream e)
  | ends (backend : Backend) (trace : List TraceLine) (ending : CycleEnd) :
    Stride h l st (some (.ended ending)) (({ h with backend, trace } : Hub).endCycle l ending)

theorem updateLoop_id (h : Hub) (id : Nat) : (h.updateLoop id fun l => l).loops = h.loops := by
  unfold updateLoop
  simp

theorem Plods.refl (h : Hub) (l : Loop) : h.Plods l h :=
  ⟨rfl, rfl, rfl, rfl, fun l => l, fun _ => ⟨rfl, rfl, rfl⟩, (updateLoop_id h l.id).symm⟩

theorem plods_updateLoop {f : Loop → Loop} (same : ∀ k, (f k).id = k.id ∧ (f k).stream = k.stream ∧
    (f k).backoff = k.backoff) : h.Plods l (h.updateLoop l.id f) :=
  ⟨rfl, rfl, rfl, rfl, f, same, rfl⟩

theorem plods_enter (h : Hub) (l : Loop) (stage : Stage) : h.Plods l (h.enter l.id stage) :=
  ⟨rfl, rfl, rfl, rfl, fun k => { k with stage, ticket := h.tickets }, fun _ => ⟨rfl, rfl, rfl⟩, rfl⟩

theorem plods_heed (h : Hub) (l : Loop) : h.Plods l (h.heed l) :=
  ⟨rfl, rfl, rfl, rfl, fun k => { k with since := h.tickets }, fun _ => ⟨rfl, rfl, rfl⟩, rfl⟩

theorem plods_backend {backend : Backend} (plods : ({ h with backend } : Hub).Plods l h') :
    h.Plods l h' := { plods with }

/-- A feed that is read. -/
theorem consume_stride {feed : Feed} (read : h.consume l feed = some h') :
    h.Stride l st (h.arrival? feed) h' := by
  unfold consume at read
  unfold arrival?
  split at read
  · rename_i connection
    cases found : h.backend.store.read connection with
    | mk reading store =>
      simp only [found] at read ⊢
      split at read
      · cases read
        exact .hears _ (plods_backend (.refl ({ h with backend := { h.backend with store } } : Hub) l))
      · cases read
        exact .ends { h.backend with store } h.trace _
      · cases read
        exact .ends { h.backend with store } h.trace _
      · cases read
  · cases read
    exact .hears _ (plods_updateLoop fun _ => ⟨rfl, rfl, rfl⟩)
  · cases read
    exact .ends h.backend h.trace _
  · cases read
    exact .works (plods_enter h l _)
  · split at read
    · cases read
      rename_i ends
      simp only [ends, if_true]
      exact .ends h.backend h.trace _
    · cases read

/-- Every step of a loop is a stride. -/
theorem stepLoop_stride (stepped : h.stepLoop l st = some h') :
    h.Stride l st (h.offer? l st) h' := by
  unfold stepLoop at stepped
  unfold offer?
  cases stage : l.stage with
  | fresh =>
    simp only [stage] at stepped
    cases stepped
    exact .begins (plods_heed h l)
  | listing call began =>
    simp only [stage] at stepped ⊢
    cases progress : call.progress began h.now l.backoff.policy.timeoutMs.toNat with
    | waiting => simp [progress] at stepped
    | timedOut =>
      simp only [progress] at stepped
      cases stepped
      exact .ends h.backend _ _
    | answered answer =>
      simp only [progress, Option.some.injEq] at stepped ⊢
      subst stepped
      unfold listAnswered
      cases result : (h.backend.finishList st.key.selector answer).1 with
      | error f => simpa only [result] using .ends _ h.trace _
      | ok read =>
        simpa only [result] using
          .works (plods_backend (plods_updateLoop fun _ => ⟨rfl, rfl, rfl⟩))
  | listed items version =>
    simp only [stage] at stepped
    cases stepped
    exact .reads _ _
  | opening version call began =>
    simp only [stage] at stepped ⊢
    cases progress : call.progress began h.now l.backoff.policy.timeoutMs.toNat with
    | waiting => simp [progress] at stepped
    | timedOut =>
      simp only [progress] at stepped
      cases stepped
      exact .ends h.backend _ _
    | answered answer =>
      simp only [progress, Option.some.injEq] at stepped ⊢
      subst stepped
      unfold watchAnswered
      cases result : (h.backend.finishWatch st.key.selector version answer).1 with
      | error f => simpa only [result] using .ends _ h.trace _
      | ok feed =>
        simpa only [result] using .works (plods_backend (plods_enter _ _ _))
  | consuming feed silentUntil =>
    simp only [stage] at stepped ⊢
    split at stepped
    · rename_i due
      rw [if_pos due]
      exact consume_stride stepped
    · cases stepped
  | resting t =>
    simp only [stage] at stepped
    split at stepped
    · cases stepped
      exact .begins (.refl h l)
    · cases stepped

/-- A feed with nothing to read has nothing to offer. -/
theorem arrival?_of_idle {feed : Feed} (idle : h.consume l feed = none) : h.arrival? feed = none := by
  unfold consume at idle
  unfold arrival?
  split at idle
  · rename_i connection
    cases found : h.backend.store.read connection with
    | mk reading store =>
      simp only [found] at idle ⊢
      split at idle
      · cases idle
      · cases idle
      · cases idle
      · rfl
  · cases idle
  · cases idle
  · rfl
  · split at idle
    · cases idle
    · rename_i silent
      simp only [silent, Bool.false_eq_true, if_false]

/-- While a loop has to wait, its stream takes nothing in. -/
theorem offer?_of_waits (waits : h.stepLoop l st = none) : h.offer? l st = none := by
  unfold stepLoop at waits
  unfold offer?
  cases stage : l.stage with
  | fresh => rfl
  | listing call began =>
    simp only [stage] at waits ⊢
    cases progress : call.progress began h.now l.backoff.policy.timeoutMs.toNat with
    | waiting => rfl
    | timedOut => simp [progress] at waits
    | answered answer => simp [progress] at waits
  | listed items version => simp [stage] at waits
  | opening version call began =>
    simp only [stage] at waits ⊢
    cases progress : call.progress began h.now l.backoff.policy.timeoutMs.toNat with
    | waiting => rfl
    | timedOut => simp [progress] at waits
    | answered answer => simp [progress] at waits
  | consuming feed silentUntil =>
    simp only [stage] at waits ⊢
    split at waits
    · rename_i due
      rw [if_pos due]
      exact arrival?_of_idle waits
    · rename_i early
      rw [if_neg early]
  | resting t => rfl

/-! ## Deliveries -/

/-- A delivery calls every handler that is attached when it begins once, in order, whatever the
handlers do in the meantime. -/
theorem tellings_deliver_eq (found : h.streams[n]? = some st) (c : Callback) :
    (h.deliver n c).tellings = h.tellings ++ st.handlers.map fun k => ⟨n, k.1, c⟩ := by
  unfold deliver
  rw [found]
  simp only
  clear found
  generalize st.handlers = handlers
  induction handlers generalizing h with
  | nil => simp
  | cons handler handlers ih =>
    have called : ((h.invoke n handler c).countDelivery c.kind.word).tellings =
        h.tellings ++ [⟨n, handler.1, c⟩] := tellings_invoke h n handler c
    rw [List.foldl_cons, ih, called, List.map_cons, List.append_assoc]
    rfl

/-- What the handlers of a stream are told, if there is something to tell. -/
def tells (n : Nat) (st : Stream) (callback : Option Callback) : List Telling :=
  callback.elim [] fun c => st.handlers.map fun k => ⟨n, k.1, c⟩

namespace Delivers

variable {callback : Option Callback}

/-- Loops stay, and handlers may start others. -/
theorem loops (delivers : h.Delivers n st' callback h') :
    ∃ more, h'.loops = h.loops ++ more ∧ ∀ k ∈ more, h.started ≤ k.id := by
  obtain ⟨g, g', before, after, rfl⟩ := delivers
  have same : g'.loops = h.loops := after.loops.trans before.loops
  have count : g'.started = h.started := after.started.trans before.started
  cases callback with
  | none => exact ⟨[], same.trans (List.append_nil _).symm, nofun⟩
  | some c =>
    obtain ⟨more, loops, new⟩ := Rouses.loops (rouses_deliver g' n c)
    exact ⟨more, same ▸ loops, fun k mem => count ▸ (new k mem).1⟩

theorem keeps (delivers : h.Delivers n st' callback h') {k : Loop} (mem : k ∈ h.loops) :
    k ∈ h'.loops := by
  obtain ⟨more, loops, _⟩ := delivers.loops
  exact loops ▸ List.mem_append_left more mem

theorem tellings (delivers : h.Delivers n st' callback h') (found : h.streams[n]? = some st) :
    h'.tellings = h.tellings ++ tells n st' callback := by
  obtain ⟨g, g', before, after, rfl⟩ := delivers
  have same : g'.tellings = h.tellings := after.tellings.trans before.tellings
  have here : g'.streams[n]? = some st' := by
    rw [after.streams, streams_updateStream, if_pos rfl, before.streams, found]
    rfl
  cases callback with
  | none => exact same.trans (List.append_nil _).symm
  | some c => exact (tellings_deliver_eq here c).trans (congrArg (· ++ _) same)

/-- Every stream is left to itself, once the stream has seen the change. -/
theorem old (delivers : h.Delivers n st' callback h') {i : Nat}
    (found : (h.updateStream n fun _ => st').streams[i]? = some st) :
    ∃ st'', h'.streams[i]? = some st'' ∧ st.Endures st'' := by
  obtain ⟨g, g', before, after, rfl⟩ := delivers
  have here : g'.streams[i]? = some st := by
    rw [after.streams, ← found]
    unfold updateStream
    rw [before.streams]
  cases callback with
  | none => exact ⟨st, here, .refl st⟩
  | some c => exact Rouses.old (rouses_deliver g' n c) here

/-- With nobody to call, nothing else happens to streams. -/
theorem streams (delivers : h.Delivers n st' callback h')
    (quiet : callback = none ∨ st'.handlers = []) (found : h.streams[n]? = some st) :
    h'.streams = (h.updateStream n fun _ => st').streams := by
  obtain ⟨g, g', before, after, rfl⟩ := delivers
  have same : g'.streams = (h.updateStream n fun _ => st').streams := by
    rw [after.streams]
    unfold updateStream
    rw [before.streams]
  cases callback with
  | none => exact same
  | some c =>
    have nobody := quiet.resolve_left nofun
    have here : g'.streams[n]? = some st' := by
      rw [same, streams_updateStream, if_pos rfl, found]
      rfl
    show (g'.deliver n c).streams = _
    unfold deliver
    rw [here]
    simp only [nobody, List.foldl_nil]
    exact same

end Delivers

/-! ## What becomes of the stream and of the loop -/

theorem plods_beginCycle (h : Hub) (l : Loop) (st : Stream) :
    (h.updateStream l.stream (·.move .syncing)).Plods l (h.beginCycle l st) :=
  plods_backend (plods_enter _ _ _)

/-- The stream of a number changes. -/
theorem streams_updateStream_eq (found : h.streams[n]? = some st) (f : Stream → Stream) :
    (h.updateStream n f).streams = h.streams.set n (f st) := by
  unfold updateStream
  rw [List.modify_eq_set_getElem?, found]
  rfl

theorem loops_updateLoop_twice {f k : Loop → Loop} (ids : ∀ l, (f l).id = l.id) (h : Hub) (id : Nat) :
    ((h.updateLoop id f).updateLoop id k).loops = (h.updateLoop id fun l => k (f l)).loops := by
  unfold updateLoop
  rw [List.map_map]
  refine List.map_congr_left fun l _ => ?_
  by_cases own : l.id = id
  · simp [own, ids]
  · simp [own]

theorem streams_reportEnd (found : h.streams[n]? = some st) (ending : CycleEnd) :
    (h.reportEnd n ending).streams = h.streams.set n (st.note ending) := by
  have idle : h.streams = h.streams.set n st := by
    obtain ⟨bound, rfl⟩ := List.getElem?_eq_some_iff.mp found
    rw [List.set_getElem_self]
  cases ending with
  | closed => exact idle
  | failed f =>
    cases f with
    | expired version => exact idle
    | unavailable reason => exact streams_updateStream_eq found _
    | timeout limit => exact streams_updateStream_eq found _

/-- To everything else the end of a cycle is nothing. -/
theorem rest_reportEnd (h : Hub) (n : Nat) (ending : CycleEnd) :
    (h.reportEnd n ending).tellings = h.tellings ∧ (h.reportEnd n ending).loops = h.loops ∧
      (h.reportEnd n ending).now = h.now ∧ (h.reportEnd n ending).tickets = h.tickets ∧
      (h.reportEnd n ending).draws = h.draws ∧
      (h.reportEnd n ending).metrics.activeStreams = h.metrics.activeStreams := by
  cases ending with
  | closed => exact ⟨rfl, rfl, rfl, rfl, rfl, rfl⟩
  | failed f => cases f <;> exact ⟨rfl, rfl, rfl, rfl, rfl, rfl⟩

/-- The end of a cycle: the loop rests until the next attempt, or gives up and is over. -/
inductive Ended (h : Hub) (l : Loop) (st : Stream) (ending : CycleEnd) (h' : Hub) : Prop
  | rests (d : Span) : (l.backoff.next h.draws).1 = some d →
    h'.streams = h.streams.set l.stream (st.note ending) →
    h'.loops = (h.updateLoop l.id fun k => { k with
      backoff := (l.backoff.next h.draws).2.1, stage := .resting (h.now + d.millis),
      ticket := h.tickets }).loops → Ended h l st ending h'
  | givesUp : (l.backoff.next h.draws).1 = none →
    h'.streams = h.streams.set l.stream ((st.note ending).abandon
      ((st.note ending).cache.lastError.getD "retries exhausted")) →
    h'.loops = h.loops.filter (fun k => k.id != l.id) → Ended h l st ending h'

/-- The loop rests until the next attempt, or gives up. -/
def restOrGiveUp (h : Hub) (l : Loop) : Hub :=
  let (delay, backoff, draws) := l.backoff.next h.draws
  let h := { h with draws }
  match delay with
  | some d => (h.updateLoop l.id fun l => { l with backoff }).enter l.id (.resting (h.now + d.millis))
  | none => match h.streams[l.stream]? with
    | none => h.endLoop l
    | some st => h.abandon { l with stage := .fresh } st.key st.cache.lastError

theorem endCycle_eq (h : Hub) (l : Loop) (ending : CycleEnd) :
    ∃ backend, h.endCycle l ending =
      ((({ h with backend } : Hub).reportEnd l.stream ending).countRestart
        ending.reason).restOrGiveUp l := by
  unfold endCycle
  cases l.stage with
  | consuming feed silent => exact ⟨h.backend.release feed, rfl⟩
  | _ => exact ⟨h.backend, rfl⟩

theorem restOrGiveUp_ended (found : h.streams[l.stream]? = some st) :
    (∃ d, (l.backoff.next h.draws).1 = some d ∧ (h.restOrGiveUp l).streams = h.streams ∧
      (h.restOrGiveUp l).loops = (h.updateLoop l.id fun k => { k with
        backoff := (l.backoff.next h.draws).2.1, stage := .resting (h.now + d.millis),
        ticket := h.tickets }).loops) ∨
    (l.backoff.next h.draws).1 = none ∧
      (h.restOrGiveUp l).streams = h.streams.set l.stream
        (st.abandon (st.cache.lastError.getD "retries exhausted")) ∧
      (h.restOrGiveUp l).loops = h.loops.filter (fun k => k.id != l.id) := by
  unfold restOrGiveUp
  rcases next : l.backoff.next h.draws with ⟨delay, backoff, draws⟩
  cases delay with
  | some d =>
    exact .inl ⟨d, rfl, rfl,
      loops_updateLoop_twice (f := fun k => { k with backoff }) (fun _ => rfl) h l.id⟩
  | none =>
    refine .inr ⟨rfl, ?_, ?_⟩
    · simp only [found]
      exact streams_updateStream_eq found (·.abandon _)
    · simp only [found]
      rfl

theorem endCycle_ended (found : h.streams[l.stream]? = some st) (ending : CycleEnd) :
    h.Ended l st ending (h.endCycle l ending) := by
  obtain ⟨backend, eq⟩ := endCycle_eq h l ending
  have streams := streams_reportEnd (h := { h with backend }) found ending
  obtain ⟨_, loops, now, tickets, draws, _⟩ := rest_reportEnd { h with backend } l.stream ending
  rw [eq]
  generalize ({ h with backend } : Hub).reportEnd l.stream ending = g at *
  have here : (g.countRestart ending.reason).streams[l.stream]? = some (st.note ending) := by
    show g.streams[l.stream]? = _
    rw [streams]
    exact List.getElem?_set_self (List.getElem?_eq_some_iff.mp found).1
  have same : (g.countRestart ending.reason).draws = h.draws := draws
  rcases restOrGiveUp_ended here with ⟨d, next, streams', loops'⟩ | ⟨next, streams', loops'⟩
  · rw [same] at next loops'
    refine .rests d next (streams'.trans streams) (loops'.trans ?_)
    show g.loops.map _ = h.loops.map _
    rw [loops, show (g.countRestart ending.reason).tickets = h.tickets from tickets,
      show (g.countRestart ending.reason).now = h.now from now]
  · rw [same] at next
    refine .givesUp next (streams'.trans ?_) (loops'.trans ?_)
    · show g.streams.set _ _ = _
      rw [streams, List.set_set]
    · show g.loops.filter _ = _
      rw [loops]

/-- The backoff of a loop after a step, unless the loop gives up. -/
def backoffAfter? (h : Hub) (l : Loop) : Option Intake → Option Backoff
  | none | some (.heard _) => some l.backoff
  | some (.read _ _) => some l.backoff.reset
  | some (.ended _) => (l.backoff.next h.draws).1.map fun _ => (l.backoff.next h.draws).2.1

/-- A delivered read resets the backoff; the loop goes on to ask for a watch. -/
theorem reconcile_delivers (found : h.streams[l.stream]? = some st) (items : List Object)
    (version : String) : ∃ g f, h.Delivers l.stream (st.replace items version).1
      (st.replace items version).2 g ∧ (h.reconcile l st items version).tellings = g.tellings ∧
      (h.reconcile l st items version).streams = g.streams ∧
      (∀ k : Loop, (f k).id = k.id ∧ (f k).stream = k.stream ∧ (f k).backoff = k.backoff.reset) ∧
      (h.reconcile l st items version).loops = (g.updateLoop l.id f).loops := by
  refine ⟨h.replace l.stream items version, _, replace_delivers found items version, rfl, rfl, ?_,
    loops_updateLoop_twice (f := fun k => { k with backoff := k.backoff.reset }) (fun _ => rfl) _ _⟩
  exact fun _ => ⟨rfl, rfl, rfl⟩

/-- Once a stream has taken something in, and its handlers have been told. -/
theorem Delivers.learns {x : Intake} (delivers : h.Delivers n (st.take x).1 (st.take x).2 h')
    (found : h.streams[n]? = some st) : ∃ st', h'.streams[n]? = some st' ∧
      st.Learns (some x) st' ∧ st'.abandoned = st.abandoned := by
  have here : (h.updateStream n fun _ => (st.take x).1).streams[n]? = some (st.take x).1 := by
    rw [streams_updateStream, if_pos rfl, found]
    rfl
  have face := st.face_take x
  obtain ⟨st', found', endures⟩ := delivers.old here
  refine ⟨st', found', ?_, endures.abandoned.trans (st.abandoned_take x)⟩
  exact {
    key := endures.key.trans (congrArg Face.key face)
    policy := endures.policy.trans (st.policy_take x)
    cache := endures.cache
    hasSynced := endures.hasSynced
    stopped := fun stopped => endures.stopped ((congrArg Face.isStopped face).trans stopped)
    quiet := fun quiet => by
      have nobody : (st.take x).2 = none ∨ (st.take x).1.handlers = [] :=
        quiet.imp_right (congrArg Face.handlers face).trans
      rw [delivers.streams nobody found, here] at found'
      cases found'
      exact ⟨congrArg Face.handlers face, congrArg Face.isStopped face⟩ }

namespace Stride

variable {x : Option Intake}

/-- What handlers are told by a step of a loop: what their stream has learned, if it has learned
anything. -/
theorem tellings (stride : h.Stride l st x h') (found : h.streams[l.stream]? = some st) :
    h'.tellings = h.tellings ++ tells l.stream st (st.news? x) := by
  cases stride with
  | works plods => exact plods.tellings.trans (List.append_nil _).symm
  | begins plods => exact plods.tellings.trans (List.append_nil _).symm
  | reads items version =>
    obtain ⟨g, _, delivers, told, _⟩ := reconcile_delivers found items version
    have face := congrArg Face.handlers (st.face_replace items version)
    rw [told, delivers.tellings found]
    unfold tells
    rw [show (st.replace items version).1.handlers = st.handlers from face]
    rfl
  | @hears g e plods =>
    have here : g.streams[l.stream]? = some st := plods.streams ▸ found
    have face := congrArg Face.handlers (st.face_receive e)
    rw [(receive_delivers here e).tellings here, plods.tellings]
    unfold tells
    rw [show (st.receive e).1.handlers = st.handlers from face]
    rfl
  | ends backend trace ending =>
    exact (proceeds_endCycle _ l ending).tellings.trans (List.append_nil _).symm

/-- What becomes of the stream. -/
theorem learns (stride : h.Stride l st x h') (found : h.streams[l.stream]? = some st) :
    ∃ st', h'.streams[l.stream]? = some st' ∧ st.Learns x st' := by
  cases stride with
  | works plods =>
    exact ⟨st, plods.streams ▸ found, rfl, rfl, rfl, rfl, id, fun _ => ⟨rfl, rfl⟩⟩
  | @begins g plods =>
    have here : g.streams[l.stream]? = some st := plods.streams ▸ found
    have moved : (g.beginCycle l st).streams[l.stream]? = some (st.move .syncing) := by
      rw [(plods_beginCycle g l st).streams, streams_updateStream, if_pos rfl, here]
      rfl
    have face : (st.move .syncing).face = st.face := st.face_move nofun
    obtain ⟨_, eq⟩ := st.move_eq .syncing
    exact ⟨_, moved, congrArg Face.key face, eq ▸ rfl, eq ▸ rfl, eq ▸ rfl,
      (congrArg Face.isStopped face).trans,
      fun _ => ⟨congrArg Face.handlers face, congrArg Face.isStopped face⟩⟩
  | reads items version =>
    obtain ⟨g, _, delivers, _, streams, _⟩ := reconcile_delivers found items version
    obtain ⟨st', found', learns, _⟩ := delivers.learns (x := .read items version) found
    exact ⟨st', streams ▸ found', learns⟩
  | @hears g e plods =>
    have here : g.streams[l.stream]? = some st := plods.streams ▸ found
    obtain ⟨st', found', learns, _⟩ := (receive_delivers here e).learns (x := .heard e) here
    exact ⟨st', found', learns⟩
  | ends backend trace ending =>
    have face := st.face_take (.ended ending)
    have policy := st.policy_take (.ended ending)
    have bound := (List.getElem?_eq_some_iff.mp found).1
    cases endCycle_ended (h := { h with backend, trace }) found ending with
    | rests d _ streams _ =>
      refine ⟨st.note ending, ?_, congrArg Face.key face, policy, rfl, rfl,
        (congrArg Face.isStopped face).trans,
        fun _ => ⟨congrArg Face.handlers face, congrArg Face.isStopped face⟩⟩
      rw [streams]
      exact List.getElem?_set_self bound
    | givesUp _ streams _ =>
      refine ⟨(st.note ending).abandon ((st.note ending).cache.lastError.getD "retries exhausted"),
        ?_, congrArg Face.key face, policy, rfl, rfl, (congrArg Face.isStopped face).trans,
        fun _ => ⟨congrArg Face.handlers face, congrArg Face.isStopped face⟩⟩
      rw [streams]
      exact List.getElem?_set_self bound

/-- A loop that does not give up goes on, and its stream is not abandoned. -/
theorem goesOn (stride : h.Stride l st x h') (mem : l ∈ h.loops)
    (found : h.streams[l.stream]? = some st) {b : Backoff} (left : h.backoffAfter? l x = some b) :
    (∃ l' ∈ h'.loops, l'.stream = l.stream ∧ l'.backoff = b) ∧
    ∃ st', h'.streams[l.stream]? = some st' ∧ st'.abandoned = st.abandoned := by
  have moved (g : Hub) (mem : l ∈ g.loops) (f : Loop → Loop) : f l ∈ (g.updateLoop l.id f).loops :=
    List.mem_map.mpr ⟨l, mem, if_pos rfl⟩
  cases stride with
  | works plods =>
    obtain ⟨f, same, loops⟩ := plods.loops
    cases left
    exact ⟨⟨f l, loops ▸ moved h mem f, (same l).2⟩, st, plods.streams ▸ found, rfl⟩
  | @begins g plods =>
    obtain ⟨f, same, loops⟩ := plods.loops
    obtain ⟨k, same', loops'⟩ := (plods_beginCycle g l st).loops
    have here : g.streams[l.stream]? = some st := plods.streams ▸ found
    cases left
    refine ⟨⟨k (f l), ?_, (same' _).2.1.trans (same l).2.1, (same' _).2.2.trans (same l).2.2⟩,
      st.move .syncing, ?_, st.abandoned_move _⟩
    · have here : f l ∈ (g.updateStream l.stream (·.move .syncing)).loops := loops ▸ moved h mem f
      rw [loops']
      exact List.mem_map.mpr ⟨f l, here, if_pos (same l).1⟩
    · rw [(plods_beginCycle g l st).streams, streams_updateStream, if_pos rfl, here]
      rfl
  | reads items version =>
    obtain ⟨g, f, delivers, _, streams, same, loops⟩ := reconcile_delivers found items version
    obtain ⟨st', found', _, kept⟩ := delivers.learns (x := .read items version) found
    cases left
    have here : l ∈ g.loops := delivers.keeps mem
    exact ⟨⟨f l, loops ▸ moved g here f, (same l).2⟩, st', streams ▸ found', kept⟩
  | @hears g e plods =>
    have here : g.streams[l.stream]? = some st := plods.streams ▸ found
    obtain ⟨f, same, loops⟩ := plods.loops
    obtain ⟨st', found', _, kept⟩ := (receive_delivers here e).learns (x := .heard e) here
    cases left
    have before : f l ∈ g.loops := loops ▸ moved h mem f
    exact ⟨⟨f l, (receive_delivers here e).keeps before, (same l).2⟩, st', found', kept⟩
  | ends backend trace ending =>
    have bound := (List.getElem?_eq_some_iff.mp found).1
    unfold backoffAfter? at left
    cases endCycle_ended (h := { h with backend, trace }) found ending with
    | rests d next streams loops =>
      rw [show (l.backoff.next h.draws).1 = some d from next] at left
      cases left
      refine ⟨⟨{ l with
        backoff := (l.backoff.next h.draws).2.1, stage := .resting (h.now + d.millis),
        ticket := h.tickets }, ?_, rfl, rfl⟩, st.note ending, ?_, st.abandoned_take (.ended ending)⟩
      · rw [loops]
        exact moved { h with backend, trace } mem _
      · rw [streams]
        exact List.getElem?_set_self bound
    | givesUp next _ _ =>
      rw [show (l.backoff.next h.draws).1 = none from next] at left
      cases left

/-- A loop that gives up is over, and its stream is abandoned. -/
theorem givesUp (stride : h.Stride l st x h') (found : h.streams[l.stream]? = some st)
    (exhausted : h.backoffAfter? l x = none) :
    h'.loops = h.loops.filter (fun k => k.id != l.id) ∧
    ∃ st', h'.streams[l.stream]? = some st' ∧
      st'.abandoned = some ((st.after x).cache.lastError.getD "retries exhausted") := by
  cases stride with
  | works _ => cases exhausted
  | begins _ => cases exhausted
  | reads _ _ => cases exhausted
  | hears _ _ => cases exhausted
  | ends backend trace ending =>
    unfold backoffAfter? at exhausted
    cases endCycle_ended (h := { h with backend, trace }) found ending with
    | rests d next _ _ =>
      rw [show (l.backoff.next h.draws).1 = some d from next] at exhausted
      cases exhausted
    | givesUp _ streams loops =>
      refine ⟨loops, _, streams ▸ List.getElem?_set_self (List.getElem?_eq_some_iff.mp found).1, rfl⟩

end Stride

/-! ## Loops by their numbers -/

theorem intake?_eq (found : h.loop? id = some (l, st)) :
    h.intake? l.stream (.loop id) = h.offer? l st := by
  unfold intake?
  simp only [found, if_pos]

/-- The event of a loop is nothing to the streams of others. -/
theorem intake?_of_other (found : h.loop? id = some (l, st)) (other : l.stream ≠ n) :
    h.intake? n (.loop id) = none := by
  unfold intake?
  simp only [found, if_neg other]

theorem loopStep_eq (found : h.loop? id = some (l, st)) :
    h.loopStep id = (h.stepLoop l st).getD h := by
  unfold loopStep
  rw [found]

theorem id_of_loop? (found : h.loop? id = some (l, st)) : l.id = id := by
  simpa using List.find?_some (loop?_eq_some found).1

/-- A loop that changes is still the only one of its stream. -/
theorem Tended.updated (tended : h.Tended) (mem : l ∈ h.loops) {f : Loop → Loop}
    (same : ∀ k, (f k).stream = k.stream) : f l ∈ (h.updateLoop l.id f).loops ∧
      ∀ k ∈ (h.updateLoop l.id f).loops, k.stream = l.stream → k = f l := by
  refine ⟨List.mem_map.mpr ⟨l, mem, if_pos rfl⟩, fun k changed stream => ?_⟩
  obtain ⟨k₀, old, rfl⟩ := List.mem_map.mp changed
  have own : k₀ = l := by
    refine tended.same old mem (tended.sole k₀ old l mem ?_)
    split at stream
    · exact (same k₀).symm.trans stream
    · exact stream
  subst own
  exact if_pos rfl

/-- A loop that is to end is over; its stream has been stopped then, or was to let it end before. -/
theorem loopEnd_ended (found : h.loop? id = some (l, st)) : h.loopEnd id = h ∨
    (h.loopEnd id).loops = h.loops.filter (fun k => k.id != l.id) ∧
      ∃ st', (h.loopEnd id).streams[l.stream]? = some st' ∧ st.Bides st' ∧
        (st' = st ∧ st.cancelled = true ∨ st'.isStopped = true) := by
  have here := stream_of_loop? found
  have ended (g : Hub) : (g.endLoop l).streams = g.streams ∧
      (g.endLoop l).loops = g.loops.filter fun k => k.id != l.id := by
    unfold endLoop
    simp only
    split <;> exact ⟨rfl, rfl⟩
  unfold loopEnd
  simp only [found]
  split
  · rename_i cancelled
    exact .inr ⟨(ended h).2, st, (ended h).1 ▸ here, .refl st, .inl ⟨rfl, cancelled⟩⟩
  · split
    · obtain ⟨st₁, found₁, stopped⟩ := haltStream_stops here
      obtain ⟨st₂, found₂, bides⟩ := (gentle_haltStream h l.stream).old here
      cases found₁.symm.trans found₂
      have loops := (gentle_haltStream h l.stream).loops
      refine .inr ⟨(ended _).2.trans (congrArg _ loops), st₁, ?_, bides, .inr stopped⟩
      rw [(ended _).1]
      exact found₁
    · exact .inl rfl

theorem offer?_of_intake? {e : Event} {x : Intake} (taken : h.intake? n e = some x) :
    ∃ id l st, e = .loop id ∧ h.loop? id = some (l, st) ∧ l.stream = n ∧ h.offer? l st = some x := by
  cases e with
  | loop id =>
    cases found : h.loop? id with
    | none =>
      unfold intake? at taken
      simp [found] at taken
    | some y =>
      obtain ⟨l, st⟩ := y
      by_cases own : l.stream = n
      · subst own
        exact ⟨id, l, st, rfl, found, rfl, intake?_eq found ▸ taken⟩
      · rw [intake?_of_other found own] at taken
        cases taken
  | _ => cases taken

/-- Only a step of its loop brings a stream anything. -/
theorem intake?_of_others {e : Event}
    (others : ∀ id l st, e = .loop id → h.loop? id = some (l, st) → l.stream ≠ n) :
    h.intake? n e = none := by
  cases taken : h.intake? n e with
  | none => rfl
  | some x =>
    obtain ⟨id, l, st, steps, found, here, _⟩ := offer?_of_intake? taken
    exact absurd here (others id l st steps found)

/-! ## What concerns one stream -/

/-- A property of the stream of number `n` and its loop: nothing but a step of this loop touches it. -/
structure Concerns (n : Nat) (P : Hub → Prop) : Prop extends Lasting P where
  others : ∀ {h h' : Hub} {at? of? : Option Nat}, P h → h.Spares at? of? h' → h.Minds at? of? →
    at? ≠ some n → P h'
  ends : ∀ {h h' : Hub} {st st' : Stream}, P h → h.streams[n]? = some st →
    h'.streams[n]? = some st' → st.Bides st' → h'.loops ⊆ h.loops → P h'

/-- Whatever spares the stream and its loop leaves it, one thing after the other. -/
theorem Concerns.sparing {P : Hub → Prop} {at? of? : Option Nat} (concerns : Concerns n P) (kept : P h)
    (steps : SparingSteps at? of? h h') (minds : h.Minds at? of?) (other : at? ≠ some n) : P h' := by
  induction steps with
  | refl => exact kept
  | tail before step ih =>
    cases step with
    | spares spares => exact concerns.others ih spares (SparingSteps.minds before minds) other
    | starts i parent => exact concerns.toLasting.startStream ih i parent

/-- If an event is not a step of the loop of the stream, the property outlasts it. -/
theorem Concerns.course {P : Hub → Prop} {e : Event} (concerns : Concerns n P) (kept : P h)
    (regular : h.Regular) (course : h.Course e h')
    (other : ∀ id l st, e = .loop id → h.loop? id = some (l, st) → l.stream ≠ n) : P h' := by
  refine concerns.toLasting.course kept regular (fun id steps => ?_) (fun id _ => ?_) course
  · cases found : h.loop? id with
    | none =>
      unfold loopStep
      rwa [found]
    | some x =>
      obtain ⟨l, st⟩ := x
      obtain rfl := id_of_loop? found
      have minds := regular.tended.minds (mem_of_loop? found)
      exact concerns.sparing kept minds.loopStep minds
        fun same => other l.id l st steps found (Option.some.inj same)
  · cases found : h.loop? id with
    | none =>
      unfold loopEnd
      rwa [found]
    | some x =>
      obtain ⟨l, st⟩ := x
      obtain rfl := id_of_loop? found
      have minds := regular.tended.minds (mem_of_loop? found)
      by_cases own : l.stream = n
      · subst own
        rcases loopEnd_ended found with same | ⟨loops, st', found', bides, _⟩
        · rwa [same]
        · refine concerns.ends kept (stream_of_loop? found) found' bides fun k mem => ?_
          rw [loops] at mem
          exact (List.mem_filter.mp mem).1
      · exact concerns.others kept minds.loopEnd minds fun same => own (Option.some.inj same)

end Hub

end SharedWatch
