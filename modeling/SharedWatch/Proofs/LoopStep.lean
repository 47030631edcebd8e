import SharedWatch.Proofs.StreamTransitions

/-!
# One step of a loop

What a loop does in one step depends on where it waits.

* `Hub.LoopStep`: the cases.
* `stepLoop_cases`: there are no others.
-/

namespace SharedWatch

/-- The answer of a call that has come is the one that was prepared for it. -/
theorem ScriptedCall.progress_eq_answered {α : Type} {c : ScriptedCall α} {began now limit : Nat}
    {answer : Scripted α} (answered : c.progress began now limit = .answered answer) :
    answer = c.answer := by
  unfold progress at answered
  split at answered
  · cases answered
    rfl
  · split at answered <;> cases answered

namespace Hub

theorem loop?_eq_some {h : Hub} {id : Nat} {l : Loop} {st : Stream}
    (found : h.loop? id = some (l, st)) :
    h.loops.find? (·.id = id) = some l ∧ h.streams[l.stream]? = some st := by
  unfold loop? at found
  obtain ⟨l', loop, found⟩ := Option.bind_eq_some_iff.mp found
  obtain ⟨st', stream, found⟩ := Option.bind_eq_some_iff.mp found
  cases found
  exact ⟨loop, stream⟩

theorem stream_of_loop? {h : Hub} {id : Nat} {l : Loop} {st : Stream}
    (found : h.loop? id = some (l, st)) : h.streams[l.stream]? = some st :=
  (loop?_eq_some found).2

theorem mem_of_loop? {h : Hub} {id : Nat} {l : Loop} {st : Stream}
    (found : h.loop? id = some (l, st)) : l ∈ h.loops :=
  List.mem_of_find?_eq_some (loop?_eq_some found).1

/-- The outcome of one step of a loop. -/
inductive LoopStep (h : Hub) (l : Loop) (st : Stream) : Hub → Prop
  | first : l.stage = .fresh → LoopStep h l st ((h.heed l).beginCycle l st)
  | again {t : Nat} : l.stage = .resting t → LoopStep h l st (h.beginCycle l st)
  | timedOut : (∀ feed silent, l.stage ≠ .consuming feed silent) →
    LoopStep h l st (h.callTimedOut l)
  | listAnswered {call : ScriptedCall (List Object × String)} {began : Nat} :
    l.stage = .listing call began → LoopStep h l st (h.listAnswered l st call.answer)
  | reconcile {items : List Object} {version : String} :
    l.stage = .listed items version → LoopStep h l st (h.reconcile l st items version)
  | watchAnswered {version : String} {call : ScriptedCall (List FeedItem × Bool)} {began : Nat} :
    l.stage = .opening version call began →
    LoopStep h l st (h.watchAnswered l st version call.answer)
  | arrived {id : Nat} {silent : Option Nat} {e : Change} {store : Store} :
    l.stage = .consuming (.live id) silent →
    h.backend.store.read id = (.arrived (.ok e), store) →
    LoopStep h l st ((h.updateStore fun _ => store).receive l.stream e)
  | broken {id : Nat} {silent : Option Nat} {f : StoreFailure} {store : Store} :
    l.stage = .consuming (.live id) silent →
    h.backend.store.read id = (.arrived (.error f), store) →
    LoopStep h l st ((h.updateStore fun _ => store).endCycle l (.failed f))
  | closed {id : Nat} {silent : Option Nat} {store : Store} :
    l.stage = .consuming (.live id) silent → h.backend.store.read id = (.ended, store) →
    LoopStep h l st ((h.updateStore fun _ => store).endCycle l .closed)
  | played {e : Change} {rest : List FeedItem} {ends : Bool} {silent : Option Nat} :
    l.stage = .consuming (.scripted (.arrives (.ok e) :: rest) ends) silent →
    LoopStep h l st ((h.updateLoop l.id fun l =>
      { l with stage := .consuming (.scripted rest ends) none }).receive l.stream e)
  | playedOut {items : List FeedItem} {ends : Bool} {silent : Option Nat} (ending : CycleEnd) :
    l.stage = .consuming (.scripted items ends) silent → LoopStep h l st (h.endCycle l ending)
  | paused {ms : Nat} {rest : List FeedItem} {ends : Bool} {silent : Option Nat} :
    l.stage = .consuming (.scripted (.pauses ms :: rest) ends) silent →
    LoopStep h l st (h.enter l.id (.consuming (.scripted rest ends) (some (h.now + ms))))

variable {h h' : Hub} {l : Loop} {st : Stream}

/-- What a loop finds when it reads its feed. -/
theorem consume_cases {feed : Feed} {silent : Option Nat} (stage : l.stage = .consuming feed silent)
    (read : h.consume l feed = some h') : LoopStep h l st h' := by
  unfold consume at read
  split at read
  · rename_i id
    cases found : h.backend.store.read id with
    | mk reading store =>
      simp only [found] at read
      split at read
      · cases read
        exact .arrived stage found
      · cases read
        exact .broken stage found
      · cases read
        exact .closed stage found
      · cases read
  · cases read
    exact .played stage
  · cases read
    exact .playedOut _ stage
  · cases read
    exact .paused stage
  · split at read
    · cases read
      exact .playedOut _ stage
    · cases read

/-- Every step of a loop is one of these. -/
theorem stepLoop_cases (stepped : h.stepLoop l st = some h') : LoopStep h l st h' := by
  unfold stepLoop at stepped
  simp only at stepped
  split at stepped
  · rename_i stage
    cases stepped
    exact .first stage
  · rename_i call began stage
    split at stepped
    · cases stepped
    · cases stepped
      exact .timedOut (by simp [stage])
    · rename_i answer answered
      cases stepped
      rw [ScriptedCall.progress_eq_answered answered]
      exact .listAnswered stage
  · rename_i stage
    cases stepped
    exact .reconcile stage
  · rename_i version call began stage
    split at stepped
    · cases stepped
    · cases stepped
      exact .timedOut (by simp [stage])
    · rename_i answer answered
      cases stepped
      rw [ScriptedCall.progress_eq_answered answered]
      exact .watchAnswered stage
  · rename_i stage
    split at stepped
    · exact consume_cases stage stepped
    · cases stepped
  · rename_i stage
    split at stepped
    · cases stepped
      exact .again stage
    · cases stepped

end Hub

end SharedWatch
