import Mathlib.Data.List.Basic
import SharedWatch.Scenario.Event

/-!
# Polls

Where tasks take turns on one thread, nothing else happens while a task is polled.  A `Poll` is what
happens between two moments at which tasks hand over.

* `Hub.isDue`: a loop is to end.
* `Hub.runPoll`: what one poll does; `Hub.runPolls`: polls, one after the other.
* `turn_eq_runPoll`: a turn of a loop in the fixed schedule is a poll.

The task of a loop waits for its own end, for the end of its parent, and for its next step, and may
look at these in any order.  So a loop that is due may make steps before it ends, however many the
store lets it make, and one that becomes due meanwhile may end at once or stay until the next poll.
-/

namespace SharedWatch

/-- Whether an event is one of a loop. -/
def Event.isLoop : Event → Bool
  | .loop _ | .loopEnd _ => true
  | _ => false

/-- What happens between two moments at which tasks hand over. -/
inductive Poll
  /-- The task of a loop is polled: it makes steps, and may look then whether it is to end. -/
  | task (id steps : Nat) (ends : Bool)
  /-- Anything but an event of a loop. -/
  | other (e : Event)

namespace Hub

/-- Whether the loop of a number is to end. -/
def isDue (h : Hub) (id : Nat) : Bool :=
  (h.loop? id).any fun (l, st) => st.cancelled || h.hasFired l.parent

/-- The events of a poll.  A loop that is due when it is polled ends. -/
def pollEvents (h : Hub) : Poll → List Event
  | .task id steps ends =>
    List.replicate steps (.loop id) ++ if ends || h.isDue id then [.loopEnd id] else []
  | .other e => if e.isLoop then [] else [e]

/-- What one poll does. -/
def runPoll (h : Hub) (p : Poll) : Hub := h.run (h.pollEvents p)

/-- What polls do, one after the other. -/
def runPolls (h : Hub) (ps : List Poll) : Hub := ps.foldl runPoll h

theorem runPolls_append (h : Hub) (ps qs : List Poll) :
    h.runPolls (ps ++ qs) = (h.runPolls ps).runPolls qs :=
  List.foldl_append

/-- Polls are events, one after the other. -/
theorem runPolls_eq_run (h : Hub) (ps : List Poll) : ∃ es, h.runPolls ps = h.run es := by
  induction ps generalizing h with
  | nil => exact ⟨[], rfl⟩
  | cons p ps ih =>
    obtain ⟨es, eq⟩ := ih (h.runPoll p)
    exact ⟨h.pollEvents p ++ es, eq.trans (run_append h _ es).symm⟩

theorem runPoll_task (h : Hub) (id k : Nat) (ends : Bool) :
    h.runPoll (.task id k ends) =
      if ends || h.isDue id then (h.run (List.replicate k (.loop id))).loopEnd id
      else h.run (List.replicate k (.loop id)) := by
  unfold runPoll pollEvents
  simp only
  split
  · exact run_append h _ _
  · rw [List.append_nil]

theorem runPoll_other (h : Hub) {e : Event} (plain : e.isLoop = false) :
    h.runPoll (.other e) = h.step e := by
  unfold runPoll pollEvents
  simp only [plain]
  rfl

/-- A loop that is gone is not polled. -/
theorem runPoll_of_gone {h : Hub} {id : Nat} (gone : h.loop? id = none) (k : Nat) (ends : Bool) :
    h.runPoll (.task id k ends) = h := by
  have step : h.step (.loop id) = h := by
    show h.loopStep id = h
    unfold loopStep
    rw [gone]
  have steps : h.run (List.replicate k (.loop id)) = h := by
    induction k with
    | zero => rfl
    | succ k ih => exact (congrArg (·.run (List.replicate k (.loop id))) step).trans ih
  rw [runPoll_task, steps]
  unfold loopEnd
  rw [gone]
  exact ite_self h

/-! ## The fixed schedule -/

theorem run_replicate_add (h : Hub) (e : Event) (j k : Nat) :
    h.run (List.replicate (j + k) e) = (h.run (List.replicate j e)).run (List.replicate k e) := by
  rw [List.replicate_add, run_append]

/-- The delivery of a full read is a step of the loop. -/
theorem deliverRead_eq (h : Hub) (id : Nat) :
    ∃ k, h.deliverRead id = h.run (List.replicate k (.loop id)) := by
  unfold deliverRead
  split
  · exact ⟨0, rfl⟩
  · rename_i l st found
    split
    · rename_i items version stage
      refine ⟨1, ?_⟩
      show _ = h.loopStep id
      unfold loopStep
      rw [found]
      simp [stepLoop, stage]
    · exact ⟨0, rfl⟩

theorem steps_eq (id work : Nat) (h : Hub) :
    ∃ k, steps id work h = h.run (List.replicate k (.loop id)) := by
  induction work using Nat.strongRecOn generalizing h with
  | ind work ih =>
    unfold steps
    split
    · exact ⟨0, rfl⟩
    · rename_i work
      split
      · exact ⟨0, rfl⟩
      · rename_i l st found
        split
        · split
          · exact ⟨0, rfl⟩
          · rename_i h' stepped
            have less : work + 1 - stepWork l < work + 1 := by
              unfold stepWork
              split <;> omega
            obtain ⟨j, delivered⟩ := h'.deliverRead_eq id
            obtain ⟨k, rest⟩ := ih _ less (h'.deliverRead id)
            have first : h.run (List.replicate 1 (.loop id)) = h' := by
              show h.loopStep id = h'
              unfold loopStep
              simp [found, stepped]
            refine ⟨1 + (j + k), ?_⟩
            rw [rest, delivered, run_replicate_add, run_replicate_add, first]
        · exact ⟨0, rfl⟩

/-- A turn of a loop in the fixed schedule is a poll of its task. -/
theorem turn_eq_runPoll (h : Hub) (id : Nat) : ∃ k, h.turn id = h.runPoll (.task id k false) := by
  cases found : h.loop? id with
  | none =>
    refine ⟨0, ?_⟩
    have due : h.isDue id = false := by simp [isDue, found]
    rw [runPoll_task, due]
    unfold turn
    rw [found]
    rfl
  | some x =>
    obtain ⟨l, st⟩ := x
    have due : h.isDue id = (st.cancelled || h.hasFired l.parent) := by simp [isDue, found]
    unfold turn
    rw [found]
    simp only
    cases cancelled : st.cancelled with
    | true =>
      refine ⟨0, ?_⟩
      rw [runPoll_task, due, cancelled]
      show _ = h.loopEnd id
      simp [loopEnd, found, cancelled]
    | false =>
      cases fired : h.hasFired l.parent with
      | true =>
        refine ⟨0, ?_⟩
        rw [runPoll_task, due, cancelled, fired]
        show _ = h.loopEnd id
        simp [loopEnd, found, cancelled, fired]
      | false =>
        obtain ⟨k, eq⟩ := steps_eq id turnLength h
        refine ⟨k, ?_⟩
        rw [runPoll_task, due, cancelled, fired]
        exact eq

end Hub

end SharedWatch
