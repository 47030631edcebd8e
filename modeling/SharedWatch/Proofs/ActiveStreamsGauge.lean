import SharedWatch.Proofs.StreamSteps

/-!
# The gauge of running loops

The gauge goes up when a stream is started, and down when a stream that has been started is stopped.
So it follows the streams that are active.

* `Stream.isActive`: the stream has been started, and has not been stopped.
* `Hub.imbalance`: by how much the gauge is off.
* `imbalance_halt_active`, `imbalance_startStream` and the other theorems of this form: it stays off
  by as much.
-/

namespace SharedWatch

/-- Whether the stream has been started, and has not been stopped. -/
def Stream.isActive (st : Stream) : Bool := st.state = .syncing || st.state = .synced

namespace Stream

theorem isActive_iff {st : Stream} :
    st.isActive = true ↔ st.state ≠ .created ∧ st.isStopped = false := by
  unfold isActive isStopped
  cases st.state <;> simp

theorem isActive_of_state {st st' : Stream} (same : st'.state = st.state) :
    st'.isActive = st.isActive := by
  unfold isActive
  rw [same]

/-- A stopped stream is not active. -/
theorem isActive_halt (st : Stream) : st.halt.isActive = false := by
  unfold halt
  split
  · rename_i stopped
    rw [isActive, of_decide_eq_true stopped]
    rfl
  · rfl

theorem isActive_move {st : Stream} (begun : st.state ≠ .created) :
    (st.move .syncing).isActive = st.isActive := by
  unfold move
  split
  · rfl
  · rename_i running
    exact (isActive_iff.mpr ⟨begun, by simpa using running⟩).symm

theorem isActive_replace {st : Stream} (begun : st.state ≠ .created) (items : List Object)
    (version : String) : (st.replace items version).1.isActive = st.isActive := by
  rcases st.replace_cases items version with ⟨_, eq⟩ | ⟨running, eq⟩
  · rw [eq]
  · rw [eq]
    exact (isActive_iff.mpr ⟨begun, running⟩).symm

end Stream

namespace Hub

variable {h : Hub} {n : Nat} {st : Stream}

/-- A stream can be started once. -/
theorem startStream_of_begun (found : h.streams[n]? = some st) (begun : st.state ≠ .created)
    (parent : Nat) : (h.startStream n parent).2 = h := by
  unfold startStream Stream.start?
  rw [found]
  cases now : st.state with
  | created => exact absurd now begun
  | syncing => simp only [now]
  | synced => simp only [now]
  | stopped => simp only [now]

/-- By how much the gauge of running loops is off. -/
def imbalance (h : Hub) : Int := h.metrics.activeStreams - h.streams.countP (·.isActive)

/-- One stream changes; the gauge stays where it is. -/
theorem imbalance_updateStream {f : Stream → Stream} (found : h.streams[n]? = some st) :
    (h.updateStream n f).imbalance =
      h.imbalance + (if st.isActive then 1 else 0) - if (f st).isActive then 1 else 0 := by
  obtain ⟨bound, here⟩ := List.getElem?_eq_some_iff.mp found
  have counted : st.isActive = true → 0 < h.streams.countP (·.isActive) := fun active =>
    List.countP_pos_iff.mpr ⟨st, List.mem_of_getElem? found, active⟩
  have changed : (h.updateStream n f).streams = h.streams.set n (f st) := by
    unfold updateStream
    rw [List.modify_eq_set_getElem?, found]
    rfl
  have count : ((h.updateStream n f).streams.countP (·.isActive) : Int) =
      h.streams.countP (·.isActive) - (if st.isActive then 1 else 0) +
        if (f st).isActive then 1 else 0 := by
    rw [changed, List.countP_set bound, here]
    cases before : st.isActive with
    | false => cases (f st).isActive <;> simp
    | true =>
      have pos := counted before
      cases (f st).isActive <;> simp <;> omega
  have gauge : (h.updateStream n f).metrics.activeStreams = h.metrics.activeStreams := rfl
  unfold imbalance
  rw [gauge, count]
  omega

/-- One stream changes, and is as active as it was. -/
theorem imbalance_of_same {f : Stream → Stream}
    (same : ∀ st, h.streams[n]? = some st → (f st).isActive = st.isActive) :
    (h.updateStream n f).imbalance = h.imbalance := by
  cases found : h.streams[n]? with
  | none =>
    unfold updateStream
    rw [List.modify_eq_self (List.getElem?_eq_none_iff.mp found)]
  | some st =>
    rw [imbalance_updateStream found, same st found]
    omega

theorem imbalance_addActive (h : Hub) (k : Int) : (h.addActive k).imbalance = h.imbalance + k := by
  have streams : (h.addActive k).streams = h.streams := rfl
  have gauge : (h.addActive k).metrics.activeStreams = h.metrics.activeStreams + k := rfl
  unfold imbalance
  rw [streams, gauge]
  omega

/-- A new stream is not active. -/
theorem imbalance_append {st : Stream} (idle : st.isActive = false) :
    ({ h with streams := h.streams ++ [st] } : Hub).imbalance = h.imbalance := by
  unfold imbalance
  simp [List.countP_append, idle]

theorem imbalance_halt_created (found : h.streams[n]? = some st) (created : st.state = .created) :
    (h.updateStream n (·.halt)).imbalance = h.imbalance := by
  have idle : st.isActive = false := by simp [Stream.isActive, created]
  rw [imbalance_updateStream found, st.isActive_halt, idle]
  simp

theorem imbalance_halt_active (found : h.streams[n]? = some st) (active : st.isActive = true) :
    ((h.updateStream n (·.halt)).addActive (-1)).imbalance = h.imbalance := by
  rw [imbalance_addActive, imbalance_updateStream found, st.isActive_halt, active]
  show h.imbalance + 1 - 0 + -1 = h.imbalance
  omega

theorem imbalance_startStream (h : Hub) (n parent : Nat) :
    (h.startStream n parent).2.imbalance = h.imbalance := by
  unfold startStream
  split
  · rfl
  · rename_i st found
    split
    · rfl
    · rfl
    · rename_i st' started
      obtain ⟨created, rfl⟩ := Stream.start?_eq_ok started
      have begun := imbalance_updateStream (f := fun _ => { st with state := .syncing }) found
      have idle : st.isActive = false := by simp [Stream.isActive, created]
      have active : ({ st with state := .syncing } : Stream).isActive = true := rfl
      show ((h.updateStream n fun _ => { st with state := .syncing }).addActive 1).imbalance = _
      rw [imbalance_addActive, begun, idle, active]
      simp

end Hub

end SharedWatch
