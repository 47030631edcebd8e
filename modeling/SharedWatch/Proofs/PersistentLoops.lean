import SharedWatch.Proofs.RetryDelays
import SharedWatch.Proofs.LoopFrame

/-!
# Loops that do not give up

A loop gives up on its stream when its retries are used up.  One that has not failed since its start,
or since its last full read, rests after the next failure first, and does not get any further while no
time passes.

* `Hub.Goes`: a loop goes on, and a stream is not abandoned meanwhile.
* `Hub.IsPatient`: a loop will not give up before time passes.
* `LoopStep.goesOn`, `IsPatient.stepLoop`: it goes on like that; `IsPatient.steps`: however many steps
  it makes.
-/

namespace SharedWatch

/-- What stays of a loop while it goes on. -/
def Loop.task (l : Loop) : Nat × Nat × Nat × RetryPolicy :=
  (l.id, l.stream, l.parent, l.backoff.policy)

namespace Hub

variable {h h' h'' : Hub} {n id : Nat} {l : Loop} {st : Stream}

/-- A loop `l` becomes `l'`, and the stream of number `n` is not abandoned meanwhile. -/
structure Goes (n : Nat) (h : Hub) (l : Loop) (h' : Hub) (l' : Loop) : Prop where
  mem : l ∈ h.loops → l' ∈ h'.loops
  task : l'.task = l.task
  upholds : ∀ {st : Stream}, h.streams[n]? = some st →
    ∃ st', h'.streams[n]? = some st' ∧ st'.abandoned = st.abandoned

/-- A loop that will not give up before time passes: it has not failed since its start or its last full
read, or it rests. -/
def IsPatient (h : Hub) (l : Loop) : Prop :=
  l.backoff.attempts = 0 ∨ ∃ t, l.stage = .resting t ∧ h.now < t

variable {l' l'' : Loop} {name : String}

theorem Goes.trans (first : Goes n h l h' l') (second : Goes n h' l' h'' l'') :
    Goes n h l h'' l'' where
  mem := second.mem ∘ first.mem
  task := second.task.trans first.task
  upholds found := by
    obtain ⟨st', found', same⟩ := first.upholds found
    obtain ⟨st'', found'', same'⟩ := second.upholds found'
    exact ⟨st'', found'', same'.trans same⟩

/-- What touches neither loops nor streams. -/
theorem goes_aside (aside : h.Aside h') (n : Nat) (l : Loop) : Goes n h l h' l where
  mem mem := aside.loops ▸ mem
  task := rfl
  upholds {st} found := ⟨st, aside.streams ▸ found, rfl⟩

theorem goes_backend (h : Hub) (backend : Backend) (n : Nat) (l : Loop) :
    Goes n h l { h with backend } l := ⟨id, rfl, fun {st} found => ⟨st, found, rfl⟩⟩

theorem goes_of_rouses {who : Option Nat} (rouses : Rouses who h h') (n : Nat) (l : Loop) :
    Goes n h l h' l where
  mem mem := by
    obtain ⟨more, loops, _⟩ := Rouses.loops rouses
    exact loops ▸ List.mem_append_left more mem
  task := rfl
  upholds found := by
    obtain ⟨st', found', endures⟩ := Rouses.old rouses found
    exact ⟨st', found', endures.abandoned⟩

theorem goes_updateStream {i : Nat} {f : Stream → Stream}
    (same : ∀ st, h.streams[i]? = some st → (f st).abandoned = st.abandoned) (n : Nat) (l : Loop) :
    Goes n h l (h.updateStream i f) l where
  mem := id
  task := rfl
  upholds {st} found := by
    rw [streams_updateStream, found]
    split
    · rename_i here
      exact ⟨f st, rfl, same st (here ▸ found)⟩
    · exact ⟨st, rfl, rfl⟩

theorem goes_updateLoop (h : Hub) {f : Loop → Loop} (task : (f l).task = l.task) (own : l.id = id)
    (n : Nat) : Goes n h l (h.updateLoop id f) (f l) where
  mem mem := List.mem_map.mpr ⟨l, mem, if_pos own⟩
  task := task
  upholds {st} found := ⟨st, found, rfl⟩

theorem goes_enter (h : Hub) (own : l.id = id) (stage : Stage) (n : Nat) :
    Goes n h l (h.enter id stage) { l with stage, ticket := h.tickets } :=
  (goes_aside (aside_takeTicket h) n l).trans (goes_updateLoop _ rfl own n)

theorem goes_beginCycle (h : Hub) {k : Loop} (own : l.id = k.id) (st : Stream) (n : Nat) :
    ∃ stage ticket, Goes n h l (h.beginCycle k st) { l with stage, ticket } := by
  have moved : Goes n h l (h.updateStream k.stream (·.move .syncing)) l :=
    goes_updateStream (fun st _ => by
      obtain ⟨_, eq⟩ := st.move_eq .syncing
      rw [eq]) n l
  exact ⟨_, _, (moved.trans (goes_backend _ _ n l)).trans (goes_enter _ own _ n)⟩

theorem goes_release (h : Hub) (stage : Stage) (n : Nat) (l : Loop) : Goes n h l (match stage with
    | .consuming feed _ => { h with backend := h.backend.release feed }
    | _ => h) l := by
  split
  · exact goes_backend h _ n l
  · exact goes_aside (.refl h) n l

/-- After the first failure the loop rests. -/
theorem goes_endCycle (h : Hub) (accepted : l.backoff.policy.validate name = .ok ())
    (first : l.backoff.attempts = 0) (ending : CycleEnd) (n : Nat) :
    ∃ l', Goes n h l (h.endCycle l ending) l' ∧
      ∃ t, l'.stage = .resting t ∧ (h.endCycle l ending).now < t := by
  have reported (g : Hub) : Goes n g l (g.reportEnd l.stream ending) l := by
    unfold reportEnd
    split
    · exact goes_aside (.refl g) n l
    · exact goes_aside (aside_say g _ _) n l
    · rename_i f _
      exact (goes_aside (aside_say g _ _) n l).trans
        (goes_updateStream (f := (·.noteFailure f)) (fun _ _ => rfl) n l)
  have counted (g : Hub) (draws : Draws) :
      Goes n g l { g.countRestart ending.reason with draws } l :=
    (goes_aside (aside_countRestart g ending.reason) n l).trans (goes_aside (aside_draws _ draws) n l)
  have told (draws : Draws) :=
    ((goes_release h l.stage n l).trans (reported _)).trans (counted _ draws)
  unfold endCycle
  simp only
  generalize ((match l.stage with
      | .consuming feed _ => { h with backend := h.backend.release feed }
      | _ => h : Hub).reportEnd l.stream ending).countRestart ending.reason = g at told ⊢
  obtain ⟨d, rests, pos, policy⟩ :=
    Backoff.next_rests accepted (Backoff.isExhausted_of_first first) g.draws
  rw [rests]
  simp only
  have backed (g : Hub) (backoff : Backoff) (same : backoff.policy = l.backoff.policy) :
      Goes n g l (g.updateLoop l.id fun l => { l with backoff }) { l with backoff } :=
    goes_updateLoop g (f := fun l => { l with backoff }) (by simp [Loop.task, same]) rfl n
  exact ⟨_, ((told _).trans (backed _ _ policy)).trans (goes_enter _ rfl _ n), _, rfl,
    Nat.lt_add_of_pos_right pos⟩

theorem goes_delivers {i : Nat} {st' : Stream} {callback : Option Callback}
    (delivers : h.Delivers i st' callback h') (found : h.streams[i]? = some st)
    (same : st'.abandoned = st.abandoned) (n : Nat) (l : Loop) : Goes n h l h' l := by
  rcases delivers with ⟨g, g', before, after, rfl⟩
  have seen : Goes n g l (g.updateStream i fun _ => st') l :=
    goes_updateStream (fun st₀ found₀ => by
      cases found.symm.trans (before.streams ▸ found₀)
      exact same) n l
  have ready := ((goes_aside before n l).trans seen).trans (goes_aside after n l)
  cases callback with
  | none => exact ready
  | some c => exact ready.trans (goes_of_rouses (rouses_deliver g' i c) n l)

/-- A loop that has not failed goes on, and its stream is not abandoned. -/
theorem LoopStep.goesOn (step : h.LoopStep l st h') (found : h.streams[l.stream]? = some st)
    (accepted : l.backoff.policy.validate name = .ok ()) (first : l.backoff.attempts = 0) :
    ∃ l', Goes l.stream h l h' l' ∧ h'.IsPatient l' := by
  have asked (g : Hub) (backend : Backend) := goes_backend g backend l.stream l
  have staged (g : Hub) (stage : Stage) : Goes l.stream g l
      (g.updateLoop l.id fun l => { l with stage }) { l with stage } :=
    goes_updateLoop g (f := fun l => { l with stage }) rfl rfl _
  have ended (g : Hub) (ending : CycleEnd) : ∃ l', Goes l.stream g l (g.endCycle l ending) l' ∧
      (g.endCycle l ending).IsPatient l' := by
    obtain ⟨l', goes, t, rests, later⟩ := goes_endCycle g accepted first ending l.stream
    exact ⟨l', goes, .inr ⟨t, rests, later⟩⟩
  have after {g g' : Hub} (before : Goes l.stream h l g l)
      (more : ∃ l', Goes l.stream g l g' l' ∧ g'.IsPatient l') :
      ∃ l', Goes l.stream h l g' l' ∧ g'.IsPatient l' := by
    obtain ⟨l', goes, patient⟩ := more
    exact ⟨l', before.trans goes, patient⟩
  have received (g : Hub) (l' : Loop) (here : g.streams[l.stream]? = some st) (e : Change) :
      Goes l.stream g l' (g.receive l.stream e) l' := by
    refine goes_delivers (receive_delivers here e) here ?_ _ _
    obtain ⟨cache, eq⟩ := st.receive_fst e
    rw [eq]
  cases step with
  | first _ =>
    have heeded : Goes l.stream h l (h.heed l) { l with since := h.tickets } :=
      (goes_aside (aside_takeTicket h) _ l).trans
        (goes_updateLoop _ (f := fun l => { l with since := h.tickets }) rfl rfl _)
    obtain ⟨stage, ticket, goes⟩ :=
      goes_beginCycle (l := { l with since := h.tickets }) (k := l) (h.heed l) rfl st l.stream
    exact ⟨_, heeded.trans goes, .inl first⟩
  | again _ =>
    obtain ⟨stage, ticket, goes⟩ := goes_beginCycle (l := l) (k := l) h rfl st l.stream
    exact ⟨_, goes, .inl first⟩
  | timedOut _ => exact after (goes_aside (aside_say h _ _) _ l) (ended _ _)
  | listAnswered _ =>
    unfold Hub.listAnswered
    simp only
    split
    · exact after (asked h _) (ended _ _)
    · exact ⟨_, (asked h _).trans (staged _ _), .inl first⟩
  | @reconcile items version _ =>
    have replaced : Goes l.stream h l (h.replace l.stream items version) l := by
      refine goes_delivers (replace_delivers found items version) found ?_ _ l
      rcases st.replace_cases items version with ⟨_, eq⟩ | ⟨_, eq⟩
      · rw [eq]
      · rw [eq]
    have reset (g : Hub) : Goes l.stream g l
        (g.updateLoop l.id fun l => { l with backoff := l.backoff.reset })
        { l with backoff := l.backoff.reset } :=
      goes_updateLoop g (f := fun l => { l with backoff := l.backoff.reset }) rfl rfl _
    exact ⟨_, ((replaced.trans (reset _)).trans (goes_backend _ _ _ _)).trans (goes_enter _ rfl _ _),
      .inl rfl⟩
  | watchAnswered _ =>
    unfold Hub.watchAnswered
    simp only
    split
    · exact after (asked h _) (ended _ _)
    · exact ⟨_, (asked h _).trans (goes_enter _ rfl _ _), .inl first⟩
  | @arrived _ _ e store _ _ =>
    exact ⟨_, (asked h _).trans (received (h.updateStore fun _ => store) l found e), .inl first⟩
  | broken _ _ => exact after (asked h _) (ended _ _)
  | closed _ _ => exact after (asked h _) (ended _ _)
  | @played e rest ends _ _ =>
    have moved := staged h (.consuming (.scripted rest ends) none)
    exact ⟨_, moved.trans (received (h.updateLoop l.id fun l =>
      { l with stage := .consuming (.scripted rest ends) none }) _ found e), .inl first⟩
  | playedOut ending _ => exact ended h ending
  | paused _ => exact ⟨_, goes_enter h rfl _ _, .inl first⟩

/-- A loop that will not give up yet goes on like that, and its stream is not abandoned. -/
theorem IsPatient.stepLoop (patient : h.IsPatient l) (found : h.streams[l.stream]? = some st)
    (accepted : l.backoff.policy.validate name = .ok ()) (stepped : h.stepLoop l st = some h') :
    ∃ l', Goes l.stream h l h' l' ∧ h'.IsPatient l' := by
  rcases patient with first | ⟨t, rests, later⟩
  · exact (stepLoop_cases stepped).goesOn found accepted first
  · unfold Hub.stepLoop at stepped
    simp only [rests] at stepped
    rw [if_neg (Nat.not_le.mpr later)] at stepped
    cases stepped

theorem loop?_of_mem (regular : h.Regular) (mem : l ∈ h.loops)
    (found : h.streams[l.stream]? = some st) : h.loop? l.id = some (l, st) := by
  unfold loop?
  cases first : h.loops.find? (·.id = l.id) with
  | none => simpa using List.find?_eq_none.mp first l mem
  | some k =>
    have own : k.id = l.id := by simpa using List.find?_some first
    obtain rfl := regular.tended.same (List.mem_of_find?_eq_some first) mem own
    simp [found]

/-- So it is for any number of steps, unless time passes. -/
theorem IsPatient.steps (patient : h.IsPatient l) (regular : h.Regular) (mem : l ∈ h.loops)
    (accepted : l.backoff.policy.validate name = .ok ()) (k : Nat) :
    ∃ l', Goes l.stream h l (h.run (List.replicate k (.loop l.id))) l' := by
  induction k generalizing h l with
  | zero => exact ⟨l, goes_aside (.refl h) _ l⟩
  | succ k ih =>
    obtain ⟨st, found, _⟩ := regular.tended.begun l mem
    have here := loop?_of_mem regular mem found
    obtain ⟨l', goes, patient'⟩ : ∃ l', Goes l.stream h l (h.loopStep l.id) l' ∧
        (h.loopStep l.id).IsPatient l' := by
      unfold Hub.loopStep
      rw [here]
      simp only
      cases stepped : h.stepLoop l st with
      | none => exact ⟨l, goes_aside (.refl h) _ l, patient⟩
      | some h' => exact patient.stepLoop found accepted stepped
    have task := goes.task
    simp only [Loop.task, Prod.mk.injEq] at task
    obtain ⟨same, stream, _, policy⟩ := task
    have more := ih patient' (regular.stirs (step_stirs (.loop l.id) regular)) (goes.mem mem)
      (policy ▸ accepted)
    rw [same, stream] at more
    obtain ⟨l'', goes'⟩ := more
    exact ⟨l'', goes.trans goes'⟩

end Hub

end SharedWatch
