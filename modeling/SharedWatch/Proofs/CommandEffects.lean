import SharedWatch.Proofs.OwnershipFrame

/-!
# What a command does to others

A command is carried out at once, and makes at most one call, which has not begun.  It is gentle to
everybody, unless it starts a stream; or it drops a call, and `abort_cases` says what becomes of that.

* `Hub.Ordered`: what a command does.
* `perform_ordered`: every command that neither moves the clock nor drops a call does that.
-/

namespace SharedWatch

/-- The stream that a request is made to, if it is made to one. -/
def Request.stream? : Request → Option Nat
  | attach n _ | awaitSync n _ => some n
  | _ => none

namespace Hub

variable {h h' : Hub} {id : Nat} {α : Type}

/-- The stream that a request is made to is there, if it is made to one. -/
def Aims (h : Hub) (request : Request) : Prop :=
  ∀ n, request.stream? = some n → (h.streams[n]?).isSome = true

/-- One call at most is made, of number `id`; it has not begun, and is in no line.  A stream may be
started. -/
inductive Ordered (h : Hub) (id : Nat) : Hub → Prop
  | gentle {g : Hub} : h.Gentle (some id) g →
    (∀ c ∈ g.calls, c.id = id → c.phase = .fresh ∧ h.Aims c.request) →
    (∀ k, g.line k = h.line k) → Ordered h id g
  | starts {g : Hub} (n parent : Nat) : h.Gentle none g → Ordered h id (g.startStream n parent).2

/-! ## Names -/

/-- Something is done with what a name stands for, if it stands for something. -/
theorem withName_keeps {P : Hub → Prop} {noun : String} {names : Directory → List (String × α)}
    {name : String} {f : α → Outcome × Hub} (idle : P h)
    (each : ∀ a, findName noun (names h.names) name = .ok a → P (f a).2) :
    P (h.withName noun names name f).2 := by
  unfold withName
  cases found : findName noun (names h.names) name with
  | ok a => exact each a found
  | error u => exact idle

theorem withStream_keeps {P : Hub → Prop} {name : String} {f : Nat → Stream → Outcome × Hub}
    (idle : P h) (each : ∀ n st, h.streams[n]? = some st → P (f n st).2) :
    P (h.withStream name f).2 := by
  refine withName_keeps idle fun n _ => ?_
  split
  · rename_i st found
    exact each n st found
  · exact idle

theorem withMultiplexer_keeps {P : Hub → Prop} {name : String}
    {f : Nat → Multiplexer → Outcome × Hub} (idle : P h) (each : ∀ m mux, P (f m mux).2) :
    P (h.withMultiplexer name f).2 := by
  refine withName_keeps idle fun m _ => ?_
  split
  · exact each m _
  · exact idle

theorem withRegistration_keeps {P : Hub → Prop} {name : String} {f : Registration → Outcome × Hub}
    (idle : P h) (each : ∀ r, h.Knows r → P (f r).2) : P (h.withRegistration name f).2 :=
  withName_keeps idle fun r found => each r (knows_of_findName found)

/-! ## Commands -/

theorem gentle_addRecorder (h : Hub) (plan : RecorderPlan) (via : String) :
    h.Gentle none (h.addRecorder plan via).2 := { Gentle.refl none h with }

theorem gentle_createStream (h : Hub) (key : ObjectKey) (policy : RetryPolicy) :
    h.Gentle none (h.createStream key policy none).2 :=
  { modest_createStream h key policy none with
    loops := rfl
    entries := id
    shut := .inl
    old := fun {n st} found => by
      refine ⟨st, ?_, .refl st⟩
      show (h.streams ++ _)[n]? = some st
      rw [List.getElem?_append_left (List.getElem?_eq_some_iff.mp found).1]
      exact found
    balance := imbalance_append rfl
    born := fun {n st'} none found => by
      have past : h.streams.length ≤ n := List.getElem?_eq_none_iff.mp none
      change (h.streams ++ _)[n]? = some st' at found
      rw [List.getElem?_append_right past, List.getElem?_singleton] at found
      split at found
      · cases found
        exact ⟨key, policy, .refl _⟩
      · cases found }

theorem gentle_addMultiplexer (h : Hub) (name : String) (settings : Settings) (root : Nat) :
    h.Gentle none (h.addMultiplexer name settings root) := by
  have added : h.Gentle none { h with multiplexers := h.multiplexers ++ [{ settings, root }] } :=
    { Gentle.refl none h with
      roots := by
        rw [List.map_append]
        exact List.prefix_append _ _
      entries := fun {m key} vacant => by
        rw [monitor?_addMultiplexer]
        exact vacant
      shut := fun {m} shut => by
        obtain ⟨mux, known, shut⟩ := shut
        rw [List.getElem?_append] at known
        split at known
        · exact .inl ⟨mux, known, shut⟩
        · rw [List.getElem?_singleton] at known
          split at known
          · cases known
            cases shut
          · cases known
      stays := fun {m} shut => by
        obtain ⟨mux, known, shut⟩ := shut
        have here := (List.getElem?_eq_some_iff.mp known).1
        exact ⟨mux, (List.getElem?_append_left here).trans known, shut⟩ }
  unfold addMultiplexer
  exact added.trans (gentle_rename _ rfl)

/-- A new manager has no owners. -/
theorem gentle_addManager (h : Hub) (name : String) (m : Nat) (plan : Option RecorderPlan) :
    h.Gentle none (h.addManager name m plan) := by
  have added (g : Hub) (handler : HandlerRef) :
      g.Gentle none { g with managers := g.managers ++ [{ multiplexer := m, handler }] } :=
    have kept {i : Nat} {manager : Manager} (known : g.managers[i]? = some manager) :
        (g.managers ++ [{ multiplexer := m, handler }])[i]? = some manager := by
      rw [List.getElem?_append_left (List.getElem?_eq_some_iff.mp known).1]
      exact known
    { Gentle.refl none g with
      managed := by
        rw [List.map_append]
        exact List.prefix_append _ _
      owners := fun i => by
        unfold Hub.owners
        show ((g.managers ++ [_])[i]?).elim [] _ = _
        rcases Nat.lt_trichotomy i g.managers.length with lt | rfl | gt
        · rw [List.getElem?_append_left lt]
        · simp
        · rw [List.getElem?_eq_none (by simp; omega), List.getElem?_eq_none (Nat.le_of_lt gt)]
      queues := fun _ i => by
        unfold Hub.line
        show ((g.managers ++ [_])[i]?).elim [] _ = _
        rcases Nat.lt_trichotomy i g.managers.length with lt | rfl | gt
        · rw [List.getElem?_append_left lt]
        · simp [Manager.line]
        · rw [List.getElem?_eq_none (by simp; omega), List.getElem?_eq_none (Nat.le_of_lt gt)]
      turns := fun _ ⟨manager, known, turn⟩ => ⟨manager, kept known, turn⟩
      lines := fun _ ⟨manager, known, line⟩ => ⟨manager, kept known, line⟩ }
  unfold addManager
  cases plan with
  | none => exact (added h _).trans (gentle_rename _ rfl)
  | some plan =>
    exact ((gentle_addRecorder h plan name).trans (added _ _)).trans (gentle_rename _ rfl)

theorem gentle_applyFrom (key : ObjectKey) (data : String) (n : Nat) (h : Hub) (i : Nat) :
    h.Gentle none (h.applyFrom key data i n) := by
  induction n generalizing h i with
  | zero => exact .refl none h
  | succ n ih => exact (gentle_backend h _).trans (ih _ (i + 1))

theorem aims_plain {request : Request} (plain : request.stream? = none) : h.Aims request :=
  fun _ here => nomatch plain.symm.trans here

theorem aims_of_stream {request : Request} {n : Nat} {st : Stream} (own : request.stream? = some n)
    (found : h.streams[n]? = some st) : h.Aims request := by
  intro n' here
  cases own.symm.trans here
  rw [found]
  rfl

/-- What leaves the calls alone. -/
theorem Gentle.ordered (gentle : h.Gentle none h') (free : h.call? id = none) : h.Ordered id h' := by
  refine .gentle (gentle.anybody (some id)) (fun c mem same => ?_) (gentle.queues rfl)
  have absent := List.find?_eq_none.mp free c ((gentle.calls nofun).mp mem)
  simp [same] at absent

/-- A call is made. -/
theorem Gentle.called (gentle : h.Gentle none h') (free : h.call? id = none) (request : Request)
    (bind : Option String) (aims : h.Aims request) :
    h.Ordered id (h'.call id request bind).2 := by
  refine .gentle ((gentle.anybody _).trans (gentle_addCall h' id request bind)) (fun c mem same => ?_)
    (gentle.queues rfl)
  rcases List.mem_append.mp mem with old | new
  · have absent := List.find?_eq_none.mp free c ((gentle.calls nofun).mp old)
    simp [same] at absent
  · rw [List.mem_singleton.mp new]
    exact ⟨rfl, aims⟩

/-- A call that is dropped is gone. -/
theorem calls_abort {c : PendingCall} (mem : c ∈ (h.abort id).2.calls) : c.id ≠ id := by
  intro same
  unfold abort at mem
  split at mem
  · rename_i absent
    have other := List.find?_eq_none.mp absent c mem
    simp [same] at other
  · have other : (c.id != id) = true := by
      simp only at mem
      split at mem <;> exact (List.mem_filter.mp mem).2
    simp [same] at other

/-- Every command that neither moves the clock nor drops a call is carried out like that. -/
theorem perform_ordered {c : Command} (instant : c.isInstant = true) (kept : ∀ i, c ≠ .abort i)
    (free : h.call? id = none) : h.Ordered id (h.perform id c).2 := by
  have still : h.Ordered id h := (Gentle.refl none h).ordered free
  have backend (backend : Backend) : h.Ordered id { h with backend } :=
    (gentle_backend h backend).ordered free
  have renamed {g : Hub} (gentle : h.Gentle none g) (f : Directory → Directory)
      (same : (f g.names).registrations = g.names.registrations) : h.Ordered id (g.rename f) :=
    (gentle.trans (gentle_rename g same)).ordered free
  have named (f : Directory → Directory)
      (same : (f h.names).registrations = h.names.registrations) : h.Ordered id (h.rename f) :=
    renamed (.refl none h) f same
  have called (request : Request) (bind : Option String) (plain : request.stream? = none) :
      h.Ordered id (h.call id request bind).2 :=
    (Gentle.refl none h).called free request bind (aims_plain plain)
  cases c with
  | apply key data => exact backend _
  | applyMany key data n => exact (gentle_applyFrom key data n h 0).ordered free
  | delete key => exact backend _
  | get key => exact still
  | counts => exact backend _
  | revision => exact still
  | watchers => exact backend _
  | failLists n => exact backend _
  | failWatches n => exact backend _
  | disconnect => exact backend _
  | compact => exact backend _
  | list sel =>
    simp only [perform]
    split
    · exact backend _
    · exact backend _
  | watch sel version name =>
    simp only [perform, openWatch]
    split
    · exact backend _
    · exact renamed (gentle_backend h _) (fun d =>
        { d with watches := bindName d.watches name _ }) rfl
  | poll name limit => exact withName_keeps still fun _ _ => backend _
  | dropWatch name =>
    simp only [perform]
    split
    · exact still
    · exact renamed (gentle_backend h _) (fun d =>
        { d with watches := dropName d.watches name }) rfl
  | scriptList call => exact backend _
  | scriptWatch call => exact backend _
  | calls => exact backend _
  | advance ms => cases instant
  | cancel name =>
    exact ((gentle_token h (some name)).trans (gentle_fire _ _)).ordered free
  | abort i => exact absurd rfl (kept i)
  | newStream name key policy =>
    exact renamed (gentle_createStream h key policy) (fun d =>
      { d with streams := bindName d.streams name h.streams.length }) rfl
  | startStream name token =>
    exact withStream_keeps still fun n _ _ => .starts n _ (gentle_token h token)
  | stopStream name =>
    exact withStream_keeps still fun n _ _ => (gentle_stopStream h n).ordered free
  | dropStream name => exact named (fun d => { d with streams := dropName d.streams name }) rfl
  | streamInfo name => exact withStream_keeps still fun _ _ _ => still
  | streamText name => exact withStream_keeps still fun _ _ _ => still
  | attach stream plan registration =>
    exact withStream_keeps still fun n _ found =>
      (gentle_addRecorder h plan stream).called free _ _ (aims_of_stream rfl found)
  | detach stream registration =>
    exact withStream_keeps still fun n st found => withRegistration_keeps still fun r known =>
      (gentle_removeHandler known found).ordered free
  | isAttached stream registration =>
    exact withStream_keeps still fun _ _ _ => withRegistration_keeps still fun _ _ => still
  | awaitSync stream token =>
    exact withStream_keeps still fun n _ found =>
      (gentle_token h token).called free _ _ (aims_of_stream rfl found)
  | sameRegistration a b =>
    exact withRegistration_keeps still fun _ _ => withRegistration_keeps still fun _ _ => still
  | newMultiplexer name settings root =>
    exact ((gentle_token h root).trans (gentle_addMultiplexer _ name settings _)).ordered free
  | dropMultiplexer name =>
    exact named (fun d => { d with multiplexers := dropName d.multiplexers name }) rfl
  | shutdown name =>
    exact withMultiplexer_keeps still fun m _ => (gentle_shutdown h m).ordered free
  | sharing name key => exact withMultiplexer_keeps still fun _ _ => still
  | nameStream name key stream =>
    refine withMultiplexer_keeps still fun _ mux => ?_
    split
    · exact still
    · exact named (fun d => { d with streams := bindName d.streams stream _ }) rfl
  | subscribe name key plan registration token =>
    exact withMultiplexer_keeps still fun m _ =>
      ((gentle_addRecorder h plan name).trans (gentle_token _ token)).called free _ _
        (aims_plain rfl)
  | unsubscribe name registration =>
    exact withMultiplexer_keeps still fun m _ => withRegistration_keeps still fun r known =>
      (gentle_unsubscribe m known).ordered free
  | current name registration =>
    exact withMultiplexer_keeps still fun m _ => withRegistration_keeps still fun r _ => called _ _ rfl
  | newManager name multiplexer plan =>
    exact withMultiplexer_keeps still fun m _ => (gentle_addManager h name m plan).ordered free
  | dropManager name => exact named (fun d => { d with managers := dropName d.managers name }) rfl
  | register name owner target token =>
    exact withName_keeps still fun g _ =>
      (gentle_token h token).called free _ _ (aims_plain rfl)
  | unregister name owner => exact withName_keeps still fun _ _ => called _ _ rfl
  | currentOf name owner => exact withName_keeps still fun _ _ => called _ _ rfl
  | isRegistered name owner => exact withName_keeps still fun _ _ => called _ _ rfl
  | targetOf name owner => exact withName_keeps still fun _ _ => called _ _ rfl
  | size name => exact withName_keeps still fun _ _ => called _ _ rfl
  | metrics => exact still
  | unclear reason => exact still

end Hub

end SharedWatch
