import SharedWatch.Proofs.QuietSteps

/-!
# Deeds

Every event is a list of deeds.  A deed either calls no handler, or attaches one handler, or is one
step of a loop.

* `Hub.Deed`: the deeds; `Hub.Deeds`: one after the other.
* `Hub.Errand`, `Hub.Errands`: those of them that are not a loop's.
* `errands_callTurn`: what a call does in one turn.
* `step_deeds`, `run_deeds`: what an event and a run do, unless they prepare an answer of the store.
-/

namespace SharedWatch

theorem Manager.multiplexer_leave (manager : Manager) (id : Nat) :
    (manager.leave id).multiplexer = manager.multiplexer := by
  unfold Manager.leave Manager.pass
  split
  · split <;> rfl
  · rfl

theorem Manager.multiplexer_ask (manager : Manager) (id : Nat) :
    (manager.ask id).multiplexer = manager.multiplexer := by
  unfold Manager.ask
  split <;> rfl

namespace Hub

open Relation (ReflTransGen)

/-- One deed. -/
inductive Deed : Hub → Hub → Prop
  | calm {h h' : Hub} : Calm h h' → Deed h h'
  | attach {h : Hub} (n : Nat) (ref : HandlerRef) :
    Deed h ((h.bypass n .attached).attachHandler n ref).2
  | join {h : Hub} {c : PendingCall} {n : Nat} {ref : HandlerRef} {r : Registration} :
    h.call? c.id = some c → c.waitsOn? = some n →
    ((h.dropCall c.id).attachHandler n ref).1 = .ok r →
    Deed h (((h.dropCall c.id).attachHandler n ref).2.deal (.granted r))
  | loop {h h' : Hub} {id : Nat} {l : Loop} {st : Stream} :
    h.loop? id = some (l, st) → h.stepLoop l st = some h' → Deed h h'
  | loopEnd {h : Hub} (id : Nat) : Deed h (h.loopEnd id)

/-- Deeds, one after the other. -/
abbrev Deeds : Hub → Hub → Prop := ReflTransGen Deed

/-- One deed of somebody who is not a loop. -/
inductive Errand : Hub → Hub → Prop
  | calm {h h' : Hub} : Calm h h' → Errand h h'
  | attach {h : Hub} (n : Nat) (ref : HandlerRef) :
    Errand h ((h.bypass n .attached).attachHandler n ref).2
  | join {h : Hub} {c : PendingCall} {n : Nat} {ref : HandlerRef} {r : Registration} :
    h.call? c.id = some c → c.waitsOn? = some n →
    ((h.dropCall c.id).attachHandler n ref).1 = .ok r →
    Errand h (((h.dropCall c.id).attachHandler n ref).2.deal (.granted r))

/-- Such deeds, one after the other. -/
abbrev Errands : Hub → Hub → Prop := ReflTransGen Errand

theorem Errand.deed {h h' : Hub} (errand : Errand h h') : Deed h h' := by
  cases errand with
  | calm calm => exact .calm calm
  | attach n ref => exact .attach n ref
  | join found waits attached => exact .join found waits attached

theorem Errands.deeds {h h' : Hub} (errands : Errands h h') : Deeds h h' :=
  ReflTransGen.mono (fun _ _ errand => errand.deed) _ _ errands

theorem Calms.errands {h h' : Hub} (calms : Calms h h') : Errands h h' :=
  ReflTransGen.mono (fun _ _ calm => Errand.calm calm) _ _ calms

theorem Aside.errands {h h' : Hub} (aside : h.Aside h') : Errands h h' := aside.calms.errands

/-! ## The calls stay as they are -/

@[simp] theorem calls_haltStream (h : Hub) (n : Nat) : (h.haltStream n).2.calls = h.calls := by
  unfold haltStream
  split
  · rfl
  · simp only
    split
    · rfl
    · split <;> rfl

@[simp] theorem calls_stopStream (h : Hub) (n : Nat) : (h.stopStream n).2.calls = h.calls := by
  unfold stopStream
  simp only
  split
  · exact calls_haltStream h n
  · exact calls_haltStream h n

@[simp] theorem calls_startStream (h : Hub) (n parent : Nat) :
    (h.startStream n parent).2.calls = h.calls := by
  unfold startStream
  split
  · rfl
  · split <;> rfl

theorem calls_retire (h : Hub) (e : Monitor) : (h.retire e).calls = h.calls := by
  have stopped := calls_stopStream h e.stream
  unfold retire
  exact stopped

theorem calls_acquire (h : Hub) (m : Nat) (mux : Multiplexer) (key : ObjectKey) :
    (h.acquire m mux key).2.calls = h.calls := by
  have opened : (h.openStream m mux key).2.calls = h.calls := calls_startStream _ _ _
  unfold acquire
  split
  · split
    · rfl
    · exact (calls_retire _ _).trans opened
  · exact opened

theorem calls_giveBack (h : Hub) (m : Nat) (mux : Multiplexer) (key : ObjectKey) (e : Monitor) :
    (h.giveBack m mux key e).2.calls = h.calls := by
  unfold giveBack
  split
  · exact calls_stopStream _ _
  · rfl

theorem calls_release (h : Hub) (m : Nat) (key : ObjectKey) (n : Nat) :
    (h.release m key n).calls = h.calls := by
  unfold release
  split
  · rfl
  · split
    · rfl
    · split
      · simp only
        split <;> exact calls_giveBack _ _ _ _ _
      · rfl

theorem calls_unsubscribe (h : Hub) (m : Nat) (r : Registration) :
    (h.unsubscribe m r).2.calls = h.calls := by
  rcases unsubscribe_cases h m r with aside | ⟨mux, e, st, g, _, _, _, _, _, left, eq⟩
  · exact aside.calls
  · have same : g.calls = h.calls := by
      unfold leaveStream at left
      split at left
      · cases left
        rfl
      · cases hd : st.detach e.stream r with
        | error failure => rw [hd] at left; cases left
        | ok st' =>
          rw [hd] at left
          cases left
          rfl
    rw [eq]
    exact ((aside_closeRegistration g m mux r st.isStopped e).calls.trans
      (calls_giveBack _ m mux r.key e)).trans same

theorem calls_bypass (h : Hub) (n : Nat) (b : Bypass) : (h.bypass n b).calls = h.calls := by
  unfold bypass
  split <;> rfl

theorem calls_onStream {h : Hub} {name : String} {f : Nat → Stream → Reply × Hub}
    (same : ∀ n st, (f n st).2.calls = h.calls) : (h.onStream name f).2.calls = h.calls := by
  unfold onStream
  split
  · rfl
  · split
    · rfl
    · exact same _ _

theorem calls_onRegistration {h : Hub} {name : String} {f : Registration → Reply × Hub}
    (same : ∀ r, (f r).2.calls = h.calls) : (h.onRegistration name f).2.calls = h.calls := by
  unfold onRegistration
  split
  · rfl
  · exact same _

theorem calls_onMultiplexer {h : Hub} {name : String} {f : Nat → Multiplexer → Reply × Hub}
    (same : ∀ m mux, (f m mux).2.calls = h.calls) :
    (h.onMultiplexer name f).2.calls = h.calls := by
  unfold onMultiplexer
  split
  · rfl
  · split
    · rfl
    · exact same _ _

theorem calls_removeHandler (h : Hub) (n : Nat) (st : Stream) (r : Registration) :
    (h.removeHandler n st r).2.calls = h.calls := by
  unfold removeHandler
  split
  · rfl
  · exact calls_bypass h n .detached

theorem calls_shutdown (h : Hub) (m : Nat) : (h.shutdown m).calls = h.calls := by
  have stopped (entries : List (ObjectKey × Monitor)) (g : Hub) : (entries.foldl
      (fun h entry => (h.stopStream entry.2.stream).2.deal (.closed entry.2)) g).calls = g.calls := by
    induction entries generalizing g with
    | nil => rfl
    | cons entry entries ih => exact (ih _).trans (calls_stopStream g entry.2.stream)
  unfold shutdown
  split
  · rfl
  · exact stopped _ _

theorem calls_act (h : Hub) (action : Action) : (h.act action).2.calls = h.calls := by
  induction action generalizing h with
  | start stream token =>
    exact calls_onStream fun n _ => (calls_startStream _ n _).trans (aside_token h token).calls
  | shutdown multiplexer => exact calls_onMultiplexer fun m _ => calls_shutdown h m
  | stop stream => exact calls_onStream fun n _ => calls_stopStream h n
  | remove stream registration =>
    exact calls_onStream fun n st => calls_onRegistration fun r => calls_removeHandler h n st r
  | unsubscribe multiplexer registration =>
    exact calls_onMultiplexer fun m _ => calls_onRegistration fun r => calls_unsubscribe h m r
  | cancel token => exact (aside_token h (some token)).calls
  | item stream => exact calls_onStream fun _ _ => rfl
  | both first second ih ih' => exact (ih' _).trans (ih h)
  | _ => rfl

theorem calls_invoke (h : Hub) (n : Nat) (handler : Nat × HandlerRef) (c : Callback) :
    (h.invoke n handler c).calls = h.calls := by
  unfold invoke
  simp only
  split
  · rfl
  · unfold react
    split
    · rfl
    · simp only
      split
      · rfl
      · exact calls_act _ _

theorem calls_attachHandler (h : Hub) (n : Nat) (ref : HandlerRef) :
    (h.attachHandler n ref).2.calls = h.calls := by
  unfold attachHandler
  split
  · rfl
  · split
    · rfl
    · simp only
      split
      · exact calls_invoke _ _ _ _
      · rfl

/-! ## Turns of a call -/

theorem id_of_call? {h : Hub} {id : Nat} {c : PendingCall} (found : h.call? id = some c) :
    c.id = id := by
  simpa using List.find?_some found

theorem call?_dropCall (h : Hub) (id : Nat) : (h.dropCall id).call? id = none := by
  unfold call? dropCall
  rw [List.find?_eq_none]
  intro c mem
  simpa using (List.mem_filter.mp mem).2

theorem dropCall_of_free {h : Hub} {id : Nat} (free : h.call? id = none) :
    h.dropCall id = h := by
  have same : (h.calls.filter fun c => c.id != id) = h.calls := by
    rw [List.filter_eq_self]
    intro c mem
    simpa using List.find?_eq_none.mp free c mem
  unfold dropCall
  rw [same]

/-- A call that holds no reference returns. -/
theorem calms_finish {h : Hub} {c : PendingCall} (reply : Reply)
    (idle : ∀ c', h.call? c.id = some c' → c'.waitsOn? = none) : Calms h (h.finish c reply) := by
  have dropped (g : Hub) (same : g.calls = h.calls) : Calms g
      { g.dropCall c.id with returned := g.returned ++ [(c.id, reply)] } := by
    have call? : g.call? c.id = h.call? c.id := by
      unfold Hub.call?
      rw [same]
    refine ReflTransGen.trans ?_ (aside_returned (g.dropCall c.id) _).calms
    cases found : h.call? c.id with
    | none =>
      rw [dropCall_of_free (call?.trans found)]
    | some c' =>
      have id := id_of_call? found
      rw [← id] at found call? ⊢
      exact .single (.dropCall (call?.trans found) (.inl (idle c' (id ▸ found))))
  unfold finish
  simp only
  split
  · rename_i r name _
    exact (calms_rename h (fun d =>
      { d with registrations := bindName d.registrations name r }) rfl).trans (dropped _ rfl)
  · exact dropped h rfl

theorem aside_leaveTurn (h : Hub) (g id : Nat) : h.Aside (h.leaveTurn g id) :=
  aside_updateManager h g fun manager => manager.multiplexer_leave id

theorem aside_ask (h : Hub) (g id : Nat) : h.Aside (h.updateManager g (·.ask id)) :=
  aside_updateManager h g fun manager => manager.multiplexer_ask id

theorem aside_insert (h : Hub) (g : Nat) (owner : OwnerKey) (r : Registration) :
    h.Aside (h.updateManager g (·.insert owner r)) :=
  aside_updateManager h g fun _ => rfl

theorem aside_erase (h : Hub) (g : Nat) (owner : OwnerKey) :
    h.Aside (h.updateManager g (·.erase owner)) :=
  aside_updateManager h g fun _ => rfl

theorem calms_finishTurn {h : Hub} {c : PendingCall} (g : Nat) (reply : Reply)
    (idle : ∀ c', h.call? c.id = some c' → c'.waitsOn? = none) :
    Calms h (h.finishTurn c g reply) :=
  (calms_finish reply idle).trans (aside_leaveTurn _ g c.id).calms

theorem attachHandler_eq_error {h : Hub} {n : Nat} {ref : HandlerRef} {e : WatchError}
    (refused : (h.attachHandler n ref).1 = .error e) : (h.attachHandler n ref).2 = h := by
  unfold attachHandler at refused ⊢
  split
  · rfl
  · rename_i found
    rw [found] at refused
    simp only at refused
    split at refused
    · rename_i stopped
      rw [if_pos stopped]
    · cases refused

/-- How the wait of a subscriber can end: with the handler attached, or with the reference given
back. -/
theorem concludeSubscribe_cases (h : Hub) (m : Nat) (key : ObjectKey) (ref : HandlerRef) (n : Nat)
    (outcome : Except WatchError Unit) :
    (∃ r, (h.attachHandler n ref).1 = .ok r ∧ h.concludeSubscribe m key ref n outcome =
      (.ok r, ((h.attachHandler n ref).2.deal (.granted r)).say .info "handler subscribed")) ∨
    ∃ e, h.concludeSubscribe m key ref n outcome =
      (.error e, (h.say .warn ("subscribe failed: " ++ WatchError.message e)).release m key n) := by
  unfold concludeSubscribe
  cases outcome with
  | error e => exact .inr ⟨e, rfl⟩
  | ok =>
    cases attached : (h.attachHandler n ref).1 with
    | ok r =>
      refine .inl ⟨r, rfl, ?_⟩
      simp only [attached]
    | error e =>
      refine .inr ⟨e, ?_⟩
      simp only [attached, attachHandler_eq_error attached]

/-- The wait of a subscriber ends; no call has its number any more. -/
theorem errands_concludeSubscribe {h : Hub} {c : PendingCall} {m n : Nat} {key : ObjectKey}
    (found : h.call? c.id = some c) (waits : c.waitsOn? = some n)
    (target : h.target? c.request = some (m, key)) (ref : HandlerRef)
    (outcome : Except WatchError Unit) :
    Errands h ((h.dropCall c.id).concludeSubscribe m key ref n outcome).2 ∧
      ((h.dropCall c.id).concludeSubscribe m key ref n outcome).2.call? c.id = none := by
  have gone := call?_dropCall h c.id
  rcases concludeSubscribe_cases (h.dropCall c.id) m key ref n outcome with
    ⟨r, attached, eq⟩ | ⟨e, eq⟩
  · rw [eq]
    constructor
    · exact (ReflTransGen.single (.join found waits attached)).trans (aside_say _ _ _).errands
    · unfold call? at gone ⊢
      exact calls_attachHandler (h.dropCall c.id) n ref ▸ gone
  · rw [eq]
    constructor
    · exact .single (.calm (.leave _ found waits target))
    · unfold call? at gone ⊢
      rw [calls_release]
      exact gone

/-- The wait of a call for the first sync is over. -/
theorem errands_conclude {h : Hub} {c c' : PendingCall} {w : SyncWait}
    (found : h.call? c.id = some c') (request : c'.request = c.request)
    (phase : c'.phase = .syncing w) (outcome : Except WatchError Unit) :
    Errands h (h.conclude c w outcome) := by
  have id := id_of_call? found
  rw [← id] at found
  have waits : c'.waitsOn? = if c.request.isSubscriber then some w.stream else none := by
    unfold PendingCall.waitsOn?
    rw [phase, request]
  have vacant {g : Hub} (free : g.call? c.id = none) :
      ∀ c', g.call? c.id = some c' → c'.waitsOn? = none := by
    intro c' some
    rw [free] at some
    cases some
  have gone : (h.dropCall c.id).call? c.id = none := call?_dropCall h c.id
  have dropped (plain : c.request.isSubscriber = false) : Errands h (h.dropCall c.id) := by
    rw [plain] at waits
    rw [← id]
    exact .single (.calm (.dropCall found (.inl waits)))
  unfold conclude
  cases asked : c.request with
  | subscribe m key ref token =>
    have target : h.target? c'.request = some (m, key) := by
      rw [request, asked]
      rfl
    have taken : c'.waitsOn? = some w.stream := by
      rw [waits, asked]
      rfl
    have concluded := errands_concludeSubscribe found taken target ref outcome
    rw [id] at concluded
    exact concluded.1.trans (calms_finish _ (vacant concluded.2)).errands
  | register g owner name token =>
    have taken : c'.waitsOn? = some w.stream := by
      rw [waits, asked]
      rfl
    have target : h.target? c'.request =
        (h.managers[g]?).map fun manager => (manager.multiplexer, owner.target name) := by
      rw [request, asked]
      rfl
    simp only
    split
    · rename_i none
      rw [show h.managers[g]? = Option.none from none] at target
      rw [← id]
      exact .single (.calm (.dropCall found (.inr target)))
    · rename_i manager known
      rw [show h.managers[g]? = some manager from known] at target
      have concluded := errands_concludeSubscribe found taken target manager.handler outcome
      rw [id] at concluded
      split
      · exact concluded.1.trans (calms_finishTurn g _ (vacant concluded.2)).errands
      · rename_i r _
        have registered (g' : Hub) : Errands g'
            ((g'.say .info "owner registered").updateManager g (·.insert owner r)) :=
          (aside_say g' _ _).errands.trans (aside_insert _ g owner r).errands
        have free : ((((h.dropCall c.id).concludeSubscribe manager.multiplexer (owner.target name)
            manager.handler w.stream outcome).2.say .info "owner registered").updateManager g
              (·.insert owner r)).call? c.id = none := concluded.2
        exact (concluded.1.trans (registered _)).trans
          (calms_finishTurn g _ (vacant free)).errands
  | _ =>
    have plain : c.request.isSubscriber = false := by rw [asked]; rfl
    exact (dropped plain).trans (calms_finish _ (vacant gone)).errands

theorem call?_updateCall {h : Hub} {id : Nat} {f : PendingCall → PendingCall}
    (same : ∀ c, (f c).id = c.id) : (h.updateCall id f).call? id = (h.call? id).map f := by
  unfold call? updateCall
  rw [List.find?_map]
  have found : (fun c : PendingCall => decide (c.id = id)) ∘ (fun c => if c.id = id then f c else c)
      = fun c => decide (c.id = id) := by
    funext c
    simp only [Function.comp]
    split
    · rw [same]
    · rfl
  rw [found]
  cases some : h.calls.find? fun c => decide (c.id = id) with
  | none => rfl
  | some c =>
    have id : c.id = id := by simpa using List.find?_some some
    simp [id]

/-- A call that has begun to wait goes on if it need not wait any longer. -/
theorem errands_waitOrConclude {h : Hub} {c : PendingCall} (w : SyncWait)
    (found : h.call? c.id = some c) : Errands (h.beginWait c w) (h.waitOrConclude c w) := by
  have waiting : (h.beginWait c w).call? c.id =
      some { c with phase := .syncing w, ticket := h.tickets } := by
    have found' : h.takeTicket.2.call? c.id = some c := found
    unfold beginWait
    simp only
    rw [call?_updateCall, found']
    · rfl
    · exact fun _ => rfl
  unfold waitOrConclude
  simp only
  split
  · exact errands_conclude waiting rfl rfl _
  · exact .refl

/-- A call that takes no reference begins to wait. -/
theorem calms_beginWait {h : Hub} {c : PendingCall} (w : SyncWait)
    (found : h.call? c.id = some c) (plain : c.request.isSubscriber = false)
    (idle : c.waitsOn? = none) : Calms h (h.beginWait c w) := by
  have found' : h.takeTicket.2.call? c.id = some c := found
  refine (aside_takeTicket h).calms.tail (.updateCall found' idle rfl ?_)
  unfold PendingCall.waitsOn?
  simp [plain]

theorem errands_runCurrent {h : Hub} {c : PendingCall} (m : Nat) (r : Registration)
    (found : h.call? c.id = some c) (plain : c.request.isSubscriber = false)
    (idle : c.waitsOn? = none) : Errands h (h.runCurrent c m r) := by
  unfold runCurrent
  split
  · refine (calms_finish _ fun c' some => ?_).errands
    rw [found] at some
    cases some
    exact idle
  · exact (calms_beginWait _ found plain idle).errands.trans (errands_waitOrConclude _ found)

/-- How a subscription begins: with a refusal, or with a reference. -/
theorem beginSubscribe_cases (h : Hub) (m : Nat) (key : ObjectKey) (token : Nat) :
    (∃ e, h.beginSubscribe m key token = (.error e, h)) ∨
    ∃ mux w, h.multiplexers[m]? = some mux ∧ w.stream = (h.acquire m mux key).1 ∧
      h.beginSubscribe m key token = (.ok w, (h.acquire m mux key).2) := by
  unfold beginSubscribe
  split
  · exact .inl ⟨_, rfl⟩
  · exact .inl ⟨_, rfl⟩
  · rename_i mux _ known
    exact .inr ⟨mux, _, known, rfl, rfl⟩

/-- A subscriber takes its reference and waits, or goes on. -/
theorem errands_subscribe {h : Hub} {c : PendingCall} {m : Nat} {mux : Multiplexer}
    {key : ObjectKey} {w : SyncWait} (found : h.call? c.id = some c) (idle : c.waitsOn? = none)
    (target : h.target? c.request = some (m, key)) (known : h.multiplexers[m]? = some mux)
    (taken : w.stream = (h.acquire m mux key).1) :
    Errands h ((h.acquire m mux key).2.waitOrConclude c w) := by
  have found' : (h.acquire m mux key).2.call? c.id = some c := by
    unfold call? at found ⊢
    rw [calls_acquire, found]
  exact (ReflTransGen.single (.calm (.enter found idle target known taken))).trans
    (errands_waitOrConclude w found')

/-- A call whose turn it is at its manager is carried out. -/
theorem errands_runTurn {h : Hub} {c : PendingCall} {g : Nat} {manager : Manager}
    (counted : Option Nat) (found : h.call? c.id = some c) (idle : c.waitsOn? = none)
    (own : c.request.manager? = some g)
    (known : (h.managers[g]?).map (·.multiplexer) = some manager.multiplexer) :
    Errands h (h.runTurn c g manager counted) := by
  have idle' {h' : Hub} (same : h'.calls = h.calls) :
      ∀ c', h'.call? c.id = some c' → c'.waitsOn? = none := by
    intro c' some
    unfold call? at found some
    rw [same, found] at some
    cases some
    exact idle
  unfold runTurn
  cases asked : c.request with
  | register g' owner name token =>
    have same : g' = g := by simpa [asked, Request.manager?] using own
    subst same
    have target : h.target? c.request = some (manager.multiplexer, owner.target name) := by
      rw [asked]
      cases hg : h.managers[g']? with
      | none => rw [hg] at known; cases known
      | some found =>
        rw [hg] at known
        simp only [Option.map_some, Option.some.injEq] at known
        simp [target?, hg, known]
    simp only
    split
    · exact (calms_finishTurn g' _ (idle' rfl)).errands
    · rcases beginSubscribe_cases h manager.multiplexer (owner.target name) token with
        ⟨e, eq⟩ | ⟨mux, w, shared, taken, eq⟩
      · rw [eq]
        exact (calms_finishTurn g' _ (idle' rfl)).errands
      · rw [eq]
        exact errands_subscribe found idle target shared taken
  | unregister g' owner =>
    simp only
    split
    · exact (calms_finishTurn g _ (idle' rfl)).errands
    · rename_i r _
      have left : Calms h (h.unsubscribe manager.multiplexer r).2 := .single (.unsubscribe _ r)
      have same := calls_unsubscribe h manager.multiplexer r
      split
      · rename_i e h' eq
        rw [eq] at left same
        exact left.errands.trans (calms_finishTurn g _ (idle' same)).errands
      · rename_i h' eq
        rw [eq] at left same
        have erased : Calms h' ((h'.updateManager g (·.erase owner)).say .info
            "owner unregistered") :=
          (aside_erase h' g owner).calms.trans (aside_say _ _ _).calms
        have same' : ((h'.updateManager g (·.erase owner)).say .info "owner unregistered").calls
            = h.calls := same
        exact (left.errands.trans erased.errands).trans (calms_finishTurn g _ (idle' same')).errands
  | currentOf g' owner =>
    have plain : c.request.isSubscriber = false := by rw [asked]; rfl
    simp only
    split
    · exact (calms_finishTurn g _ (idle' rfl)).errands
    · rename_i r _
      have found' : (h.leaveTurn g c.id).call? c.id = some c := found
      exact (aside_leaveTurn h g c.id).errands.trans
        (errands_runCurrent manager.multiplexer r found' plain idle)
  | isRegistered g' owner => exact (calms_finishTurn g _ (idle' rfl)).errands
  | targetOf g' owner => exact (calms_finishTurn g _ (idle' rfl)).errands
  | size g' =>
    simp only
    split
    · exact (calms_finishTurn g _ (idle' rfl)).errands
    · have left := (aside_leaveTurn h g c.id).errands
      split
      · exact left
      · rename_i manager' _
        have asked := left.trans (aside_ask (h.leaveTurn g c.id) g c.id).errands
        split
        · have same : ((h.leaveTurn g c.id).updateManager g (·.ask c.id)).calls = h.calls := rfl
          exact asked.trans (calms_finishTurn g _ (idle' same)).errands
        · have found' : ((h.leaveTurn g c.id).updateManager g (·.ask c.id)).call? c.id = some c :=
            found
          exact asked.tail (.calm (.updateCall found' idle rfl rfl))
  | attach n ref => exact .refl
  | awaitSync n token => exact .refl
  | subscribe m key ref token => exact .refl
  | current m r => exact .refl

/-- A call asks for its turn at a manager. -/
theorem errands_enterManager {h : Hub} {c : PendingCall} {g : Nat} (found : h.call? c.id = some c)
    (idle : c.waitsOn? = none) (own : c.request.manager? = some g) :
    Errands h (h.enterManager c g) := by
  unfold enterManager
  split
  · exact .refl
  · rename_i manager known
    have asked := (aside_ask h g c.id).errands
    have found' : (h.updateManager g (·.ask c.id)).call? c.id = some c := found
    simp only
    split
    · refine asked.trans (errands_runTurn none found' idle own ?_)
      simp [updateManager, known, Manager.multiplexer_ask]
    · exact asked.tail (.calm (.updateCall found' idle rfl rfl))

/-- The first turn of a call. -/
theorem errands_startCall {h : Hub} {c : PendingCall} (found : h.call? c.id = some c)
    (idle : c.waitsOn? = none) : Errands h (h.startCall c) := by
  have idle' {h' : Hub} (same : h'.calls = h.calls) :
      ∀ c', h'.call? c.id = some c' → c'.waitsOn? = none := by
    intro c' some
    unfold call? at found some
    rw [same, found] at some
    cases some
    exact idle
  unfold startCall
  cases asked : c.request with
  | attach n ref =>
    have attached : Errands h ((h.bypass n .attached).attachHandler n ref).2 :=
      .single (.attach n ref)
    have same : ((h.bypass n .attached).attachHandler n ref).2.calls = h.calls :=
      (calls_attachHandler _ n ref).trans (calls_bypass h n .attached)
    simp only
    split
    · rename_i r h' eq
      rw [eq] at attached same
      exact attached.trans (calms_finish _ (idle' same)).errands
    · rename_i e h' eq
      rw [eq] at attached same
      exact attached.trans (calms_finish _ (idle' same)).errands
  | awaitSync n token =>
    have plain : c.request.isSubscriber = false := by rw [asked]; rfl
    exact (calms_beginWait _ found plain idle).errands.trans (errands_waitOrConclude _ found)
  | subscribe m key ref token =>
    have target : h.target? c.request = some (m, key) := by rw [asked]; rfl
    rcases beginSubscribe_cases h m key token with ⟨e, eq⟩ | ⟨mux, w, shared, taken, eq⟩
    · simp only [eq]
      exact (calms_finish _ (idle' rfl)).errands
    · simp only [eq]
      exact errands_subscribe found idle target shared taken
  | current m r =>
    have plain : c.request.isSubscriber = false := by rw [asked]; rfl
    exact errands_runCurrent m r found plain idle
  | register g owner name token =>
    simp only
    split
    · exact (calms_finish _ (idle' rfl)).errands
    · exact errands_enterManager found idle (by rw [asked]; rfl)
  | unregister g owner => exact errands_enterManager found idle (by rw [asked]; rfl)
  | currentOf g owner => exact errands_enterManager found idle (by rw [asked]; rfl)
  | isRegistered g owner => exact errands_enterManager found idle (by rw [asked]; rfl)
  | targetOf g owner => exact errands_enterManager found idle (by rw [asked]; rfl)
  | size g => exact errands_enterManager found idle (by rw [asked]; rfl)

/-- One turn of a call. -/
theorem errands_callTurn (h : Hub) (id : Nat) : Errands h (h.callTurn id) := by
  unfold callTurn
  split
  · exact .refl
  · rename_i c found
    have same := id_of_call? found
    subst same
    split
    · rename_i fresh
      refine errands_startCall found ?_
      unfold PendingCall.waitsOn?
      rw [fresh]
    · rename_i counted queued
      have idle : c.waitsOn? = none := by
        unfold PendingCall.waitsOn?
        rw [queued]
      split
      · exact .refl
      · rename_i g own
        split
        · exact .refl
        · rename_i manager known
          split
          · refine errands_runTurn counted found idle own ?_
            rw [known]
            rfl
          · exact .refl
    · rename_i w waiting
      split
      · exact .refl
      · exact errands_conclude found rfl waiting _

/-! ## Events -/

/-- Every event is a list of errands, unless it is a loop's, or prepares an answer of the store. -/
theorem step_errands {h : Hub} {e : Event} (plain : e.isScript = false) (steps : ∀ id, e ≠ .loop id)
    (ends : ∀ id, e ≠ .loopEnd id) : Errands h (h.step e) := by
  cases e with
  | command id c =>
    unfold step
    simp only
    split
    · rename_i possible
      rw [Bool.and_eq_true] at possible
      exact (perform_calms possible.1 plain (by simpa using possible.2)).errands
    · exact .refl
  | loop id => exact absurd rfl (steps id)
  | loopEnd id => exact absurd rfl (ends id)
  | call id => exact errands_callTurn h id
  | collect => exact (calms_collect h).errands
  | wait ms => exact (aside_wait h _).errands

/-- Every event is a list of deeds, unless it prepares an answer of the store. -/
theorem step_deeds {h : Hub} {e : Event} (plain : e.isScript = false) : Deeds h (h.step e) := by
  cases e with
  | loop id =>
    show Deeds h (h.loopStep id)
    unfold loopStep
    split
    · exact .refl
    · rename_i l st found
      cases stepped : h.stepLoop l st with
      | none => exact .refl
      | some h' =>
        exact .single (.loop found stepped)
  | loopEnd id => exact .single (.loopEnd id)
  | command _ _ => exact Errands.deeds (step_errands plain (by simp) (by simp))
  | call _ => exact Errands.deeds (step_errands plain (by simp) (by simp))
  | collect => exact Errands.deeds (step_errands plain (by simp) (by simp))
  | wait _ => exact Errands.deeds (step_errands plain (by simp) (by simp))

theorem run_deeds {h : Hub} {es : List Event} (plain : ∀ e ∈ es, e.isScript = false) :
    Deeds h (h.run es) := by
  induction es generalizing h with
  | nil => exact .refl
  | cons e es ih =>
    exact (step_deeds (plain e List.mem_cons_self)).trans
      (ih fun e' mem => plain e' (List.mem_cons_of_mem _ mem))

end Hub

end SharedWatch
