import Mathlib.Tactic.Simps.Basic
import SharedWatch.Proofs.QuietSteps
import SharedWatch.Scenario.Poll

/-!
# The backdrop of a hub

Only loops read the loops and the answers that the store has prepared for them, and nobody reads the
messages.  Whatever else happens is the same in front of any of these, and only adds to them.

* `Backdrop`: messages, loops and prepared answers.
* `Hub.against`: a hub in front of a backdrop.
* `against_deliver`, `against_receive`: what handlers do is the same in front of any backdrop.
* `against_callTurn`, `against_collect`, `against_perform`: so is what calls and commands do.
* `against_step`: so is every event, unless a loop moves or an answer is prepared.
* `front_against_backdrop`: every hub is its front, in front of its backdrop.
-/

namespace SharedWatch

/-- What nobody but loops reads. -/
structure Backdrop where
  /-- The messages so far, which nobody reads. -/
  trace : List TraceLine
  loops : List Loop
  /-- Answers to the next `list` calls. -/
  lists : List (ScriptedCall (List Object × String))
  /-- Answers to the next `watch` calls. -/
  watches : List (ScriptedCall (List FeedItem × Bool))

namespace Hub

/-- The hub in front of a backdrop: its own messages and loops come after those of the backdrop, and
the answers that are prepared are those of the backdrop. -/
@[simps]
def against (h : Hub) (b : Backdrop) : Hub :=
  { h with
    trace := h.trace ++ b.trace
    loops := b.loops ++ h.loops
    backend := { h.backend with lists := b.lists, watches := b.watches } }

variable (h : Hub) (b : Backdrop) (n m : Nat)

/-! ## Single changes -/

theorem against_say (level : SharedWatch.Level) (message : String) :
    (h.against b).say level message = (h.say level message).against b := rfl

theorem against_deal (d : Dealing) : (h.against b).deal d = (h.deal d).against b := rfl

theorem against_addActive (k : Int) :
    (h.against b).addActive k = (h.addActive k).against b := rfl

theorem against_updateStream (f : Stream → Stream) :
    (h.against b).updateStream n f = (h.updateStream n f).against b := rfl

theorem against_updateMultiplexer (f : Multiplexer → Multiplexer) :
    (h.against b).updateMultiplexer m f = (h.updateMultiplexer m f).against b := rfl

theorem against_updateManager (f : Manager → Manager) :
    (h.against b).updateManager m f = (h.updateManager m f).against b := rfl

theorem against_dropCall (id : Nat) :
    (h.against b).dropCall id = (h.dropCall id).against b := rfl

theorem against_leaveTurn (g id : Nat) :
    (h.against b).leaveTurn g id = (h.leaveTurn g id).against b := rfl

theorem against_beginWait (c : PendingCall) (w : SyncWait) :
    (h.against b).beginWait c w = (h.beginWait c w).against b := rfl

theorem against_bypass (what : Bypass) :
    (h.against b).bypass n what = (h.bypass n what).against b := by
  unfold bypass
  show (if h.isShared n then _ else _) = _
  split <;> rfl

theorem against_token (name : Option String) :
    (h.against b).token name = ((h.token name).1, (h.token name).2.against b) := by
  cases name with
  | none => rfl
  | some name =>
    simp only [token, against_names]
    cases h.names.tokens.lookup name <;> rfl

/-! ## Streams and their sharing -/

theorem against_addLoop (policy : RetryPolicy) (parent : Nat) :
    (h.against b).addLoop n policy parent = (h.addLoop n policy parent).against b := by
  unfold addLoop against
  simp [takeTicket]

theorem against_startStream (parent : Nat) :
    (h.against b).startStream n parent =
      ((h.startStream n parent).1, (h.startStream n parent).2.against b) := by
  unfold startStream
  simp only [against_streams]
  cases h.streams[n]? with
  | none => rfl
  | some st =>
    dsimp only
    cases st.start? with
    | error e => rfl
    | ok started =>
      cases started with
      | none => rfl
      | some st' => simp only [against_updateStream, against_addActive, against_say, against_addLoop]

theorem against_haltStream :
    (h.against b).haltStream n = ((h.haltStream n).1, (h.haltStream n).2.against b) := by
  unfold haltStream
  simp only [against_streams]
  cases h.streams[n]? with
  | none => rfl
  | some st =>
    dsimp only
    split
    · rfl
    · split <;> rfl

theorem against_stopStream :
    (h.against b).stopStream n = ((h.stopStream n).1, (h.stopStream n).2.against b) := by
  unfold stopStream
  rw [against_haltStream]
  dsimp only
  split <;> rfl

theorem against_openStream (mux : Multiplexer) (key : ObjectKey) :
    (h.against b).openStream m mux key =
      ((h.openStream m mux key).1, (h.openStream m mux key).2.against b) := by
  have started := against_startStream (h.createStream key mux.settings.listWatch (some m)).2 b
    (h.createStream key mux.settings.listWatch (some m)).1 mux.root
  exact congrArg (fun x => (h.streams.length, x.2.say .info "watch stream created")) started

theorem against_retire (old : Monitor) : (h.against b).retire old = (h.retire old).against b := by
  unfold retire
  rw [against_stopStream]
  rfl

theorem against_acquire (mux : Multiplexer) (key : ObjectKey) :
    (h.against b).acquire m mux key =
      ((h.acquire m mux key).1, (h.acquire m mux key).2.against b) := by
  unfold acquire
  rw [against_openStream]
  cases mux.monitor? key with
  | none => rfl
  | some e =>
    show (if h.isAlive e.stream then _ else _) = _
    dsimp only
    split
    · rfl
    · exact congrArg (Prod.mk _) (against_retire (updateMultiplexer _ _ _) b e)

theorem against_giveBack (mux : Multiplexer) (key : ObjectKey) (e : Monitor) :
    (h.against b).giveBack m mux key e =
      ((h.giveBack m mux key e).1, (h.giveBack m mux key e).2.against b) := by
  unfold giveBack
  split
  · exact congrArg (fun x => (true, x.2)) (against_stopStream (h.updateMultiplexer m _) b e.stream)
  · rfl

theorem against_release (key : ObjectKey) :
    (h.against b).release m key n = (h.release m key n).against b := by
  unfold release
  simp only [against_multiplexers]
  cases h.multiplexers[m]? with
  | none => rfl
  | some mux =>
    dsimp only
    cases mux.monitor? key with
    | none => rfl
    | some e =>
      dsimp only
      rw [against_giveBack]
      rcases h.giveBack m mux key e with ⟨last, g⟩
      split
      · cases last <;> rfl
      · rfl

theorem against_leaveStream (st : Stream) (r : Registration) :
    (h.against b).leaveStream n st r = (h.leaveStream n st r).map (·.against b) := by
  unfold leaveStream
  split
  · rfl
  · cases st.detach n r <;> rfl

theorem against_closeRegistration (mux : Multiplexer) (r : Registration) (late : Bool)
    (e : Monitor) : (h.against b).closeRegistration m mux r late e =
      (h.closeRegistration m mux r late e).against b := by
  unfold closeRegistration
  simp only [against_deal, against_say, against_giveBack]
  split <;> rfl

theorem against_unsubscribe (r : Registration) :
    (h.against b).unsubscribe m r = ((h.unsubscribe m r).1, (h.unsubscribe m r).2.against b) := by
  unfold unsubscribe
  simp only [against_multiplexers, against_streams]
  split
  · rfl
  · cases h.multiplexers[m]? with
    | none => rfl
    | some mux =>
      dsimp only
      cases (mux.monitor? r.key).filter (·.stream = r.stream) with
      | none => rfl
      | some e =>
        dsimp only
        cases h.streams[e.stream]? with
        | none => rfl
        | some st =>
          dsimp only
          rw [against_leaveStream]
          cases h.leaveStream e.stream st r with
          | error failure => rfl
          | ok g => exact congrArg (Prod.mk _) (against_closeRegistration g b m mux r _ e)

theorem against_foldl {α : Type} {f : Hub → α → Hub}
    (step : ∀ g a, f (g.against b) a = (f g a).against b) (xs : List α) :
    xs.foldl f (h.against b) = (xs.foldl f h).against b :=
  List.foldl_hom (fun g : Hub => g.against b) step

theorem against_shutdown : (h.against b).shutdown m = (h.shutdown m).against b := by
  unfold shutdown
  simp only [against_multiplexers, against_updateMultiplexer]
  cases h.multiplexers[m]? with
  | none => rfl
  | some mux =>
    dsimp only
    rw [against_foldl]
    · rfl
    · intro g e
      rw [against_stopStream]
      rfl

theorem against_dropMultiplexer :
    (h.against b).dropMultiplexer m = (h.dropMultiplexer m).against b := by
  unfold dropMultiplexer
  simp only [against_multiplexers, against_updateMultiplexer]
  cases h.multiplexers[m]? with
  | none => rfl
  | some mux =>
    dsimp only
    rw [against_foldl]
    intro g e
    rw [against_stopStream]
    rfl

/-! ## Handlers -/

theorem against_onStream (name : String) {f f' : Nat → Stream → Reply × Hub}
    (inside : ∀ n st, f' n st = ((f n st).1, (f n st).2.against b)) :
    (h.against b).onStream name f' =
      ((h.onStream name f).1, (h.onStream name f).2.against b) := by
  unfold onStream
  simp only [against_names, against_streams]
  cases findName "stream" h.names.streams name with
  | error u => rfl
  | ok n =>
    dsimp only
    cases h.streams[n]? with
    | none => rfl
    | some st => exact inside n st

theorem against_onRegistration (name : String) {f f' : Registration → Reply × Hub}
    (inside : ∀ r, f' r = ((f r).1, (f r).2.against b)) :
    (h.against b).onRegistration name f' =
      ((h.onRegistration name f).1, (h.onRegistration name f).2.against b) := by
  unfold onRegistration
  simp only [against_names]
  cases findName "registration" h.names.registrations name with
  | error u => rfl
  | ok r => exact inside r

theorem against_onMultiplexer (name : String) {f f' : Nat → Multiplexer → Reply × Hub}
    (inside : ∀ m mux, f' m mux = ((f m mux).1, (f m mux).2.against b)) :
    (h.against b).onMultiplexer name f' =
      ((h.onMultiplexer name f).1, (h.onMultiplexer name f).2.against b) := by
  unfold onMultiplexer
  simp only [against_names, against_multiplexers]
  cases findName "multiplexer" h.names.multiplexers name with
  | error u => rfl
  | ok m =>
    dsimp only
    cases h.multiplexers[m]? with
    | none => rfl
    | some mux => exact inside m mux

theorem against_removeHandler (st : Stream) (r : Registration) :
    (h.against b).removeHandler n st r =
      ((h.removeHandler n st r).1, (h.removeHandler n st r).2.against b) := by
  unfold removeHandler
  cases st.detach n r with
  | error e => rfl
  | ok st' =>
    dsimp only
    rw [against_bypass]
    rfl

theorem against_act (action : Action) :
    (h.against b).act action = ((h.act action).1, (h.act action).2.against b) := by
  induction action generalizing h with
  | start stream token =>
    refine against_onStream h b stream fun n _ => ?_
    simp only [against_token, against_startStream]
  | stop stream =>
    refine against_onStream h b stream fun n _ => ?_
    rw [against_stopStream]
  | remove stream registration =>
    exact against_onStream h b stream fun n st =>
      against_onRegistration h b registration fun r => against_removeHandler h b n st r
  | unsubscribe multiplexer registration =>
    refine against_onMultiplexer h b multiplexer fun m _ =>
      against_onRegistration h b registration fun r => ?_
    rw [against_unsubscribe]
  | shutdown multiplexer =>
    refine against_onMultiplexer h b multiplexer fun m _ => ?_
    rw [against_shutdown]
  | cancel name =>
    unfold act
    rw [against_token]
    rfl
  | item stream => exact against_onStream h b stream fun _ _ => rfl
  | both first second ihFirst ihSecond =>
    unfold act
    rw [ihFirst]
    exact ihSecond (h.act first).2
  | apply | delete | disconnect | compact | failLists | failWatches => rfl

theorem against_react (entry : LogEntry) (number : Nat) (kind : CallbackKind) :
    (h.against b).react entry number kind = (h.react entry number kind).against b := by
  unfold react
  simp only [against_recorders]
  cases h.recorders[number]? with
  | none => rfl
  | some r =>
    dsimp only
    rcases r.react kind with ⟨action, r'⟩
    cases action with
    | none => rfl
    | some action =>
      exact congrArg (fun x => x.2.record { entry with event := .reacted action.word x.1 })
        (against_act { h with recorders := h.recorders.set number r' } b action)

theorem against_invoke (handler : Nat × HandlerRef) (c : Callback) :
    (h.against b).invoke n handler c = (h.invoke n handler c).against b := by
  unfold invoke
  cases handler.2 with
  | silent => rfl
  | recorder number => exact against_react (h.record _) b _ number c.kind

theorem against_deliver (c : Callback) :
    (h.against b).deliver n c = (h.deliver n c).against b := by
  unfold deliver
  simp only [against_streams]
  cases h.streams[n]? with
  | none => rfl
  | some st =>
    refine against_foldl h b (fun g handler => ?_) st.handlers
    rw [against_invoke]
    rfl

theorem against_attachHandler (ref : HandlerRef) :
    (h.against b).attachHandler n ref =
      ((h.attachHandler n ref).1, (h.attachHandler n ref).2.against b) := by
  unfold attachHandler
  simp only [against_streams]
  cases h.streams[n]? with
  | none => rfl
  | some st =>
    dsimp only
    split
    · rfl
    · cases st.cache.item with
      | none => rfl
      | some o =>
        have told := against_invoke (h.addHandler n ref) b n ((h.addHandler n ref).attached, ref)
          (.add o)
        exact congrArg (fun g => (Except.ok _, g.countDelivery "replay")) told

/-- A change arrives. -/
theorem against_receive (e : Change) : (h.against b).receive n e = (h.receive n e).against b := by
  unfold receive
  simp only [against_streams]
  cases h.streams[n]? with
  | none => rfl
  | some st =>
    dsimp only
    have warned : (if st.key.owns e.object then h.against b
        else (h.against b).say .warn "watch delivered a foreign object, ignoring") =
        (if st.key.owns e.object then h
          else h.say .warn "watch delivered a foreign object, ignoring").against b := by
      split <;> rfl
    rw [warned]
    cases (st.receive e).2 with
    | none => rfl
    | some c => exact against_deliver (updateStream _ n _) b n c

theorem against_reportEnd (ending : CycleEnd) :
    (h.against b).reportEnd n ending = (h.reportEnd n ending).against b := by
  cases ending with
  | closed => rfl
  | failed f => cases f <;> rfl

/-! ## Calls -/

theorem against_finish (c : PendingCall) (reply : Reply) :
    (h.against b).finish c reply = (h.finish c reply).against b := by
  unfold finish
  split <;> rfl

theorem against_finishTurn (c : PendingCall) (g : Nat) (reply : Reply) :
    (h.against b).finishTurn c g reply = (h.finishTurn c g reply).against b := by
  unfold finishTurn
  rw [against_finish]
  rfl

theorem against_waitOutcome? (w : SyncWait) : (h.against b).waitOutcome? w = h.waitOutcome? w := rfl

theorem against_concludeSubscribe (key : ObjectKey) (ref : HandlerRef)
    (outcome : Except WatchError Unit) :
    (h.against b).concludeSubscribe m key ref n outcome =
      ((h.concludeSubscribe m key ref n outcome).1,
        (h.concludeSubscribe m key ref n outcome).2.against b) := by
  unfold concludeSubscribe
  cases outcome with
  | error e => exact congrArg (Prod.mk (Except.error e)) (against_release (say _ _ _) b n m key)
  | ok _ =>
    dsimp only
    rw [against_attachHandler]
    rcases h.attachHandler n ref with ⟨result, g⟩
    cases result with
    | ok r => rfl
    | error e => exact congrArg (Prod.mk (Except.error e)) (against_release (say _ _ _) b n m key)

theorem against_beginSubscribe (key : ObjectKey) (token : Nat) :
    (h.against b).beginSubscribe m key token =
      ((h.beginSubscribe m key token).1, (h.beginSubscribe m key token).2.against b) := by
  unfold beginSubscribe
  simp only [against_multiplexers]
  cases keyRefusal? key with
  | some e => rfl
  | none =>
    cases h.multiplexers[m]? with
    | none => rfl
    | some mux =>
      dsimp only
      rw [against_acquire]
      rfl

theorem against_conclude (c : PendingCall) (w : SyncWait) (outcome : Except WatchError Unit) :
    (h.against b).conclude c w outcome = (h.conclude c w outcome).against b := by
  unfold conclude
  simp only [against_dropCall]
  split
  · exact against_finish ..
  · rw [against_concludeSubscribe]
    exact against_finish ..
  · rename_i g owner target token _
    simp only [against_managers]
    cases (h.dropCall c.id).managers[g]? with
    | none => rfl
    | some manager =>
      dsimp only
      rw [against_concludeSubscribe]
      rcases (h.dropCall c.id).concludeSubscribe _ _ _ _ _ with ⟨result, g⟩
      cases result with
      | error e => exact against_finishTurn ..
      | ok r => simp only [against_say, against_updateManager, against_finishTurn]
  · exact against_finish ..

theorem against_waitOrConclude (c : PendingCall) (w : SyncWait) :
    (h.against b).waitOrConclude c w = (h.waitOrConclude c w).against b := by
  unfold waitOrConclude
  simp only [against_beginWait, against_waitOutcome?]
  split
  · exact against_conclude ..
  · rfl

theorem against_runCurrent (c : PendingCall) (r : Registration) :
    (h.against b).runCurrent c m r = (h.runCurrent c m r).against b := by
  unfold runCurrent
  rw [show (h.against b).beginCurrent m r = h.beginCurrent m r from rfl]
  split
  · exact against_finish ..
  · exact against_waitOrConclude ..

theorem against_runTurn (c : PendingCall) (g : Nat) (manager : Manager) (counted : Option Nat) :
    (h.against b).runTurn c g manager counted = (h.runTurn c g manager counted).against b := by
  unfold runTurn
  split
  · split
    · exact against_finishTurn ..
    · rw [against_beginSubscribe]
      rcases h.beginSubscribe _ _ _ with ⟨result, k⟩
      cases result with
      | error e => exact against_finishTurn ..
      | ok w => exact against_waitOrConclude ..
  · split
    · exact against_finishTurn ..
    · rw [against_unsubscribe]
      rcases h.unsubscribe _ _ with ⟨result, k⟩
      cases result with
      | error e => exact against_finishTurn ..
      | ok u => simp only [against_updateManager, against_say, against_finishTurn]
  · split
    · exact against_finishTurn ..
    · exact against_runCurrent (h.leaveTurn g c.id) b ..
  · exact against_finishTurn ..
  · exact against_finishTurn ..
  · split
    · exact against_finishTurn ..
    · simp only [against_leaveTurn, against_managers]
      cases (h.leaveTurn g c.id).managers[g]? with
      | none => rfl
      | some manager =>
        dsimp only
        split
        · exact against_finishTurn (updateManager _ _ _) b ..
        · rfl
  · rfl

theorem against_enterManager (c : PendingCall) (g : Nat) :
    (h.against b).enterManager c g = (h.enterManager c g).against b := by
  unfold enterManager
  simp only [against_managers]
  cases h.managers[g]? with
  | none => rfl
  | some manager =>
    dsimp only
    split
    · exact against_runTurn (updateManager _ _ _) b ..
    · rfl

theorem against_startCall (c : PendingCall) :
    (h.against b).startCall c = (h.startCall c).against b := by
  unfold startCall
  split
  · rw [against_bypass, against_attachHandler]
    rcases (h.bypass _ _).attachHandler _ _ with ⟨result, k⟩
    cases result <;> exact against_finish ..
  · exact against_waitOrConclude ..
  · rw [against_beginSubscribe]
    rcases h.beginSubscribe _ _ _ with ⟨result, k⟩
    cases result with
    | error e => exact against_finish ..
    | ok w => exact against_waitOrConclude ..
  · exact against_runCurrent ..
  · split
    · exact against_finish ..
    · exact against_enterManager ..
  all_goals exact against_enterManager ..

theorem against_callTurn (id : Nat) : (h.against b).callTurn id = (h.callTurn id).against b := by
  unfold callTurn
  rw [show (h.against b).call? id = h.call? id from rfl]
  cases h.call? id with
  | none => rfl
  | some c =>
    dsimp only
    split
    · exact against_startCall ..
    · cases c.request.manager? with
      | none => rfl
      | some g =>
        simp only [against_managers]
        cases h.managers[g]? with
        | none => rfl
        | some manager =>
          dsimp only
          split
          · exact against_runTurn ..
          · rfl
    · rw [against_waitOutcome?]
      split
      · rfl
      · exact against_conclude ..

theorem against_abort (id : Nat) :
    (h.against b).abort id = ((h.abort id).1, (h.abort id).2.against b) := by
  unfold abort
  rw [show (h.against b).call? id = h.call? id from rfl]
  cases h.call? id with
  | none => rfl
  | some c =>
    dsimp only
    have left : (c.waitsOn?.elim (h.against b) fun n =>
        ((h.against b).bypass n .aborted).deal (.lost n)) =
        (c.waitsOn?.elim h fun n => (h.bypass n .aborted).deal (.lost n)).against b := by
      cases c.waitsOn? with
      | none => rfl
      | some n => simp only [Option.elim, against_bypass, against_deal]
    rw [left, against_dropCall]
    cases c.request.manager? <;> rfl

theorem against_holdsMultiplexer : (h.against b).holdsMultiplexer m = h.holdsMultiplexer m := by
  simp only [holdsMultiplexer, holdsManager, against_names, against_calls, against_managers]

theorem against_collect : (h.against b).collect = h.collect.against b := by
  unfold collect
  refine against_foldl h b (fun g m => ?_) _
  simp only [against_multiplexers]
  cases g.multiplexers[m]? with
  | none => rfl
  | some mux =>
    rw [against_holdsMultiplexer]
    dsimp only
    split
    · rfl
    · exact against_dropMultiplexer ..

/-! ## Commands -/

theorem against_withName {α : Type} (noun : String) (names : Directory → List (String × α))
    (name : String) {f f' : α → Outcome × Hub} (inside : ∀ a, (f' a).2 = (f a).2.against b) :
    ((h.against b).withName noun names name f').2 = (h.withName noun names name f).2.against b := by
  unfold withName
  simp only [against_names]
  cases findName noun (names h.names) name with
  | error u => rfl
  | ok a => exact inside a

theorem against_withStream (name : String) {f f' : Nat → Stream → Outcome × Hub}
    (inside : ∀ n st, (f' n st).2 = (f n st).2.against b) :
    ((h.against b).withStream name f').2 = (h.withStream name f).2.against b := by
  refine against_withName h b _ _ name fun n => ?_
  simp only [against_streams]
  cases h.streams[n]? with
  | none => rfl
  | some st => exact inside n st

theorem against_withMultiplexer (name : String) {f f' : Nat → Multiplexer → Outcome × Hub}
    (inside : ∀ m mux, (f' m mux).2 = (f m mux).2.against b) :
    ((h.against b).withMultiplexer name f').2 = (h.withMultiplexer name f).2.against b := by
  refine against_withName h b _ _ name fun m => ?_
  simp only [against_multiplexers]
  cases h.multiplexers[m]? with
  | none => rfl
  | some mux => exact inside m mux

theorem against_applyFrom (key : ObjectKey) (data : String) (i k : Nat) :
    (h.against b).applyFrom key data i k = (h.applyFrom key data i k).against b := by
  induction k generalizing h i with
  | zero => rfl
  | succ k ih => exact ih (h.applyObject key (data ++ toString i)).2 (i + 1)

theorem against_openWatch (sel : Selector) (version name : String) :
    ((h.against b).openWatch sel version name).2 =
      (h.openWatch sel version name).2.against b := by
  unfold openWatch
  simp only [against_backend_store, against_names]
  rcases h.backend.store.watch sel version with ⟨result, store⟩
  cases result <;> rfl

theorem against_addManager (name : String) (plan : Option RecorderPlan) :
    (h.against b).addManager name m plan = (h.addManager name m plan).against b := by
  cases plan <;> rfl

theorem against_perform (id : Nat) (c : Command) (instant : c.isInstant = true)
    (plain : (Event.command id c).isScript = false) :
    ((h.against b).perform id c).2 = (h.perform id c).2.against b := by
  cases c with
  | scriptList | scriptWatch => cases plain
  | advance => cases instant
  | applyMany key data k => exact against_applyFrom h b key data 0 k
  | list sel =>
    unfold perform
    simp only [against_backend_store]
    rcases h.backend.store.list sel with ⟨result, store⟩
    cases result <;> rfl
  | watch sel version name => exact against_openWatch h b sel version name
  | poll name limit => exact against_withName h b _ _ name fun c => rfl
  | dropWatch name =>
    unfold perform
    simp only [against_names]
    cases h.names.watches.lookup name <;> rfl
  | cancel name =>
    exact congrArg (fun x : Nat × Hub => x.2.fire x.1) (against_token h b (some name))
  | abort k => exact congrArg (·.2) (against_abort h b k)
  | startStream name token =>
    refine against_withStream h b name fun n _ => ?_
    rw [against_token]
    exact congrArg (·.2) (against_startStream (h.token token).2 b n (h.token token).1)
  | stopStream name =>
    exact against_withStream h b name fun n _ => congrArg (·.2) (against_stopStream h b n)
  | streamInfo name => exact against_withStream h b name fun _ _ => rfl
  | streamText name => exact against_withStream h b name fun _ _ => rfl
  | attach stream plan registration => exact against_withStream h b stream fun _ _ => rfl
  | detach stream registration =>
    exact against_withStream h b stream fun n st =>
      against_withName h b _ _ registration fun r => congrArg (·.2) (against_removeHandler h b n st r)
  | isAttached stream registration =>
    exact against_withStream h b stream fun n st => against_withName h b _ _ registration fun r => rfl
  | awaitSync stream token =>
    refine against_withStream h b stream fun n _ => ?_
    rw [against_token]
    rfl
  | sameRegistration r s =>
    exact against_withName h b _ _ r fun _ => against_withName h b _ _ s fun _ => rfl
  | newMultiplexer name settings root =>
    exact congrArg (fun x : Nat × Hub => x.2.addMultiplexer name settings x.1)
      (against_token h b root)
  | shutdown name =>
    exact against_withMultiplexer h b name fun m _ => against_shutdown h b m
  | sharing name key => exact against_withMultiplexer h b name fun _ _ => rfl
  | nameStream name key stream =>
    refine against_withMultiplexer h b name fun _ mux => ?_
    cases mux.monitor? key <;> rfl
  | subscribe name key plan registration token =>
    exact against_withMultiplexer h b name fun m _ => congrArg
      (fun x : Nat × Hub => x.2.addCall id (.subscribe m key (.recorder h.recorders.length) x.1)
        (some registration))
      (against_token (h.addRecorder plan name).2 b token)
  | unsubscribe name registration =>
    exact against_withMultiplexer h b name fun m _ =>
      against_withName h b _ _ registration fun r => congrArg (·.2) (against_unsubscribe h b m r)
  | current name registration =>
    exact against_withMultiplexer h b name fun m _ => against_withName h b _ _ registration fun _ => rfl
  | newManager name multiplexer plan =>
    exact against_withMultiplexer h b multiplexer fun m _ => against_addManager h b m name plan
  | register name owner target token =>
    refine against_withName h b _ _ name fun g => ?_
    rw [against_token]
    rfl
  | unregister name | currentOf name | isRegistered name | targetOf name | size name =>
    exact against_withName h b _ _ name fun _ => rfl
  | _ => rfl

/-- Every event is the same in front of any backdrop, unless a loop moves or an answer is prepared. -/
theorem against_step {e : Event} (plain : e.isScript = false) (still : e.isLoop = false) :
    (h.against b).step e = (h.step e).against b := by
  cases e with
  | command id c =>
    simp only [step, show (h.against b).call? id = h.call? id from rfl]
    split
    · rename_i given
      exact against_perform h b id c ((Bool.and_eq_true _ _).mp given).1 plain
    · rfl
  | loop id => cases still
  | loopEnd id => cases still
  | call id => exact against_callTurn h b id
  | collect => exact against_collect h b
  | wait ms => rfl

/-! ## Fronts -/

/-- The hub without its backdrop. -/
@[simps]
def front : Hub :=
  { h with trace := [], loops := [], backend := { h.backend with lists := [], watches := [] } }

/-- The backdrop of the hub. -/
@[simps]
def backdrop : Backdrop := ⟨h.trace, h.loops, h.backend.lists, h.backend.watches⟩

theorem front_against_backdrop : h.front.against h.backdrop = h := by
  simp [against, front, backdrop]

end Hub

end SharedWatch
