import SharedWatch.Proofs.StreamTransitions

/-!
# What happens while no handler is called

Commands, calls and reactions of handlers come down to a few things that are done to a hub, one
after the other.  Here are those during which no handler is called.

* `Hub.Calm`: one of these things is done; `Hub.Calms`: any number of them.
* `Calm.lives`: what they do to streams and to the store is what `Life` says.
* `calms_act`: the reactions of handlers are calm.
* `perform_calms`: so are commands that do not move the clock, but for the scripts of the store.
-/

namespace SharedWatch

/-- Whether a command prepares an answer of the store. -/
def Command.isScript : Command → Bool
  | .scriptList _ | .scriptWatch _ => true
  | _ => false

/-- Whether an event prepares an answer of the store. -/
def Event.isScript : Event → Bool
  | .command _ c => c.isScript
  | _ => false

namespace Hub

open Relation (ReflTransGen)

/-- The multiplexer and the key that a request subscribes to. -/
def target? (h : Hub) : Request → Option (Nat × ObjectKey)
  | .subscribe m key _ _ => some (m, key)
  | .register g owner target _ =>
    (h.managers[g]?).map fun manager => (manager.multiplexer, owner.target target)
  | _ => none

/-- The wait of a subscriber is over and its handler is not attached: the reference goes back. -/
def giveUp (h : Hub) (id m : Nat) (key : ObjectKey) (n : Nat) (message : String) : Hub :=
  ((h.dropCall id).say .warn message).release m key n

/-- One thing is done to a hub, and no handler is called. -/
inductive Calm : Hub → Hub → Prop
  | aside {h h' : Hub} : h.Aside h' → Calm h h'
  | store {h : Hub} (op : Store.Op) : Calm h (h.updateStore fun s => op.run s)
  | openWatch {h : Hub} (sel : Selector) (version name : String) :
    Calm h (h.openWatch sel version name).2
  | poll {h : Hub} {name : String} {connection : Nat} (limit : Option Nat) :
    h.names.watches.lookup name = some connection → Calm h (h.poll connection limit).2
  | dropWatch {h : Hub} {name : String} {connection : Nat} :
    h.names.watches.lookup name = some connection →
    Calm h ((h.updateStore (·.release connection)).rename fun d =>
      { d with watches := dropName d.watches name })
  | create {h : Hub} (key : ObjectKey) (policy : RetryPolicy) :
    Calm h (h.createStream key policy none).2
  | start {h : Hub} (n parent : Nat) : Calm h (h.startStream n parent).2
  | halt {h : Hub} (n : Nat) : Calm h (h.haltStream n).2
  | detach {h : Hub} {n : Nat} {st : Stream} (r : Registration) :
    h.streams[n]? = some st → Calm h (h.removeHandler n st r).2
  | unsubscribe {h : Hub} (m : Nat) (r : Registration) : Calm h (h.unsubscribe m r).2
  | enter {h : Hub} {c : PendingCall} {m : Nat} {mux : Multiplexer} {key : ObjectKey}
      {w : SyncWait} :
    h.call? c.id = some c → c.waitsOn? = none → h.target? c.request = some (m, key) →
    h.multiplexers[m]? = some mux → w.stream = (h.acquire m mux key).1 →
    Calm h ((h.acquire m mux key).2.beginWait c w)
  | leave {h : Hub} {c : PendingCall} {m n : Nat} {key : ObjectKey} (message : String) :
    h.call? c.id = some c → c.waitsOn? = some n → h.target? c.request = some (m, key) →
    Calm h (h.giveUp c.id m key n message)
  | shutdown {h : Hub} (m : Nat) : Calm h (h.shutdown m)
  | dropMultiplexer {h : Hub} (m : Nat) : Calm h (h.dropMultiplexer m)
  | addMultiplexer {h : Hub} (settings : Settings) (root : Nat) :
    Calm h { h with multiplexers := h.multiplexers ++ [{ settings, root }] }
  | addCall {h : Hub} {id : Nat} (request : Request) (bind : Option String) :
    h.call? id = none → Calm h (h.addCall id request bind)
  | dropCall {h : Hub} {c : PendingCall} :
    h.call? c.id = some c → c.waitsOn? = none ∨ h.target? c.request = none →
    Calm h (h.dropCall c.id)
  | updateCall {h : Hub} {c : PendingCall} {f : PendingCall → PendingCall} :
    h.call? c.id = some c → c.waitsOn? = none → (f c).id = c.id → (f c).waitsOn? = none →
    Calm h (h.updateCall c.id f)
  | abort {h : Hub} (id : Nat) : Calm h (h.abort id).2

/-- Things are done to a hub, one after the other, and no handler is called. -/
abbrev Calms : Hub → Hub → Prop := ReflTransGen Calm

theorem Aside.calms {h h' : Hub} (aside : h.Aside h') : Calms h h' := .single (.aside aside)

theorem calms_store (h : Hub) (op : Store.Op) : Calms h (h.updateStore fun s => op.run s) :=
  .single (.store op)

/-! ## What a calm time does to streams and to the store -/

theorem beside_bypass (h : Hub) (n : Nat) (b : Bypass) : h.Beside (h.bypass n b) := by
  unfold bypass
  split
  · exact { Beside.refl h with }
  · exact .refl h

theorem lives_removeHandler {h : Hub} {n : Nat} {st : Stream} (r : Registration)
    (found : h.streams[n]? = some st) : Lives h (h.removeHandler n st r).2 := by
  unfold removeHandler
  cases left : st.detach n r with
  | error e => exact .refl
  | ok st' =>
    have bypassed : Lives h (h.bypass n .detached) := (beside_bypass h n .detached).lives
    have found' : (h.bypass n .detached).streams[n]? = some st := by
      rw [(beside_bypass h n .detached).streams, found]
    exact bypassed.tail (.detach found' left)

theorem lives_abort (h : Hub) (id : Nat) : Lives h (h.abort id).2 := by
  unfold abort
  split
  · exact .refl
  · rename_i c _
    have left : Lives h (c.waitsOn?.elim h fun n => (h.bypass n .aborted).deal (.lost n)) := by
      cases c.waitsOn? with
      | none => exact .refl
      | some n => exact (beside_bypass h n .aborted).lives.trans (lives_deal _ _)
    simp only
    generalize (c.waitsOn?.elim h fun n => (h.bypass n .aborted).deal (.lost n)) = g at left ⊢
    have dropped : Lives h (g.dropCall id) := left.trans (lives_calls g _)
    split
    · exact dropped.trans (Beside.lives ⟨rfl, rfl, rfl, rfl, rfl, rfl, rfl, rfl, rfl⟩)
    · exact dropped

theorem lives_beginWait (h : Hub) (c : PendingCall) (w : SyncWait) : Lives h (h.beginWait c w) :=
  Beside.lives { Beside.refl h with }

theorem Calm.lives {h h' : Hub} (calm : Calm h h') : Lives h h' := by
  cases calm with
  | aside aside => exact aside.lives
  | store op => exact .single (.store op)
  | openWatch sel version name => exact .single (.openWatch sel version name)
  | poll limit found => exact .single (.poll limit found)
  | dropWatch found => exact .single (.dropWatch found)
  | create key policy => exact .single (.create key policy none)
  | start n parent => exact .single (.start n parent)
  | halt n => exact .single (.halt n)
  | detach r found => exact lives_removeHandler r found
  | unsubscribe m r => exact lives_unsubscribe h m r
  | enter _ _ _ _ _ => exact (lives_acquire _ _ _ _).trans (lives_beginWait _ _ _)
  | leave message _ _ _ =>
    exact ((lives_calls h _).trans (aside_say _ _ _).lives).trans (lives_release _ _ _ _)
  | shutdown m => exact lives_shutdown h m
  | dropMultiplexer m => exact lives_dropMultiplexer h m
  | addMultiplexer settings root => exact Beside.lives { Beside.refl h with }
  | addCall request bind _ => exact Beside.lives { Beside.refl h with }
  | dropCall _ _ => exact lives_calls h _
  | updateCall _ _ _ _ => exact lives_calls h _
  | abort id => exact lives_abort h id

theorem Calms.lives {h h' : Hub} (calms : Calms h h') : Lives h h' := by
  induction calms with
  | refl => exact .refl
  | tail _ calm ih => exact ih.trans calm.lives

/-! ## Reactions of handlers -/

theorem calms_stopStream (h : Hub) (n : Nat) : Calms h (h.stopStream n).2 := by
  have halted : Calms h (h.haltStream n).2 := .single (.halt n)
  unfold stopStream
  simp only
  split
  · exact halted.trans (aside_say _ _ _).calms
  · exact halted

theorem calms_onStream {h : Hub} {name : String} {f : Nat → Stream → Reply × Hub}
    (calms : ∀ n st, h.streams[n]? = some st → Calms h (f n st).2) :
    Calms h (h.onStream name f).2 := by
  unfold onStream
  split
  · exact .refl
  · split
    · exact .refl
    · rename_i st found
      exact calms _ st found

theorem calms_onRegistration {h : Hub} {name : String} {f : Registration → Reply × Hub}
    (calms : ∀ r, Calms h (f r).2) : Calms h (h.onRegistration name f).2 := by
  unfold onRegistration
  split
  · exact .refl
  · exact calms _

theorem calms_onMultiplexer {h : Hub} {name : String} {f : Nat → Multiplexer → Reply × Hub}
    (calms : ∀ m mux, Calms h (f m mux).2) : Calms h (h.onMultiplexer name f).2 := by
  unfold onMultiplexer
  split
  · exact .refl
  · split
    · exact .refl
    · exact calms _ _

theorem calms_cancel (h : Hub) (name : String) :
    Calms h ((h.token (some name)).2.fire (h.token (some name)).1) :=
  (aside_token h (some name)).calms.trans (aside_fire _ _).calms

/-- What a handler does in reaction to a call calls no handler. -/
theorem calms_act (h : Hub) (action : Action) : Calms h (h.act action).2 := by
  induction action generalizing h with
  | start stream token =>
    exact calms_onStream fun n _ _ => (aside_token h token).calms.tail (.start n _)
  | stop stream => exact calms_onStream fun n _ _ => calms_stopStream h n
  | remove stream registration =>
    exact calms_onStream fun n st found => calms_onRegistration fun r => .single (.detach r found)
  | unsubscribe multiplexer registration =>
    exact calms_onMultiplexer fun m _ => calms_onRegistration fun r => .single (.unsubscribe m r)
  | shutdown multiplexer => exact calms_onMultiplexer fun m _ => .single (.shutdown m)
  | cancel token => exact calms_cancel h token
  | apply key data => exact calms_store h (.apply key data)
  | delete key => exact calms_store h (.delete key)
  | item stream => exact calms_onStream fun _ _ _ => .refl
  | disconnect => exact calms_store h .disconnect
  | compact => exact calms_store h .compact
  | failLists n => exact calms_store h (.failLists n)
  | failWatches n => exact calms_store h (.failWatches n)
  | both first second ih ih' => exact (ih h).trans (ih' _)

theorem calms_react (h : Hub) (entry : LogEntry) (number : Nat) (kind : CallbackKind) :
    Calms h (h.react entry number kind) := by
  unfold react
  cases h.recorders[number]? with
  | none => exact .refl
  | some r =>
    have taken : Calms h { h with recorders := h.recorders.set number (r.react kind).2 } :=
      (aside_recorders h _).calms
    cases chosen : (r.react kind).1 with
    | none => simpa only [chosen] using taken
    | some action =>
      have acted := taken.trans (calms_act _ action)
      simpa only [chosen] using acted.trans (aside_react _ entry action.word _).calms

/-! ## Commands -/

theorem calms_withName {α : Type} {h : Hub} {noun : String} {names : Directory → List (String × α)}
    {name : String} {f : α → Outcome × Hub}
    (calms : ∀ a, (names h.names).lookup name = some a → Calms h (f a).2) :
    Calms h (h.withName noun names name f).2 := by
  unfold withName findName
  cases found : (names h.names).lookup name with
  | none => exact .refl
  | some a => exact calms a found

theorem calms_withStream {h : Hub} {name : String} {f : Nat → Stream → Outcome × Hub}
    (calms : ∀ n st, h.streams[n]? = some st → Calms h (f n st).2) :
    Calms h (h.withStream name f).2 := by
  refine calms_withName fun n _ => ?_
  split
  · rename_i st found
    exact calms n st found
  · exact .refl

theorem calms_withMultiplexer {h : Hub} {name : String} {f : Nat → Multiplexer → Outcome × Hub}
    (calms : ∀ m mux, Calms h (f m mux).2) : Calms h (h.withMultiplexer name f).2 := by
  refine calms_withName fun m _ => ?_
  split
  · exact calms m _
  · exact .refl

theorem calms_withRegistration {h : Hub} {name : String} {f : Registration → Outcome × Hub}
    (calms : ∀ r, Calms h (f r).2) : Calms h (h.withRegistration name f).2 :=
  calms_withName fun r _ => calms r

theorem calms_applyFrom (key : ObjectKey) (data : String) (n : Nat) (h : Hub) (i : Nat) :
    Calms h (h.applyFrom key data i n) := by
  induction n generalizing h i with
  | zero => exact .refl
  | succ n ih =>
    exact (calms_store h (.apply key (data ++ toString i))).trans (ih _ (i + 1))

theorem calms_rename (h : Hub) (f : Directory → Directory)
    (watches : (f h.names).watches = h.names.watches) : Calms h (h.rename f) :=
  (aside_rename h watches).calms

/-- Making a call after something has been done on the side. -/
theorem Aside.calls_addCall {h h' : Hub} (aside : h.Aside h') {id : Nat}
    (free : h.call? id = none) (request : Request) (bind : Option String) :
    Calms h (h'.addCall id request bind) := by
  refine aside.calms.tail (.addCall request bind ?_)
  unfold call? at free ⊢
  rw [aside.calls, free]

theorem calms_newManager (h : Hub) (name : String) (m : Nat) (plan : Option RecorderPlan) :
    Calms h (h.addManager name m plan) := by
  have made (g : Hub) (manager : Manager) : Calms g
      (Hub.rename { g with managers := g.managers ++ [manager] } fun d =>
        { d with managers := bindName d.managers name g.managers.length }) :=
    (aside_addManager g manager).calms.trans (calms_rename _ _ rfl)
  cases plan with
  | none => exact made h _
  | some plan => exact (aside_addRecorder h plan name).calms.trans (made _ _)

/-- A command that neither moves the clock nor prepares an answer of the store calls no handler. -/
theorem perform_calms {h : Hub} {id : Nat} {c : Command} (instant : c.isInstant = true)
    (plain : c.isScript = false) (free : h.call? id = none) : Calms h (h.perform id c).2 := by
  have called (request : Request) (bind : Option String) : Calms h (h.addCall id request bind) :=
    (Aside.refl h).calls_addCall free request bind
  cases c with
  | apply key data => exact calms_store h (.apply key data)
  | applyMany key data n => exact calms_applyFrom key data n h 0
  | delete key => exact calms_store h (.delete key)
  | get key => exact .refl
  | counts => exact calms_store h .count
  | revision => exact .refl
  | watchers => exact calms_store h .count
  | failLists n => exact calms_store h (.failLists n)
  | failWatches n => exact calms_store h (.failWatches n)
  | disconnect => exact calms_store h .disconnect
  | compact => exact calms_store h .compact
  | list sel =>
    have read : Calms h (h.updateStore fun _ => (h.backend.store.list sel).2) :=
      calms_store h (.list sel)
    simp only [perform]
    split
    · rename_i listed
      rwa [listed] at read
    · rename_i listed
      rwa [listed] at read
  | watch sel version name => exact .single (.openWatch sel version name)
  | poll name limit => exact calms_withName fun _ found => .single (.poll limit found)
  | dropWatch name =>
    simp only [perform]
    split
    · exact .refl
    · rename_i found
      exact .single (.dropWatch found)
  | scriptList call => cases plain
  | scriptWatch call => cases plain
  | calls => exact (aside_forgetCalls h).calms
  | advance ms => cases instant
  | cancel name => exact calms_cancel h name
  | abort id => exact .single (.abort id)
  | newStream name key policy =>
    exact (ReflTransGen.single (.create key policy)).trans (calms_rename _ (fun d =>
      { d with streams := bindName d.streams name h.streams.length }) rfl)
  | startStream name token =>
    exact calms_withStream fun n _ _ => (aside_token h token).calms.tail (.start n _)
  | stopStream name => exact calms_withStream fun n _ _ => calms_stopStream h n
  | dropStream name =>
    exact calms_rename h (fun d => { d with streams := dropName d.streams name }) rfl
  | streamInfo name => exact calms_withStream fun _ _ _ => .refl
  | streamText name => exact calms_withStream fun _ _ _ => .refl
  | attach stream plan registration =>
    exact calms_withStream fun n _ _ => (aside_addRecorder h plan stream).calls_addCall free _ _
  | detach stream registration =>
    exact calms_withStream fun n st found => calms_withRegistration fun r =>
      .single (.detach r found)
  | isAttached stream registration =>
    exact calms_withStream fun _ _ _ => calms_withRegistration fun _ => .refl
  | awaitSync stream token =>
    exact calms_withStream fun n _ _ => (aside_token h token).calls_addCall free _ _
  | sameRegistration a b =>
    exact calms_withRegistration fun _ => calms_withRegistration fun _ => .refl
  | newMultiplexer name settings root =>
    exact ((aside_token h root).calms.tail (.addMultiplexer settings _)).trans (calms_rename _
      (fun d => { d with multiplexers := bindName d.multiplexers name _ }) rfl)
  | dropMultiplexer name =>
    exact calms_rename h (fun d => { d with multiplexers := dropName d.multiplexers name }) rfl
  | shutdown name => exact calms_withMultiplexer fun m _ => .single (.shutdown m)
  | sharing name key => exact calms_withMultiplexer fun _ _ => .refl
  | nameStream name key stream =>
    refine calms_withMultiplexer fun _ mux => ?_
    split
    · exact .refl
    · exact calms_rename h (fun d => { d with streams := bindName d.streams stream _ }) rfl
  | subscribe name key plan registration token =>
    refine calms_withMultiplexer fun m _ => ?_
    have aside := aside_addRecorder h plan name
    have free' : (h.addRecorder plan name).2.call? id = none := by
      unfold call? at free ⊢
      rw [aside.calls, free]
    exact aside.calms.trans ((aside_token _ token).calls_addCall free' _ _)
  | unsubscribe name registration =>
    exact calms_withMultiplexer fun m _ => calms_withRegistration fun r => .single (.unsubscribe m r)
  | current name registration =>
    exact calms_withMultiplexer fun m _ => calms_withRegistration fun r => called _ _
  | newManager name multiplexer plan =>
    exact calms_withMultiplexer fun m _ => calms_newManager h name m plan
  | dropManager name =>
    exact calms_rename h (fun d => { d with managers := dropName d.managers name }) rfl
  | register name owner target token =>
    exact calms_withName fun g _ => (aside_token h token).calls_addCall free _ _
  | unregister name owner => exact calms_withName fun _ _ => called _ _
  | currentOf name owner => exact calms_withName fun _ _ => called _ _
  | isRegistered name owner => exact calms_withName fun _ _ => called _ _
  | targetOf name owner => exact calms_withName fun _ _ => called _ _
  | size name => exact calms_withName fun _ _ => called _ _
  | metrics => exact .refl
  | unclear reason => exact .refl

/-- Multiplexers that nobody holds are dropped without a call of a handler. -/
theorem calms_collect (h : Hub) : Calms h h.collect := by
  unfold collect
  generalize List.range h.multiplexers.length = numbers
  induction numbers generalizing h with
  | nil => exact .refl
  | cons m numbers ih =>
    rw [List.foldl_cons]
    refine ReflTransGen.trans ?_ (ih _)
    split
    · split
      · exact .refl
      · exact .single (.dropMultiplexer m)
    · exact .refl

end Hub

end SharedWatch
