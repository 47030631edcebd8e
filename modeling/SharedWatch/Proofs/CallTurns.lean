import Mathlib.Data.List.Induction
import SharedWatch.Proofs.CommandEffects

/-!
# How a call goes on

In one turn a call asks for its turn at a manager, takes a reference, and then waits, or returns with
an answer.  Who gets or loses what depends on the answer.

* `Hub.Asked`, `Hub.Takes`: the call asks for its turn, and takes a reference.
* `Hub.Turned`: from then on, all is gentle but for what the answer says.
* `Hub.Holds`: a call that waits on behalf of an owner has its turn, and the owner holds nothing.
* `Hub.Lined`: a call in a queue is in line for its turn, and only some calls wait for a stream.
* `callTurn_cases`: every turn of a call is like that.
* `step_course`: what an event is to calls and owners; `run_course`: so it is in every run.
* `Hub.Steady`: what is said of calls and stays true; `holds_run`: so it is with those that wait.
-/

namespace SharedWatch

/-- Whether a request may have to wait for the first sync of a stream. -/
def Request.awaits : Request → Bool
  | awaitSync _ _ | subscribe _ _ _ _ | current _ _ | register _ _ _ _ | currentOf _ _ => true
  | _ => false

namespace Hub

variable {h h' g : Hub} {c : PendingCall} {k m n : Nat} {key : ObjectKey} {r : Registration}
  {w : SyncWait} {reply : Reply}

/-- A call is answered. -/
def answer (h : Hub) (id : Nat) (reply : Reply) : Hub :=
  { h with returned := h.returned ++ [(id, reply)] }

/-- A registration gets the name that it was asked for under, if there is one. -/
def enroll (h : Hub) (bind : Option String) (r : Registration) : Hub :=
  bind.elim h fun name => h.rename fun d => { d with registrations := bindName d.registrations name r }

/-- A registration can be handed out: its stream has synced, and has not been stopped. -/
def Issues (h : Hub) (r : Registration) : Prop :=
  ∃ st, h.streams[r.stream]? = some st ∧ st.key = r.key ∧ st.issuer = r.issuer ∧
    st.hasSynced = true ∧ st.isStopped = false

/-- The wait of a subscriber is for a stream that its multiplexer has made for its key. -/
def Waits (h : Hub) (c : PendingCall) (w : SyncWait) : Prop :=
  ∀ {m key}, h.target? c.request = some (m, key) →
    ∃ f, h.face? w.stream = some f ∧ f.key = key ∧ f.issuer = some m

/-- A call that waits on behalf of an owner has the turn at its manager, and the owner holds no
registration there. -/
def Holds (h : Hub) (c : PendingCall) : Prop :=
  ∀ ⦃k owner target token w⦄, c.request = .register k owner target token → c.phase = .syncing w →
    h.HasTurn k c.id ∧ (h.owners k).lookup owner = none

/-- A call in a queue is in line for its turn, and a call that waits for a stream has been made to. -/
structure Lined (h : Hub) (c : PendingCall) : Prop where
  queued : ∀ {k counted}, c.request.manager? = some k → c.phase = .queued counted → h.InLine k c.id
  waits : ∀ {w}, c.phase = .syncing w → c.request.awaits = true

/-- A call asks for its turn at a manager, if it needs one. -/
inductive Asked (h : Hub) (c : PendingCall) : Hub → Prop
  | idle : Asked h c h
  | asks {k : Nat} : c.request.manager? = some k → Asked h c (h.updateManager k (·.ask c.id))

/-- A call takes a reference, if it needs one. -/
inductive Takes (h : Hub) (c : PendingCall) : Hub → Prop
  | idle : Takes h c h
  | takes {m : Nat} {mux : Multiplexer} {key : ObjectKey} : h.target? c.request = some (m, key) →
    h.multiplexers[m]? = some mux → Takes h c (h.acquire m mux key).2

/-- A call goes on: it waits, or is answered. -/
inductive Turned (h : Hub) (c : PendingCall) : Hub → Prop
  | waits {g : Hub} {phase : Phase} {ticket : Nat} : h.Gentle (some c.id) g →
    g.call? c.id = some { c with phase, ticket } → g.Holds { c with phase, ticket } →
    g.Lined { c with phase, ticket } → Turned h c g
  | answers {g : Hub} {reply : Reply} : h.Gentle (some c.id) g → g.call? c.id = none →
    (c.request.isSubscriber = true → ∃ e, reply = .failed e) → Turned h c (g.answer c.id reply)
  | attaches {g : Hub} {n : Nat} {ref : HandlerRef} {r : Registration} {st : Stream} :
    c.request = .attach n ref → Rouses (some c.id) h g → g.call? c.id = none →
    h.streams[n]? = some st → r.stream = n → r.issuer = st.issuer →
    Turned h c ((g.enroll c.bind r).answer c.id (.registration r))
  | subscribes {g g' : Hub} {m : Nat} {key : ObjectKey} {ref : HandlerRef} {token : Nat}
      {r : Registration} :
    c.request = .subscribe m key ref token → Rouses (some c.id) h g →
    (g.deal (.granted r)).Gentle (some c.id) g' → g'.call? c.id = none → h.Issues r →
    r.key = key → r.issuer = some m →
    Turned h c ((g'.enroll c.bind r).answer c.id (.registration r))
  | registers {g g' : Hub} {k m : Nat} {owner : OwnerKey} {target : String} {token : Nat}
      {r : Registration} :
    c.request = .register k owner target token →
    h.target? c.request = some (m, owner.target target) → h.HasTurn k c.id →
    (h.owners k).lookup owner = none → Rouses (some c.id) h g →
    ((g.deal (.granted r)).updateManager k (·.insert owner r)).Gentle (some c.id) g' →
    g'.call? c.id = none → h.Issues r → r.key = owner.target target → r.issuer = some m →
    h.Joins g r → Turned h c (g'.answer c.id .ok)
  | unregisters {g g' : Hub} {k m : Nat} {owner : OwnerKey} {r : Registration} :
    c.request = .unregister k owner → h.HasTurn k c.id → (h.owners k).lookup owner = some r →
    (h.managers[k]?).map (·.multiplexer) = some m → h.unsubscribe m r = (.ok (), g) →
    (g.updateManager k (·.erase owner)).Gentle (some c.id) g' → g'.call? c.id = none →
    Turned h c (g'.answer c.id .ok)

/-! ## Answers -/

theorem plain_failed (e : WatchError) (r : Registration) : Reply.failed e ≠ .registration r := nofun

theorem plain_ok (r : Registration) : Reply.ok ≠ .registration r := nofun

theorem finish_plain (plain : ∀ r, reply ≠ .registration r) (h : Hub) (c : PendingCall) :
    h.finish c reply = (h.dropCall c.id).answer c.id reply := by
  unfold finish
  simp only
  split
  · exact absurd rfl (plain _)
  · rfl

theorem finishTurn_plain (plain : ∀ r, reply ≠ .registration r) (h : Hub) (c : PendingCall)
    (k : Nat) :
    h.finishTurn c k reply = ((h.dropCall c.id).leaveTurn k c.id).answer c.id reply := by
  unfold finishTurn
  rw [finish_plain plain]
  rfl

theorem finish_registration (h : Hub) (c : PendingCall) (r : Registration) :
    h.finish c (.registration r) =
      ((h.dropCall c.id).enroll c.bind r).answer c.id (.registration r) := by
  unfold finish enroll
  cases c.bind <;> rfl

theorem concludeCurrent_plain (h : Hub) (n : Nat) (outcome : Except WatchError Unit)
    (r : Registration) : h.concludeCurrent n outcome ≠ .registration r := by
  unfold concludeCurrent
  split
  · exact nofun
  · exact nofun
  · split <;> exact nofun

/-- A call that gets nothing returns. -/
theorem turned_finish (gentle : h.Gentle (some c.id) g) (plain : ∀ r, reply ≠ .registration r)
    (fails : c.request.isSubscriber = true → ∃ e, reply = .failed e) :
    Turned h c (g.finish c reply) := by
  rw [finish_plain plain]
  exact .answers (gentle.trans (gentle_dropCall g c.id)) (call?_dropCall g c.id) fails

theorem turned_finishTurn (gentle : h.Gentle (some c.id) g)
    (plain : ∀ r, reply ≠ .registration r)
    (fails : c.request.isSubscriber = true → ∃ e, reply = .failed e) (k : Nat) :
    Turned h c (g.finishTurn c k reply) := by
  rw [finishTurn_plain plain]
  have left := gentle_leaveTurn (g.dropCall c.id) k c.id
  exact .answers ((gentle.trans (gentle_dropCall g c.id)).trans left) (call?_dropCall g c.id) fails

/-! ## Whose a stream is -/

/-- The stream of a number is that of multiplexer `m`, if there is one. -/
def Belongs (m : Nat) (h : Hub) (n : Nat) : Prop := ∀ f, h.face? n = some f → f.issuer = some m

theorem face?_of_identities
    (identities : h.streams.map (·.identity) <+: h'.streams.map (·.identity)) {f : Face}
    (face : h.face? n = some f) :
    ∃ f', h'.face? n = some f' ∧ f'.key = f.key ∧ f'.issuer = f.issuer := by
  obtain ⟨st, found, rfl⟩ := face?_eq_some.mp face
  have at_n : (h.streams.map (·.identity))[n]? = some st.identity := by
    rw [List.getElem?_map, found]
    rfl
  obtain ⟨more, eq⟩ := identities
  have at_n' : (h'.streams.map (·.identity))[n]? = some st.identity := by
    rw [← eq, List.getElem?_append_left (List.getElem?_eq_some_iff.mp at_n).1]
    exact at_n
  rw [List.getElem?_map, Option.map_eq_some_iff] at at_n'
  obtain ⟨st', found', same⟩ := at_n'
  obtain ⟨hkey, issuer⟩ := Prod.mk.inj same
  exact ⟨st'.face, face?_eq_some.mpr ⟨st', found', rfl⟩, hkey, issuer⟩

theorem Belongs.before (belongs : h'.Belongs m n)
    (identities : h.streams.map (·.identity) <+: h'.streams.map (·.identity)) :
    h.Belongs m n := by
  intro f face
  obtain ⟨f', face', _, issuer⟩ := face?_of_identities identities face
  exact issuer ▸ belongs f' face'

/-- A stream that is somebody else's does not belong to `m`. -/
theorem not_belongs {st : Stream} (found : h.streams[n]? = some st) (other : st.issuer ≠ some m) :
    ¬ h.Belongs m n :=
  fun belongs => other (belongs st.face (face?_eq_some.mpr ⟨st, found, rfl⟩))

/-! ## The wait is over -/

/-- A handler that is attached to a stream that has synced gets a registration that could be handed
out before. -/
theorem issues_of_attachHandler {who : Option Nat} (gentle : h.Gentle who g) {ref : HandlerRef}
    (synced : ∃ st, h.streams[n]? = some st ∧ st.hasSynced = true)
    (attached : (g.attachHandler n ref).1 = .ok r) :
    h.Issues r ∧ r.stream = n := by
  obtain ⟨st, found, flag⟩ := synced
  obtain ⟨st', found', bides⟩ := gentle.old found
  obtain ⟨_, here, rfl, _⟩ := attachHandler_eq_ok attached
  cases found'.symm.trans here
  refine ⟨⟨st, found, bides.key.symm, bides.issuer.symm, flag, ?_⟩, rfl⟩
  cases stopped : st.isStopped with
  | false => rfl
  | true =>
    rcases attachHandler_cases g n ref with ⟨_, e, refused⟩ | ⟨st₁, found₁, running, _⟩
    · rw [refused] at attached
      cases attached
    · cases found'.symm.trans found₁
      cases running.symm.trans (bides.stopped stopped)

theorem gentle_giveUp (h : Hub) (m : Nat) (key : ObjectKey) (n : Nat) (message : String) :
    h.Gentle none ((h.say .warn message).release m key n) :=
  (gentle_say h _ _).trans (gentle_release _ m key n)

/-- How the wait of a subscriber ends: with a registration, or with a failure. -/
theorem concludeSubscribe_gentle (h : Hub) (m : Nat) (key : ObjectKey) (ref : HandlerRef) (n : Nat)
    (outcome : Except WatchError Unit) :
    (∃ r g, outcome = .ok () ∧ (h.attachHandler n ref).1 = .ok r ∧ Rouses none h g ∧ h.Joins g r ∧
      h.concludeSubscribe m key ref n outcome =
        (.ok r, (g.deal (.granted r)).say .info "handler subscribed")) ∨
    ∃ e g, h.Gentle none g ∧ h.concludeSubscribe m key ref n outcome = (.error e, g) := by
  have refused (e : WatchError) : h.Gentle none
      ((h.say .warn ("subscribe failed: " ++ e.message)).release m key n) :=
    gentle_giveUp h m key n _
  cases outcome with
  | error e => exact .inr ⟨e, _, refused e, rfl⟩
  | ok =>
    unfold concludeSubscribe
    cases attached : (h.attachHandler n ref).1 with
    | ok r =>
      refine .inl ⟨r, _, rfl, rfl, rouses_attachHandler h n ref, joins_attachHandler attached, ?_⟩
      simp only [attached]
    | error e =>
      refine .inr ⟨e, _, refused e, ?_⟩
      simp only [attached, attachHandler_eq_error attached]

/-- The wait for the first sync is over. -/
theorem turned_conclude (gentle : h.Gentle (some c.id) g) (waits : h.Waits c w)
    {outcome : Except WatchError Unit}
    (synced : outcome = .ok () → ∃ st, h.streams[w.stream]? = some st ∧ st.hasSynced = true)
    (holds : ∀ {k owner target token}, c.request = .register k owner target token →
      h.HasTurn k c.id ∧ (h.owners k).lookup owner = none) :
    Turned h c (g.conclude c w outcome) := by
  have dropped := gentle.trans (gentle_dropCall g c.id)
  have away := call?_dropCall g c.id
  unfold conclude
  cases asked : c.request with
  | awaitSync n token =>
    refine turned_finish dropped (fun r => ?_) fun subscribes => ?_
    · cases outcome <;> exact nofun
    · rw [asked] at subscribes
      cases subscribes
  | subscribe m key ref token =>
    have aims : h.target? c.request = some (m, key) := by rw [asked]; rfl
    obtain ⟨f, face, rfl, issuer⟩ := waits aims
    simp only
    rcases concludeSubscribe_gentle (g.dropCall c.id) m f.key ref w.stream outcome with
      ⟨r, g₁, rfl, attached, more, _, eq⟩ | ⟨e, g₁, more, eq⟩
    · obtain ⟨issues, own⟩ := issues_of_attachHandler dropped (synced rfl) attached
      obtain ⟨st, found, hkey, hissuer, _⟩ := id issues
      obtain ⟨st', found', rfl⟩ := face?_eq_some.mp face
      cases (own ▸ found).symm.trans found'
      rw [eq]
      simp only
      rw [finish_registration]
      have told := gentle_say (g₁.deal (.granted r)) .info "handler subscribed"
      exact .subscribes asked (dropped.rouses.trans (Rouses.anybody more _))
        ((told.anybody _).trans (gentle_dropCall _ c.id)) (call?_dropCall _ c.id) issues hkey.symm
        (hissuer.symm.trans issuer)
    · rw [eq]
      exact turned_finish (dropped.trans (more.anybody _)) (plain_failed e) fun _ => ⟨e, rfl⟩
  | register k owner target token =>
    obtain ⟨⟨manager, known, turn⟩, free⟩ := holds asked
    have aims : h.target? c.request = some (manager.multiplexer, owner.target target) := by
      rw [asked]
      simp [target?, known]
    obtain ⟨f, face, hkey, issuer⟩ := waits aims
    have aims' := target?_mono dropped.managed (asked ▸ aims)
    obtain ⟨manager', known', same⟩ := Option.map_eq_some_iff.mp aims'
    rw [Prod.mk.injEq] at same
    simp only [known', same.1]
    rcases concludeSubscribe_gentle (g.dropCall c.id) manager.multiplexer (owner.target target)
      manager'.handler w.stream outcome with
      ⟨r, g₁, rfl, attached, more, joins, eq⟩ | ⟨e, g₁, more, eq⟩
    · obtain ⟨issues, own⟩ := issues_of_attachHandler dropped (synced rfl) attached
      obtain ⟨st, found, hkey', hissuer, _⟩ := id issues
      obtain ⟨st', found', rfl⟩ := face?_eq_some.mp face
      cases (own ▸ found).symm.trans found'
      rw [eq]
      simp only
      rw [finishTurn_plain plain_ok]
      have told : ((g₁.deal (.granted r)).updateManager k (·.insert owner r)).Gentle none
          ((((g₁.deal (.granted r)).say .info "handler subscribed").say .info
            "owner registered").updateManager k (·.insert owner r)) := { Gentle.refl none _ with }
      have left := ((told.anybody _).trans (gentle_dropCall _ c.id)).trans (gentle_leaveTurn _ k c.id)
      exact .registers asked aims ⟨manager, known, turn⟩ free
        (dropped.rouses.trans (Rouses.anybody more _)) left (call?_dropCall _ c.id) issues
        (hkey'.symm.trans hkey) (hissuer.symm.trans issuer)
        (dropped.joins joins)
    · rw [eq]
      exact turned_finishTurn (dropped.trans (more.anybody _)) (plain_failed e) (fun _ => ⟨e, rfl⟩) k
  | _ =>
    refine turned_finish dropped (concludeCurrent_plain _ _ _) fun subscribes => ?_
    rw [asked] at subscribes
    cases subscribes

/-! ## A turn -/

theorem call?_beginWait (found : h.call? c.id = some c) (w : SyncWait) :
    (h.beginWait c w).call? c.id = some { c with phase := .syncing w, ticket := h.tickets } := by
  have found' : h.takeTicket.2.call? c.id = some c := found
  unfold beginWait
  simp only
  rw [call?_updateCall, found']
  · rfl
  · exact fun _ => rfl

theorem call?_queued (found : h.call? c.id = some c) (counted : Option Nat) :
    (h.updateCall c.id fun c => { c with phase := .queued counted }).call? c.id =
      some { c with phase := .queued counted, ticket := c.ticket } := by
  rw [call?_updateCall, found]
  · rfl
  · exact fun _ => rfl

/-- A call in a queue waits for no stream. -/
theorem holds_queued (h : Hub) (c : PendingCall) (counted : Option Nat) {ticket : Nat} :
    h.Holds { c with phase := .queued counted, ticket } :=
  fun _ _ _ _ _ _ waits => Phase.noConfusion waits

theorem HasTurn.known (turn : h.HasTurn k n) : (h.managers[k]?).isSome = true := by
  obtain ⟨manager, known, _⟩ := turn
  rw [known]
  rfl

theorem isSome_of_managed
    (managed : h.managers.map (·.multiplexer) <+: h'.managers.map (·.multiplexer))
    (known : (h.managers[k]?).isSome = true) : (h'.managers[k]?).isSome = true := by
  have more := managed.length_le
  rw [List.length_map, List.length_map] at more
  obtain ⟨manager, known⟩ := Option.isSome_iff_exists.mp known
  have here := Nat.lt_of_lt_of_le (List.getElem?_eq_some_iff.mp known).1 more
  rw [List.getElem?_eq_getElem here]
  rfl

/-- Whoever asks for the turn at a manager is in line for it. -/
theorem inLine_ask_self (known : (h.managers[k]?).isSome = true) (id : Nat) :
    (h.updateManager k (·.ask id)).InLine k id := by
  obtain ⟨manager, known⟩ := Option.isSome_iff_exists.mp known
  refine ⟨manager.ask id, ?_, manager.inLine_ask_self id⟩
  unfold updateManager
  rw [List.getElem?_modify, known]
  simp

theorem lined_updateCall (own : c.request.manager? = some k) (line : h.InLine k c.id)
    (f : PendingCall → PendingCall) (counted : Option Nat) {ticket : Nat} :
    (h.updateCall c.id f).Lined { c with phase := .queued counted, ticket } where
  queued own' _ := by
    cases own.symm.trans own'
    exact line
  waits waits := Phase.noConfusion waits

theorem waitOutcome?_synced {outcome : Except WatchError Unit}
    (ended : h.waitOutcome? w = some outcome) (well : outcome = .ok ()) :
    ∃ st, h.streams[w.stream]? = some st ∧ st.hasSynced = true := by
  subst well
  unfold waitOutcome? at ended
  split at ended
  · cases ended
  · rename_i st found
    refine ⟨st, found, ?_⟩
    cases synced : st.hasSynced with
    | true => rfl
    | false =>
      unfold Stream.syncOutcome? at ended
      simp only [synced, Bool.false_eq_true, if_false] at ended
      split at ended
      · rename_i outcome early
        split at early
        · cases early
          cases ended
        · split at early
          · cases early
            cases ended
          · cases early
      · split at ended
        · split at ended <;> cases ended
        · cases ended

/-- A call begins to wait, and goes on if the wait is over at once. -/
theorem turned_waitOrConclude (gentle : h.Gentle (some c.id) g) (found : g.call? c.id = some c)
    (awaits : c.request.awaits = true) (waits : h.Waits c w) (synced : g.streams = h.streams)
    (holds : ∀ {k owner target token}, c.request = .register k owner target token →
      (h.HasTurn k c.id ∧ (h.owners k).lookup owner = none) ∧ g.managers = h.managers) :
    Turned h c (g.waitOrConclude c w) := by
  have waiting := gentle.trans (gentle_beginWait g c w)
  unfold waitOrConclude
  simp only
  split
  · rename_i outcome ended
    refine turned_conclude waiting waits (fun well => ?_) fun asked => (holds asked).1
    obtain ⟨st, here, flag⟩ := waitOutcome?_synced ended well
    exact ⟨st, synced ▸ here, flag⟩
  · refine .waits waiting (call?_beginWait found w) (fun {k owner target token w'} asked _ => ?_)
      ⟨fun _ queued => Phase.noConfusion queued, fun _ => awaits⟩
    obtain ⟨⟨turn, free⟩, same⟩ := holds asked
    have managers : (g.beginWait c w).managers = h.managers := same
    unfold HasTurn Hub.owners at *
    rw [managers]
    exact ⟨turn, free⟩

theorem turned_runCurrent (gentle : h.Gentle (some c.id) g) (found : g.call? c.id = some c)
    (plain : c.request.isSubscriber = false) (awaits : c.request.awaits = true)
    (synced : g.streams = h.streams) (m : Nat) (r : Registration) :
    Turned h c (g.runCurrent c m r) := by
  have none {x : Nat × ObjectKey} (target : h.target? c.request = some x) : False := by
    cases asked : c.request <;> rw [asked] at plain target <;> cases plain <;> cases target
  unfold runCurrent
  split
  · exact turned_finish gentle (fun _ => nofun) fun subscribes => nomatch plain.symm.trans subscribes
  · refine turned_waitOrConclude gentle found awaits (fun target => (none target).elim) synced
      fun asked => ?_
    rw [asked] at plain
    cases plain

/-- A subscriber takes a reference, and waits or goes on. -/
theorem turned_subscribe (books : h.Books none) (found : h.call? c.id = some c)
    {mux : Multiplexer} (target : h.target? c.request = some (m, key))
    (known : h.multiplexers[m]? = some mux) (taken : w.stream = (h.acquire m mux key).1)
    (holds : ∀ {k owner target token}, c.request = .register k owner target token →
      h.HasTurn k c.id ∧ (h.owners k).lookup owner = none) :
    Turned (h.acquire m mux key).2 c ((h.acquire m mux key).2.waitOrConclude c w) := by
  have modest := modest_acquire h m mux key
  have found' : (h.acquire m mux key).2.call? c.id = some c := by
    unfold call? at found ⊢
    rw [calls_acquire, found]
  have awaits : c.request.awaits = true := by
    cases asked : c.request <;> first | rfl | (rw [asked] at target; cases target)
  refine turned_waitOrConclude (.refl _ _) found' awaits (fun {m' key'} target' => ?_) rfl
    fun asked => ?_
  · obtain ⟨_, f, face, issuer, hkey⟩ := books.acquire known key
    cases (target?_mono modest.managed target).symm.trans target'
    exact ⟨f, taken ▸ face, hkey, issuer⟩
  · obtain ⟨turn, free⟩ := holds asked
    exact ⟨⟨modest.turns nofun turn, (modest.owners _) ▸ free⟩, rfl⟩

/-- A call whose turn it is at its manager is carried out. -/
theorem turned_runTurn (books : h.Books none) (found : h.call? c.id = some c)
    {manager : Manager} (own : c.request.manager? = some k) (turn : h.HasTurn k c.id)
    (known : (h.managers[k]?).map (·.multiplexer) = some manager.multiplexer)
    (owners : h.owners k = manager.owners) (counted : Option Nat) :
    ∃ h', Takes h c h' ∧ Turned h' c (h.runTurn c k manager counted) := by
  have still := Gentle.refl (some c.id) h
  have plainly {reply : Reply} (plain : ∀ r, reply ≠ .registration r)
      (fails : c.request.isSubscriber = true → ∃ e, reply = .failed e) :
      ∃ h', Takes h c h' ∧ Turned h' c (h.finishTurn c k reply) :=
    ⟨h, .idle, turned_finishTurn still plain fails k⟩
  have others (plain : c.request.isSubscriber = false) {reply : Reply} :
      c.request.isSubscriber = true → ∃ e, reply = .failed e :=
    fun subscribes => absurd (plain.symm.trans subscribes) Bool.false_ne_true
  unfold runTurn
  cases asked : c.request with
  | register k' owner target token =>
    have same : k' = k := by simpa [asked, Request.manager?] using own
    subst same
    simp only
    split
    · exact plainly (plain_failed _) fun _ => ⟨_, rfl⟩
    · rename_i free
      have free : (h.owners k').lookup owner = none := by
        rw [owners]
        exact Option.not_isSome_iff_eq_none.mp free
      have aims : h.target? c.request = some (manager.multiplexer, owner.target target) := by
        obtain ⟨manager', known', eq⟩ := Option.map_eq_some_iff.mp known
        rw [asked]
        simp [target?, known', eq]
      rcases beginSubscribe_cases h manager.multiplexer (owner.target target) token with
        ⟨e, eq⟩ | ⟨mux, w, shared, taken, eq⟩
      · rw [eq]
        exact plainly (plain_failed _) fun _ => ⟨_, rfl⟩
      · rw [eq]
        refine ⟨_, .takes aims shared, turned_subscribe books found aims shared taken ?_⟩
        intro k owner' target' token' asked'
        cases asked.symm.trans asked'
        exact ⟨turn, free⟩
  | unregister k' owner =>
    have same : k' = k := by simpa [asked, Request.manager?] using own
    subst same
    have plain : c.request.isSubscriber = false := by rw [asked]; rfl
    simp only
    split
    · exact plainly (plain_failed _) (others plain)
    · rename_i r held
      rcases unsubscribe_gentle h manager.multiplexer r with
        ⟨e, eq⟩ | ⟨g, eq, _⟩ | ⟨_, g, eq, _⟩
      · rw [eq]
        exact plainly (plain_failed _) (others plain)
      all_goals
        have held' : (h.owners k').lookup owner = some r := owners ▸ held
        rw [eq]
        simp only
        rw [finishTurn_plain plain_ok]
        refine ⟨h, .idle, .unregisters asked turn held' known eq ?_ (call?_dropCall _ c.id)⟩
        exact (((gentle_say _ _ _).anybody _).trans (gentle_dropCall _ c.id)).trans
          (gentle_leaveTurn _ k' c.id)
  | currentOf k' owner =>
    have plain : c.request.isSubscriber = false := by rw [asked]; rfl
    simp only
    split
    · exact plainly (plain_failed _) (others plain)
    · refine ⟨h, .idle, turned_runCurrent (gentle_leaveTurn h k c.id) ?_ plain (by rw [asked]; rfl)
        rfl _ _⟩
      exact found
  | isRegistered k' owner => exact plainly (by simp) (others (by rw [asked]; rfl))
  | targetOf k' owner => exact plainly (by simp) (others (by rw [asked]; rfl))
  | size k' =>
    have plain : c.request.isSubscriber = false := by rw [asked]; rfl
    have left := gentle_leaveTurn h k c.id
    have back := left.trans (gentle_ask (h.leaveTurn k c.id) k c.id)
    simp only
    split
    · exact plainly (by simp) (others plain)
    · split
      · rename_i gone
        have known := isSome_of_managed left.managed turn.known
        rw [gone] at known
        cases known
      · split
        · exact ⟨h, .idle, turned_finishTurn back (by simp) (others plain) k⟩
        · have queued := back.trans (gentle_updateCall ((h.leaveTurn k c.id).updateManager k
            (·.ask c.id)) c.id (f := fun c => { c with phase := .queued (some manager.owners.length) })
            fun _ => rfl)
          have here : ((h.leaveTurn k c.id).updateManager k (·.ask c.id)).call? c.id = some c := found
          have line := inLine_ask_self (isSome_of_managed left.managed turn.known) c.id
          exact ⟨h, .idle, .waits queued (call?_queued here _) (holds_queued _ c _)
            (lined_updateCall own line _ _)⟩
  | attach n ref => rw [asked] at own; cases own
  | awaitSync n token => rw [asked] at own; cases own
  | subscribe m key ref token => rw [asked] at own; cases own
  | current m r => rw [asked] at own; cases own

/-- A call asks for its turn at its manager. -/
theorem turned_enterManager (books : h.Books none) (found : h.call? c.id = some c)
    (own : c.request.manager? = some k) : h.enterManager c k = h ∨
      ∃ h₁ h₂, Asked h c h₁ ∧ Takes h₁ c h₂ ∧ Turned h₂ c (h.enterManager c k) := by
  unfold enterManager
  split
  · exact .inl rfl
  · rename_i manager known
    right
    have asks := Asked.asks (h := h) own
    have here : (h.updateManager k (·.ask c.id)).managers[k]? = some (manager.ask c.id) := by
      unfold updateManager
      rw [List.getElem?_modify, known]
      simp
    have found' : (h.updateManager k (·.ask c.id)).call? c.id = some c := found
    simp only
    split
    · rename_i turn
      have books' := books.apart (aside_ask h k c.id).apart
      have table : (h.updateManager k (·.ask c.id)).owners k = manager.owners := by
        unfold Hub.owners
        rw [here]
        exact manager.owners_ask c.id
      obtain ⟨h', takes, turned⟩ := turned_runTurn books' found' own ⟨_, here, turn⟩
        (by rw [here]; exact congrArg some (manager.multiplexer_ask c.id)) table none
      exact ⟨_, h', asks, takes, turned⟩
    · exact ⟨_, _, asks, .idle, .waits (gentle_updateCall _ c.id fun _ => rfl)
        (call?_queued found' none) (holds_queued _ c none)
        (lined_updateCall own (inLine_ask_self (by rw [known]; rfl) c.id) _ none)⟩

/-- The first turn of a call. -/
theorem turned_startCall (books : h.Books none) (found : h.call? c.id = some c) :
    h.startCall c = h ∨
      ∃ h₁ h₂, Asked h c h₁ ∧ Takes h₁ c h₂ ∧ Turned h₂ c (h.startCall c) := by
  have still := Gentle.refl (some c.id) h
  have entered {k : Nat} (own : c.request.manager? = some k) := turned_enterManager books found own
  unfold startCall
  cases asked : c.request with
  | attach n ref =>
    right
    have plain : c.request.isSubscriber = false := by rw [asked]; rfl
    have bypassed := (gentle_bypass h n .attached).anybody (some c.id)
    simp only
    split
    · rename_i r g eq
      have attached := Rouses.anybody (rouses_attachHandler (h.bypass n .attached) n ref) (some c.id)
      rw [eq] at attached
      obtain ⟨st, stream, rfl, _⟩ := attachHandler_eq_ok (congrArg Prod.fst eq)
      rw [(beside_bypass h n .attached).streams] at stream
      rw [finish_registration]
      exact ⟨h, h, .idle, .idle, .attaches asked
        ((bypassed.rouses.trans attached).trans (gentle_dropCall _ c.id).rouses)
        (call?_dropCall _ c.id) stream rfl rfl⟩
    · rename_i e g eq
      obtain rfl : g = h.bypass n .attached :=
        (congrArg Prod.snd eq).symm.trans (attachHandler_eq_error (congrArg Prod.fst eq))
      exact ⟨h, h, .idle, .idle, turned_finish bypassed (fun _ => nofun)
        fun subscribes => nomatch plain.symm.trans subscribes⟩
  | awaitSync n token =>
    refine .inr ⟨h, h, .idle, .idle, turned_waitOrConclude still found (by rw [asked]; rfl)
      (fun target => ?_) rfl fun asked' => ?_⟩
    · rw [asked] at target
      cases target
    · cases asked.symm.trans asked'
  | subscribe m key ref token =>
    have target : h.target? c.request = some (m, key) := by rw [asked]; rfl
    right
    rcases beginSubscribe_cases h m key token with ⟨e, eq⟩ | ⟨mux, w, shared, taken, eq⟩
    · simp only [eq]
      exact ⟨h, h, .idle, .idle, turned_finish still (fun _ => nofun) fun _ => ⟨e, rfl⟩⟩
    · simp only [eq]
      refine ⟨h, _, .idle, .takes target shared, turned_subscribe books found target shared taken ?_⟩
      intro k owner target' token' asked'
      cases asked.symm.trans asked'
  | current m r =>
    exact .inr ⟨h, h, .idle, .idle, turned_runCurrent still found (by rw [asked]; rfl)
      (by rw [asked]; rfl) rfl m r⟩
  | register k owner target token =>
    simp only
    split
    · rename_i e _
      exact .inr ⟨h, h, .idle, .idle, turned_finish still (fun _ => nofun) fun _ => ⟨e, rfl⟩⟩
    · exact entered (by rw [asked]; rfl)
  | unregister k owner => exact entered (by rw [asked]; rfl)
  | currentOf k owner => exact entered (by rw [asked]; rfl)
  | isRegistered k owner => exact entered (by rw [asked]; rfl)
  | targetOf k owner => exact entered (by rw [asked]; rfl)
  | size k => exact entered (by rw [asked]; rfl)

/-- Every turn of a call is like that. -/
theorem callTurn_cases (books : h.Books none) (found : h.call? c.id = some c)
    (holds : h.Holds c) : h.callTurn c.id = h ∨
      ∃ h₁ h₂, Asked h c h₁ ∧ Takes h₁ c h₂ ∧ Turned h₂ c (h.callTurn c.id) := by
  unfold callTurn
  rw [found]
  simp only
  split
  · exact turned_startCall books found
  · rename_i counted queued
    split
    · exact .inl rfl
    · rename_i k own
      split
      · exact .inl rfl
      · rename_i manager known
        split
        · rename_i turn
          obtain ⟨h', takes, turned⟩ := turned_runTurn books found own ⟨manager, known, turn⟩
            (by rw [known]; rfl) (by unfold Hub.owners; rw [known]; rfl) counted
          exact .inr ⟨h, h', .idle, takes, turned⟩
        · exact .inl rfl
  · rename_i w waiting
    split
    · exact .inl rfl
    · rename_i outcome ended
      refine .inr ⟨h, h, .idle, .idle, turned_conclude (.refl _ h) (fun target => ?_)
        (waitOutcome?_synced ended) fun asked => holds asked waiting⟩
      have subscribes : c.request.isSubscriber = true := by
        cases asked : c.request <;> first | rfl | (rw [asked] at target; cases target)
      have waits : c.waitsOn? = some w.stream := by
        unfold PendingCall.waitsOn?
        rw [waiting]
        simp [subscribes]
      obtain ⟨f, m, face, issuer, target'⟩ :=
        books.waiting (List.mem_of_find?_eq_some found) waits
      cases target.symm.trans target'
      exact ⟨f, face, rfl, issuer⟩

/-! ## What a turn is to others -/

variable {h₁ : Hub} {c' : PendingCall} {who : Option Nat}

theorem Asked.aside (asked : Asked h c h₁) : h.Aside h₁ := by
  cases asked with
  | idle => exact .refl h
  | asks _ => exact aside_ask h _ c.id

theorem Asked.gentle (asked : Asked h c h₁) : h.Gentle (some c.id) h₁ := by
  cases asked with
  | idle => exact .refl _ h
  | asks _ => exact gentle_ask h _ c.id

theorem Takes.modest (takes : Takes h c h₁) : h.Modest none h₁ := by
  cases takes with
  | idle => exact .refl none h
  | takes _ _ => exact modest_acquire h _ _ _

theorem Takes.idle_of_target? (takes : Takes h c h₁) (none : h.target? c.request = none) :
    h₁ = h := by
  cases takes with
  | idle => rfl
  | takes target _ => cases none.symm.trans target

/-- A call that waits on behalf of an owner is not disturbed by what is modest to it. -/
theorem Holds.modest (holds : h.Holds c) (modest : h.Modest who h') (other : who ≠ some c.id) :
    h'.Holds c := by
  intro k owner target token w asked waits
  obtain ⟨turn, free⟩ := holds asked waits
  exact ⟨modest.turns other turn, (modest.owners k).symm ▸ free⟩

/-- Nobody has the turn of somebody else. -/
theorem HasTurn.sole {i j : Nat} (turn : h.HasTurn k i) (turn' : h.HasTurn k j) : i = j := by
  obtain ⟨manager, known, here⟩ := turn
  obtain ⟨manager', known', here'⟩ := turn'
  cases known.symm.trans known'
  exact Option.some.inj (here.symm.trans here')

/-- Only one call at a time waits on behalf of an owner of a manager: the one that has the turn. -/
theorem Holds.elsewhere (holds : h.Holds c') (turn : h.HasTurn k c.id) (other : c'.id ≠ c.id)
    {owner : OwnerKey} {target : String} {token : Nat}
    (asked : c'.request = .register k owner target token) : c'.phase ≠ .syncing w :=
  fun waits => other ((holds asked waits).1.sole turn)

/-- What happens at another manager does not disturb it either. -/
theorem Holds.updateManager (holds : h.Holds c) {f : Manager → Manager}
    (elsewhere : ∀ {owner : OwnerKey} {target : String} {token : Nat} {w : SyncWait},
      c.request = .register k owner target token → c.phase ≠ .syncing w) :
    (h.updateManager k f).Holds c := by
  intro k' owner target token w asked waits
  have other : ¬ k = k' := fun same => elsewhere (same ▸ asked) waits
  have same : (h.updateManager k f).managers[k']? = h.managers[k']? := by
    unfold Hub.updateManager
    simp [other]
  have held := holds asked waits
  unfold HasTurn Hub.owners at held ⊢
  rw [same]
  exact held

/-- Whoever unsubscribes is gentle, but for the reference that is given back. -/
theorem gentle_of_unsubscribe (left : h.unsubscribe m r = (.ok (), g)) :
    ∃ h₁, (h₁ = h ∨ ∃ late, h₁ = h.deal (.returned r late)) ∧ h₁.Gentle none g := by
  rcases unsubscribe_gentle h m r with ⟨e, eq⟩ | ⟨g', eq, gentle, _⟩ | ⟨late, g', eq, gentle, _⟩
  · cases left.symm.trans eq
  · cases left.symm.trans eq
    exact ⟨h, .inl rfl, gentle⟩
  · cases left.symm.trans eq
    exact ⟨_, .inr ⟨late, rfl⟩, gentle⟩

/-- Other calls stay. -/
theorem Turned.calls (turned : Turned h c h') (other : c'.id ≠ c.id) :
    c' ∈ h'.calls ↔ c' ∈ h.calls := by
  have away : some c.id ≠ some c'.id := fun same => other (Option.some.inj same).symm
  cases turned with
  | waits gentle _ _ => exact gentle.calls away
  | answers gentle _ _ => exact gentle.calls away
  | @attaches g _ _ r _ _ rouses _ _ _ _ =>
    have named : (g.enroll c.bind r).calls = g.calls := by cases c.bind <;> rfl
    show c' ∈ (g.enroll c.bind r).calls ↔ _
    rw [named]
    exact (Rouses.modest rouses).calls away
  | @subscribes g g' _ _ _ _ r _ rouses more _ _ _ _ =>
    have named : (g'.enroll c.bind r).calls = g'.calls := by cases c.bind <;> rfl
    show c' ∈ (g'.enroll c.bind r).calls ↔ _
    rw [named]
    exact (more.calls away).trans ((Rouses.modest rouses).calls away)
  | registers _ _ _ _ rouses more _ _ _ _ =>
    exact (more.calls away).trans ((Rouses.modest rouses).calls away)
  | unregisters _ _ _ _ left more _ =>
    obtain ⟨h₁, same, after⟩ := gentle_of_unsubscribe left
    refine (more.calls away).trans ((after.calls nofun).trans ?_)
    rcases same with rfl | ⟨late, rfl⟩ <;> exact Iff.rfl

/-- Other calls keep their turns, and their owners get nothing. -/
theorem Turned.holds (turned : Turned h c h') (other : c'.id ≠ c.id) (holds : h.Holds c') :
    h'.Holds c' := by
  have away : some c.id ≠ some c'.id := fun same => other (Option.some.inj same).symm
  cases turned with
  | waits gentle _ _ => exact holds.modest gentle.toModest away
  | @answers g _ gentle _ _ => exact (holds.modest gentle.toModest away : g.Holds c')
  | @attaches g _ _ r _ _ rouses _ _ _ _ =>
    have held := holds.modest (Rouses.modest rouses) away
    cases c.bind <;> exact held
  | @subscribes g g' _ _ _ _ r _ rouses more _ _ _ _ =>
    have held := (holds.modest (Rouses.modest rouses) away : g.Holds c')
    have held := Holds.modest (h := g.deal (.granted r)) held more.toModest away
    cases c.bind <;> exact held
  | @registers g g' k _ owner _ _ r _ _ turn _ rouses more _ _ _ _ =>
    have before := holds.modest (Rouses.modest rouses) away
    have granted : (g.deal (.granted r)).Holds c' := before
    have inserted := granted.updateManager (f := (·.insert owner r)) (holds.elsewhere turn other)
    have held := inserted.modest more.toModest away
    exact held
  | @unregisters g g' k _ owner r _ turn _ _ left more _ =>
    obtain ⟨h₁, same, after⟩ := gentle_of_unsubscribe left
    have given : h₁.Holds c' := by
      rcases same with rfl | ⟨late, rfl⟩ <;> exact holds
    have unsubscribed := given.modest after.toModest nofun
    have erased := unsubscribed.updateManager (f := (·.erase owner)) (holds.elsewhere turn other)
    have held := erased.modest more.toModest away
    exact held

/-! ## Events -/

theorem call?_of_mem (indexed : h.Indexed) (mem : c ∈ h.calls) : h.call? c.id = some c := by
  cases found : h.call? c.id with
  | none => simpa using List.find?_eq_none.mp found c mem
  | some c' =>
    have mem' := List.mem_of_find?_eq_some found
    rw [List.inj_on_of_nodup_map indexed.ids mem' mem (id_of_call? found)]

/-- Whether an event drops a call that subscribes to multiplexer `m`, or registers an owner with it. -/
def dropsSubscriber (h : Hub) (m : Nat) : Event → Bool
  | .command _ (.abort i) => (h.call? i).any fun c => (h.target? c.request).any (·.1 = m)
  | _ => false

/-- What happens to a hub, as far as it matters who gets and loses what. -/
inductive Course (h : Hub) : Event → Hub → Prop
  | gentle {e : Event} {who : Option Nat} {h' : Hub} : h.Gentle who h' →
    (∀ c ∈ h'.calls, who = some c.id → c.phase = .fresh ∧ h.Aims c.request) → Course h e h'
  | starts {e : Event} {g : Hub} (n parent : Nat) : h.Gentle none g →
    Course h e (g.startStream n parent).2
  | steps (id : Nat) : Course h (.loop id) (h.loopStep id)
  | ends (id : Nat) : Course h (.loopEnd id) (h.loopEnd id)
  | waits (ms : Nat) : Course h (.wait ms) { h with now := h.now + ms }
  | drops {id i n : Nat} {c : PendingCall} {g h' : Hub} : h.call? i = some c →
    c.waitsOn? = some n → h.Gentle none g → (g.deal (.lost n)).Gentle (some i) h' →
    (∀ c ∈ h'.calls, c.id ≠ i) → Course h (.command id (.abort i)) h'
  | turns {c : PendingCall} {h₁ h₂ h' : Hub} : h.call? c.id = some c → Asked h c h₁ →
    Takes h₁ c h₂ → Turned h₂ c h' → Course h (.call c.id) h'

/-- Every event takes one of these courses. -/
theorem step_course (books : h.Books none) (holds : ∀ c ∈ h.calls, h.Holds c) (e : Event) :
    h.Course e (h.step e) := by
  have still (e : Event) : h.Course e h := .gentle (.refl none h) nofun
  cases e with
  | command id o =>
    unfold step
    simp only
    split
    · rename_i possible
      rw [Bool.and_eq_true] at possible
      have free : h.call? id = none := by simpa using possible.2
      by_cases drop : ∃ i, o = .abort i
      · obtain ⟨i, rfl⟩ := drop
        rcases abort_cases h i with gentle | ⟨c, n, g, found, waits, before, after⟩
        · exact .gentle gentle fun c mem same =>
            absurd (Option.some.inj same).symm (calls_abort mem)
        · exact .drops found waits before after fun c => calls_abort
      · have kept : ∀ i, o ≠ .abort i := fun i same => drop ⟨i, same⟩
        have ordered := perform_ordered possible.1 kept free
        generalize (h.perform id o).2 = h' at ordered ⊢
        cases ordered with
        | gentle gentle fresh _ =>
          exact .gentle gentle fun c mem same => fresh c mem (Option.some.inj same).symm
        | starts n parent gentle => exact .starts n parent gentle
    · exact still _
  | loop id => exact .steps id
  | loopEnd id => exact .ends id
  | call id =>
    show h.Course (.call id) (h.callTurn id)
    cases found : h.call? id with
    | none =>
      unfold callTurn
      rw [found]
      exact still _
    | some c =>
      obtain rfl := id_of_call? found
      rcases callTurn_cases books found (holds c (List.mem_of_find?_eq_some found)) with
        same | ⟨h₁, h₂, asked, takes, turned⟩
      · rw [same]
        exact still _
      · exact .turns found asked takes turned
  | collect => exact .gentle (gentle_collect h) nofun
  | wait ms => exact .waits ms

theorem run_snoc (h : Hub) (es : List Event) (e : Event) : h.run (es ++ [e]) = (h.run es).step e :=
  run_append h es [e]

/-- What is said of a call is true when the call is made and while it waits, and others do not make it
false. -/
structure Steady (P : Hub → PendingCall → Prop) : Prop where
  fresh : ∀ {h c}, c.phase = .fresh → P h c
  waits : ∀ {h c}, h.Holds c → h.Lined c → P h c
  modest : ∀ {h h' who c}, h.Modest who h' → who ≠ some c.id → P h c → P h' c
  lost : ∀ {h c n}, P h c → P (h.deal (.lost n)) c
  later : ∀ {h c ms}, P h c → P { h with now := h.now + ms } c
  turned : ∀ {h h' c c'}, Turned h c h' → c'.id ≠ c.id → P h c' → P h' c'

/-- So it is true of all calls after every event. -/
theorem Steady.course {P : Hub → PendingCall → Prop} (steady : Steady P) {e : Event}
    (course : h.Course e h') (indexed : h'.Indexed) (all : ∀ c ∈ h.calls, P h c) :
    ∀ c ∈ h'.calls, P h' c := by
  intro c' mem
  have kept {h' : Hub} (modest : h.Modest none h') (mem : c' ∈ h'.calls) : P h' c' :=
    steady.modest modest nofun (all c' ((modest.calls nofun).mp mem))
  cases course with
  | @gentle _ who _ gentle fresh =>
    by_cases own : who = some c'.id
    · exact steady.fresh (fresh c' mem own).1
    · exact steady.modest gentle.toModest own (all c' ((gentle.calls own).mp mem))
  | starts n parent gentle => exact kept (gentle.toModest.trans (modest_startStream _ n parent)) mem
  | steps id => exact kept (modest_loopStep h id) mem
  | ends id => exact kept (modest_loopEnd h id) mem
  | waits ms => exact steady.later (all c' mem)
  | @drops _ i n _ g _ _ _ before after gone =>
    have own : some i ≠ some c'.id := fun same => gone c' mem (Option.some.inj same).symm
    have old := (before.calls nofun).mp ((after.calls own).mp mem)
    exact steady.modest after.toModest own
      (steady.lost (steady.modest before.toModest nofun (all c' old)))
  | @turns c h₁ h₂ _ found asked takes turned =>
    by_cases other : c'.id = c.id
    · -- The call itself waits, or it is gone.
      have absent {g : Hub} (gone : g.call? c.id = none) (mem : c' ∈ g.calls) : False := by
        simpa [other] using List.find?_eq_none.mp gone c' mem
      have named {g : Hub} {r : Registration} : (g.enroll c.bind r).calls = g.calls := by
        cases c.bind <;> rfl
      cases turned with
      | waits _ found' holds lined =>
        have mem' := List.mem_of_find?_eq_some found'
        rw [List.inj_on_of_nodup_map indexed.ids mem mem' other]
        exact steady.waits holds lined
      | answers _ gone _ => exact (absent gone mem).elim
      | attaches _ _ gone _ _ _ => exact (absent gone (named ▸ mem)).elim
      | subscribes _ _ _ gone _ _ _ => exact (absent gone (named ▸ mem)).elim
      | registers _ _ _ _ _ _ gone _ _ _ _ => exact (absent gone mem).elim
      | unregisters _ _ _ _ _ _ gone => exact (absent gone mem).elim
    · have modest := asked.gentle.toModest.trans (takes.modest.anybody _)
      have away : some c.id ≠ some c'.id := fun same => other (Option.some.inj same).symm
      have old := (modest.calls away).mp ((turned.calls other).mp mem)
      exact steady.turned turned other (steady.modest modest away (all c' old))

/-- Whoever waits on behalf of an owner still has the turn, and the owner still holds nothing. -/
theorem steady_holds : Steady Holds where
  fresh fresh := fun _ _ _ _ _ _ waits => nomatch fresh.symm.trans waits
  waits holds _ := holds
  modest modest other holds := holds.modest modest other
  lost holds := holds
  later holds := holds
  turned turned other holds := turned.holds other holds

theorem holds_run (limit : Nat) (draws : Draws) (es : List Event) :
    ∀ c ∈ ((start limit draws).run es).calls, ((start limit draws).run es).Holds c := by
  induction es using List.reverseRecOn with
  | nil => exact fun _ mem => (List.not_mem_nil mem).elim
  | append_singleton es e ih =>
    have books := (moment_run limit draws es).books
    have books' := (moment_run limit draws (es ++ [e])).books
    rw [run_snoc] at books' ⊢
    exact steady_holds.course (step_course books ih e) books'.toIndexed ih

/-- Every event of a run takes one of these courses. -/
theorem run_course (limit : Nat) (draws : Draws) (es : List Event) (e : Event) :
    ((start limit draws).run es).Course e ((start limit draws).run (es ++ [e])) := by
  rw [run_snoc]
  exact step_course (moment_run limit draws es).books (holds_run limit draws es) e

end Hub

end SharedWatch
