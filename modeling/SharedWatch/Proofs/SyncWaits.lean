import SharedWatch.Proofs.MultiplexerFrame
import SharedWatch.Proofs.RetryBudget
import SharedWatch.Proofs.RootTokens

/-!
# What calls wait for

A call that waits for the first sync of a stream does so until the wait is over, or the call is
dropped.  What may end the wait is settled when it begins: the stream, the token of the caller and, if a
multiplexer is dealt with, the bound that its settings put on the wait.

* `calls_step`: a call stays as it is, unless it gets a turn or is dropped.
* `Hub.Opens`: a turn makes a call wait; `Opens.callTurn`: what else the turn does.
* `Opens.fits`: the wait is the one that the request asks for (`Hub.Fits`).
* `begins_callTurn`: a call that waits after a turn has opened the wait in it, or waited before;
  `opened_run`: so every wait in a run has been opened.
-/

namespace SharedWatch

/-- The token by which the caller of a request gives up, if the request comes with one. -/
def Request.token? : Request → Option Nat
  | awaitSync _ token | subscribe _ _ _ token | register _ _ _ token => some token
  | _ => none

namespace Hub

variable {h h' g : Hub} {c c' : PendingCall} {e : Event} {k m n : Nat} {key : ObjectKey}
  {request : Request} {mux : Multiplexer} {w w' : SyncWait}

/-! ## Calls stay -/

/-- A call gets a turn, or is dropped. -/
def Touches (id : Nat) (e : Event) : Prop := e = .call id ∨ ∃ i, e = .command i (.abort id)

/-- A call that is left alone stays as it is. -/
theorem calls_step (books : h.Books none) (holds : ∀ c ∈ h.calls, h.Holds c)
    (left : ¬ Touches c.id e) (mem : c ∈ h.calls) : c ∈ (h.step e).calls := by
  have gentle {who : Option Nat} {h' : Hub} (gentle : h.Gentle who h') (other : who ≠ some c.id) :
      c ∈ h'.calls := (gentle.calls other).mpr mem
  cases e with
  | command i o =>
    unfold step
    simp only
    split
    · rename_i possible
      rw [Bool.and_eq_true] at possible
      have free : h.call? i = none := by simpa using possible.2
      have other : some i ≠ some c.id := by
        intro same
        simpa [Option.some.inj same] using List.find?_eq_none.mp free c mem
      by_cases drop : ∃ j, o = .abort j
      · obtain ⟨j, rfl⟩ := drop
        have spared : some j ≠ some c.id := by
          intro same
          obtain rfl := Option.some.inj same
          exact left (.inr ⟨i, rfl⟩)
        rcases abort_cases h j with gone | ⟨_, _, _, _, _, before, after⟩
        · exact gentle gone spared
        · refine (after.calls spared).mpr ?_
          exact (before.calls nofun).mpr mem
      · have ordered := perform_ordered possible.1 (fun j same => drop ⟨j, same⟩) free
        generalize (h.perform i o).2 = h' at ordered ⊢
        cases ordered with
        | gentle done _ _ => exact gentle done other
        | starts n parent before =>
          exact ((modest_startStream _ n parent).calls nofun).mpr (gentle before nofun)
    · exact mem
  | loop id => exact ((modest_loopStep h id).calls nofun).mpr mem
  | loopEnd id => exact ((modest_loopEnd h id).calls nofun).mpr mem
  | call id =>
    have other : c.id ≠ id := fun same => left (.inl (by rw [same]))
    show c ∈ (h.callTurn id).calls
    cases found : h.call? id with
    | none =>
      unfold callTurn
      rwa [found]
    | some c₁ =>
      obtain rfl := id_of_call? found
      rcases callTurn_cases books found (holds c₁ (List.mem_of_find?_eq_some found)) with
        same | ⟨h₁, h₂, asked, takes, turned⟩
      · rwa [same]
      · exact (turned.calls other).mpr ((takes.modest.calls nofun).mpr (asked.aside.calls ▸ mem))
  | collect => exact gentle (gentle_collect h) nofun
  | wait ms => exact mem

/-! ## What lasts -/

/-- Multiplexers keep their settings, managers their multiplexers, and streams are not forgotten.  Time
does not go back, and tokens that have fired have fired for good. -/
structure Lasts (h h' : Hub) : Prop where
  now : h.now ≤ h'.now
  fired : h.fired ⊆ h'.fired
  roots : h.multiplexers.map (fun mux => (mux.root, mux.settings)) <+:
    h'.multiplexers.map fun mux => (mux.root, mux.settings)
  managed : h.managers.map (·.multiplexer) <+: h'.managers.map (·.multiplexer)
  streams : ∀ n : Nat, (h.streams[n]?).isSome = true → (h'.streams[n]?).isSome = true

theorem Modest.lasts {who : Option Nat} (modest : h.Modest who h') : h.Lasts h' where
  now := Nat.le_of_eq modest.now.symm
  fired := modest.fired
  roots := modest.roots
  managed := modest.managed
  streams n here := by
    have more := modest.identities.length_le
    rw [List.length_map, List.length_map] at more
    obtain ⟨st, found⟩ := Option.isSome_iff_exists.mp here
    have bound := Nat.lt_of_lt_of_le (List.getElem?_eq_some_iff.mp found).1 more
    rw [List.getElem?_eq_getElem bound]
    rfl

theorem Lasts.refl (h : Hub) : h.Lasts h := (Modest.refl none h).lasts

theorem Lasts.trans {h'' : Hub} (first : h.Lasts h') (second : h'.Lasts h'') : h.Lasts h'' where
  now := Nat.le_trans first.now second.now
  fired := List.Subset.trans first.fired second.fired
  roots := first.roots.trans second.roots
  managed := first.managed.trans second.managed
  streams n here := second.streams n (first.streams n here)

theorem Turned.managed (turned : Turned h c h') :
    h.managers.map (·.multiplexer) <+: h'.managers.map (·.multiplexer) := by
  have named (g : Hub) (r : Registration) : (g.enroll c.bind r).managers = g.managers := by
    cases c.bind <;> rfl
  have changed (g : Hub) (k : Nat) {f : Manager → Manager}
      (same : ∀ manager, (f manager).multiplexer = manager.multiplexer) :
      g.managers.map (·.multiplexer) <+: (g.updateManager k f).managers.map (·.multiplexer) :=
    (aside_updateManager g k same).managed
  cases turned with
  | waits gentle _ _ => exact gentle.managed
  | answers gentle _ _ => exact gentle.managed
  | @attaches g _ _ r _ _ rouses _ _ _ _ =>
    show _ <+: (g.enroll c.bind r).managers.map _
    rw [named]
    exact (Rouses.modest rouses).managed
  | @subscribes g g' _ _ _ _ r _ rouses more _ _ _ _ =>
    show _ <+: (g'.enroll c.bind r).managers.map _
    rw [named]
    exact (Rouses.modest rouses).managed.trans more.managed
  | @registers g _ k _ owner _ _ r _ _ _ _ rouses more _ _ _ _ =>
    exact (Rouses.modest rouses).managed.trans
      ((changed (g.deal (.granted r)) k (f := (·.insert owner r)) fun _ => rfl).trans more.managed)
  | @unregisters g _ k _ owner _ _ _ _ _ left more _ =>
    obtain ⟨h₁, same, after⟩ := gentle_of_unsubscribe left
    have given : h₁.managers = h.managers := by
      rcases same with rfl | ⟨late, rfl⟩ <;> rfl
    have unsubscribed := given ▸ after.managed
    exact (unsubscribed.trans (changed g k (f := (·.erase owner)) fun _ => rfl)).trans more.managed

theorem Turned.lasts (turned : Turned h c h') : h.Lasts h' where
  now := SparingSteps.clock turned.sparing
  fired := SparingSteps.fired turned.sparing
  roots := SparingSteps.roots turned.sparing
  managed := turned.managed
  streams n here := by
    obtain ⟨st, found⟩ := Option.isSome_iff_exists.mp here
    obtain ⟨st', found', _⟩ := SparingSteps.old turned.sparing found
    rw [found']
    rfl

theorem Course.lasts (course : h.Course e h') : h.Lasts h' := by
  cases course with
  | gentle gentle _ => exact gentle.lasts
  | starts n parent gentle => exact gentle.lasts.trans (modest_startStream _ n parent).lasts
  | steps id => exact (modest_loopStep h id).lasts
  | ends id => exact (modest_loopEnd h id).lasts
  | waits ms => exact { Lasts.refl h with now := Nat.le_add_right _ _ }
  | @drops _ _ n _ g _ _ _ before after _ =>
    have lost : g.Lasts (g.deal (.lost n)) := { Lasts.refl g with }
    exact (before.lasts.trans lost).trans after.lasts
  | turns _ asked takes turned => exact (asked.gentle.lasts.trans takes.modest.lasts).trans turned.lasts

/-- So it is with whatever follows in a run. -/
theorem lasts_run (limit : Nat) (draws : Draws) (es fs : List Event) :
    ((start limit draws).run es).Lasts ((start limit draws).run (es ++ fs)) := by
  induction fs using List.reverseRecOn with
  | nil => exact (List.append_nil es).symm ▸ .refl _
  | append_singleton fs e ih =>
    rw [← List.append_assoc]
    exact ih.trans (run_course limit draws (es ++ fs) e).lasts

theorem Aims.lasts (aims : h.Aims request) (lasts : h.Lasts h') : h'.Aims request :=
  fun n own => lasts.streams n (aims n own)

/-! ## What a wait looks like -/

/-- The registration by way of which a request reads an object, and the multiplexer that it asks. -/
def reads? (h : Hub) : Request → Option (Nat × Registration)
  | .current m r => some (m, r)
  | .currentOf k owner => (h.managers[k]?).bind fun manager =>
    (manager.registration? owner).map fun r => (manager.multiplexer, r)
  | _ => none

/-- A wait that begins now is the one that the request asks for.  Somebody who wants nothing but to wait
does so until the caller gives up, without a bound.  A subscriber waits for the stream that its key leads
to, a reader for that of its registration, until the token of the caller or of the multiplexer fires, and
no longer than the settings of the multiplexer say, counted from now. -/
structure Fits (h : Hub) (request : Request) (w : SyncWait) : Prop where
  here : (h.streams[w.stream]?).isSome = true
  awaits : ∀ n token, request = .awaitSync n token → w = ⟨n, token, none⟩
  subscribes : ∀ m key, h.target? request = some (m, key) → ∃ mux e token,
    h.multiplexers[m]? = some mux ∧ h.monitor? m key = some e ∧ request.token? = some token ∧
      w = ⟨e.stream, token, mux.settings.syncTimeout?.map fun d => (d, h.now + d.millis)⟩
  reads : ∀ m r, h.reads? request = some (m, r) → ∃ mux,
    h.multiplexers[m]? = some mux ∧ r.issuer = some m ∧
      w = ⟨r.stream, mux.root, mux.settings.syncTimeout?.map fun d => (d, h.now + d.millis)⟩

/-- A call of manager `k` can have the turn now: it asks for it and gets it, or it has it already. -/
inductive GetsTurn (h : Hub) (c : PendingCall) (k : Nat) (manager : Manager) : Hub → Prop
  | asks : c.phase = .fresh → (∀ owner target token, c.request = .register k owner target token →
      ownerRefusal? owner = none) → (manager.ask c.id).turn = some c.id →
    GetsTurn h c k manager (h.updateManager k (·.ask c.id))
  | has {counted : Option Nat} : c.phase = .queued counted → manager.turn = some c.id →
    GetsTurn h c k manager h

/-- A turn that call `c` has now makes it wait for the first sync of a stream.  What it does before that
leads to the second hub. -/
inductive Opens (h : Hub) (c : PendingCall) : SyncWait → Hub → Prop
  | awaits {n token : Nat} : c.phase = .fresh → c.request = .awaitSync n token →
    Opens h c ⟨n, token, none⟩ h
  | subscribes {g : Hub} {m : Nat} {key : ObjectKey} {ref : HandlerRef} {token : Nat} {w : SyncWait} :
    c.phase = .fresh → c.request = .subscribe m key ref token →
    h.beginSubscribe m key token = (.ok w, g) → Opens h c w g
  | reads {m : Nat} {r : Registration} {w : SyncWait} : c.phase = .fresh → c.request = .current m r →
    h.beginCurrent m r = .ok w → Opens h c w h
  | registers {g g' : Hub} {k : Nat} {owner : OwnerKey} {target : String} {token : Nat}
      {manager : Manager} {w : SyncWait} : c.request = .register k owner target token →
    h.managers[k]? = some manager → h.GetsTurn c k manager g → manager.contains owner = false →
    g.beginSubscribe manager.multiplexer (owner.target target) token = (.ok w, g') → Opens h c w g'
  | readsOwner {g : Hub} {k : Nat} {owner : OwnerKey} {manager : Manager} {r : Registration}
      {w : SyncWait} : c.request = .currentOf k owner → h.managers[k]? = some manager →
    h.GetsTurn c k manager g → manager.registration? owner = some r →
    (g.leaveTurn k c.id).beginCurrent manager.multiplexer r = .ok w →
    Opens h c w (g.leaveTurn k c.id)

/-! ## How a wait begins -/

theorem call?_finish (h : Hub) (c : PendingCall) (reply : Reply) :
    (h.finish c reply).call? c.id = none := by
  unfold finish
  simp only
  split <;> exact call?_dropCall _ c.id

theorem call?_finishTurn (h : Hub) (c : PendingCall) (k : Nat) (reply : Reply) :
    (h.finishTurn c k reply).call? c.id = none := call?_finish h c reply

/-- A call whose wait is over waits no longer. -/
theorem call?_conclude (h : Hub) (c : PendingCall) (w : SyncWait)
    (outcome : Except WatchError Unit) : (h.conclude c w outcome).call? c.id = none := by
  unfold conclude
  cases c.request with
  | register k owner target token =>
    simp only
    split
    · exact call?_dropCall h c.id
    · split
      · exact call?_finishTurn _ c k _
      · exact call?_finishTurn _ c k _
  | _ => exact call?_finish _ c _

/-- A key leads to the stream to which a reference has just been taken. -/
theorem entry_acquire (known : h.multiplexers[m]? = some mux) (key : ObjectKey) :
    ∃ e, (h.acquire m mux key).2.monitor? m key = some e ∧ e.stream = (h.acquire m mux key).1 := by
  have put {g : Hub} (same : g.multiplexers = h.multiplexers) (e : Monitor) :
      (g.updateMultiplexer m (·.put key e)).monitor? m key = some e := by
    rw [monitor?_put (same ▸ known), if_pos ⟨rfl, rfl⟩]
  have opened : (h.openStream m mux key).2.multiplexers = h.multiplexers :=
    (apart_openStream h m mux key).multiplexers
  unfold acquire
  split
  · rename_i e _
    split
    · exact ⟨_, put rfl _, rfl⟩
    · refine ⟨⟨(h.openStream m mux key).1, 1⟩, ?_, rfl⟩
      have retired (g : Hub) : (g.retire e).monitor? m key = g.monitor? m key := by
        have same := (apart_retire g e).multiplexers.trans (multiplexers_haltStream g e.stream)
        unfold monitor?
        rw [same]
      exact (retired _).trans (put opened _)
  · exact ⟨⟨(h.openStream m mux key).1, 1⟩, put opened _, rfl⟩

/-- The wait of a subscriber is for the stream of its key. -/
theorem beginSubscribe_eq_ok (books : h.Books none) {token : Nat}
    (begun : h.beginSubscribe m key token = (.ok w, g)) :
    ∃ mux e, h.multiplexers[m]? = some mux ∧ g = (h.acquire m mux key).2 ∧
      (g.streams[e.stream]?).isSome = true ∧ g.monitor? m key = some e ∧
      w = g.boundedWait mux e.stream token := by
  unfold beginSubscribe at begun
  split at begun
  · cases begun
  · cases begun
  · rename_i mux _ known
    obtain ⟨waits, rfl⟩ := Prod.mk.inj begun
    obtain ⟨e, entry, own⟩ := entry_acquire known key
    obtain ⟨_, f, face, _⟩ := books.acquire known key
    obtain ⟨st, found, _⟩ := face?_eq_some.mp face
    refine ⟨mux, e, known, rfl, ?_, entry, ?_⟩
    · show ((h.acquire m mux key).2.streams[e.stream]?).isSome = true
      rw [own, found]
      rfl
    · rw [own]
      exact (Except.ok.inj waits).symm

/-- The wait of a reader is for the stream of its registration. -/
theorem beginCurrent_eq_ok {r : Registration} (begun : h.beginCurrent m r = .ok w) :
    ∃ mux, h.multiplexers[m]? = some mux ∧ (h.streams[r.stream]?).isSome = true ∧
      r.issuer = some m ∧ w = h.boundedWait mux r.stream mux.root := by
  unfold beginCurrent at begun
  split at begun
  · cases begun
  rename_i issued
  split at begun
  · cases begun
  rename_i mux known
  split at begun
  · cases begun
  rename_i e entry
  split at begun
  · cases begun
  rename_i st found
  have own : e.stream = r.stream := of_decide_eq_true (Option.filter_eq_some_iff.mp entry).2
  split at begun
  · cases begun
  split at begun
  · cases begun
    refine ⟨mux, known, ?_, of_not_not issued, by rw [own]⟩
    rw [← own, found]
    rfl
  · cases begun

theorem GetsTurn.aside {manager : Manager} (gets : h.GetsTurn c k manager g) : h.Aside g := by
  cases gets with
  | asks => exact aside_ask h k c.id
  | has => exact .refl h

theorem GetsTurn.gentle {manager : Manager} (gets : h.GetsTurn c k manager g) :
    h.Gentle (some c.id) g := by
  cases gets with
  | asks => exact gentle_ask h k c.id
  | has => exact .refl _ h

/-- What a call does before it waits. -/
theorem Opens.before (opens : h.Opens c w g) : h.Modest (some c.id) g ∧ g.calls = h.calls := by
  have began {h' : Hub} {m : Nat} {key : ObjectKey} {token : Nat}
      (begun : h'.beginSubscribe m key token = (.ok w, g)) :
      h'.Modest (some c.id) g ∧ g.calls = h'.calls := by
    rcases beginSubscribe_cases h' m key token with ⟨e, eq⟩ | ⟨mux, w', _, _, eq⟩
    · cases eq.symm.trans begun
    · cases eq.symm.trans begun
      exact ⟨(modest_acquire h' m mux key).anybody _, calls_acquire h' m mux key⟩
  cases opens with
  | awaits => exact ⟨.refl _ h, rfl⟩
  | subscribes _ _ begun => exact began begun
  | reads => exact ⟨.refl _ h, rfl⟩
  | registers _ _ gets _ begun =>
    obtain ⟨modest, calls⟩ := began begun
    exact ⟨gets.gentle.toModest.trans modest, calls.trans gets.aside.calls⟩
  | readsOwner _ _ gets _ _ =>
    exact ⟨gets.gentle.toModest.trans (gentle_leaveTurn _ _ c.id).toModest, gets.aside.calls⟩

theorem Opens.lasts (opens : h.Opens c w g) : h.Lasts g := opens.before.1.lasts

theorem Opens.call? (opens : h.Opens c w g) (found : h.call? c.id = some c) :
    g.call? c.id = some c := by
  unfold Hub.call? at found ⊢
  rw [opens.before.2, found]

/-- A call that gets the turn at its manager is carried out. -/
theorem GetsTurn.callTurn {manager : Manager} (gets : h.GetsTurn c k manager g)
    (found : h.call? c.id = some c) (own : c.request.manager? = some k)
    (known : h.managers[k]? = some manager) :
    ∃ counted, h.callTurn c.id = g.runTurn c k manager counted := by
  unfold Hub.callTurn
  rw [found]
  cases gets with
  | asks fresh accepted granted =>
    have enters : h.enterManager c k = (h.updateManager k (·.ask c.id)).runTurn c k manager none := by
      unfold enterManager
      simp only [known, granted, if_true]
    refine ⟨none, ?_⟩
    rw [← enters]
    simp only [fresh]
    unfold startCall
    cases asked : c.request with
    | register k' owner target token =>
      rw [asked] at own
      cases own
      simp only [accepted owner target token asked]
    | attach n ref => rw [asked] at own; cases own
    | awaitSync n token => rw [asked] at own; cases own
    | subscribe m key ref token => rw [asked] at own; cases own
    | current m r => rw [asked] at own; cases own
    | _ =>
      rw [asked] at own
      cases own
      rfl
  | @has counted queued turn =>
    refine ⟨counted, ?_⟩
    simp only [queued, own, known, turn, if_true]

/-- A call that opens a wait waits for its stream, and goes on if the wait is over at once. -/
theorem Opens.callTurn (opens : h.Opens c w g) (found : h.call? c.id = some c) :
    h.callTurn c.id = g.waitOrConclude c w := by
  cases opens with
  | awaits fresh asked =>
    unfold Hub.callTurn
    simp only [found, fresh]
    unfold startCall
    simp only [asked]
  | subscribes fresh asked begun =>
    unfold Hub.callTurn
    simp only [found, fresh]
    unfold startCall
    simp only [asked, begun]
  | reads fresh asked begun =>
    unfold Hub.callTurn
    simp only [found, fresh]
    unfold startCall runCurrent
    simp only [asked, begun]
  | registers asked known gets free begun =>
    obtain ⟨counted, eq⟩ := gets.callTurn found (by rw [asked]; rfl) known
    rw [eq]
    unfold runTurn
    simp only [asked, free, begun, Bool.false_eq_true, if_false]
  | readsOwner asked known gets held begun =>
    obtain ⟨counted, eq⟩ := gets.callTurn found (by rw [asked]; rfl) known
    rw [eq]
    unfold runTurn runCurrent
    simp only [asked, held, begun]

/-! ## A wait is the one that its request asks for -/

theorem fits_subscriber (books : h.Books none) {token : Nat}
    (target : g.target? request = some (m, key)) (heeds : request.token? = some token)
    (begun : h.beginSubscribe m key token = (.ok w, g)) : g.Fits request w := by
  obtain ⟨mux, e, known, rfl, here, entry, rfl⟩ := beginSubscribe_eq_ok books begun
  obtain ⟨mux', known', same⟩ := Option.map_eq_some_iff.mp
    (known_of_roots (modest_acquire h m mux key).roots (m := m) (by rw [known]; rfl))
  have settings : mux'.settings = mux.settings := congrArg Prod.snd same
  refine ⟨here, fun n token' asked => ?_, fun m' key' target' => ?_, fun m' r asked => ?_⟩
  · rw [asked] at target
    cases target
  · cases target.symm.trans target'
    exact ⟨mux', e, token, known', entry, heeds, by rw [settings]; rfl⟩
  · cases request with
    | current m r => cases target
    | currentOf k owner => cases target
    | _ => cases asked

theorem fits_reader {r : Registration} (reads : h.reads? request = some (m, r))
    (begun : h.beginCurrent m r = .ok w) : h.Fits request w := by
  obtain ⟨mux, known, here, issuer, rfl⟩ := beginCurrent_eq_ok begun
  refine ⟨here, fun n token' asked => ?_, fun m' key' target => ?_, fun m' r' reads' => ?_⟩
  · rw [asked] at reads
    cases reads
  · cases request with
    | subscribe m key ref token => cases reads
    | register k owner target token => cases reads
    | _ => cases target
  · cases reads.symm.trans reads'
    exact ⟨mux, known, issuer, rfl⟩

/-- The wait that a call opens is the one that its request asks for. -/
theorem Opens.fits (opens : h.Opens c w g) (books : h.Books none) (aims : h.Aims c.request) :
    g.Fits c.request w := by
  cases opens with
  | @awaits n token _ asked =>
    refine ⟨aims n (by rw [asked]; rfl), fun n' token' asked' => ?_, fun m key target => ?_,
      fun m r reads => ?_⟩
    · cases asked.symm.trans asked'
      rfl
    · rw [asked] at target
      cases target
    · rw [asked] at reads
      cases reads
  | subscribes _ asked begun =>
    exact fits_subscriber books (by rw [asked]; rfl) (by rw [asked]; rfl) begun
  | reads _ asked begun => exact fits_reader (by rw [asked]; rfl) begun
  | @registers g₀ _ k owner target token manager _ asked known gets _ begun =>
    have aims : h.target? c.request = some (manager.multiplexer, owner.target target) := by
      rw [asked]
      simp [target?, known]
    rcases beginSubscribe_cases g₀ manager.multiplexer (owner.target target) token with
      ⟨e, eq⟩ | ⟨mux, w', _, _, eq⟩
    · cases eq.symm.trans begun
    · cases eq.symm.trans begun
      have managed := gets.aside.managed.trans
        (modest_acquire g₀ manager.multiplexer mux (owner.target target)).managed
      exact fits_subscriber (books.apart gets.aside.apart) (target?_mono managed aims)
        (by rw [asked]; rfl) begun
  | @readsOwner g₀ k owner manager r _ asked known gets held begun =>
    refine fits_reader ?_ begun
    have before := gets.gentle.trans (gentle_leaveTurn g₀ k c.id)
    obtain ⟨manager', known'⟩ :=
      Option.isSome_iff_exists.mp (isSome_of_managed before.managed (by rw [known]; rfl))
    have owners := before.owners k
    have uses : h.uses? c.request = some manager.multiplexer := by
      rw [uses?_of_manager (by rw [asked]; rfl), known]
      rfl
    have works := uses?_mono before.managed uses
    rw [uses?_of_manager (by rw [asked]; rfl), known'] at works
    unfold Hub.owners at owners
    rw [known, known'] at owners
    have held' : manager'.owners.lookup owner = some r := (congrArg (·.lookup owner) owners).trans held
    rw [asked]
    unfold reads?
    simp only [known', Option.bind_some, Manager.registration?, held', Option.map_some]
    rw [show manager'.multiplexer = manager.multiplexer from Option.some.inj works]

/-! ## How a turn ends -/

/-- If a call still waits for the first sync after its turn, it is a wait of which `P` holds, and the wait
is not over. -/
def Begins (P : SyncWait → Prop) (c : PendingCall) (h : Hub) : Prop :=
  ∀ c', h.call? c.id = some c' → c'.request = c.request ∧
    ∀ w, c'.phase = .syncing w → P w ∧ h.waitOutcome? w = none

variable {P : SyncWait → Prop}

theorem begins_gone (gone : h.call? c.id = none) : Begins P c h :=
  fun _ found => nomatch gone.symm.trans found

theorem begins_idle (found : h.call? c.id = some c) (idle : ∀ w, c.phase ≠ .syncing w) :
    Begins P c h := by
  intro c' found'
  cases found.symm.trans found'
  exact ⟨rfl, fun w waits => absurd waits (idle w)⟩

theorem begins_queued (found : h.call? c.id = some c) (counted : Option Nat) :
    Begins P c (h.updateCall c.id fun c => { c with phase := .queued counted }) := by
  intro c' found'
  cases (call?_queued found counted).symm.trans found'
  exact ⟨rfl, nofun⟩

theorem begins_waitOrConclude (holds : P w) (found : h.call? c.id = some c) :
    Begins P c (h.waitOrConclude c w) := by
  unfold waitOrConclude
  simp only
  split
  · exact begins_gone (call?_conclude _ c w _)
  · rename_i waits
    intro c' found'
    cases (call?_beginWait found w).symm.trans found'
    refine ⟨rfl, fun w' same => ?_⟩
    obtain rfl := Phase.syncing.inj same
    exact ⟨holds, waits⟩

/-- A call that opens a wait, and waits then, has changed nothing else. -/
theorem lasts_waitOrConclude (found : (h.waitOrConclude c w).call? c.id = some c') :
    h.Lasts (h.waitOrConclude c w) := by
  unfold waitOrConclude at found ⊢
  simp only at found ⊢
  split at found
  · cases (call?_conclude _ c w _).symm.trans found
  · exact (gentle_beginWait h c w).lasts

theorem begins_runCurrent {r : Registration} (holds : ∀ w, h.beginCurrent m r = .ok w → P w)
    (found : h.call? c.id = some c) : Begins P c (h.runCurrent c m r) := by
  unfold runCurrent
  split
  · exact begins_gone (call?_finish _ c _)
  · rename_i w begun
    exact begins_waitOrConclude (holds w begun) found

theorem begins_subscribe {token : Nat} (begun : h.beginSubscribe m key token = (.ok w, g)) (holds : P w)
    (found : h.call? c.id = some c) : Begins P c (g.waitOrConclude c w) := by
  rcases beginSubscribe_cases h m key token with ⟨e, eq⟩ | ⟨mux, w', _, _, eq⟩
  · cases eq.symm.trans begun
  · cases eq.symm.trans begun
    refine begins_waitOrConclude holds ?_
    unfold call? at found ⊢
    rw [calls_acquire, found]

/-- A call that is carried out at its manager opens a wait, if it waits then. -/
theorem begins_runTurn {manager : Manager} (gets : h.GetsTurn c k manager g)
    (known : h.managers[k]? = some manager) (found : h.call? c.id = some c)
    (idle : ∀ w, c.phase ≠ .syncing w) (own : c.request.manager? = some k) (counted : Option Nat) :
    Begins (fun w => ∃ g', h.Opens c w g') c (g.runTurn c k manager counted) := by
  have found' : g.call? c.id = some c := by
    unfold call? at found ⊢
    rw [gets.aside.calls, found]
  have returned (g : Hub) (reply : Reply) :
      Begins (fun w => ∃ g', h.Opens c w g') c (g.finishTurn c k reply) :=
    begins_gone (call?_finishTurn g c k reply)
  have still {g : Hub} (found : g.call? c.id = some c) :
      Begins (fun w => ∃ g', h.Opens c w g') c g := begins_idle found idle
  unfold runTurn
  cases asked : c.request with
  | register k' owner target token =>
    rw [asked] at own
    cases own
    simp only
    split
    · exact returned _ _
    · rename_i free
      split
      · exact returned _ _
      · rename_i w g' begun
        exact begins_subscribe begun
          ⟨g', .registers asked known gets (Bool.eq_false_iff.mpr free) begun⟩ found'
  | unregister k' owner =>
    simp only
    split
    · exact returned _ _
    · split <;> exact returned _ _
  | currentOf k' owner =>
    rw [asked] at own
    cases own
    simp only
    split
    · exact returned _ _
    · rename_i r held
      exact begins_runCurrent (h := g.leaveTurn k c.id)
        (fun w begun => ⟨_, .readsOwner asked known gets held begun⟩) found'
  | isRegistered k' owner => exact returned _ _
  | targetOf k' owner => exact returned _ _
  | size k' =>
    simp only
    split
    · exact returned _ _
    · split
      · exact still (g := g.leaveTurn k c.id) found'
      · split
        · exact returned _ _
        · exact begins_queued (h := (g.leaveTurn k c.id).updateManager k (·.ask c.id)) found' _
  | attach n ref => exact still found'
  | awaitSync n token => exact still found'
  | subscribe m key ref token => exact still found'
  | current m r => exact still found'

theorem begins_enterManager (found : h.call? c.id = some c) (fresh : c.phase = .fresh)
    (own : c.request.manager? = some k) (accepted : ∀ owner target token,
      c.request = .register k owner target token → ownerRefusal? owner = none) :
    Begins (fun w => ∃ g, h.Opens c w g) c (h.enterManager c k) := by
  have idle (w : SyncWait) : c.phase ≠ .syncing w := fun waits => nomatch fresh.symm.trans waits
  unfold enterManager
  split
  · exact begins_idle found idle
  · rename_i manager known
    simp only
    split
    · rename_i granted
      exact begins_runTurn (.asks fresh accepted granted) known found idle own none
    · exact begins_queued (h := h.updateManager k (·.ask c.id)) found none

/-- The first turn of a call. -/
theorem begins_startCall (found : h.call? c.id = some c) (fresh : c.phase = .fresh) :
    Begins (fun w => ∃ g, h.Opens c w g) c (h.startCall c) := by
  have returned (g : Hub) (reply : Reply) : Begins (fun w => ∃ g', h.Opens c w g') c (g.finish c reply) :=
    begins_gone (call?_finish g c reply)
  have entered {k : Nat} (own : c.request.manager? = some k)
      (plain : c.request.isSubscriber = false) :
      Begins (fun w => ∃ g, h.Opens c w g) c (h.enterManager c k) :=
    begins_enterManager found fresh own fun owner target token asked => by
      rw [asked] at plain
      cases plain
  unfold startCall
  cases asked : c.request with
  | attach n ref =>
    simp only
    split <;> exact returned _ _
  | awaitSync n token => exact begins_waitOrConclude ⟨h, .awaits fresh asked⟩ found
  | subscribe m key ref token =>
    simp only
    split
    · exact returned _ _
    · rename_i w g begun
      exact begins_subscribe begun ⟨g, .subscribes fresh asked begun⟩ found
  | current m r => exact begins_runCurrent (fun w begun => ⟨h, .reads fresh asked begun⟩) found
  | register k owner target token =>
    simp only
    split
    · exact returned _ _
    · rename_i accepted
      refine begins_enterManager found fresh (by rw [asked]; rfl) fun owner' target' token' asked' => ?_
      cases asked.symm.trans asked'
      exact accepted
  | unregister k owner => exact entered (by rw [asked]; rfl) (by rw [asked]; rfl)
  | currentOf k owner => exact entered (by rw [asked]; rfl) (by rw [asked]; rfl)
  | isRegistered k owner => exact entered (by rw [asked]; rfl) (by rw [asked]; rfl)
  | targetOf k owner => exact entered (by rw [asked]; rfl) (by rw [asked]; rfl)
  | size k => exact entered (by rw [asked]; rfl) (by rw [asked]; rfl)

/-- A call that waits for a stream after a turn did so before, or has opened the wait in this turn. -/
theorem begins_callTurn (found : h.call? c.id = some c) :
    Begins (fun w => c.phase = .syncing w ∨ ∃ g, h.Opens c w g) c (h.callTurn c.id) := by
  have opened {h' : Hub} (begins : Begins (fun w => ∃ g, h.Opens c w g) c h') :
      Begins (fun w => c.phase = .syncing w ∨ ∃ g, h.Opens c w g) c h' := fun c' found' =>
    ⟨(begins c' found').1, fun w waits => ((begins c' found').2 w waits).imp_left .inr⟩
  unfold callTurn
  rw [found]
  simp only
  split
  · rename_i fresh
    exact opened (begins_startCall found fresh)
  · rename_i counted queued
    have idle (w : SyncWait) : c.phase ≠ .syncing w := fun waits => nomatch queued.symm.trans waits
    split
    · exact begins_idle found idle
    · rename_i k own
      split
      · exact begins_idle found idle
      · rename_i manager known
        split
        · rename_i turn
          exact opened (begins_runTurn (.has queued turn) known found idle own counted)
        · exact begins_idle found idle
  · rename_i w waiting
    split
    · rename_i waits
      intro c' found'
      cases found.symm.trans found'
      refine ⟨rfl, fun w' same => ?_⟩
      obtain rfl := Phase.syncing.inj (waiting.symm.trans same)
      exact ⟨.inl same, waits⟩
    · exact begins_gone (call?_conclude h c w _)

/-! ## Runs -/

/-- The stream of a request is there, and so are that of its wait and its manager. -/
structure Valid (h : Hub) (c : PendingCall) : Prop where
  aims : h.Aims c.request
  here : ∀ w, c.phase = .syncing w → (h.streams[w.stream]?).isSome = true
  managed : ∀ w k, c.phase = .syncing w → c.request.manager? = some k → (h.managers[k]?).isSome = true

theorem Valid.lasts (valid : h.Valid c) (lasts : h.Lasts h') : h'.Valid c where
  aims := valid.aims.lasts lasts
  here w waits := lasts.streams _ (valid.here w waits)
  managed w k waits own := isSome_of_managed lasts.managed (valid.managed w k waits own)

theorem Opens.managed (opens : h.Opens c w g) (own : c.request.manager? = some k) :
    (h.managers[k]?).isSome = true := by
  have there {k' : Nat} {manager : Manager} (known : h.managers[k']? = some manager)
      (asked : c.request.manager? = some k') : (h.managers[k]?).isSome = true := by
    cases own.symm.trans asked
    rw [known]
    rfl
  cases opens with
  | awaits _ asked => rw [asked] at own; cases own
  | subscribes _ asked _ => rw [asked] at own; cases own
  | reads _ asked _ => rw [asked] at own; cases own
  | registers asked known _ _ _ => exact there known (by rw [asked]; rfl)
  | readsOwner asked known _ _ _ => exact there known (by rw [asked]; rfl)

/-- A call that is there afterwards was there before, has just had a turn, or has just been made. -/
theorem Course.calls (course : h.Course e h') (mem : c ∈ h'.calls) :
    c ∈ h.calls ∨ e = .call c.id ∨ c.phase = .fresh ∧ h.Aims c.request := by
  cases course with
  | @gentle _ who _ gentle made =>
    by_cases own : who = some c.id
    · exact .inr (.inr (made c mem own))
    · exact .inl ((gentle.calls own).mp mem)
  | starts n parent gentle =>
    exact .inl ((gentle.calls nofun).mp (((modest_startStream _ n parent).calls nofun).mp mem))
  | steps id => exact .inl (((modest_loopStep h id).calls nofun).mp mem)
  | ends id => exact .inl (((modest_loopEnd h id).calls nofun).mp mem)
  | waits ms => exact .inl mem
  | @drops _ i n _ g _ _ _ before after dropped =>
    have other : some i ≠ some c.id := fun same => dropped c mem (Option.some.inj same).symm
    have lost : c ∈ (g.deal (.lost n)).calls := (after.calls other).mp mem
    exact .inl ((before.calls nofun).mp lost)
  | @turns c' h₁ h₂ _ _ asked takes turned =>
    by_cases own : c.id = c'.id
    · exact .inr (.inl (congrArg Event.call own.symm))
    · have taken : c ∈ h₂.calls := (turned.calls own).mp mem
      exact .inl (asked.aside.calls ▸ (takes.modest.calls nofun).mp taken)

/-- Where a call comes from that is there after an event: it was there before, has opened its wait in this
event, or does not wait for a stream. -/
theorem calls_cases (limit : Nat) (draws : Draws) (es : List Event) (e : Event)
    (mem : c ∈ ((start limit draws).run (es ++ [e])).calls) :
    (∃ c₀ ∈ ((start limit draws).run es).calls, c₀.id = c.id ∧ c₀.request = c.request ∧
      ∀ w, c.phase = .syncing w → c₀.phase = .syncing w ∨
        e = .call c.id ∧ ∃ g, ((start limit draws).run es).Opens c₀ w g) ∨
    c.phase = .fresh ∧ ((start limit draws).run es).Aims c.request := by
  have books := (moment_run limit draws es).books
  have indexed' := (moment_run limit draws (es ++ [e])).books.toIndexed
  have holds := holds_run limit draws es
  rw [run_snoc] at mem indexed'
  generalize (start limit draws).run es = h at *
  have kept (old : c ∈ h.calls) : ∃ c₀ ∈ h.calls, c₀.id = c.id ∧ c₀.request = c.request ∧
      ∀ w, c.phase = .syncing w → c₀.phase = .syncing w ∨ e = .call c.id ∧ ∃ g, h.Opens c₀ w g :=
    ⟨c, old, rfl, rfl, fun _ waits => .inl waits⟩
  rcases (step_course books holds e).calls mem with old | rfl | made
  · exact .inl (kept old)
  · cases found : h.call? c.id with
    | none =>
      have idle : h.step (.call c.id) = h := by
        show h.callTurn c.id = h
        unfold callTurn
        rw [found]
      exact .inl (kept (idle ▸ mem))
    | some c₀ =>
      have own := id_of_call? found
      have begins := begins_callTurn (own.symm ▸ found : h.call? c₀.id = some c₀) c
        (own.symm ▸ call?_of_mem indexed' mem)
      refine .inl ⟨c₀, List.mem_of_find?_eq_some found, own, begins.1.symm, fun w waits => ?_⟩
      exact (begins.2 w waits).1.imp_right fun opens => ⟨rfl, opens⟩
  · exact .inr made

/-- In every run, what a call deals with is there. -/
theorem valid_run (limit : Nat) (draws : Draws) (es : List Event) :
    ∀ c ∈ ((start limit draws).run es).calls, ((start limit draws).run es).Valid c := by
  induction es using List.reverseRecOn with
  | nil => exact nofun
  | append_singleton es e ih =>
    intro c mem
    have lasts := (run_course limit draws es e).lasts
    rcases calls_cases limit draws es e mem with ⟨c₀, mem₀, own, same, waits⟩ | ⟨fresh, aims⟩
    · have valid := (ih c₀ mem₀).lasts lasts
      refine ⟨same ▸ valid.aims, fun w waiting => ?_, fun w k waiting asked => ?_⟩
      · rcases waits w waiting with before | ⟨rfl, g, opens⟩
        · exact valid.here w before
        · have books := (moment_run limit draws es).books
          have indexed' := (moment_run limit draws (es ++ [.call c.id])).books.toIndexed
          have found := call?_of_mem books.toIndexed mem₀
          have found' := call?_of_mem indexed' mem
          have turn : (start limit draws).run (es ++ [.call c.id]) = g.waitOrConclude c₀ w := by
            rw [run_snoc, ← own]
            exact opens.callTurn found
          rw [turn, ← own] at found'
          rw [turn]
          exact (lasts_waitOrConclude found').streams _ (opens.fits books (ih c₀ mem₀).aims).here
      · rcases waits w waiting with before | ⟨_, g, opens⟩
        · exact valid.managed w k before (same ▸ asked)
        · exact isSome_of_managed lasts.managed (opens.managed (same ▸ asked))
    · exact ⟨aims.lasts lasts, fun w waits => (nomatch fresh.symm.trans waits),
        fun w k waits => (nomatch fresh.symm.trans waits)⟩

/-- In every run, a call that waits for a stream has opened the wait in one of its turns. -/
theorem opened_run (limit : Nat) (draws : Draws) (es : List Event) {c : PendingCall}
    (mem : c ∈ ((start limit draws).run es).calls) (waits : c.phase = .syncing w) :
    ∃ fs gs c₀ g, es = fs ++ .call c.id :: gs ∧ c₀ ∈ ((start limit draws).run fs).calls ∧
      c₀.id = c.id ∧ c₀.request = c.request ∧ ((start limit draws).run fs).Opens c₀ w g := by
  induction es using List.reverseRecOn generalizing c with
  | nil => cases mem
  | append_singleton es e ih =>
    rcases calls_cases limit draws es e mem with ⟨c₀, mem₀, own, same, before⟩ | ⟨fresh, _⟩
    · rcases before w waits with waiting | ⟨rfl, g, opens⟩
      · obtain ⟨fs, gs, c₁, g, rfl, mem₁, own₁, same₁, opens⟩ := ih mem₀ waiting
        refine ⟨fs, gs ++ [e], c₁, g, ?_, mem₁, own₁.trans own, same₁.trans same, opens⟩
        rw [own, List.append_assoc, List.cons_append]
      · exact ⟨es, [], c₀, g, rfl, mem₀, own, same, opens⟩
    · cases fresh.symm.trans waits

end Hub

end SharedWatch
