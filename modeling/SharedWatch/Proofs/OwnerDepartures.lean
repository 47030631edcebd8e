import SharedWatch.Proofs.ManagerQueue
import SharedWatch.Proofs.OwnerRegistrations

/-!
# How owners leave

A manager keeps an owner as long as its multiplexer refuses to take the registration back.  It never does:
the handler of an owner is attached for as long as the stream runs, and nothing is asked of a stream that
has been stopped, replaced or forgotten.  So every owner can leave.

* `Hub.Parts`, `Hub.Settles`: what becomes of a registration's reference when it unsubscribes.
* `unsubscribe_settles`: a registration whose handler is attached, or whose stream has been stopped, is
  taken back.
* `Hub.UnregisterTurn`: what one turn of a call does that unregisters an owner.
* `owners_can_leave`: it waits while another call has the turn; otherwise the owner leaves.
-/

namespace SharedWatch

namespace Hub

variable {h h' h'' g : Hub} {c : PendingCall} {k m n : Nat} {owner : OwnerKey} {r : Registration}
  {e : Monitor} {st : Stream} {mux : Multiplexer}

/-- A registration gives one reference back to the entry `e` of its key.  With the last one the entry
goes, and the stream is stopped if it has not been yet.  Other streams look the same. -/
structure Parts (h h' : Hub) (m : Nat) (r : Registration) (e : Monitor) : Prop
    extends GivesBack h h' m r e where
  others : ∀ n, n ≠ r.stream → h'.face? n = h.face? n
  stops : ∃ f f', h.face? r.stream = some f ∧ h'.face? r.stream = some f' ∧
    (f'.isStopped = true ↔ f.isStopped = true ∨ e.refcount ≤ 1)

/-- A reference goes back to the entry of the registration's key if its stream is the one that the entry
leads to, and nothing happens to multiplexers and streams if it is not. -/
structure Settles (h h' : Hub) (m : Nat) (r : Registration) : Prop where
  current : h.isCurrent r = true → ∃ e, h.Parts h' m r e
  stale : h.isCurrent r = false → h.Rests h'

/-! ## A registration is taken back -/

theorem Rests.trans (first : h.Rests h') (second : h'.Rests h'') : h.Rests h'' :=
  ⟨second.multiplexers.trans first.multiplexers, second.streams.trans first.streams,
    second.accounts.trans first.accounts⟩

theorem Rests.face? (rests : h.Rests h') (n : Nat) : h'.face? n = h.face? n := by
  unfold Hub.face?
  rw [rests.streams]

theorem Rests.monitor? (rests : h.Rests h') (m : Nat) (key : ObjectKey) :
    h'.monitor? m key = h.monitor? m key := by
  unfold Hub.monitor?
  rw [rests.multiplexers]

theorem Rests.isCurrent (rests : h.Rests h') (r : Registration) : h'.isCurrent r = h.isCurrent r := by
  unfold Hub.isCurrent
  simp only [rests.monitor?]

theorem Parts.rests (parts : h.Parts h' m r e) (rests : h'.Rests h'') : h.Parts h'' m r e where
  entry := parts.entry
  own := parts.own
  entries m' key := (rests.monitor? m' key).trans (parts.entries m' key)
  gauge := (Prod.mk.inj rests.accounts).2.trans parts.gauge
  returned := by
    obtain ⟨late, dealings, lingers⟩ := parts.returned
    exact ⟨late, (Prod.mk.inj rests.accounts).1.trans dealings, lingers⟩
  others n other := (rests.face? n).trans (parts.others n other)
  stops := by
    obtain ⟨f, f', face, face', stops⟩ := parts.stops
    exact ⟨f, f', face, (rests.face? _).trans face', stops⟩

theorem Rests.lingers (rests : h.Rests g) (m : Nat) (r : Registration) :
    g.Lingers m r ↔ h.Lingers m r := by
  unfold Lingers
  rw [rests.monitor?, rests.streams]

theorem Rests.parts (rests : h.Rests g) (parts : g.Parts h' m r e) : h.Parts h' m r e where
  entry := (rests.monitor? m r.key).symm.trans parts.entry
  own := parts.own
  entries m' key := (parts.entries m' key).trans (by rw [rests.monitor?])
  gauge := by
    rw [parts.gauge, (Prod.mk.inj rests.accounts).2]
  returned := by
    obtain ⟨late, dealings, lingers⟩ := parts.returned
    refine ⟨late, ?_, lingers.trans (rests.lingers m r)⟩
    rw [dealings, (Prod.mk.inj rests.accounts).1]
  others n other := (parts.others n other).trans (rests.face? n)
  stops := by
    obtain ⟨f, f', face, face', stops⟩ := parts.stops
    exact ⟨f, f', (rests.face? _).symm.trans face, face', stops⟩

theorem Rests.settles (rests : h.Rests g) (settles : g.Settles h' m r) : h.Settles h' m r where
  current current :=
    (settles.current ((rests.isCurrent r).trans current)).imp fun _ parts => rests.parts parts
  stale stale := rests.trans (settles.stale ((rests.isCurrent r).trans stale))

theorem Settles.rests (settles : h.Settles h' m r) (rests : h'.Rests h'') : h.Settles h'' m r where
  current current := (settles.current current).imp fun _ parts => parts.rests rests
  stale stale := (settles.stale stale).trans rests

/-- The handler of a registration leaves its stream. -/
theorem leaveStream_eq_ok (found : h.streams[r.stream]? = some st) (same : r.key = st.key)
    (attends : h.Attends r.stream r.handler) : ∃ g, h.leaveStream r.stream st r = .ok g := by
  unfold leaveStream
  split
  · exact ⟨_, rfl⟩
  · rename_i running
    obtain ⟨st', found', attached⟩ := attends
    cases found.symm.trans found'
    obtain ⟨handler, mem, own⟩ := attached (by simpa using running)
    have there : (st.handlers.any fun handler => handler.1 = r.handler) = true :=
      List.any_eq_true.mpr ⟨handler, mem, decide_eq_true own⟩
    unfold Stream.detach
    rw [if_pos ⟨rfl, same, there⟩]
    exact ⟨_, rfl⟩

theorem face?_leaveStream (found : h.streams[n]? = some st) (left : h.leaveStream n st r = .ok g) :
    (∀ i, i ≠ n → g.face? i = h.face? i) ∧
      ∃ f, g.face? n = some f ∧ f.isStopped = st.isStopped := by
  unfold leaveStream at left
  split at left
  · cases left
    exact ⟨fun _ _ => rfl, st.face, face?_eq_some.mpr ⟨st, found, rfl⟩, rfl⟩
  · cases detached : st.detach n r with
    | error failure =>
      rw [detached] at left
      cases left
    | ok st' =>
      rw [detached] at left
      cases left
      obtain ⟨_, state⟩ := Stream.bides_detach detached
      have streams (i : Nat) := streams_updateStream h n (fun _ => st') i
      refine ⟨fun i other => ?_, st'.face, face?_eq_some.mpr ⟨st', ?_, rfl⟩, ?_⟩
      · unfold Hub.face?
        rw [streams, if_neg other.symm]
      · rw [streams, if_pos rfl, found]
        rfl
      · show st'.isStopped = st.isStopped
        unfold Stream.isStopped
        rw [state]

theorem face?_closeRegistration (h : Hub) (m : Nat) (mux : Multiplexer) (r : Registration)
    (late : Bool) (e : Monitor) (i : Nat) : (h.closeRegistration m mux r late e).face? i =
      if e.refcount ≤ 1 ∧ e.stream = i then (h.face? i).map Face.halt else h.face? i := by
  unfold closeRegistration giveBack
  by_cases last : e.refcount ≤ 1
  · simp only [last, if_true, true_and]
    have stopped (g : Hub) : ((g.stopStream e.stream).2.say .info "watch stream removed").face? i =
        (g.haltStream e.stream).2.face? i := by
      unfold Hub.face?
      rw [← streams_stopStream]
      rfl
    rw [stopped, face?_haltStream]
    rfl
  · simp only [last, if_false, false_and, Bool.false_eq_true]
    rfl

/-- A registration of the stream of its key is taken back. -/
theorem unsubscribe_of_current (issuer : r.issuer = some m) (current : h.isCurrent r = true)
    (found : h.streams[r.stream]? = some st) (left : h.leaveStream r.stream st r = .ok g) :
    ∃ g' e, h.unsubscribe m r = (.ok (), g') ∧ h.Parts g' m r e := by
  obtain ⟨m', e, issuer', entry, own⟩ := stream_of_isCurrent current
  cases issuer.symm.trans issuer'
  have stays := face?_leaveStream found left
  rw [← own] at found left
  obtain ⟨mux, eq, back⟩ := unsubscribe_of_entry issuer entry own found left
  refine ⟨g.closeRegistration m mux r st.isStopped e, e, eq,
    { back with
      others := fun n other => ?_
      stops := ?_ }⟩
  · rw [face?_closeRegistration, if_neg fun same => other (same.2.symm.trans own)]
    exact stays.1 n other
  · obtain ⟨f, face, same⟩ := stays.2
    refine ⟨st.face, if e.refcount ≤ 1 then f.halt else f,
      face?_eq_some.mpr ⟨st, own ▸ found, rfl⟩, ?_, ?_⟩
    · rw [face?_closeRegistration, face]
      by_cases last : e.refcount ≤ 1
      · rw [if_pos ⟨last, own⟩, if_pos last]
        rfl
      · rw [if_neg fun both => last both.1, if_neg last]
    · show _ ↔ st.isStopped = true ∨ _
      split
      · rename_i last
        simp [last]
      · rename_i last
        simp [last, same]

/-- A registration whose handler is attached, or whose stream has been stopped, is taken back by its
multiplexer. -/
theorem unsubscribe_settles (genuine : h.Genuine r) (issuer : r.issuer = some m)
    (attends : h.Attends r.stream r.handler) :
    ∃ g, h.unsubscribe m r = (.ok (), g) ∧ h.Settles g m r := by
  cases current : h.isCurrent r with
  | true =>
    obtain ⟨_, f, face, hkey, _⟩ := genuine
    obtain ⟨st, found, rfl⟩ := face?_eq_some.mp face
    obtain ⟨g, left⟩ := leaveStream_eq_ok found hkey.symm attends
    obtain ⟨g', e, eq, parts⟩ := unsubscribe_of_current issuer current found left
    exact ⟨g', eq, fun _ => ⟨e, parts⟩, fun stale => nomatch current.symm.trans stale⟩
  | false =>
    obtain ⟨lines, eq⟩ := unsubscribe_of_stale issuer current
    exact ⟨_, eq, fun now => (nomatch current.symm.trans now), fun _ => ⟨rfl, rfl, rfl⟩⟩

/-! ## The owner leaves -/

/-- What one turn of a call does that unregisters an owner of manager `k`.  It waits in line while another
pending call of the manager has the turn, and nothing happens; or it succeeds, and that owner goes with
its registration, which is taken back by the manager's multiplexer. -/
inductive UnregisterTurn (h : Hub) (c : PendingCall) (k : Nat) (owner : OwnerKey) (r : Registration) :
    Hub → Prop
  | waits {h' : Hub} {c' holder : PendingCall} : holder.id ≠ c.id → h.HeldBy k holder →
    h'.call? c.id = some c' → c'.request = c.request → h'.InLine k c.id → h.Rests h' →
    (∀ j, h'.owners j = h.owners j) → h'.returned = h.returned →
    UnregisterTurn h c k owner r h'
  | leaves {h' : Hub} {m : Nat} : (∀ i, h.HasTurn k i → i = c.id) → h'.call? c.id = none →
    h'.returned = h.returned ++ [(c.id, .ok)] →
    (∀ j, h'.owners j = if k = j then (h.owners j).filter (·.1 != owner) else h.owners j) →
    r.issuer = some m → h.Settles h' m r → UnregisterTurn h c k owner r h'

/-- A call whose turn it is takes the owner out of the table. -/
theorem runTurn_unregister {manager : Manager} (genuine : h.Genuine r)
    (issuer : r.issuer = some manager.multiplexer) (attends : h.Attends r.stream r.handler)
    (asked : c.request = .unregister k owner) (held : manager.owners.lookup owner = some r)
    (counted : Option Nat) :
    (h.runTurn c k manager counted).call? c.id = none ∧
    (h.runTurn c k manager counted).returned = h.returned ++ [(c.id, .ok)] ∧
    (∀ j, (h.runTurn c k manager counted).owners j =
      if k = j then (h.owners j).filter (·.1 != owner) else h.owners j) ∧
    h.Settles (h.runTurn c k manager counted) manager.multiplexer r := by
  obtain ⟨g, eq, settles⟩ := unsubscribe_settles genuine issuer attends
  obtain ⟨h₁, same, gentle⟩ := gentle_of_unsubscribe eq
  have before : h₁.returned = h.returned ∧ ∀ j, h₁.owners j = h.owners j := by
    rcases same with rfl | ⟨late, rfl⟩ <;> exact ⟨rfl, fun _ => rfl⟩
  obtain ⟨g₁, carried, gone, returned, owners, rests⟩ : ∃ g₁,
      h.runTurn c k manager counted = (g₁.leaveTurn k c.id).answer c.id .ok ∧
      g₁.call? c.id = none ∧ g₁.returned = g.returned ∧
      (∀ j, g₁.owners j = (g.updateManager k (·.erase owner)).owners j) ∧ g.Rests g₁ := by
    refine ⟨((g.updateManager k (·.erase owner)).say .info "owner unregistered").dropCall c.id, ?_,
      call?_dropCall _ c.id, rfl, fun _ => rfl, ⟨rfl, rfl, rfl⟩⟩
    unfold runTurn
    simp only [asked, Manager.registration?, held, eq]
    exact finishTurn_plain plain_ok _ c k
  rw [carried]
  refine ⟨gone, ?_, fun j => ?_, (settles.rests rests).rests ⟨rfl, rfl, rfl⟩⟩
  · exact congrArg (· ++ _) (returned.trans (gentle.returned.trans before.1))
  · have left := (gentle_leaveTurn g₁ k c.id).owners j
    refine left.trans ((owners j).trans ((owners_erase g k owner j).trans ?_))
    rw [gentle.owners, before.2]

/-- A call that asks for its turn has it if nobody else does; otherwise it is put off. -/
theorem enterManager_cases {manager : Manager} (known : h.managers[k]? = some manager)
    (c : PendingCall) :
    (h.enterManager c k = (h.updateManager k (·.ask c.id)).runTurn c k manager none ∧
      ∀ i, h.HasTurn k i → i = c.id) ∨
    ∃ i, i ≠ c.id ∧ h.HasTurn k i ∧ h.enterManager c k = (h.updateManager k (·.ask c.id)).updateCall
      c.id fun c => { c with phase := .queued none } := by
  unfold enterManager
  simp only [known]
  split
  · rename_i granted
    refine .inl ⟨rfl, fun i other => ?_⟩
    obtain ⟨manager', known', turn⟩ := other
    cases known.symm.trans known'
    exact Option.some.inj ((Manager.turn_ask turn c.id).symm.trans granted)
  · rename_i refused
    cases turn : manager.turn with
    | none =>
      refine absurd ?_ refused
      unfold Manager.ask
      rw [turn]
    | some i =>
      have other : i ≠ c.id := fun same => refused (Manager.turn_ask (same ▸ turn) c.id)
      exact .inr ⟨i, other, ⟨manager, known, turn⟩, rfl⟩

/-- A call whose turn it is, or who can have it, unregisters its owner. -/
theorem unregisterTurn (tenure : h.Tenure) (genuine : h.Genuine r) (lined : h.Lined c) (rota : h.Rota)
    (indexed : h.Indexed)
    (found : h.call? c.id = some c) (asked : c.request = .unregister k owner)
    (held : (h.owners k).lookup owner = some r) : h.UnregisterTurn c k owner r (h.callTurn c.id) := by
  have mem := mem_of_lookup held
  obtain ⟨manager, known⟩ := Option.isSome_iff_exists.mp (known_of_owner mem)
  have owners : h.owners k = manager.owners := by
    unfold Hub.owners
    rw [known]
    rfl
  have issuer : r.issuer = some manager.multiplexer := by
    rw [← tenure.issued mem, known]
    rfl
  have own : c.request.manager? = some k := by rw [asked]; rfl
  -- A call that goes on takes its owner along; it may have asked for its turn first.
  have leaves {g : Hub} (counted : Option Nat) (rests : h.Rests g) (genuine : g.Genuine r)
      (attends : g.Attends r.stream r.handler) (same : ∀ j, g.owners j = h.owners j)
      (returned : g.returned = h.returned) (sole : ∀ i, h.HasTurn k i → i = c.id) :
      h.UnregisterTurn c k owner r (g.runTurn c k manager counted) := by
    obtain ⟨gone, answered, left, settles⟩ :=
      runTurn_unregister genuine issuer attends asked (owners ▸ held) counted
    refine .leaves sole gone (returned ▸ answered) (fun j => ?_) issuer (rests.settles settles)
    rw [left, same]
  unfold callTurn
  rw [found]
  simp only
  split
  · unfold startCall
    simp only [asked]
    have rests : h.Rests (h.updateManager k (·.ask c.id)) := ⟨rfl, rfl, rfl⟩
    have asks := gentle_ask h k c.id
    rcases enterManager_cases known c with ⟨runs, sole⟩ | ⟨i, other, turn, queued⟩
    · rw [runs]
      exact leaves none rests genuine (tenure.attends mem) asks.owners rfl sole
    · have line := inLine_ask_self (h := h) (k := k) (by rw [known]; rfl) c.id
      have queues := call?_queued (h := h.updateManager k (·.ask c.id)) found none
      obtain ⟨holder, rfl, held⟩ := turn.heldBy rota indexed
      rw [queued]
      exact .waits other held queues rfl line ⟨rfl, rfl, rfl⟩ asks.owners rfl
  · rename_i counted queued
    simp only [own, known]
    split
    · rename_i turn
      exact leaves counted ⟨rfl, rfl, rfl⟩ genuine (tenure.attends mem) (fun _ => rfl) rfl
        fun i other => other.sole ⟨manager, known, turn⟩
    · rename_i other
      have line := lined.queued own queued
      rcases line.turn with ⟨manager', known', turn⟩ | ⟨i, somebody, turn⟩
      · cases known.symm.trans known'
        exact absurd turn other
      · obtain ⟨holder, rfl, held⟩ := turn.heldBy rota indexed
        exact .waits somebody held found rfl line ⟨rfl, rfl, rfl⟩ (fun _ => rfl) rfl
  · rename_i w waits
    have awaits := lined.waits waits
    rw [asked] at awaits
    cases awaits

/-- Take any owner that holds a registration, whatever has become of its stream: it may have been
stopped, abandoned or replaced, and the multiplexer may have been shut down.  A call that unregisters the
owner waits as long as another call has the turn at the manager, and is never refused.  The other call
has neither returned nor been dropped: it can go on at once, or it registers an owner whose stream has
not synced yet.  On its turn the call succeeds and takes that owner out of the table.  The entry of the
key loses one reference if it leads to the stream of the registration, and goes with the last one, with
the stream stopped; otherwise nothing happens to multiplexers and streams. -/
theorem owners_can_leave {limit : Nat} {draws : Draws} {es : List Event} {h : Hub}
    (ran : h = (start limit draws).run es) {c : PendingCall} {k : Nat} {owner : OwnerKey}
    {r : Registration} (found : h.call? c.id = some c) (asked : c.request = .unregister k owner)
    (held : (h.owners k).lookup owner = some r) :
    h.UnregisterTurn c k owner r (h.step (.call c.id)) := by
  subst ran
  have tenure := (tenure_run limit draws es).1
  have lined := lined_run limit draws es c (List.mem_of_find?_eq_some found)
  have genuine := genuine_run limit draws es (.inr (tenure.granted (mem_of_lookup held)))
  exact unregisterTurn tenure genuine lined (rota_run limit draws es)
    (moment_run limit draws es).books.toIndexed found asked held

/-- An owner registers, and its stream is stopped under it.  Another owner gets a new stream of the same
object, and then the first one is to go. -/
def leftBehind : List Event :=
  [.command 0 (.newMultiplexer "m" {} none), .command 1 (.newManager "g" "m" none),
    .command 2 (.register "g" ⟨"ns", "first"⟩ "a" none),
    .call 2, .loop 0, .loop 0, .loop 0, .call 2,
    .command 3 (.nameStream "m" ⟨"ns", "a"⟩ "x"), .command 4 (.stopStream "x"),
    .command 5 (.register "g" ⟨"ns", "second"⟩ "a" none),
    .call 5, .loop 1, .loop 1, .loop 1, .call 5,
    .command 6 (.unregister "g" ⟨"ns", "first"⟩)]

/-- The first owner goes, and the second one keeps its stream. -/
theorem owners_can_leave_replaced :
    (((start 4 {}).run leftBehind).owners 0).lookup ⟨"ns", "first"⟩ =
      some ⟨⟨"ns", "a"⟩, 1, 0, some 0⟩ ∧
    ((start 4 {}).run leftBehind).isCurrent ⟨⟨"ns", "a"⟩, 1, 0, some 0⟩ = false ∧
    UnregisterTurn ((start 4 {}).run leftBehind)
      ⟨6, .unregister 0 ⟨"ns", "first"⟩, .fresh, 12, none⟩ 0 ⟨"ns", "first"⟩
      ⟨⟨"ns", "a"⟩, 1, 0, some 0⟩ (((start 4 {}).run leftBehind).step (.call 6)) ∧
    (((start 4 {}).run leftBehind).step (.call 6)).owners 0 =
      [(⟨"ns", "second"⟩, ⟨⟨"ns", "a"⟩, 2, 1, some 0⟩)] ∧
    (((start 4 {}).run leftBehind).step (.call 6)).monitor? 0 ⟨"ns", "a"⟩ = some ⟨1, 1⟩ := by
  have held : (((start 4 {}).run leftBehind).owners 0).lookup ⟨"ns", "first"⟩ =
      some ⟨⟨"ns", "a"⟩, 1, 0, some 0⟩ := by
    decide
  exact ⟨held, by decide, owners_can_leave rfl
    (c := ⟨6, .unregister 0 ⟨"ns", "first"⟩, .fresh, 12, none⟩) rfl rfl held, by decide, by decide⟩

/-- The store fails while a second owner registers, whose stream cannot sync.  The first owner is to go. -/
def keptWaiting : List Event :=
  [.command 0 (.newMultiplexer "m" {} none), .command 1 (.newManager "g" "m" none),
    .command 2 (.register "g" ⟨"ns", "first"⟩ "a" none),
    .call 2, .loop 0, .loop 0, .loop 0, .call 2, .loop 0, .loop 0,
    .command 3 (.failLists 1000000), .command 4 (.register "g" ⟨"ns", "second"⟩ "b" none),
    .call 4, .loop 1, .loop 1,
    .command 5 (.unregister "g" ⟨"ns", "first"⟩), .call 5]

/-- The first owner holds a registration, and the call that unregisters it is queued behind the one that
registers the second.  It is not answered, and nobody can go on until the next attempt to read. -/
theorem unregister_kept_waiting :
    (((start 4 {}).run keptWaiting).owners 0).lookup ⟨"ns", "first"⟩ =
      some ⟨⟨"ns", "a"⟩, 1, 0, some 0⟩ ∧
    ((start 4 {}).run keptWaiting).call? 5 =
      some ⟨5, .unregister 0 ⟨"ns", "first"⟩, .queued none, 13, none⟩ ∧
    ((start 4 {}).run keptWaiting).managers.map (fun manager => (manager.turn, manager.queue)) =
      [(some 4, [5])] ∧
    ((start 4 {}).run keptWaiting).returned.map (·.1) = [2] ∧
    ((start 4 {}).run keptWaiting).ready = [] := by
  exact ⟨by decide, rfl, by decide, by decide, by decide⟩

end Hub

end SharedWatch
