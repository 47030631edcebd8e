import SharedWatch.Proofs.ActiveStreamsGauge
import SharedWatch.Proofs.Registrations

/-!
# Who gets and loses what

Owner tables, turns at managers, the calls of others and the registrations that are out change in few
places only.  Everything else is modest; what starts and moves no loop either is gentle.

* `Hub.owners`, `Hub.HasTurn`, `Hub.InLine`: the owner table of a manager, whose turn it is, and who
  waits for it.
* `Hub.Attends`, `Hub.Withheld`: a handler is still attached to a stream, unless that has been stopped;
  and nobody has its registration by name, or has given it back.
* `Hub.Modest who`: call `who` may come, go on and leave; nobody else gets or loses anything, no
  stream changes its key or multiplexer, and no registration is handed out.  One that has a name may
  give its reference back, and its handler may leave.
* `Hub.IsShut`: a multiplexer has been shut down; `Hub.Clears`: if it has been in between, it has no
  entries left, and its token has fired.
* `Hub.Gentle who`: moreover, no loop is started or moves, no stream syncs or is abandoned, and no key
  gets an entry.
* `Hub.Rouses who`: gentle things are done, and streams are started; `rouses_act`, `rouses_deliver`,
  `rouses_attachHandler`: so it is with all that handlers do.
* `Hub.Joins`: a handler has been attached.
* `modest_loopStep`, `modest_acquire` and the other theorems of this form: what else is modest.
-/

namespace SharedWatch

/-- `st'` is `st` later.  It has seen nothing in between, and has not been abandoned; it may have been
stopped, left and joined by handlers. -/
structure Stream.Bides (st st' : Stream) : Prop where
  key : st'.key = st.key
  policy : st'.policy = st.policy
  issuer : st'.issuer = st.issuer
  cache : st'.cache = st.cache
  hasSynced : st'.hasSynced = st.hasSynced
  abandoned : st'.abandoned = st.abandoned
  state : st'.state = st.state ∨ st'.state = .stopped

/-- `st'` is `st` later.  It has seen nothing in between, and has not been abandoned; it may have been
started, stopped, left and joined by handlers. -/
structure Stream.Endures (st st' : Stream) : Prop where
  key : st'.key = st.key
  policy : st'.policy = st.policy
  issuer : st'.issuer = st.issuer
  cache : st'.cache = st.cache
  hasSynced : st'.hasSynced = st.hasSynced
  abandoned : st'.abandoned = st.abandoned
  stopped : st.isStopped = true → st'.isStopped = true
  started : st.state ≠ .created → st'.state ≠ .created

namespace Stream

variable {st st' st'' : Stream}

/-- The key that a stream is for, and whose it is. -/
def identity (st : Stream) : ObjectKey × Option Nat := (st.key, st.issuer)

theorem Bides.refl (st : Stream) : st.Bides st := ⟨rfl, rfl, rfl, rfl, rfl, rfl, .inl rfl⟩

theorem Bides.trans (first : st.Bides st') (second : st'.Bides st'') : st.Bides st'' where
  key := second.key.trans first.key
  policy := second.policy.trans first.policy
  issuer := second.issuer.trans first.issuer
  cache := second.cache.trans first.cache
  hasSynced := second.hasSynced.trans first.hasSynced
  abandoned := second.abandoned.trans first.abandoned
  state := by
    rcases second.state with same | stopped
    · exact first.state.imp same.trans same.trans
    · exact .inr stopped

theorem Bides.stopped (bides : st.Bides st') (stopped : st.isStopped = true) :
    st'.isStopped = true := by
  rcases bides.state with same | now
  · rw [isStopped, same]
    exact stopped
  · exact decide_eq_true now

theorem Bides.started (bides : st.Bides st') (begun : st.state ≠ .created) :
    st'.state ≠ .created := by
  rcases bides.state with same | now
  · exact same ▸ begun
  · rw [now]
    exact nofun

/-- A stream that still runs did so before, in the same state. -/
theorem Bides.running (bides : st.Bides st') (running : st'.isStopped = false) :
    st'.state = st.state := by
  rcases bides.state with same | now
  · exact same
  · rw [isStopped, now] at running
    cases running

theorem Bides.before (bides : st.Bides st') (running : st'.isStopped = false) :
    st.isStopped = false := by
  cases stopped : st.isStopped with
  | false => rfl
  | true => exact (bides.stopped stopped).symm.trans running

theorem Bides.identity (bides : st.Bides st') : st'.identity = st.identity :=
  Prod.ext bides.key bides.issuer

theorem Bides.endures (bides : st.Bides st') : st.Endures st' :=
  ⟨bides.key, bides.policy, bides.issuer, bides.cache, bides.hasSynced, bides.abandoned,
    bides.stopped, bides.started⟩

theorem Endures.refl (st : Stream) : st.Endures st := (Bides.refl st).endures

theorem Endures.trans (first : st.Endures st') (second : st'.Endures st'') : st.Endures st'' where
  key := second.key.trans first.key
  policy := second.policy.trans first.policy
  issuer := second.issuer.trans first.issuer
  cache := second.cache.trans first.cache
  hasSynced := second.hasSynced.trans first.hasSynced
  abandoned := second.abandoned.trans first.abandoned
  stopped stopped := second.stopped (first.stopped stopped)
  started begun := second.started (first.started begun)

theorem Endures.identity (endures : st.Endures st') : st'.identity = st.identity :=
  Prod.ext endures.key endures.issuer

theorem Endures.before (endures : st.Endures st') (running : st'.isStopped = false) :
    st.isStopped = false := by
  cases stopped : st.isStopped with
  | false => rfl
  | true => exact (endures.stopped stopped).symm.trans running

/-- A stream that starts has seen nothing yet. -/
theorem endures_start (started : st.start? = .ok (some st')) :
    st.Endures st' := by
  obtain ⟨created, rfl⟩ := start?_eq_ok started
  exact ⟨rfl, rfl, rfl, rfl, rfl, rfl, fun stopped => by simp [isStopped, created] at stopped,
    fun _ => nofun⟩

theorem bides_halt (st : Stream) : st.Bides st.halt := by
  unfold halt
  split
  · exact .refl st
  · exact ⟨rfl, rfl, rfl, rfl, rfl, rfl, .inr rfl⟩

theorem bides_attach (st : Stream) (handler : Nat) (ref : HandlerRef) :
    st.Bides (st.attach handler ref) := ⟨rfl, rfl, rfl, rfl, rfl, rfl, .inl rfl⟩

theorem bides_detach {n : Nat} {r : Registration} (left : st.detach n r = .ok st') :
    st.Bides st' ∧ st'.state = st.state := by
  obtain ⟨_, _, _, rfl⟩ := detach_eq_ok left
  exact ⟨⟨rfl, rfl, rfl, rfl, rfl, rfl, .inl rfl⟩, rfl⟩

/-- Only the handler of the registration leaves. -/
theorem stays_detach {n : Nat} {r : Registration} (left : st.detach n r = .ok st')
    {handler : Nat × HandlerRef} (mem : handler ∈ st.handlers) (other : r.handler ≠ handler.1) :
    handler ∈ st'.handlers := by
  obtain ⟨_, _, _, rfl⟩ := detach_eq_ok left
  exact List.mem_filter.mpr ⟨mem, by simpa using other.symm⟩

theorem identity_of_face (same : st'.face = st.face) : st'.identity = st.identity :=
  Prod.ext (congrArg Face.key same) (congrArg Face.issuer same)

end Stream

namespace Manager

theorem owners_leave (manager : Manager) (id : Nat) : (manager.leave id).owners = manager.owners := by
  unfold leave pass
  split
  · split <;> rfl
  · rfl

theorem owners_ask (manager : Manager) (id : Nat) : (manager.ask id).owners = manager.owners := by
  unfold ask
  split <;> rfl

/-- Whoever has the turn keeps it when somebody else leaves. -/
theorem turn_leave {manager : Manager} {k id : Nat} (turn : manager.turn = some k)
    (other : k ≠ id) : (manager.leave id).turn = some k := by
  unfold leave
  rw [if_neg fun same => other (Option.some.inj (turn.symm.trans same))]
  exact turn

theorem turn_ask {manager : Manager} {k : Nat} (turn : manager.turn = some k) (id : Nat) :
    (manager.ask id).turn = some k := by
  unfold ask
  rw [turn]

/-- The call that has the turn, and those that wait for it behind it. -/
def line (manager : Manager) : List Nat := manager.turn.toList ++ manager.queue

/-- A call has the turn, or waits for it while somebody else has it. -/
def InLine (manager : Manager) (k : Nat) : Prop :=
  manager.turn = some k ∨ manager.turn.isSome = true ∧ k ∈ manager.queue

/-- Whoever waits for its turn gets on when somebody else leaves. -/
theorem inLine_leave {manager : Manager} {k id : Nat} (line : manager.InLine k) (other : k ≠ id) :
    (manager.leave id).InLine k := by
  rcases line with turn | ⟨taken, queued⟩
  · exact .inl (turn_leave turn other)
  unfold leave
  split
  · unfold pass
    cases queue : manager.queue with
    | nil =>
      rw [queue] at queued
      cases queued
    | cons first rest =>
      rw [queue] at queued
      exact (List.mem_cons.mp queued).imp (fun same => congrArg some same.symm) fun later =>
        ⟨rfl, later⟩
  · exact .inr ⟨taken, List.mem_filter.mpr ⟨queued, by simpa using other⟩⟩

theorem inLine_ask {manager : Manager} {k : Nat} (line : manager.InLine k) (id : Nat) :
    (manager.ask id).InLine k := by
  rcases line with turn | ⟨taken, queued⟩
  · exact .inl (turn_ask turn id)
  · obtain ⟨i, turn⟩ := Option.isSome_iff_exists.mp taken
    unfold ask
    rw [turn]
    exact .inr ⟨rfl, List.mem_append_left _ queued⟩

/-- Whoever asks for the turn gets in line. -/
theorem line_ask (manager : Manager) (id : Nat) : (manager.ask id).line.Perm (id :: manager.line) := by
  unfold ask line
  cases turn : manager.turn with
  | none => exact .rfl
  | some i =>
    show ([i] ++ (manager.queue ++ [id])).Perm (id :: ([i] ++ manager.queue))
    rw [← List.append_assoc]
    exact List.perm_append_singleton id _

/-- Whoever leaves is in line no more. -/
theorem line_leave (manager : Manager) (nodup : manager.line.Nodup) (id : Nat) :
    (manager.leave id).line = manager.line.filter (· != id) := by
  unfold leave
  split
  · rename_i turn
    unfold line at nodup ⊢
    rw [turn, Option.toList_some, List.singleton_append, List.nodup_cons] at nodup
    rw [turn, Option.toList_some, List.singleton_append, List.filter_cons_of_neg (by simp),
      List.filter_eq_self.mpr fun i mem => by
        simpa using fun same : i = id => nodup.1 (same ▸ mem)]
    unfold pass
    cases manager.queue <;> rfl
  · rename_i other
    unfold line
    rw [List.filter_append]
    congr 1
    cases turn : manager.turn with
    | none => rfl
    | some i =>
      have away : i ≠ id := fun same => other (same ▸ turn)
      rw [Option.toList_some, List.filter_cons_of_pos (by simpa using away), List.filter_nil]

/-- Whoever asks for the turn gets it, or gets in line. -/
theorem inLine_ask_self (manager : Manager) (id : Nat) : (manager.ask id).InLine id := by
  unfold ask
  cases turn : manager.turn with
  | none => exact .inl rfl
  | some i => exact .inr ⟨rfl, List.mem_append_right _ (List.mem_singleton_self id)⟩

end Manager

namespace Hub

variable {who : Option Nat} {h h' h'' : Hub} {n m : Nat} {key : ObjectKey} {r : Registration}

/-- The owner table of a manager. -/
def owners (h : Hub) (g : Nat) : List (OwnerKey × Registration) :=
  (h.managers[g]?).elim [] (·.owners)

/-- It is the turn of call `id` at manager `g`. -/
def HasTurn (h : Hub) (g id : Nat) : Prop :=
  ∃ manager, h.managers[g]? = some manager ∧ manager.turn = some id

/-- Call `id` has the turn at manager `g`, or waits for it while somebody else has it. -/
def InLine (h : Hub) (g id : Nat) : Prop :=
  ∃ manager, h.managers[g]? = some manager ∧ manager.InLine id

/-- The call that has the turn at manager `g`, and those that wait for it behind it. -/
def line (h : Hub) (g : Nat) : List Nat := (h.managers[g]?).elim [] (·.line)

/-- A registration has a name. -/
def Knows (h : Hub) (r : Registration) : Prop := r ∈ h.names.registrations.map (·.2)

theorem knows_of_same (same : h.names.registrations = h'.names.registrations) (known : h.Knows r) :
    h'.Knows r := by
  unfold Knows at known ⊢
  rwa [same] at known

/-- Handler `k` is attached to the stream of number `n`, unless that has been stopped. -/
def Attends (h : Hub) (n k : Nat) : Prop :=
  ∃ st, h.streams[n]? = some st ∧ (st.isStopped = false → ∃ handler ∈ st.handlers, handler.1 = k)

/-- No registration of handler `k` has a name, and none has given its reference back. -/
def Withheld (h : Hub) (k : Nat) : Prop := ∀ r, h.Knows r ∨ r ∈ h.givenBack → r.handler ≠ k

/-- Multiplexer `m` has been shut down. -/
def IsShut (h : Hub) (m : Nat) : Prop := ∃ mux, h.multiplexers[m]? = some mux ∧ mux.isShut = true

/-- Call `who` may come, go on and leave, and give on its turn.  Nobody else gets or loses anything,
and no registration is handed out or bound to an owner or a name.  References may go back by way of
registrations that have names, or be counted off with their entries.  Handlers leave running streams by
way of registrations that have names, or have given their references back. -/
structure Modest (who : Option Nat) (h h' : Hub) : Prop where
  now : h'.now = h.now
  started : h.started ≤ h'.started
  attached : h.attached ≤ h'.attached
  fired : h.fired ⊆ h'.fired
  roots : h.multiplexers.map (fun mux => (mux.root, mux.settings)) <+:
    h'.multiplexers.map fun mux => (mux.root, mux.settings)
  managed : h.managers.map (·.multiplexer) <+: h'.managers.map (·.multiplexer)
  identities : h.streams.map (·.identity) <+: h'.streams.map (·.identity)
  owners : ∀ g, h'.owners g = h.owners g
  turns : ∀ {g k : Nat}, who ≠ some k → h.HasTurn g k → h'.HasTurn g k
  lines : ∀ {g k : Nat}, who ≠ some k → h.InLine g k → h'.InLine g k
  calls : ∀ {c : PendingCall}, who ≠ some c.id → (c ∈ h'.calls ↔ c ∈ h.calls)
  returned : h'.returned = h.returned
  registrations : h'.names.registrations = h.names.registrations
  deals : ∃ ds, h'.dealings = ds ++ h.dealings ∧
    ∀ d ∈ ds, (d.struck?).isSome = true ∨ ∃ r late, d = .returned r late ∧ h.Knows r
  attends : ∀ {n k : Nat}, h.Withheld k → h.Attends n k → h'.Attends n k
  stays : ∀ {m : Nat}, h.IsShut m → h'.IsShut m
  queues : who = none → ∀ g, h'.line g = h.line g

/-- Multiplexer `m` has no entries, and its root token has fired. -/
def IsCleared (h : Hub) (m : Nat) : Prop :=
  (∀ key, h.monitor? m key = none) ∧ ∃ mux, h.multiplexers[m]? = some mux ∧ mux.root ∈ h.fired

theorem isShut_of_same (same : h'.multiplexers = h.multiplexers) (shut : h'.IsShut m) :
    h.IsShut m := by
  unfold IsShut at shut
  rwa [same] at shut

theorem IsCleared.of_same (cleared : h.IsCleared m) (same : h'.multiplexers = h.multiplexers)
    (fired : h'.fired = h.fired) : h'.IsCleared m := by
  unfold IsCleared monitor?
  rw [same, fired]
  exact cleared

/-- Moreover, no loop is started or moves.  Streams may have been stopped, left and joined by handlers;
new ones are no multiplexer's, and have not been started.  No key gets an entry, and a multiplexer that
has been shut down in between has none left. -/
structure Gentle (who : Option Nat) (h h' : Hub) : Prop extends Modest who h h' where
  loops : h'.loops = h.loops
  entries : ∀ {m key}, h.monitor? m key = none → h'.monitor? m key = none
  shut : ∀ {m}, h'.IsShut m → h.IsShut m ∨ h'.IsCleared m
  balance : h'.imbalance = h.imbalance
  old : ∀ {n : Nat} {st : Stream}, h.streams[n]? = some st →
    ∃ st', h'.streams[n]? = some st' ∧ st.Bides st'
  born : ∀ {n : Nat} {st' : Stream}, h.streams[n]? = none → h'.streams[n]? = some st' →
    ∃ key policy, Stream.Bides { key, policy, issuer := none } st'

theorem Modest.back (modest : h.Modest who h') :
    ∃ rs, h'.givenBack = rs ++ h.givenBack ∧ ∀ r ∈ rs, h.Knows r := by
  obtain ⟨ds, eq, all⟩ := modest.deals
  refine ⟨ds.filterMap (·.returned?), ?_, fun r mem => ?_⟩
  · unfold Hub.givenBack
    rw [eq, List.filterMap_append]
  · obtain ⟨d, mem, returned⟩ := List.mem_filterMap.mp mem
    rcases all d mem with struck | ⟨r', late, rfl, known⟩
    · cases d with
      | returned _ _ => cases struck
      | _ => cases returned
    · cases returned
      exact known

/-- Whoever has given a reference back had done so before, or has a name. -/
theorem Modest.given (modest : h.Modest who h') (given : r ∈ h'.givenBack) :
    h.Knows r ∨ r ∈ h.givenBack := by
  obtain ⟨rs, eq, all⟩ := modest.back
  rw [eq] at given
  exact (List.mem_append.mp given).imp (all r) id

/-- Whoever has a name or has given its reference back did so before. -/
theorem Modest.minted (modest : h.Modest who h') (minted : h'.Knows r ∨ r ∈ h'.givenBack) :
    h.Knows r ∨ r ∈ h.givenBack := by
  rcases minted with known | given
  · exact .inl (knows_of_same modest.registrations known)
  · exact modest.given given

theorem Modest.withheld (modest : h.Modest who h') {k : Nat} (withheld : h.Withheld k) :
    h'.Withheld k :=
  fun r minted => withheld r (modest.minted minted)

theorem Modest.refl (who : Option Nat) (h : Hub) : h.Modest who h :=
  ⟨rfl, Nat.le_refl _, Nat.le_refl _, fun _ => id, List.prefix_rfl, List.prefix_rfl, List.prefix_rfl,
    fun _ => rfl,
    fun _ => id, fun _ => id, fun _ => Iff.rfl, rfl, rfl, ⟨[], rfl, nofun⟩, fun _ => id, id,
    fun _ _ => rfl⟩

theorem Modest.trans (first : h.Modest who h') (second : h'.Modest who h'') :
    h.Modest who h'' where
  now := second.now.trans first.now
  started := Nat.le_trans first.started second.started
  attached := Nat.le_trans first.attached second.attached
  attends withheld attends := second.attends (first.withheld withheld) (first.attends withheld attends)
  stays shut := second.stays (first.stays shut)
  queues nobody g := (second.queues nobody g).trans (first.queues nobody g)
  fired := fun _ mem => second.fired (first.fired mem)
  roots := first.roots.trans second.roots
  managed := first.managed.trans second.managed
  identities := first.identities.trans second.identities
  owners g := (second.owners g).trans (first.owners g)
  turns other turn := second.turns other (first.turns other turn)
  lines other line := second.lines other (first.lines other line)
  calls other := (second.calls other).trans (first.calls other)
  returned := second.returned.trans first.returned
  registrations := second.registrations.trans first.registrations
  deals := by
    obtain ⟨ds, eq, early⟩ := first.deals
    obtain ⟨ds', eq', late⟩ := second.deals
    refine ⟨ds' ++ ds, by rw [eq', eq, List.append_assoc], fun d mem => ?_⟩
    rcases List.mem_append.mp mem with mem | mem
    · exact (late d mem).imp id fun ⟨r, late, same, known⟩ =>
        ⟨r, late, same, knows_of_same first.registrations known⟩
    · exact early d mem

/-- A multiplexer keeps its root token. -/
theorem root_of_prefix {mux : Multiplexer}
    (roots : h.multiplexers.map (fun mux => (mux.root, mux.settings)) <+:
      h'.multiplexers.map fun mux => (mux.root, mux.settings))
    (known : h.multiplexers[m]? = some mux) :
    ∃ mux', h'.multiplexers[m]? = some mux' ∧ mux'.root = mux.root := by
  obtain ⟨more, eq⟩ := roots
  have before : (h.multiplexers.map fun mux => (mux.root, mux.settings))[m]? =
      some (mux.root, mux.settings) := by
    rw [List.getElem?_map, known]
    rfl
  have after : (h'.multiplexers.map fun mux => (mux.root, mux.settings))[m]? =
      some (mux.root, mux.settings) := by
    rw [← eq, List.getElem?_append_left (List.getElem?_eq_some_iff.mp before).1]
    exact before
  rw [List.getElem?_map, Option.map_eq_some_iff] at after
  obtain ⟨mux', known', same⟩ := after
  exact ⟨mux', known', congrArg Prod.fst same⟩

theorem Gentle.refl (who : Option Nat) (h : Hub) : h.Gentle who h :=
  { Modest.refl who h with
    loops := rfl
    entries := id
    shut := .inl
    balance := rfl
    old := fun {_ st} found => ⟨st, found, .refl st⟩
    born := fun none some => nomatch none.symm.trans some }

/-- A multiplexer without entries has none later, and its root token stays fired. -/
theorem Gentle.cleared (gentle : h.Gentle who h') (cleared : h.IsCleared m) : h'.IsCleared m := by
  obtain ⟨vacant, mux, known, fired⟩ := cleared
  refine ⟨fun key => gentle.entries (vacant key), ?_⟩
  obtain ⟨mux', known', root⟩ := root_of_prefix gentle.roots known
  exact ⟨mux', known', root ▸ gentle.fired fired⟩

/-- A multiplexer that is shut down in between has no entries and a fired token in the end, and one that
has neither to begin with stays so. -/
structure Clears (h h' : Hub) : Prop where
  cleared : ∀ {m : Nat}, h.IsCleared m → h'.IsCleared m
  shut : ∀ {m : Nat}, h'.IsShut m → h.IsShut m ∨ h'.IsCleared m

theorem Clears.refl (h : Hub) : h.Clears h := ⟨id, .inl⟩

theorem Clears.trans (first : h.Clears h') (second : h'.Clears h'') : h.Clears h'' where
  cleared cleared := second.cleared (first.cleared cleared)
  shut shut := (second.shut shut).elim (fun before => (first.shut before).imp_right second.cleared) .inr

theorem Gentle.clears (gentle : h.Gentle who h') : h.Clears h' := ⟨gentle.cleared, gentle.shut⟩

theorem clears_of_same (multiplexers : h'.multiplexers = h.multiplexers) (fired : h'.fired = h.fired) :
    h.Clears h' :=
  ⟨fun cleared => cleared.of_same multiplexers fired, fun shut => .inl (isShut_of_same multiplexers shut)⟩

theorem Gentle.trans (first : h.Gentle who h') (second : h'.Gentle who h'') :
    h.Gentle who h'' :=
  { first.toModest.trans second.toModest with
    loops := second.loops.trans first.loops
    entries := fun vacant => second.entries (first.entries vacant)
    shut := (first.clears.trans second.clears).shut
    balance := second.balance.trans first.balance
    old := fun found => by
      obtain ⟨st', found', bides⟩ := first.old found
      obtain ⟨st'', found'', bides'⟩ := second.old found'
      exact ⟨st'', found'', bides.trans bides'⟩
    born := fun {n st''} none found'' => by
      cases found' : h'.streams[n]? with
      | none => exact second.born found' found''
      | some st' =>
        obtain ⟨_, same, bides⟩ := second.old found'
        cases same.symm.trans found''
        obtain ⟨key, policy, born⟩ := first.born none found'
        exact ⟨key, policy, born.trans bides⟩ }

theorem Modest.anybody (modest : h.Modest none h') (who : Option Nat) : h.Modest who h' :=
  { modest with
    turns := fun _ => modest.turns nofun
    lines := fun _ => modest.lines nofun
    calls := fun _ => modest.calls nofun
    queues := fun _ => modest.queues rfl }

theorem Gentle.anybody (gentle : h.Gentle none h') (who : Option Nat) : h.Gentle who h' :=
  { gentle with toModest := gentle.toModest.anybody who }

/-! ## What becomes of references -/

namespace Modest

theorem granted (modest : h.Modest who h') : h'.granted = h.granted := by
  obtain ⟨ds, eq, all⟩ := modest.deals
  unfold Hub.granted
  rw [eq, List.filterMap_append, List.filterMap_eq_nil_iff.mpr, List.nil_append]
  intro d mem
  rcases all d mem with struck | ⟨r, late, rfl, _⟩
  · cases d <;> first | rfl | cases struck
  · rfl

theorem lost (modest : h.Modest who h') (lost : .lost n ∈ h'.dealings) : .lost n ∈ h.dealings := by
  obtain ⟨ds, eq, all⟩ := modest.deals
  rw [eq] at lost
  rcases List.mem_append.mp lost with new | old
  · rcases all _ new with struck | ⟨r, late, same, _⟩
    · cases struck
    · cases same
  · exact old

theorem struck (modest : h.Modest who h') : h.struck ⊆ h'.struck := by
  obtain ⟨ds, eq, _⟩ := modest.deals
  unfold Hub.struck
  rw [eq, List.filterMap_append]
  exact List.subset_append_right _ _

/-- No reference is out that was not. -/
theorem weight_le (modest : h.Modest who h') (n : Nat) : h'.weight n ≤ h.weight n := by
  obtain ⟨ds, eq, all⟩ := modest.deals
  unfold Hub.weight
  rw [eq, List.filter_append, List.map_append, List.sum_append]
  have fewer : ((ds.filter (·.stream = n)).map (·.weight)).sum ≤ 0 := by
    clear eq
    induction ds with
    | nil => exact Int.le_refl 0
    | cons d ds ih =>
      have rest := ih fun d mem => all d (List.mem_cons_of_mem _ mem)
      have here : d.weight ≤ 0 := by
        rcases all d List.mem_cons_self with struck | ⟨r, late, rfl, _⟩
        · cases d with
          | closed e | dropped e => simp [Dealing.weight]
          | granted _ | returned _ _ | lost _ => cases struck
        · exact Int.neg_nonpos_of_nonneg Int.one_nonneg
      by_cases own : d.stream = n
      · simp only [List.filter_cons, own, decide_true, if_true, List.map_cons, List.sum_cons]
        omega
      · simp only [List.filter_cons, own, decide_false, Bool.false_eq_true, if_false]
        exact rest
  omega

end Modest

/-! ## Small things -/

theorem gentle_say (h : Hub) (level : SharedWatch.Level) (message : String) :
    h.Gentle none (h.say level message) := { Gentle.refl none h with }

theorem gentle_record (h : Hub) (e : LogEntry) : h.Gentle none (h.record e) :=
  { Gentle.refl none h with }

theorem gentle_countDelivery (h : Hub) (kind : String) : h.Gentle none (h.countDelivery kind) :=
  { Gentle.refl none h with }

theorem gentle_takeTicket (h : Hub) : h.Gentle none h.takeTicket.2 := { Gentle.refl none h with }

theorem gentle_backend (h : Hub) (backend : Backend) : h.Gentle none { h with backend } :=
  { Gentle.refl none h with }

theorem gentle_recorders (h : Hub) (recorders : List Recorder) :
    h.Gentle none { h with recorders } := { Gentle.refl none h with }

theorem gentle_fire (h : Hub) (token : Nat) : h.Gentle none (h.fire token) :=
  { Gentle.refl none h with
    fired := fun _ mem => List.mem_cons_of_mem _ mem
    shut := .inl }

theorem gentle_rename (h : Hub) {f : Directory → Directory}
    (registrations : (f h.names).registrations = h.names.registrations) :
    h.Gentle none (h.rename f) := { Gentle.refl none h with registrations }

theorem gentle_token (h : Hub) (name : Option String) : h.Gentle none (h.token name).2 := by
  have made : h.Gentle none h.newToken.2 := { Gentle.refl none h with }
  unfold token
  cases name with
  | none => exact made
  | some name =>
    have named (g : Hub) (t : Nat) : g.Gentle none
        (g.rename fun d => { d with tokens := bindName d.tokens name t }) := gentle_rename g rfl
    simp only
    split
    · exact .refl none h
    · exact made.trans (named _ _)

theorem gentle_bypass (h : Hub) (n : Nat) (b : Bypass) : h.Gentle none (h.bypass n b) := by
  unfold bypass
  split
  · exact { Gentle.refl none h with }
  · exact .refl none h

/-- References may be counted off with their entry. -/
theorem gentle_deal (h : Hub) {d : Dealing} (struck : (d.struck?).isSome = true) :
    h.Gentle none (h.deal d) :=
  { Gentle.refl none h with
    deals := ⟨[d], rfl, fun _ mem => .inl (List.mem_singleton.mp mem ▸ struck)⟩ }

/-- A registration that has a name gives its reference back. -/
theorem gentle_returned (h : Hub) (known : h.Knows r) (late : Bool) :
    h.Gentle none (h.deal (.returned r late)) :=
  { Gentle.refl none h with
    deals := ⟨[.returned r late], rfl, fun _ mem =>
      .inr ⟨r, late, List.mem_singleton.mp mem, known⟩⟩ }

theorem multiplexers_updateMultiplexer (h : Hub) (m : Nat) (f : Multiplexer → Multiplexer) (i : Nat) :
    (h.updateMultiplexer m f).multiplexers[i]? =
      (h.multiplexers[i]?).map fun mux => if m = i then f mux else mux := by
  unfold updateMultiplexer
  rw [List.getElem?_modify]
  rfl

theorem modest_updateMultiplexer (h : Hub) (m : Nat) {f : Multiplexer → Multiplexer}
    (same : ∀ mux ∈ h.multiplexers[m]?, ((f mux).root, (f mux).settings) = (mux.root, mux.settings))
    (shut : ∀ mux, mux.isShut = true → (f mux).isShut = true) :
    h.Modest none (h.updateMultiplexer m f) := by
  have roots : (h.updateMultiplexer m f).multiplexers.map (fun mux => (mux.root, mux.settings)) =
      h.multiplexers.map fun mux => (mux.root, mux.settings) := by
    apply List.ext_getElem?
    intro i
    rw [List.getElem?_map, multiplexers_updateMultiplexer, List.getElem?_map, Option.map_map]
    refine Option.map_congr fun mux known => ?_
    rw [Function.comp_apply]
    split
    · rename_i here
      exact same mux (here ▸ known)
    · rfl
  refine { Modest.refl none h with roots := roots ▸ List.prefix_rfl, stays := fun {i} before => ?_ }
  obtain ⟨mux, known, flag⟩ := before
  refine ⟨if m = i then f mux else mux, ?_, ?_⟩
  · rw [multiplexers_updateMultiplexer, known, Option.map_some]
  · split
    · exact shut mux flag
    · exact flag

/-- A multiplexer may lose entries, and be shut down once it has none and its token has fired. -/
theorem gentle_updateMultiplexer (h : Hub) (m : Nat) {f : Multiplexer → Multiplexer}
    (same : ∀ mux ∈ h.multiplexers[m]?, ((f mux).root, (f mux).settings) = (mux.root, mux.settings))
    (entries : ∀ mux ∈ h.multiplexers[m]?, ∀ key, mux.monitor? key = none →
      (f mux).monitor? key = none)
    (shut : ∀ mux ∈ h.multiplexers[m]?, (f mux).isShut = true → mux.isShut = true ∨ h.IsCleared m)
    (stays : ∀ mux, mux.isShut = true → (f mux).isShut = true) :
    h.Gentle none (h.updateMultiplexer m f) := by
  have at? := multiplexers_updateMultiplexer h m f
  have fewer {i : Nat} {key : ObjectKey} (vacant : h.monitor? i key = none) :
      (h.updateMultiplexer m f).monitor? i key = none := by
    unfold monitor? at vacant ⊢
    rw [at?]
    cases known : h.multiplexers[i]? with
    | none => rfl
    | some mux =>
      rw [known] at vacant
      simp only [Option.map_some, Option.bind_some]
      split
      · rename_i here
        exact entries mux (here ▸ known) key vacant
      · exact vacant
  refine { modest_updateMultiplexer h m same stays, Gentle.refl none h with
    entries := fewer, shut := fun {i} now => ?_ }
  obtain ⟨mux', known', shut'⟩ := now
  rw [at?, Option.map_eq_some_iff] at known'
  obtain ⟨mux, known, rfl⟩ := known'
  split at shut'
  · rename_i here
    subst here
    refine (shut mux known shut').imp (fun before => ⟨mux, known, before⟩) ?_
    rintro ⟨vacant, mux₀, known₀, fired⟩
    cases known.symm.trans known₀
    refine ⟨fun key => fewer (vacant key), f mux, ?_, ?_⟩
    · rw [at?, known, Option.map_some, if_pos rfl]
    · have root : (f mux).root = mux.root := congrArg Prod.fst (same mux known)
      exact root ▸ fired
  · exact .inl ⟨mux, known, shut'⟩

theorem identities_updateStream {f : Stream → Stream}
    (same : ∀ st, h.streams[n]? = some st → (f st).identity = st.identity) :
    h.streams.map (·.identity) <+: (h.updateStream n f).streams.map (·.identity) :=
  (map_updateStream same).symm ▸ List.prefix_rfl

theorem bides_updateStream {f : Stream → Stream}
    (bides : ∀ st, h.streams[n]? = some st → st.Bides (f st)) {i : Nat} {st : Stream}
    (found : h.streams[i]? = some st) :
    ∃ st', (h.updateStream n f).streams[i]? = some st' ∧ st.Bides st' := by
  rw [streams_updateStream, found]
  split
  · rename_i here
    exact ⟨f st, rfl, bides st (here ▸ found)⟩
  · exact ⟨st, rfl, .refl st⟩

theorem unborn_updateStream {f : Stream → Stream} {i : Nat} (none : h.streams[i]? = none) :
    (h.updateStream n f).streams[i]? = .none := by
  rw [streams_updateStream, none]
  split <;> rfl

/-- A stream that changes keeps a handler, unless it is stopped. -/
theorem attends_updateStream {f : Stream → Stream} {i k : Nat}
    (stays : ∀ st, h.streams[n]? = some st → (f st).isStopped = false → st.isStopped = false ∧
      ∀ handler ∈ st.handlers, handler.1 = k → handler ∈ (f st).handlers)
    (attends : h.Attends i k) : (h.updateStream n f).Attends i k := by
  obtain ⟨st, found, attached⟩ := attends
  unfold Attends
  rw [streams_updateStream, found]
  split
  · rename_i here
    refine ⟨f st, rfl, fun running => ?_⟩
    obtain ⟨before, stays⟩ := stays st (here ▸ found) running
    obtain ⟨handler, mem, own⟩ := attached before
    exact ⟨handler, stays handler mem own, own⟩
  · exact ⟨st, rfl, attached⟩

theorem gentle_updateStream {f : Stream → Stream}
    (bides : ∀ st, h.streams[n]? = some st → st.Bides (f st))
    (state : ∀ st, h.streams[n]? = some st → (f st).state = st.state)
    (stays : ∀ st, h.streams[n]? = some st → ∀ handler ∈ st.handlers, h.Withheld handler.1 →
      handler ∈ (f st).handlers) :
    h.Gentle none (h.updateStream n f) :=
  { Gentle.refl none h with
    identities := identities_updateStream fun st found => (bides st found).identity
    attends := fun withheld => attends_updateStream fun st found running =>
      ⟨(bides st found).before running, fun handler mem own =>
        stays st found handler mem (own ▸ withheld)⟩
    balance := imbalance_of_same fun st found => Stream.isActive_of_state (state st found)
    old := bides_updateStream bides
    born := fun none some => nomatch (unborn_updateStream none).symm.trans some }

/-! ## Streams and multiplexers -/

theorem gentle_haltStream (h : Hub) (n : Nat) : h.Gentle none (h.haltStream n).2 := by
  have halted (h' : Hub) (rest : h' = h.updateStream n (·.halt) ∨
      h' = (h.updateStream n (·.halt)).addActive (-1)) (balance : h'.imbalance = h.imbalance) :
      h.Gentle none h' := by
    have old {i : Nat} {st : Stream} (found : h.streams[i]? = some st) :
        ∃ st', (h.updateStream n (·.halt)).streams[i]? = some st' ∧ st.Bides st' :=
      bides_updateStream (fun st _ => st.bides_halt) found
    have identities := identities_updateStream (h := h) (n := n) (f := (·.halt))
      fun st _ => st.bides_halt.identity
    have attends {i k : Nat} (_ : h.Withheld k) (attends : h.Attends i k) :
        (h.updateStream n (·.halt)).Attends i k :=
      attends_updateStream (fun st _ running => by
        have stopped : st.halt.isStopped = true :=
          (congrArg Face.isStopped st.face_halt).trans st.face.isStopped_halt
        cases stopped.symm.trans running) attends
    rcases rest with rfl | rfl
    · exact { Gentle.refl none h with
        identities, balance, attends, old
        born := fun none some => nomatch (unborn_updateStream none).symm.trans some }
    · exact { Gentle.refl none h with
        identities, balance, attends, old
        born := fun none some => nomatch (unborn_updateStream none).symm.trans some }
  unfold haltStream
  split
  · exact .refl none h
  · rename_i st found
    split
    · exact .refl none h
    · rename_i running
      simp only
      split
      · rename_i created
        exact halted _ (.inl rfl) (imbalance_halt_created found created)
      · rename_i begun
        exact halted _ (.inr rfl) (imbalance_halt_active found
          (Stream.isActive_iff.mpr ⟨begun, by simpa using running⟩))

theorem gentle_stopStream (h : Hub) (n : Nat) : h.Gentle none (h.stopStream n).2 := by
  unfold stopStream
  simp only
  split
  · exact (gentle_haltStream h n).trans (gentle_say _ _ _)
  · exact gentle_haltStream h n

theorem gentle_giveBack {mux : Multiplexer} {e : Monitor} (known : h.multiplexers[m]? = some mux)
    (found : mux.monitor? key = some e) : h.Gentle none (h.giveBack m mux key e).2 := by
  have removed : h.Gentle none (h.updateMultiplexer m (·.remove key)) := by
    refine gentle_updateMultiplexer h m (fun _ _ => rfl) (fun mux' _ key' vacant => ?_)
      (fun _ _ => .inl) fun _ => id
    rw [Multiplexer.monitor?_remove, vacant]
    exact ite_self _
  unfold giveBack
  split
  · exact removed.trans (gentle_stopStream _ _)
  · rw [updateMultiplexer_known known (·.put key { e with refcount := e.refcount - 1 })]
    refine gentle_updateMultiplexer h m (fun _ _ => rfl) (fun mux' known' key' vacant => ?_)
      (fun _ _ => .inl) fun _ => id
    cases known.symm.trans known'
    rw [Multiplexer.monitor?_put, if_neg, vacant]
    rintro rfl
    cases found.symm.trans vacant

theorem gentle_release (h : Hub) (m : Nat) (key : ObjectKey) (n : Nat) :
    h.Gentle none (h.release m key n) := by
  unfold release
  split
  · exact .refl none h
  · rename_i mux known
    split
    · exact .refl none h
    · rename_i e found
      split
      · simp only
        split
        · exact (gentle_giveBack known found).trans (gentle_say _ _ _)
        · exact gentle_giveBack known found
      · exact .refl none h

theorem gentle_leaveStream {g : Hub} {st : Stream} (found : h.streams[n]? = some st)
    (named : h.Knows r ∨ r ∈ h.givenBack) (left : h.leaveStream n st r = .ok g) :
    h.Gentle none g := by
  unfold leaveStream at left
  split at left
  · cases left
    exact gentle_say _ _ _
  · cases detached : st.detach n r with
    | error failure =>
      rw [detached] at left
      cases left
    | ok st' =>
      rw [detached] at left
      cases left
      obtain ⟨bides, state⟩ := Stream.bides_detach detached
      refine gentle_updateStream (fun st₀ found₀ => ?_) (fun st₀ found₀ => ?_)
        fun st₀ found₀ handler mem withheld => ?_
      · cases found.symm.trans found₀
        exact bides
      · cases found.symm.trans found₀
        exact state
      · cases found.symm.trans found₀
        exact Stream.stays_detach detached mem (withheld r named)

/-- It does not matter whether the reference is counted off before the handler leaves, or after. -/
theorem leaveStream_deal {g : Hub} {st : Stream} (d : Dealing)
    (left : h.leaveStream n st r = .ok g) : (h.deal d).leaveStream n st r = .ok (g.deal d) := by
  unfold leaveStream at left ⊢
  split at left
  · rename_i stopped
    cases left
    rw [if_pos stopped]
    rfl
  · rename_i running
    rw [if_neg running]
    cases detached : st.detach n r with
    | error failure =>
      rw [detached] at left
      cases left
    | ok st' =>
      rw [detached] at left
      cases left
      rfl

/-- What a registration does that unsubscribes: nothing; or it is not that of its key's stream any
more; or it gives its reference back, and that is all. -/
theorem unsubscribe_gentle (h : Hub) (m : Nat) (r : Registration) :
    (∃ e, h.unsubscribe m r = (.error e, h)) ∨
    (∃ g, h.unsubscribe m r = (.ok (), g) ∧ h.Gentle none g ∧ g.accounts = h.accounts ∧
      (r.issuer = some m → ∀ e, h.monitor? m r.key = some e → e.stream = r.stream →
        h.streams[r.stream]? = none)) ∨
    ∃ late g, h.unsubscribe m r = (.ok (), g) ∧ (h.deal (.returned r late)).Gentle none g ∧
      r.issuer = some m := by
  unfold unsubscribe
  split
  · exact .inl ⟨_, rfl⟩
  rename_i issued
  split
  · rename_i unknown
    refine .inr (.inl ⟨h, rfl, .refl none h, rfl, fun _ e entry => ?_⟩)
    simp [monitor?, unknown] at entry
  rename_i mux known
  split
  · rename_i other
    refine .inr (.inl ⟨_, rfl, gentle_say _ _ _, rfl, fun _ e entry own => ?_⟩)
    rw [monitor?_eq known] at entry
    rw [entry, Option.filter_some, if_pos (by simpa using own)] at other
    cases other
  rename_i e current
  obtain ⟨entry, own⟩ := Option.filter_eq_some_iff.mp current
  split
  · rename_i missing
    refine .inr (.inl ⟨h, rfl, .refl none h, rfl, fun _ e' entry' own' => ?_⟩)
    rw [monitor?_eq known, entry] at entry'
    cases entry'
    exact own' ▸ missing
  rename_i st stream
  split
  · exact .inl ⟨_, rfl⟩
  rename_i g left
  refine .inr (.inr ⟨st.isStopped, _, rfl, ?_, by simpa using issued⟩)
  have given : r ∈ (h.deal (.returned r st.isStopped)).givenBack :=
    mem_givenBack.mpr ⟨_, List.mem_cons_self⟩
  have leaves := gentle_leaveStream (h := h.deal (.returned r st.isStopped)) stream (.inr given)
    (leaveStream_deal _ left)
  have told := leaves.trans (gentle_say (g.deal (.returned r st.isStopped)) .info
    "handler unsubscribed")
  have known' : ((g.deal (.returned r st.isStopped)).say .info
      "handler unsubscribed").multiplexers[m]? = some mux :=
    (multiplexers_leaveStream left).symm ▸ known
  unfold closeRegistration
  simp only
  split
  · exact (told.trans (gentle_giveBack known' entry)).trans (gentle_say _ _ _)
  · exact told.trans (gentle_giveBack known' entry)

/-- A registration that has a name unsubscribes. -/
theorem gentle_unsubscribe (m : Nat) (known : h.Knows r) :
    h.Gentle none (h.unsubscribe m r).2 := by
  rcases unsubscribe_gentle h m r with ⟨e, eq⟩ | ⟨g, eq, gentle, _⟩ | ⟨late, g, eq, gentle, _⟩
  · rw [eq]
    exact .refl none h
  · rw [eq]
    exact gentle
  · rw [eq]
    exact (gentle_returned h known late).trans gentle

/-- Whoever has a registration by name removes its handler. -/
theorem gentle_removeHandler {st : Stream} (known : h.Knows r) (found : h.streams[n]? = some st) :
    h.Gentle none (h.removeHandler n st r).2 := by
  unfold removeHandler
  split
  · exact .refl none h
  · rename_i st' detached
    obtain ⟨bides, state⟩ := Stream.bides_detach detached
    have same := (beside_bypass h n .detached).streams
    have bypassed := gentle_bypass h n .detached
    refine bypassed.trans (gentle_updateStream (fun st₀ found₀ => ?_) (fun st₀ found₀ => ?_)
      fun st₀ found₀ handler mem withheld => ?_)
    · cases found.symm.trans (same ▸ found₀)
      exact bides
    · cases found.symm.trans (same ▸ found₀)
      exact state
    · cases found.symm.trans (same ▸ found₀)
      exact Stream.stays_detach detached mem
        (withheld r (.inl (knows_of_same bypassed.registrations.symm known)))

theorem gentle_stopAll (entries : List (ObjectKey × Monitor)) (h : Hub) {d : Monitor → Dealing}
    (struck : ∀ e, ((d e).struck?).isSome = true) : h.Gentle none
      (entries.foldl (fun h (_, e) => (h.stopStream e.stream).2.deal (d e)) h) := by
  induction entries generalizing h with
  | nil => exact .refl none h
  | cons entry entries ih =>
    exact ((gentle_stopStream h _).trans (gentle_deal _ (struck entry.2))).trans (ih _)

theorem gentle_clear (h : Hub) (m : Nat) {f : Multiplexer → Multiplexer}
    (same : ∀ mux, ((f mux).root, (f mux).settings) = (mux.root, mux.settings))
    (cleared : ∀ mux, (f mux).monitors = []) (open' : ∀ mux, (f mux).isShut = mux.isShut) :
    h.Gentle none (h.updateMultiplexer m f) := by
  refine gentle_updateMultiplexer h m (fun mux _ => same mux) (fun mux _ key _ => ?_)
    (fun mux _ shut => .inl (open' mux ▸ shut)) fun mux shut => open' mux ▸ shut
  unfold Multiplexer.monitor?
  rw [cleared]
  rfl

theorem updateMultiplexer_twice (h : Hub) (m : Nat) (f g : Multiplexer → Multiplexer) :
    (h.updateMultiplexer m f).updateMultiplexer m g = h.updateMultiplexer m fun mux => g (f mux) := by
  have same : (h.multiplexers.modify m f).modify m g = h.multiplexers.modify m fun mux => g (f mux) := by
    apply List.ext_getElem?
    intro i
    simp only [List.getElem?_modify]
    cases h.multiplexers[i]? with
    | none => rfl
    | some mux => by_cases here : m = i <;> simp [here]
  unfold updateMultiplexer
  rw [same]

/-- A shutdown stops streams and leaves no entry; the multiplexer is marked after its token has fired,
for all that it matters. -/
theorem gentle_shutdown (h : Hub) (m : Nat) : h.Gentle none (h.shutdown m) := by
  unfold shutdown
  split
  · exact .refl none h
  · rename_i mux known
    have cleared := gentle_clear h m (f := fun mux => { mux with monitors := [] }) (fun _ => rfl)
      (fun _ => rfl) fun _ => rfl
    have fired := (gentle_stopAll mux.monitors (h.updateMultiplexer m fun mux =>
      { mux with monitors := [] }) (d := .closed) fun _ => rfl).trans (gentle_fire _ mux.root)
    have marked := updateMultiplexer_twice h m (fun mux => { mux with monitors := [] })
      fun mux => { mux with isShut := true }
    have late := stopAll_updateMultiplexer mux.monitors m (fun mux => { mux with isShut := true })
      (fun g e => g.deal (.closed e)) (fun _ _ => rfl)
      (h.updateMultiplexer m fun mux => { mux with monitors := [] })
    rw [marked] at late
    simp only
    rw [late]
    refine ((cleared.trans fired).trans (gentle_updateMultiplexer _ m
      (f := fun mux => { mux with isShut := true }) (fun _ _ => rfl) (fun _ _ _ => id)
      (fun _ _ _ => .inr ⟨fun key => fired.entries ?_, ?_⟩) fun _ _ => rfl)).trans (gentle_say _ _ _)
    · rw [monitor?_clear fun _ => rfl, if_pos rfl]
    · obtain ⟨mux', known', root⟩ := root_of_prefix (cleared.trans fired).roots known
      exact ⟨mux', known', root ▸ List.mem_cons_self⟩

theorem gentle_dropMultiplexer (h : Hub) (m : Nat) : h.Gentle none (h.dropMultiplexer m) := by
  unfold dropMultiplexer
  split
  · exact .refl none h
  · have cleared := gentle_clear h m (f := fun mux => { mux with monitors := [], dropped := true })
      (fun _ => rfl) (fun _ => rfl) fun _ => rfl
    exact cleared.trans (gentle_stopAll _ _ fun _ => rfl)

theorem gentle_collect (h : Hub) : h.Gentle none h.collect := by
  unfold collect
  generalize List.range h.multiplexers.length = ms
  induction ms generalizing h with
  | nil => exact .refl none h
  | cons m ms ih =>
    refine Gentle.trans ?_ (ih _)
    simp only
    split
    · split
      · exact .refl none h
      · exact gentle_dropMultiplexer h m
    · exact .refl none h

/-! ## Streams start -/

theorem modest_updateStream {f : Stream → Stream}
    (same : ∀ st, h.streams[n]? = some st → (f st).face = st.face) :
    h.Modest none (h.updateStream n f) :=
  { Modest.refl none h with
    identities := identities_updateStream fun st found => Stream.identity_of_face (same st found)
    attends := fun _ => attends_updateStream fun st found running => by
      have handlers : (f st).handlers = st.handlers := congrArg Face.handlers (same st found)
      exact ⟨(congrArg Face.isStopped (same st found)).symm.trans running,
        fun handler mem _ => handlers ▸ mem⟩ }

theorem modest_startStream (h : Hub) (n parent : Nat) : h.Modest none (h.startStream n parent).2 := by
  unfold startStream
  split
  · exact .refl none h
  · rename_i st found
    split
    · exact .refl none h
    · exact .refl none h
    · rename_i st' started
      have begun : h.Modest none (h.updateStream n fun _ => st') :=
        modest_updateStream fun st₀ found₀ => by
          cases found.symm.trans found₀
          exact Stream.face_start started
      exact { begun with started := Nat.le_succ _ }

/-- A stream that can be started is started, with a loop of its own; otherwise nothing happens. -/
theorem startStream_cases (h : Hub) (n parent : Nat) : (h.startStream n parent).2 = h ∨
    ∃ st l, h.streams[n]? = some st ∧ st.state = .created ∧ l.id = h.started ∧ l.stream = n ∧
      l.backoff = { policy := st.policy } ∧ (h.startStream n parent).2.loops = h.loops ++ [l] ∧
      (h.startStream n parent).2.streams =
        (h.updateStream n fun _ => { st with state := .syncing }).streams := by
  unfold startStream
  split
  · exact .inl rfl
  · rename_i st found
    split
    · exact .inl rfl
    · exact .inl rfl
    · rename_i st' started
      obtain ⟨created, rfl⟩ := Stream.start?_eq_ok started
      exact .inr ⟨st, _, found, created, rfl, rfl, rfl, rfl, rfl⟩

/-- Every stream is still there, and has seen nothing. -/
theorem endures_startStream (n parent : Nat) {i : Nat} {st : Stream}
    (found : h.streams[i]? = some st) :
    ∃ st', (h.startStream n parent).2.streams[i]? = some st' ∧ st.Endures st' := by
  rcases startStream_cases h n parent with same | ⟨st₀, _, here, created, _, _, _, _, streams⟩
  · exact ⟨st, by rw [same, found], .refl st⟩
  · rw [streams, streams_updateStream, found]
    split
    · rename_i own
      cases here.symm.trans (own ▸ found)
      refine ⟨_, rfl, Stream.endures_start ?_⟩
      simp [Stream.start?, created]
    · exact ⟨st, rfl, .refl st⟩

theorem unborn_startStream (n parent : Nat) {i : Nat} (none : h.streams[i]? = none) :
    (h.startStream n parent).2.streams[i]? = .none := by
  rcases startStream_cases h n parent with same | ⟨st, _, _, _, _, _, _, _, streams⟩
  · rw [same, none]
  · rw [streams]
    exact unborn_updateStream none

theorem multiplexers_startStream (h : Hub) (n parent : Nat) :
    (h.startStream n parent).2.multiplexers = h.multiplexers := by
  unfold startStream
  split
  · rfl
  · split <;> rfl

theorem fired_startStream (h : Hub) (n parent : Nat) :
    (h.startStream n parent).2.fired = h.fired := by
  unfold startStream
  split
  · rfl
  · split <;> rfl

/-! ## What handlers do -/

/-- Something gentle is done, or a stream is started. -/
inductive Rouse (who : Option Nat) : Hub → Hub → Prop
  | gentle {h h' : Hub} : h.Gentle who h' → Rouse who h h'
  | starts {h : Hub} (n parent : Nat) : Rouse who h (h.startStream n parent).2

/-- Gentle things are done and streams are started, one after the other. -/
abbrev Rouses (who : Option Nat) : Hub → Hub → Prop := Relation.ReflTransGen (Rouse who)

theorem Gentle.rouses (gentle : h.Gentle who h') : Rouses who h h' := .single (.gentle gentle)

theorem Rouses.anybody (rouses : Rouses none h h') (who : Option Nat) : Rouses who h h' := by
  induction rouses with
  | refl => exact .refl
  | tail _ rouse ih =>
    cases rouse with
    | gentle gentle => exact ih.tail (.gentle (gentle.anybody who))
    | starts n parent => exact ih.tail (.starts n parent)

theorem Rouses.modest (rouses : Rouses who h h') : h.Modest who h' := by
  induction rouses with
  | refl => exact .refl who h
  | tail _ rouse ih =>
    cases rouse with
    | gentle gentle => exact ih.trans gentle.toModest
    | starts n parent => exact ih.trans ((modest_startStream _ n parent).anybody who)

theorem Rouses.balance (rouses : Rouses who h h') : h'.imbalance = h.imbalance := by
  induction rouses with
  | refl => rfl
  | tail _ rouse ih =>
    cases rouse with
    | gentle gentle => exact gentle.balance.trans ih
    | starts n parent => exact (imbalance_startStream _ n parent).trans ih

/-- Every stream is still there, and has seen nothing. -/
theorem Rouses.old (rouses : Rouses who h h') {st : Stream} (found : h.streams[n]? = some st) :
    ∃ st', h'.streams[n]? = some st' ∧ st.Endures st' := by
  induction rouses with
  | refl => exact ⟨st, found, .refl st⟩
  | tail _ rouse ih =>
    obtain ⟨st₁, found₁, endures⟩ := ih
    cases rouse with
    | gentle gentle =>
      obtain ⟨st₂, found₂, bides⟩ := gentle.old found₁
      exact ⟨st₂, found₂, endures.trans bides.endures⟩
    | starts i parent =>
      obtain ⟨st₂, found₂, endures'⟩ := endures_startStream i parent found₁
      exact ⟨st₂, found₂, endures.trans endures'⟩

/-- Loops are as they were; those that are new are of streams that had not been started. -/
theorem Rouses.loops (rouses : Rouses who h h') : ∃ more, h'.loops = h.loops ++ more ∧
    ∀ l ∈ more, h.started ≤ l.id ∧ ∀ st, h.streams[l.stream]? = some st → st.state = .created := by
  induction rouses with
  | refl => exact ⟨[], (List.append_nil _).symm, nofun⟩
  | tail before rouse ih =>
    obtain ⟨more, eq, new⟩ := ih
    cases rouse with
    | gentle gentle => exact ⟨more, gentle.loops.trans eq, new⟩
    | starts n parent =>
      rcases startStream_cases _ n parent with same | ⟨st, l, found, created, id, own, _, loops, _⟩
      · exact ⟨more, same ▸ eq, new⟩
      · refine ⟨more ++ [l], by rw [loops, eq, List.append_assoc], fun k mem => ?_⟩
        rcases List.mem_append.mp mem with old | last
        · exact new k old
        · obtain rfl := List.mem_singleton.mp last
          refine ⟨id ▸ (Rouses.modest before).started, fun st₀ found₀ => ?_⟩
          obtain ⟨st₁, found₁, endures⟩ := Rouses.old before found₀
          cases found.symm.trans (own ▸ found₁)
          by_contra begun
          exact endures.started begun created

/-- So it is when handlers react. -/
theorem Rouses.clears (rouses : Rouses who h h') : h.Clears h' := by
  induction rouses with
  | refl => exact .refl h
  | tail _ rouse ih =>
    cases rouse with
    | gentle gentle => exact ih.trans gentle.clears
    | starts n parent =>
      exact ih.trans (clears_of_same (multiplexers_startStream _ n parent)
        (fired_startStream _ n parent))

theorem rouses_onStream {name : String} {f : Nat → Stream → Reply × Hub}
    (rouses : ∀ n st, h.streams[n]? = some st → Rouses none h (f n st).2) :
    Rouses none h (h.onStream name f).2 := by
  unfold onStream
  split
  · exact .refl
  · split
    · exact .refl
    · rename_i st found
      exact rouses _ st found

theorem knows_of_findName {name : String}
    (found : findName "registration" h.names.registrations name = .ok r) : h.Knows r := by
  unfold findName at found
  split at found
  · rename_i a lookup
    cases found
    obtain ⟨l₁, l₂, eq, _⟩ := List.lookup_eq_some_iff.mp lookup
    unfold Knows
    rw [eq]
    simp
  · cases found

theorem rouses_onRegistration {name : String} {f : Registration → Reply × Hub}
    (rouses : ∀ r, h.Knows r → Rouses none h (f r).2) :
    Rouses none h (h.onRegistration name f).2 := by
  unfold onRegistration
  split
  · exact .refl
  · rename_i r found
    exact rouses r (knows_of_findName found)

theorem rouses_onMultiplexer {name : String} {f : Nat → Multiplexer → Reply × Hub}
    (rouses : ∀ m mux, Rouses none h (f m mux).2) : Rouses none h (h.onMultiplexer name f).2 := by
  unfold onMultiplexer
  split
  · exact .refl
  · split
    · exact .refl
    · exact rouses _ _

/-- What a handler does in reaction to a call. -/
theorem rouses_act (h : Hub) (action : Action) : Rouses none h (h.act action).2 := by
  have backend (backend : Backend) : Rouses none h { h with backend } :=
    (gentle_backend h backend).rouses
  induction action generalizing h with
  | start stream token =>
    exact rouses_onStream fun n _ _ => (gentle_token h token).rouses.tail (.starts n _)
  | stop stream => exact rouses_onStream fun n _ _ => (gentle_stopStream h n).rouses
  | remove stream registration =>
    exact rouses_onStream fun n st found => rouses_onRegistration fun r known =>
      (gentle_removeHandler known found).rouses
  | unsubscribe multiplexer registration =>
    exact rouses_onMultiplexer fun m _ => rouses_onRegistration fun r known =>
      (gentle_unsubscribe m known).rouses
  | shutdown multiplexer => exact rouses_onMultiplexer fun m _ => (gentle_shutdown h m).rouses
  | cancel token => exact ((gentle_token h (some token)).trans (gentle_fire _ _)).rouses
  | apply key data => exact backend _
  | delete key => exact backend _
  | item stream => exact rouses_onStream fun _ _ _ => .refl
  | disconnect => exact backend _
  | compact => exact backend _
  | failLists n => exact backend _
  | failWatches n => exact backend _
  | both first second ih ih' =>
    exact (ih h backend).trans (ih' _ fun backend => (gentle_backend _ backend).rouses)

theorem rouses_react (h : Hub) (entry : LogEntry) (number : Nat) (kind : CallbackKind) :
    Rouses none h (h.react entry number kind) := by
  unfold react
  split
  · exact .refl
  · rename_i r _
    have taken := (gentle_recorders h (h.recorders.set number (r.react kind).2)).rouses
    simp only
    split
    · exact taken
    · exact (taken.trans (rouses_act _ _)).trans (gentle_record _ _).rouses

theorem rouses_invoke (h : Hub) (n : Nat) (handler : Nat × HandlerRef) (c : Callback) :
    Rouses none h (h.invoke n handler c) := by
  unfold invoke
  simp only
  split
  · exact (gentle_record h _).rouses
  · exact (gentle_record h _).rouses.trans (rouses_react _ _ _ _)

theorem rouses_deliver (h : Hub) (n : Nat) (c : Callback) : Rouses none h (h.deliver n c) := by
  unfold deliver
  split
  · exact .refl
  · rename_i st found
    clear found
    generalize st.handlers = handlers
    induction handlers generalizing h with
    | nil => exact .refl
    | cons handler handlers ih =>
      exact ((rouses_invoke h n handler c).trans (gentle_countDelivery _ _).rouses).trans (ih _)

theorem gentle_addHandler (h : Hub) (n : Nat) (ref : HandlerRef) :
    h.Gentle none (h.addHandler n ref) := by
  have counted : h.Gentle none { h with attached := h.attached + 1 } :=
    { Gentle.refl none h with attached := Nat.le_succ _ }
  exact counted.trans (gentle_updateStream (fun st _ => st.bides_attach _ _) (fun _ _ => rfl)
    fun _ _ _ mem _ => List.mem_append_left _ mem)

theorem rouses_attachHandler (h : Hub) (n : Nat) (ref : HandlerRef) :
    Rouses none h (h.attachHandler n ref).2 := by
  unfold attachHandler
  split
  · exact .refl
  · split
    · exact .refl
    · have entered := (gentle_addHandler h n ref).rouses
      simp only
      split
      · exact (entered.trans (rouses_invoke _ _ _ _)).trans (gentle_countDelivery _ _).rouses
      · exact entered

/-- A handler has been attached under a number that is new.  As long as its registration is withheld,
it stays. -/
structure Joins (h h' : Hub) (r : Registration) : Prop where
  fresh : h.attached < r.handler
  attends : h.Withheld r.handler → h'.Attends r.stream r.handler

theorem Modest.joins (modest : h.Modest who h') (joins : h'.Joins h'' r) : h.Joins h'' r :=
  ⟨Nat.lt_of_le_of_lt modest.attached joins.fresh,
    fun withheld => joins.attends (modest.withheld withheld)⟩

theorem attends_addHandler {st : Stream} (found : h.streams[n]? = some st) (ref : HandlerRef) :
    (h.addHandler n ref).Attends n (h.attached + 1) := by
  refine ⟨st.attach (h.attached + 1) ref, ?_, fun _ => ⟨(h.attached + 1, ref), ?_, rfl⟩⟩
  · unfold addHandler
    simp only
    rw [streams_updateStream, if_pos rfl]
    exact congrArg _ found
  · exact List.mem_append_right _ (List.mem_singleton_self _)

theorem joins_attachHandler {ref : HandlerRef} (attached : (h.attachHandler n ref).1 = .ok r) :
    h.Joins (h.attachHandler n ref).2 r := by
  unfold attachHandler at attached ⊢
  split at attached
  · cases attached
  · rename_i st found
    split at attached
    · cases attached
    · rename_i running
      cases attached
      rw [if_neg running]
      refine ⟨Nat.lt_succ_self _, fun withheld => ?_⟩
      have entered := attends_addHandler found ref
      have withheld := (gentle_addHandler h n ref).withheld withheld
      simp only
      split
      · rename_i o _
        have told := rouses_invoke (h.addHandler n ref) n ((h.addHandler n ref).attached, ref) (.add o)
        exact (Rouses.modest (told.trans (gentle_countDelivery _ _).rouses)).attends withheld entered
      · exact entered

/-! ## What a call does -/

theorem gentle_updateManager (h : Hub) (g id : Nat) {f : Manager → Manager}
    (multiplexer : ∀ manager, (f manager).multiplexer = manager.multiplexer)
    (owners : ∀ manager, (f manager).owners = manager.owners)
    (turn : ∀ manager k, k ≠ id → manager.turn = some k → (f manager).turn = some k)
    (line : ∀ manager k, k ≠ id → manager.InLine k → (f manager).InLine k) :
    h.Gentle (some id) (h.updateManager g f) := by
  have managers (i : Nat) : (h.updateManager g f).managers[i]? =
      (h.managers[i]?).map fun manager => if g = i then f manager else manager := by
    unfold updateManager
    rw [List.getElem?_modify]
    rfl
  have managed := (aside_updateManager h g multiplexer).managed
  have away {k : Nat} (other : some id ≠ some k) : k ≠ id := fun same => other (congrArg some same.symm)
  refine { Gentle.refl (some id) h with
    managed, owners := fun i => ?_, turns := fun {i k} other turn' => ?_
    lines := fun {i k} other line' => ?_, queues := nofun }
  · unfold Hub.owners
    rw [managers]
    cases h.managers[i]? with
    | none => rfl
    | some manager =>
      simp only [Option.map_some, Option.elim_some]
      split
      · exact owners manager
      · rfl
  · obtain ⟨manager, known, has⟩ := turn'
    refine ⟨if g = i then f manager else manager, by rw [managers, known]; rfl, ?_⟩
    split
    · exact turn manager k (away other) has
    · exact has
  · obtain ⟨manager, known, waits⟩ := line'
    refine ⟨if g = i then f manager else manager, by rw [managers, known]; rfl, ?_⟩
    split
    · exact line manager k (away other) waits
    · exact waits

theorem gentle_leaveTurn (h : Hub) (g id : Nat) : h.Gentle (some id) (h.leaveTurn g id) :=
  gentle_updateManager h g id (·.multiplexer_leave id) (·.owners_leave id)
    (fun _ _ other turn => Manager.turn_leave turn other)
    fun _ _ other line => Manager.inLine_leave line other

theorem gentle_ask (h : Hub) (g id : Nat) : h.Gentle (some id) (h.updateManager g (·.ask id)) :=
  gentle_updateManager h g id (·.multiplexer_ask id) (·.owners_ask id)
    (fun _ _ _ turn => Manager.turn_ask turn id) fun _ _ _ line => Manager.inLine_ask line id

theorem gentle_calls (h : Hub) {id : Nat} {calls : List PendingCall}
    (others : ∀ c : PendingCall, c.id ≠ id → (c ∈ calls ↔ c ∈ h.calls)) :
    h.Gentle (some id) { h with calls } :=
  { Gentle.refl (some id) h with
    calls := fun {c} other => others c fun same => other (congrArg some same.symm) }

theorem gentle_dropCall (h : Hub) (id : Nat) : h.Gentle (some id) (h.dropCall id) := by
  refine gentle_calls h fun c other => ?_
  rw [List.mem_filter]
  simp [other]

theorem gentle_updateCall (h : Hub) (id : Nat) {f : PendingCall → PendingCall}
    (ids : ∀ c, (f c).id = c.id) : h.Gentle (some id) (h.updateCall id f) := by
  refine gentle_calls h fun c other => ?_
  rw [List.mem_map]
  constructor
  · rintro ⟨c', mem, rfl⟩
    split at other
    · rename_i own
      exact absurd ((ids c').trans own) other
    · rename_i own
      rw [if_neg own]
      exact mem
  · exact fun mem => ⟨c, mem, if_neg other⟩

theorem gentle_beginWait (h : Hub) (c : PendingCall) (w : SyncWait) :
    h.Gentle (some c.id) (h.beginWait c w) :=
  ((gentle_takeTicket h).anybody _).trans (gentle_updateCall _ _ fun _ => rfl)

theorem gentle_addCall (h : Hub) (id : Nat) (request : Request) (bind : Option String) :
    h.Gentle (some id) (h.addCall id request bind) := by
  refine ((gentle_takeTicket h).anybody _).trans (gentle_calls _ fun c other => ?_)
  rw [List.mem_append, List.mem_singleton]
  constructor
  · rintro (old | rfl)
    · exact old
    · exact absurd rfl other
  · exact .inl

/-- A call goes away, and gives on its turn if it has one. -/
theorem gentle_leave (h : Hub) (id : Nat) (request : Request) : h.Gentle (some id)
    (match request.manager? with
      | some k => (h.dropCall id).leaveTurn k id
      | none => h.dropCall id) := by
  have dropped := gentle_dropCall h id
  split
  · exact dropped.trans (gentle_leaveTurn _ _ id)
  · exact dropped

/-- A call that is dropped while it waits for a stream loses its reference; otherwise nothing gets
lost. -/
theorem abort_cases (h : Hub) (id : Nat) : h.Gentle (some id) (h.abort id).2 ∨
    ∃ c n g, h.call? id = some c ∧ c.waitsOn? = some n ∧ h.Gentle none g ∧
      (g.deal (.lost n)).Gentle (some id) (h.abort id).2 := by
  unfold abort
  split
  · exact .inl (.refl _ h)
  · rename_i c found
    cases waits : c.waitsOn? with
    | none => exact .inl (gentle_leave h id c.request)
    | some n =>
      exact .inr ⟨c, n, h.bypass n .aborted, found, waits, gentle_bypass h n .aborted,
        gentle_leave _ id c.request⟩

/-! ## Streams are made, and loops move -/

theorem modest_createStream (h : Hub) (key : ObjectKey) (policy : RetryPolicy)
    (issuer : Option Nat) : h.Modest none (h.createStream key policy issuer).2 :=
  { Modest.refl none h with
    identities := by
      unfold createStream
      rw [List.map_append]
      exact List.prefix_append _ _
    attends := by
      rintro i k - ⟨st, found, attached⟩
      exact ⟨st, List.getElem?_append_left (List.getElem?_eq_some_iff.mp found).1 ▸ found, attached⟩ }

theorem modest_openStream (h : Hub) (m : Nat) (mux : Multiplexer) (key : ObjectKey) :
    h.Modest none (h.openStream m mux key).2 := by
  have created := modest_createStream h key mux.settings.listWatch (some m)
  exact (created.trans (modest_startStream _ _ _)).trans (gentle_say _ _ _).toModest

/-- A stream that has been replaced is stopped, and its references are counted off. -/
theorem gentle_retire (h : Hub) (e : Monitor) : h.Gentle none (h.retire e) :=
  ((gentle_stopStream h e.stream).trans (gentle_deal _ (d := .closed e) rfl)).trans (gentle_say _ _ _)

theorem modest_put (h : Hub) (m : Nat) (key : ObjectKey) (e : Monitor) :
    h.Modest none (h.updateMultiplexer m (·.put key e)) :=
  modest_updateMultiplexer h m (f := (·.put key e)) (fun _ _ => rfl) fun _ => id

theorem modest_acquire (h : Hub) (m : Nat) (mux : Multiplexer) (key : ObjectKey) :
    h.Modest none (h.acquire m mux key).2 := by
  have put (g : Hub) (e : Monitor) := modest_put g m key e
  unfold acquire
  split
  · split
    · exact put h _
    · exact ((modest_openStream h m mux key).trans (put _ _)).trans (gentle_retire _ _).toModest
  · exact (modest_openStream h m mux key).trans (put _ _)

theorem modest_release (h : Hub) (stage : Stage) : h.Modest none (match stage with
    | .consuming feed _ => { h with backend := h.backend.release feed }
    | _ => h) := by
  split
  · exact (gentle_backend h _).toModest
  · exact .refl none h

theorem modest_endLoop (h : Hub) (l : Loop) : h.Modest none (h.endLoop l) := by
  have gone : h.Modest none { h with loops := h.loops.filter fun k => k.id != l.id } :=
    { Modest.refl none h with }
  exact gone.trans (modest_release _ l.stage)

theorem modest_endCycle (h : Hub) (l : Loop) (ending : CycleEnd) :
    h.Modest none (h.endCycle l ending) := by
  have reported (g : Hub) : g.Modest none (g.reportEnd l.stream ending) := by
    unfold reportEnd
    split
    · exact .refl none g
    · exact (gentle_say g _ _).toModest
    · exact (gentle_say g _ _).toModest.trans (modest_updateStream fun _ _ => rfl)
  have rests (g : Hub) (draws : Draws) (backoff : Backoff) (t : Nat) : g.Modest none
      ((({ g.countRestart ending.reason with draws } : Hub).updateLoop l.id fun l =>
        { l with backoff }).enter l.id (.resting t)) := { Modest.refl none g with }
  have drawn (g : Hub) (draws : Draws) :
      g.Modest none { g.countRestart ending.reason with draws } := { Modest.refl none g with }
  have given (g : Hub) (key : ObjectKey) (lastError : Option String) :
      g.Modest none (g.abandon { l with stage := .fresh } key lastError) :=
    { modest_updateStream (h := g) (n := l.stream) (f := (·.abandon (lastError.getD
        "retries exhausted"))) fun _ _ => rfl with }
  have told := (modest_release h l.stage).trans (reported _)
  unfold endCycle
  simp only
  split
  · exact told.trans (rests _ _ _ _)
  · split
    · exact (told.trans (drawn _ _)).trans (modest_endLoop _ l)
    · exact (told.trans (drawn _ _)).trans (given _ _ _)

/-- Once a stream has seen the object change, its handlers are called. -/
theorem modest_replace (h : Hub) (n : Nat) (items : List Object) (version : String) :
    h.Modest none (h.replace n items version) := by
  unfold replace
  split
  · exact .refl none h
  · rename_i st found
    have said (foreign : List Object) (g : Hub) : g.Gentle none (foreign.foldl
        (fun h _ => h.say .warn "list returned a foreign object, ignoring") g) := by
      induction foreign generalizing g with
      | nil => exact .refl none g
      | cons o foreign ih => exact (gentle_say g _ _).trans (ih _)
    have seen {g : Hub} (aside : h.Aside g) :
        g.Modest none (g.updateStream n fun _ => (st.replace items version).1) :=
      modest_updateStream fun st₀ found₀ => by
        cases found.symm.trans (aside.streams ▸ found₀)
        exact st.face_replace items version
    have told (g : Hub) (b : Bool) (callback : Option Callback) : g.Modest none
        (callback.elim (if b then g.say .info "watch stream synced" else g)
          ((if b then g.say .info "watch stream synced" else g).deliver n)) := by
      have synced : g.Gentle none (if b then g.say .info "watch stream synced" else g) := by
        split
        · exact gentle_say _ _ _
        · exact .refl none g
      cases callback with
      | none => exact synced.toModest
      | some c => exact Rouses.modest (synced.rouses.trans (rouses_deliver _ n c))
    have warned := aside_says (items.filter fun o => !st.key.owns o) h .warn
      "list returned a foreign object, ignoring"
    exact ((said _ h).toModest.trans (seen warned)).trans (told _ _ _)

theorem modest_receive (h : Hub) (n : Nat) (e : Change) : h.Modest none (h.receive n e) := by
  unfold receive
  split
  · exact .refl none h
  · rename_i st found
    have same : ∀ st₀, h.streams[n]? = some st₀ → (st.receive e).1.face = st₀.face := by
      intro st₀ found₀
      cases found.symm.trans found₀
      exact st.face_receive e
    have seen : h.Modest none ((if st.key.owns e.object then h else h.say .warn
        "watch delivered a foreign object, ignoring").updateStream n fun _ => (st.receive e).1) := by
      split
      · exact modest_updateStream same
      · exact (gentle_say h _ _).toModest.trans (modest_updateStream same)
    simp only
    cases (st.receive e).2 with
    | none => exact seen
    | some c => exact seen.trans (rouses_deliver _ n c).modest

theorem LoopStep.modest {l : Loop} {st : Stream} (step : h.LoopStep l st h') :
    h.Modest none h' := by
  have asked (g : Hub) (backend : Backend) : g.Modest none { g with backend } :=
    (gentle_backend g backend).toModest
  have syncing (g : Hub) : g.Modest none (g.beginCycle l st) := by
    have moved : g.Modest none (g.updateStream l.stream (·.move .syncing)) :=
      modest_updateStream fun st _ => st.face_move nofun
    exact { moved with }
  cases step with
  | first _ =>
    have heeded : h.Modest none (h.heed l) := { Modest.refl none h with }
    exact heeded.trans (syncing _)
  | again _ => exact syncing h
  | timedOut _ => exact (gentle_say h _ _).toModest.trans (modest_endCycle _ l _)
  | listAnswered _ =>
    unfold Hub.listAnswered
    simp only
    split
    · exact (asked h _).trans (modest_endCycle _ l _)
    · exact { Modest.refl none h with }
  | reconcile _ =>
    have replaced := modest_replace h l.stream
    exact (replaced _ _).trans { Modest.refl none _ with }
  | watchAnswered _ =>
    unfold Hub.watchAnswered
    simp only
    split
    · exact (asked h _).trans (modest_endCycle _ l _)
    · exact { Modest.refl none h with }
  | arrived _ _ => exact (asked h _).trans (modest_receive _ _ _)
  | broken _ _ => exact (asked h _).trans (modest_endCycle _ l _)
  | closed _ _ => exact (asked h _).trans (modest_endCycle _ l _)
  | played _ =>
    have moved (f : Loop → Loop) : h.Modest none (h.updateLoop l.id f) :=
      { Modest.refl none h with }
    exact (moved _).trans (modest_receive _ _ _)
  | playedOut ending _ => exact modest_endCycle h l ending
  | paused _ => exact { Modest.refl none h with }

theorem modest_loopStep (h : Hub) (id : Nat) : h.Modest none (h.loopStep id) := by
  unfold loopStep
  split
  · exact .refl none h
  · rename_i l st _
    cases stepped : h.stepLoop l st with
    | none => exact .refl none h
    | some h' => exact (stepLoop_cases stepped).modest

theorem modest_loopEnd (h : Hub) (id : Nat) : h.Modest none (h.loopEnd id) := by
  unfold loopEnd
  split
  · exact .refl none h
  · split
    · exact modest_endLoop h _
    · split
      · exact (gentle_haltStream h _).toModest.trans (modest_endLoop _ _)
      · exact .refl none h

end Hub

end SharedWatch
