import SharedWatch.Proofs.SyncWaitOutcomes
import SharedWatch.Proofs.WatchYields

/-!
# Who reads a connection

A connection has one reader: a loop that has opened it, or the name that it was opened under.  A
loop lets go of its connection when its cycle ends, and when it ends itself; so no connection is left
behind, and the store can tell from its connections how many streams watch.

* `Store.held`: the connections whose readers have not let go.
* `Hub.Moors`: these are the ones that certain readers have, and those that have names.
* `Hub.Grips`: they are, although the stage of one loop does not tell which connection it has.
* `Hub.Moored`: they are those that loops read, and those that have names; `moored_run`: in every run.
* `no_connection_leaks`: how many watchers the store counts.
-/

namespace SharedWatch

namespace Store

variable {s s' : Store} {id : Nat}

/-! ## Connections with readers -/

/-- The numbers of the connections whose readers have not let go. -/
def held (s : Store) : List Nat := (s.connections.filter (·.held)).map (·.id)

/-- Whether the store still feeds the connection of a number. -/
def feedsOn (s : Store) (id : Nat) : Bool := (s.connection? id).any (·.attached)

/-- No two connections have one number, and every number has been given. -/
structure Tidy (s : Store) : Prop where
  distinct : (s.connections.map (·.id)).Nodup
  given : ∀ c ∈ s.connections, c.id < s.opened

/-- No reader has let go of a connection, and none has got a new one. -/
structure Retains (s s' : Store) : Prop where
  ids : (s'.connections.map (·.id)).Sublist (s.connections.map (·.id))
  opened : s.opened ≤ s'.opened
  held : s'.held = s.held

theorem Retains.refl (s : Store) : s.Retains s := ⟨.refl _, Nat.le_refl _, rfl⟩

theorem Retains.trans {s'' : Store} (first : s.Retains s') (second : s'.Retains s'') :
    s.Retains s'' :=
  ⟨second.ids.trans first.ids, Nat.le_trans first.opened second.opened, second.held.trans first.held⟩

theorem Tidy.of_ids (tidy : s.Tidy)
    (ids : (s'.connections.map (·.id)).Sublist (s.connections.map (·.id)))
    (opened : s.opened ≤ s'.opened) : s'.Tidy where
  distinct := tidy.distinct.sublist ids
  given c mem := by
    obtain ⟨c₀, old, same⟩ := List.mem_map.mp (ids.subset (List.mem_map_of_mem mem))
    exact same ▸ Nat.lt_of_lt_of_le (tidy.given c₀ old) opened

theorem Tidy.retains (tidy : s.Tidy) (retains : s.Retains s') : s'.Tidy :=
  tidy.of_ids retains.ids retains.opened

theorem Tidy.same {c c' : Connection} (tidy : s.Tidy) (mem : c ∈ s.connections)
    (mem' : c' ∈ s.connections) (ids : c.id = c'.id) : c = c' :=
  List.inj_on_of_nodup_map tidy.distinct mem mem' ids

theorem Tidy.connection?_eq {c : Connection} (tidy : s.Tidy) (mem : c ∈ s.connections) :
    s.connection? c.id = some c := by
  cases found : s.connection? c.id with
  | none => exact absurd (List.find?_eq_none.mp found c mem) (by simp)
  | some c' =>
    obtain ⟨mem', same⟩ := connection?_mem found
    rw [tidy.same mem' mem same]

theorem Tidy.held_nodup (tidy : s.Tidy) : s.held.Nodup :=
  tidy.distinct.sublist (List.filter_sublist.map _)

theorem ids_mapConnections {f : Connection → Connection}
    (ids : ∀ c ∈ s.connections, (f c).id = c.id) :
    ((s.mapConnections f).connections.map (·.id)).Sublist (s.connections.map (·.id)) := by
  have same : (s.connections.map f).map (·.id) = s.connections.map (·.id) := by
    rw [List.map_map]
    exact List.map_congr_left ids
  exact same ▸ List.filter_sublist.map _

/-- The readers of some connections let go. -/
theorem held_mapConnections {f : Connection → Connection} {keep : Nat → Bool}
    (ids : ∀ c ∈ s.connections, (f c).id = c.id)
    (held : ∀ c ∈ s.connections, (f c).held = (c.held && keep c.id)) :
    (s.mapConnections f).held = s.held.filter keep := by
  have kept : (s.mapConnections f).connections.filter (·.held) =
      (s.connections.map f).filter (·.held) := by
    show ((s.connections.map f).filter fun c => c.attached || c.held).filter (·.held) = _
    rw [List.filter_filter]
    exact List.filter_congr fun c _ => by cases c.held <;> simp
  have mapped : (s.connections.map f).filter (·.held) =
      (s.connections.filter fun c => c.held && keep c.id).map f := by
    rw [List.filter_map]
    exact congrArg (List.map f) (List.filter_congr held)
  unfold Store.held
  rw [kept, mapped, List.map_map, List.filter_map, List.filter_filter]
  have same : (s.connections.filter fun c => c.held && keep c.id) =
      s.connections.filter fun c => (keep ∘ (·.id)) c && c.held :=
    List.filter_congr fun c _ => Bool.and_comm _ _
  rw [← same]
  exact List.map_congr_left fun c mem => ids c (List.mem_filter.mp mem).1

theorem retains_mapConnections {f : Connection → Connection}
    (ids : ∀ c ∈ s.connections, (f c).id = c.id)
    (held : ∀ c ∈ s.connections, (f c).held = c.held) : s.Retains (s.mapConnections f) where
  ids := ids_mapConnections ids
  opened := Nat.le_refl _
  held := by
    have kept : (s.mapConnections f).held = s.held.filter fun _ => true :=
      held_mapConnections ids fun c mem => by rw [held c mem, Bool.and_true]
    rw [kept, List.filter_true]

theorem Retains.of_connections (same : s'.connections = s.connections)
    (opened : s.opened ≤ s'.opened) : s.Retains s' where
  ids := same ▸ .refl _
  opened := opened
  held := by rw [Store.held, Store.held, same]

/-! ## What is done to a store -/

theorem held_send (c : Connection) (a : Arrival) : (c.send a).held = c.held := by
  unfold Connection.send
  split <;> rfl

theorem held_announce (c : Connection) (e : Change) : (c.announce e).held = c.held := by
  unfold Connection.announce
  split
  · rfl
  · split
    · exact held_send c _
    · rfl

theorem held_expire (c : Connection) (f : StoreFailure) : (c.expire f).held = c.held := by
  unfold Connection.expire
  split
  · exact held_send c _
  · rfl

/-- Nothing that is asked of a store without a connection takes one from its reader. -/
theorem retains_run (s : Store) (op : Op) : s.Retains (op.run s) := by
  have opened : s.opened ≤ (op.run s).opened := (@grows_run (fun _ => True) s op).opened
  have mapped {f : Connection → Connection}
      (same : (op.run s).connections = (s.mapConnections f).connections)
      (ids : ∀ c, (f c).id = c.id) (held : ∀ c, (f c).held = c.held) : s.Retains (op.run s) :=
    (retains_mapConnections (fun c _ => ids c) fun c _ => held c).trans (.of_connections same opened)
  cases op.reach s with
  | announced e _ _ _ same => exact mapped same (id_announce · e) (held_announce · e)
  | detached _ same => exact mapped same (fun _ => rfl) fun _ => rfl
  | expired _ same => exact mapped same (id_expire · _) (held_expire · _)
  | counted _ same =>
    exact mapped same (fun c => by split <;> rfl) fun c => by split <;> rfl
  | unreached _ _ _ same => exact .of_connections same opened

theorem Tidy.retains_read (tidy : s.Tidy) (id : Nat) : s.Retains (s.read id).2 := by
  unfold Store.read
  split
  · exact .refl s
  · rename_i c found
    obtain ⟨mem, here⟩ := connection?_mem found
    have own {c' : Connection} (mem' : c' ∈ s.connections) (ids : c'.id = id) : c' = c :=
      tidy.same mem' mem (ids.trans here.symm)
    refine retains_mapConnections (fun c' mem' => ?_) fun c' mem' => ?_
    · split
      · rename_i ids
        rw [own mem' ids, id_read]
      · rfl
    · split
      · rename_i ids
        rw [own mem' ids]
        unfold Connection.read
        split <;> rfl
      · rfl

theorem Tidy.retains_readArrivals (tidy : s.Tidy) (connection limit : Nat) :
    s.Retains (Hub.readArrivals connection limit s).2 := by
  induction limit generalizing s with
  | zero => exact .refl s
  | succ limit ih =>
    have read := tidy.retains_read connection
    unfold Hub.readArrivals
    split
    · rename_i a s' eq
      rw [eq] at read
      exact read.trans (ih (tidy.retains read))
    · rename_i s' eq
      rw [eq] at read
      exact read
    · rename_i s' eq
      rw [eq] at read
      exact read

/-- A watch that is refused opens no connection. -/
theorem retains_watch_error {sel : Selector} {version : String} {f : StoreFailure}
    (refused : (s.watch sel version).1 = .error f) : s.Retains (s.watch sel version).2 := by
  unfold Store.watch at refused ⊢
  simp only at refused ⊢
  split
  · exact .of_connections rfl (Nat.le_refl _)
  · rename_i calm
    rw [if_neg calm] at refused
    split
    · exact .of_connections rfl (Nat.le_refl _)
    · rename_i revision start
      rw [start] at refused
      simp only at refused
      split
      · exact .of_connections rfl (Nat.le_refl _)
      · rename_i kept
        rw [if_neg kept] at refused
        cases refused

/-- A watch that is opened has a connection of a new number. -/
theorem Tidy.watch (tidy : s.Tidy) {sel : Selector} {version : String}
    (opened : s.watch sel version = (.ok id, s')) : s'.Tidy ∧ s'.held = s.held ++ [id] := by
  obtain ⟨rfl, _, _, _, _, more, connections⟩ := watch_eq_ok opened
  refine ⟨⟨?_, fun c mem => ?_⟩, ?_⟩
  · rw [connections, List.map_append, List.nodup_append]
    refine ⟨tidy.distinct, List.nodup_singleton _, fun i mem j only => ?_⟩
    obtain ⟨c, old, rfl⟩ := List.mem_map.mp mem
    have new : j = s.opened := List.mem_singleton.mp only
    have given := tidy.given c old
    omega
  · rw [connections, List.mem_append, List.mem_singleton] at mem
    rcases mem with old | rfl
    · have given := tidy.given c old
      omega
    · show s.opened < s'.opened
      omega
  · unfold held
    rw [connections, List.filter_append, List.map_append]
    rfl

/-- The reader of a connection lets go of it, and of no other. -/
theorem Tidy.release (tidy : s.Tidy) {others : List Nat} (held : s.held.Perm (id :: others)) :
    (s.release id).Tidy ∧ (s.release id).held.Perm others := by
  have ids : ∀ c ∈ s.connections, (if c.id = id then c.release else c).id = c.id :=
    fun c _ => by split <;> rfl
  refine ⟨tidy.of_ids (ids_mapConnections ids) (Nat.le_refl _), ?_⟩
  have left : (s.release id).held = s.held.filter (· != id) :=
    held_mapConnections ids fun c _ => by
      split
      · rename_i here
        simp [Connection.release, here]
      · rename_i other
        simp [other]
  have absent : id ∉ others := (List.nodup_cons.mp (held.nodup_iff.mp tidy.held_nodup)).1
  rw [left]
  refine (held.filter _).trans ?_
  rw [List.filter_cons_of_neg (by simp), List.filter_eq_self.mpr fun i mem => ?_]
  simpa using fun same : i = id => absent (same ▸ mem)

/-- The store counts the connections that it feeds, of those that are held. -/
theorem Tidy.watcherCount_eq (tidy : s.Tidy) : s.watcherCount.1 = s.held.countP s.feedsOn := by
  have counted : s.watcherCount.1 = s.connections.countP fun c => c.held && c.attached := by
    unfold Store.watcherCount
    simp only
    rw [← List.countP_eq_length_filter]
    show List.countP (·.attached) ((s.connections.map fun c => if c.held then c else c.detach).filter
      fun c => c.attached || c.held) = _
    rw [List.countP_filter, List.countP_map]
    refine List.countP_congr fun c _ => ?_
    cases held : c.held <;> simp [held, Connection.detach]
  rw [counted, held, List.countP_map, List.countP_filter]
  refine List.countP_congr fun c mem => ?_
  have here : s.feedsOn c.id = c.attached := by
    rw [feedsOn, tidy.connection?_eq mem]
    rfl
  rw [Function.comp, here, Bool.and_comm]

end Store

/-- The connection that a loop reads at a stage, if it reads one. -/
def Stage.connection? : Stage → Option Nat
  | .consuming (.live connection) _ => some connection
  | _ => none

namespace Hub

open Relation (ReflTransGen)

variable {h h' : Hub} {l : Loop} {st : Stream} {inUse : List Nat} {rest : List Loop}
  {c? : Option Nat} {connection : Nat}

/-! ## Readers and names -/

/-- The connections that some readers have, and those that have names, are the ones that are held. -/
structure Moors (h : Hub) (inUse : List Nat) : Prop where
  tidy : h.backend.store.Tidy
  names : (h.names.watches.map (·.1)).Nodup
  held : h.backend.store.held.Perm (inUse ++ h.names.watches.map (·.2))

/-- The connections that the loops of a hub read. -/
def loopConnections (h : Hub) : List Nat := h.loops.filterMap (·.stage.connection?)

/-- The connections that are held are those that loops read, and those that have names. -/
def Moored (h : Hub) : Prop := h.Moors h.loopConnections

theorem moored_start (limit : Nat) (draws : Draws) : (start limit draws).Moored :=
  ⟨⟨List.nodup_nil, nofun⟩, List.nodup_nil, .nil⟩

theorem Moors.perm {inUse' : List Nat} (moors : h.Moors inUse)
    (perm : inUse.Perm inUse') : h.Moors inUse' :=
  { moors with held := moors.held.trans (perm.append_right _) }

/-- Nobody lets go of a connection, or gets one. -/
theorem Moors.retains (moors : h.Moors inUse)
    (store : h.backend.store.Retains h'.backend.store)
    (watches : h'.names.watches = h.names.watches) : h'.Moors inUse where
  tidy := moors.tidy.retains store
  names := watches ▸ moors.names
  held := by
    rw [store.held, watches]
    exact moors.held

theorem Moors.of_store (moors : h.Moors inUse) (store : h'.backend.store = h.backend.store)
    (watches : h'.names.watches = h.names.watches) : h'.Moors inUse :=
  moors.retains (store ▸ .refl _) watches

/-- A reader lets go. -/
theorem Moors.release (moors : h.Moors (connection :: inUse)) :
    (h.updateStore (·.release connection)).Moors inUse := by
  obtain ⟨tidy, held⟩ := moors.tidy.release moors.held
  exact ⟨tidy, moors.names, held⟩

/-- A reader opens a watch. -/
theorem Moors.watch (moors : h.Moors inUse) {sel : Selector} {version : String} {store : Store}
    (opened : h.backend.store.watch sel version = (.ok connection, store)) :
    (h.updateStore fun _ => store).Moors (connection :: inUse) := by
  obtain ⟨tidy, held⟩ := moors.tidy.watch opened
  refine ⟨tidy, moors.names, ?_⟩
  show store.held.Perm (connection :: (inUse ++ h.names.watches.map (·.2)))
  rw [held]
  exact (List.perm_append_singleton _ _).trans (moors.held.cons _)

/-- The reader of a stage lets go of what it reads. -/
def letGo (h : Hub) : Stage → Hub
  | .consuming feed _ => { h with backend := h.backend.release feed }
  | _ => h

theorem loops_letGo (h : Hub) (stage : Stage) : (h.letGo stage).loops = h.loops := by
  unfold letGo
  split <;> rfl

theorem Moors.letGo {stage : Stage} (moors : h.Moors (stage.connection?.toList ++ inUse)) :
    (h.letGo stage).Moors inUse := by
  cases stage with
  | consuming feed silent =>
    cases feed with
    | live connection => exact moors.release
    | scripted items ends => exact moors.of_store rfl rfl
  | _ => exact moors

/-- The entry of a name stands out from all others. -/
theorem perm_of_lookup {names : List (String × Nat)} {name : String} {id : Nat}
    (distinct : (names.map (·.1)).Nodup) (found : names.lookup name = some id) :
    names.Perm ((name, id) :: dropName names name) := by
  obtain ⟨before, after, rfl, absent⟩ := List.lookup_eq_some_iff.mp found
  rw [List.map_append, List.map_cons, List.nodup_append] at distinct
  obtain ⟨_, later, apart⟩ := distinct
  have kept : dropName (before ++ (name, id) :: after) name = before ++ after := by
    unfold dropName
    rw [List.filter_append, List.filter_cons_of_neg (by simp), List.filter_eq_self.mpr,
      List.filter_eq_self.mpr]
    · intro e mem
      have other : e.1 ≠ name := fun same =>
        (List.nodup_cons.mp later).1 (List.mem_map.mpr ⟨e, mem, same⟩)
      simpa using other
    · intro e mem
      have other : e.1 ≠ name := apart _ (List.mem_map_of_mem mem) _ List.mem_cons_self
      simpa using other
  rw [kept]
  exact List.perm_middle

theorem nodup_dropName {names : List (String × Nat)} (distinct : (names.map (·.1)).Nodup)
    (name : String) : ((dropName names name).map (·.1)).Nodup :=
  distinct.sublist (List.filter_sublist.map _)

/-- A name is forgotten, and its connection let go. -/
theorem Moors.dropWatch (moors : h.Moors inUse) {name : String}
    (found : h.names.watches.lookup name = some connection) :
    ((h.updateStore (·.release connection)).rename fun d =>
      { d with watches := dropName d.watches name }).Moors inUse := by
  have entry := (perm_of_lookup moors.names found).map (·.2)
  have held : h.backend.store.held.Perm
      (connection :: (inUse ++ (dropName h.names.watches name).map (·.2))) :=
    (moors.held.trans (entry.append_left _)).trans List.perm_middle
  obtain ⟨tidy, left⟩ := moors.tidy.release held
  exact ⟨tidy, nodup_dropName moors.names name, left⟩

/-- A connection gets a name that stands for none. -/
theorem Moors.bindWatch (moors : h.Moors (connection :: inUse)) {name : String}
    (free : name ∉ h.names.watches.map (·.1)) :
    (h.rename fun d => { d with watches := (name, connection) :: d.watches }).Moors inUse where
  tidy := moors.tidy
  names := List.nodup_cons.mpr ⟨free, moors.names⟩
  held := moors.held.trans List.perm_middle.symm

theorem not_mem_dropName (names : List (String × Nat)) (name : String) :
    name ∉ (dropName names name).map (·.1) := by
  intro mem
  obtain ⟨e, kept, same⟩ := List.mem_map.mp mem
  have other := (List.mem_filter.mp kept).2
  simp [same] at other

theorem dropName_of_absent {names : List (String × Nat)} {name : String}
    (absent : names.lookup name = none) : dropName names name = names := by
  refine List.filter_eq_self.mpr fun e mem => ?_
  have other := List.lookup_eq_none_iff.mp absent e mem
  exact bne_iff_ne.mpr fun same => by simp [same] at other

/-- A watch is opened under a name; another one of the name is let go. -/
theorem Moors.openWatch (moors : h.Moors inUse) (sel : Selector) (version name : String) :
    (h.openWatch sel version name).2.Moors inUse := by
  unfold Hub.openWatch
  split
  · rename_i f store eq
    have refused := Store.retains_watch_error (congrArg Prod.fst eq)
    rw [eq] at refused
    exact moors.retains refused rfl
  · rename_i connection store eq
    have opened := moors.watch eq
    cases found : h.names.watches.lookup name with
    | none =>
      have same := dropName_of_absent found
      have renamed : ((h.updateStore fun _ => store).rename fun d =>
          { d with watches := dropName d.watches name }).Moors (connection :: inUse) :=
        opened.of_store rfl same
      exact renamed.bindWatch (not_mem_dropName h.names.watches name)
    | some id =>
      have left := opened.dropWatch found
      exact left.bindWatch (not_mem_dropName h.names.watches name)

/-- Whatever happens beside the loops, readers keep what they have. -/
theorem Moors.life (moors : h.Moors inUse) (life : Life h h') : h'.Moors inUse := by
  cases life with
  | beside beside => exact moors.of_store beside.store beside.watches
  | create key policy issuer => exact moors.of_store rfl rfl
  | start n parent =>
    unfold Hub.startStream
    split
    · exact moors
    · split <;> exact moors.of_store rfl rfl
  | halt n =>
    unfold Hub.haltStream
    split
    · exact moors
    · split
      · exact moors
      · simp only
        split <;> exact moors.of_store rfl rfl
  | detach _ _ => exact moors.of_store rfl rfl
  | store op => exact moors.retains (Store.retains_run _ op) rfl
  | openWatch sel version name => exact moors.openWatch sel version name
  | poll limit _ => exact moors.retains (moors.tidy.retains_readArrivals _ _) rfl
  | dropWatch found => exact moors.dropWatch found

/-- A new loop reads nothing yet. -/
theorem Lapse.loopConnections (lapse : h.Lapse h') : h'.loopConnections = h.loopConnections := by
  unfold Hub.loopConnections
  rcases lapse.loops with ⟨same, _⟩ | ⟨l, _, _, more, _, _, fresh, _⟩
  · rw [same]
  · rw [more, List.filterMap_append]
    simp [Stage.connection?, fresh]

theorem Moored.lives (moored : h.Moored) (lives : Lives h h') : h'.Moored := by
  induction lives with
  | refl => exact moored
  | tail _ life ih =>
    have kept := ih.life life
    unfold Moored
    rwa [life.lapse.loopConnections]

theorem Moored.beats (moored : h.Moored) (beats : Beats h h') : h'.Moored := by
  induction beats with
  | refl => exact moored
  | tail _ beat ih =>
    cases beat with
    | called e => exact ih.of_store rfl rfl
    | calm calm => exact ih.lives calm.lives

theorem Moored.of_store (moored : h.Moored) (store : h.backend.store.Retains h'.backend.store)
    (watches : h'.names.watches = h.names.watches) (loops : h'.loops = h.loops) : h'.Moored := by
  have kept := Moors.retains moored store watches
  unfold Moored Hub.loopConnections
  rwa [loops]

/-- A stream sees a change, and its handlers are called. -/
theorem Moored.delivers (moored : h.Moored) {n : Nat} {st' : Stream} {callback : Option Callback}
    (delivers : h.Delivers n st' callback h') : h'.Moored := by
  have seen : (h.updateStream n fun _ => st').Moored := moored.of_store (.refl _) rfl rfl
  exact seen.beats delivers.beats

theorem Moored.attachHandler (moored : h.Moored) (n : Nat) (ref : HandlerRef) :
    (h.attachHandler n ref).2.Moored := by
  rcases attachHandler_cases h n ref with ⟨same, _⟩ | ⟨_, _, _, beats⟩
  · rwa [same]
  · have added : (h.addHandler n ref).Moored := moored.of_store (.refl _) rfl rfl
    exact added.beats beats

/-! ## A loop on its way -/

/-- The loop `l` has the connection `c?`, whatever its stage says; all others, which are `rest`, have
those that theirs say. -/
structure Grips (h : Hub) (l : Loop) (rest : List Loop) (c? : Option Nat) : Prop where
  loops : h.loops.Perm (l :: rest)
  apart : ∀ k ∈ rest, k.id ≠ l.id
  moors : h.Moors (c?.toList ++ rest.filterMap (·.stage.connection?))

/-- A loop has the connection that its stage says. -/
theorem Moored.grips (moored : h.Moored) (tended : h.Tended) (mem : l ∈ h.loops) :
    ∃ rest, h.Grips l rest l.stage.connection? := by
  obtain ⟨before, after, split⟩ := List.append_of_mem mem
  have perm : h.loops.Perm (l :: (before ++ after)) := split ▸ List.perm_middle
  have distinct := (perm.map (·.id)).nodup_iff.mp tended.ids
  refine ⟨before ++ after, perm, fun k old same => ?_, moored.perm ?_⟩
  · exact (List.nodup_cons.mp distinct).1 (List.mem_map.mpr ⟨k, old, same⟩)
  · refine (perm.filterMap _).trans ?_
    cases holds : l.stage.connection? <;> simp [holds]

namespace Grips

/-- A loop whose stage says what it has is on its way no more. -/
theorem moored (grips : h.Grips l rest l.stage.connection?) : h.Moored := by
  refine grips.moors.perm (List.Perm.symm ((grips.loops.filterMap _).trans ?_))
  cases holds : l.stage.connection? <;> simp [holds]

theorem retains (grips : h.Grips l rest c?) (store : h.backend.store.Retains h'.backend.store)
    (watches : h'.names.watches = h.names.watches) (loops : h'.loops = h.loops) :
    h'.Grips l rest c? :=
  ⟨loops ▸ grips.loops, grips.apart, grips.moors.retains store watches⟩

theorem aside (grips : h.Grips l rest c?) (aside : h.Aside h') : h'.Grips l rest c? :=
  grips.retains (aside.store ▸ .refl _) aside.watches aside.loops

/-- The loop changes. -/
theorem updateLoop (grips : h.Grips l rest c?) {f : Loop → Loop} (ids : (f l).id = l.id) :
    (h.updateLoop l.id f).Grips (f l) rest c? := by
  refine ⟨(grips.loops.map _).trans ?_, fun k mem => ids ▸ grips.apart k mem,
    grips.moors.of_store rfl rfl⟩
  rw [List.map_cons, if_pos rfl]
  have same : rest.map (fun k => if k.id = l.id then f k else k) = rest.map id :=
    List.map_congr_left fun k mem => if_neg (grips.apart k mem)
  rw [same, List.map_id]

/-- The loop comes to a stage that says what it has. -/
theorem enter (grips : h.Grips l rest c?) {stage : Stage} (told : stage.connection? = c?) :
    (h.enter l.id stage).Moored := by
  subst told
  have moved := (grips.aside (aside_takeTicket h)).updateLoop
    (f := fun k => { k with stage, ticket := h.tickets }) rfl
  exact moved.moored

/-- The loop lets go of what it has. -/
theorem letGo (grips : h.Grips l rest l.stage.connection?) : (h.letGo l.stage).Grips l rest none :=
  ⟨(loops_letGo h l.stage).symm ▸ grips.loops, grips.apart, grips.moors.letGo⟩

/-- The loop ends, and lets go of what it has. -/
theorem endLoop {k : Loop} (grips : h.Grips l rest k.stage.connection?) (same : k.id = l.id) :
    (h.endLoop k).Moored := by
  have left : (h.endLoop k).loops.Perm rest := by
    have others : rest.filter (fun k' => k'.id != k.id) = rest :=
      List.filter_eq_self.mpr fun k' mem => by simpa [same] using grips.apart k' mem
    have gone := grips.loops.filter fun k' => k'.id != k.id
    rw [List.filter_cons_of_neg (by simp [same]), others] at gone
    have filtered : (h.endLoop k).loops = h.loops.filter fun k' => k'.id != k.id :=
      loops_letGo _ k.stage
    exact filtered ▸ gone
  have moors : (h.endLoop k).Moors (rest.filterMap (·.stage.connection?)) :=
    Moors.letGo (h := { h with loops := h.loops.filter fun k' => k'.id != k.id })
      (grips.moors.of_store rfl rfl)
  exact moors.perm (left.filterMap _).symm

theorem reportEnd (grips : h.Grips l rest c?) (n : Nat) (ending : CycleEnd) :
    (h.reportEnd n ending).Grips l rest c? := by
  unfold Hub.reportEnd
  split <;> exact grips.retains (.refl _) rfl rfl

theorem abandon (grips : h.Grips l rest none) (key : ObjectKey) (lastError : Option String) :
    (h.abandon { l with stage := .fresh } key lastError).Moored := by
  have given (g : Hub) (kept : g.Grips l rest none) (reason : String) :
      ((g.updateStream l.stream (·.abandon reason)).endLoop { l with stage := .fresh }).Moored :=
    endLoop (kept.retains (.refl _) rfl rfl) rfl
  exact (given _ (grips.aside (aside_say h _ _)) _).of_store (.refl _) rfl rfl

/-- The loop rests until the next attempt, or ends; it has let go of what it had. -/
theorem restOrGiveUp (grips : h.Grips l rest none) (found : h.streams[l.stream]? = some st) :
    (h.restOrGiveUp l).Moored := by
  unfold Hub.restOrGiveUp
  rcases l.backoff.next h.draws with ⟨delay, backoff, draws⟩
  have drawn := grips.aside (aside_draws h draws)
  cases delay with
  | some d => exact (drawn.updateLoop (f := fun k => { k with backoff }) rfl).enter rfl
  | none =>
    simp only [found]
    exact drawn.abandon st.key st.cache.lastError

/-- A cycle ends. -/
theorem endCycle (grips : h.Grips l rest l.stage.connection?)
    (found : h.streams[l.stream]? = some st) (ending : CycleEnd) : (h.endCycle l ending).Moored := by
  have told : (((h.letGo l.stage).reportEnd l.stream ending).countRestart ending.reason).Grips l rest
      none := (grips.letGo.reportEnd l.stream ending).aside (aside_countRestart _ _)
  have still : (h.letGo l.stage).streams[l.stream]? = some st := by
    unfold Hub.letGo
    split <;> exact found
  have noted : ((h.letGo l.stage).reportEnd l.stream ending).streams[l.stream]? =
      some (st.note ending) := by
    rw [streams_reportEnd still, List.getElem?_set_self (List.getElem?_eq_some_iff.mp still).1]
  exact told.restOrGiveUp noted

theorem callTimedOut (grips : h.Grips l rest l.stage.connection?)
    (found : h.streams[l.stream]? = some st) : (h.callTimedOut l).Moored :=
  (grips.aside (aside_say h _ _)).endCycle found _

theorem beginCycle (grips : h.Grips l rest none) (st : Stream) : (h.beginCycle l st).Moored := by
  obtain ⟨store, _⟩ := h.backend.beginList_spec h.now st.key.selector
  have asked : Grips { h.updateStream l.stream (·.move .syncing) with
      backend := (h.backend.beginList h.now st.key.selector).2 } l rest none :=
    grips.retains (store ▸ .refl _) rfl rfl
  exact asked.enter rfl

/-- The cycle of a loop ends that has no connection. -/
theorem failed (grips : h.Grips l rest none) (idle : l.stage.connection? = none)
    (found : h.streams[l.stream]? = some st) (f : StoreFailure) :
    (h.endCycle l (.failed f)).Moored := by
  rw [← idle] at grips
  exact grips.endCycle found _

/-- A full read has been answered: the loop has nothing before or after. -/
theorem listAnswered (grips : h.Grips l rest none) (idle : l.stage.connection? = none)
    (found : h.streams[l.stream]? = some st) (answer : Scripted (List Object × String)) :
    (h.listAnswered l st answer).Moored := by
  have store : h.backend.store.Retains (h.backend.finishList st.key.selector answer).2.store := by
    cases answer with
    | asks => exact Store.retains_run _ (.list st.key.selector)
    | _ => exact .refl _
  have answered : Grips { h with backend := (h.backend.finishList st.key.selector answer).2 } l rest
      none := grips.retains store rfl rfl
  unfold Hub.listAnswered
  cases result : (h.backend.finishList st.key.selector answer).1 with
  | error f =>
    simp only [result]
    exact answered.failed idle found f
  | ok read =>
    simp only [result]
    have moved := answered.updateLoop (f := fun k => { k with stage := .listed read.1 read.2 }) rfl
    exact moved.moored

/-- A watch has been answered: the loop reads the feed that it got, if it got one. -/
theorem watchAnswered (grips : h.Grips l rest none) (idle : l.stage.connection? = none)
    (found : h.streams[l.stream]? = some st) (version : String)
    (answer : Scripted (List FeedItem × Bool)) : (h.watchAnswered l st version answer).Moored := by
  cases answer with
  | fails f => exact grips.failed idle found f
  | gives feed =>
    have opened : (h.enter l.id (.consuming (.scripted feed.1 feed.2) none)).Moored := grips.enter rfl
    exact opened
  | asks =>
    unfold Hub.watchAnswered Backend.finishWatch
    cases eq : h.backend.store.watch st.key.selector version with
    | mk result store =>
      cases result with
      | error f =>
        have refused := Store.retains_watch_error (congrArg Prod.fst eq)
        rw [eq] at refused
        have kept : (h.updateStore fun _ => store).Grips l rest none := grips.retains refused rfl rfl
        exact kept.failed idle found f
      | ok connection =>
        have opened : (h.updateStore fun _ => store).Grips l rest (some connection) :=
          ⟨grips.loops, grips.apart, grips.moors.watch eq⟩
        have reads : ((h.updateStore fun _ => store).enter l.id
          (.consuming (.live connection) none)).Moored := opened.enter rfl
        exact reads

end Grips

section Step

variable (moored : h.Moored) (regular : h.Regular) (found : h.loop? l.id = some (l, st))
include moored regular found

/-- A full read is delivered, and a watch is asked for. -/
theorem Moored.reconcile {items : List Object} {version : String}
    (stage : l.stage = .listed items version) : (h.reconcile l st items version).Moored := by
  have here := stream_of_loop? found
  have delivers := replace_delivers here items version
  have told : (h.replace l.stream items version).Moored := moored.delivers delivers
  have regular' : (h.replace l.stream items version).Regular :=
    regular.stirs (delivers.stirs here (.reads items version (regular.begun found here)))
  -- Handlers may have done much by now, but nothing to the loop.
  have mem : l ∈ h.loops := mem_of_loop? found
  have tends : l ∈ (h.updateStream l.stream fun _ => (st.replace items version).1).loops := mem
  have kept : l ∈ (h.replace l.stream items version).loops :=
    delivers.beats.lapses.keeps_loop tends
  obtain ⟨rest, grips⟩ := told.grips regular'.tended kept
  have idle : l.stage.connection? = none := by rw [stage]; rfl
  rw [idle] at grips
  unfold Hub.reconcile
  generalize h.replace l.stream items version = g at grips
  obtain ⟨store, _⟩ := g.backend.beginWatch_spec g.now st.key.selector version
  have reset := grips.updateLoop (f := fun k => { k with backoff := k.backoff.reset }) rfl
  have asked : Grips { g.updateLoop l.id fun k => { k with backoff := k.backoff.reset } with
      backend := (g.backend.beginWatch g.now st.key.selector version).2 }
      { l with backoff := l.backoff.reset } rest none := reset.retains (store ▸ .refl _) rfl rfl
  exact asked.enter rfl

/-- One step of a loop takes no connection from anybody else, and leaves none behind. -/
theorem Moored.loopStep (step : h.LoopStep l st h') : h'.Moored := by
  have here := stream_of_loop? found
  have mem := mem_of_loop? found
  obtain ⟨rest, grips⟩ := moored.grips regular.tended mem
  have idle {stage : Stage} (now : l.stage = stage) (none : stage.connection? = none) :
      l.stage.connection? = .none := now ▸ none
  have none (nothing : l.stage.connection? = none) : h.Grips l rest none := nothing ▸ grips
  have read {connection : Nat} {reading : Reading} {store : Store}
      (read : h.backend.store.read connection = (reading, store)) :
      h.backend.store.Retains store := by
    have retains := Store.Tidy.retains_read moored.tidy connection
    rwa [read] at retains
  cases step with
  | first stage =>
    have ready := ((none (idle stage rfl)).aside (aside_takeTicket h)).updateLoop
      (f := fun k => { k with since := h.tickets }) rfl
    exact ready.beginCycle st
  | again stage => exact (none (idle stage rfl)).beginCycle st
  | timedOut _ => exact grips.callTimedOut here
  | listAnswered stage => exact (none (idle stage rfl)).listAnswered (idle stage rfl) here _
  | reconcile stage => exact moored.reconcile regular found stage
  | watchAnswered stage => exact (none (idle stage rfl)).watchAnswered (idle stage rfl) here _ _
  | arrived stage arrived =>
    rename_i e store
    have here' : (h.updateStore fun _ => store).streams[l.stream]? = some st := here
    have kept : (h.updateStore fun _ => store).Moored := moored.of_store (read arrived) rfl rfl
    exact kept.delivers (receive_delivers here' e)
  | broken _ arrived =>
    rename_i f store _
    have kept : (h.updateStore fun _ => store).Grips l rest l.stage.connection? :=
      grips.retains (read arrived) rfl rfl
    exact kept.endCycle here _
  | closed _ ended =>
    rename_i store _
    have kept : (h.updateStore fun _ => store).Grips l rest l.stage.connection? :=
      grips.retains (read ended) rfl rfl
    exact kept.endCycle here _
  | played stage =>
    rename_i e rest' ends _
    have moved := ((none (idle stage rfl)).updateLoop
      (f := fun k => { k with stage := .consuming (.scripted rest' ends) .none }) rfl).moored
    have here' : (h.updateLoop l.id fun l =>
      { l with stage := .consuming (.scripted rest' ends) .none }).streams[l.stream]? = some st := here
    exact moved.delivers (receive_delivers here' e)
  | playedOut ending _ => exact grips.endCycle here ending
  | paused stage => exact (none (idle stage rfl)).enter rfl

end Step

/-! ## Runs -/

theorem Moored.loopEnd (moored : h.Moored) (regular : h.Regular) (id : Nat) :
    (h.loopEnd id).Moored := by
  unfold Hub.loopEnd
  split
  · exact moored
  · rename_i l st found
    have mem := mem_of_loop? found
    split
    · obtain ⟨rest, grips⟩ := moored.grips regular.tended mem
      exact grips.endLoop rfl
    · split
      · have halts : Life h (h.haltStream l.stream).2 := .halt l.stream
        have halted : (h.haltStream l.stream).2.Moored := moored.lives (.single halts)
        obtain ⟨rest, grips⟩ := halted.grips (regular.tended.lapse halts.lapse)
          (halts.lapse.keeps_loop mem)
        exact grips.endLoop rfl
      · exact moored

theorem Moored.deed (moored : h.Moored) (regular : h.Regular) (deed : Deed h h') : h'.Moored := by
  cases deed with
  | calm calm => exact moored.lives calm.lives
  | attach n ref =>
    exact (moored.lives (beside_bypass h n .attached).lives).attachHandler n ref
  | join _ _ _ =>
    rename_i c n ref _ _ _ _
    have dropped : (h.dropCall c.id).Moored := moored.lives (lives_calls h _)
    exact (dropped.attachHandler n ref).lives (lives_deal _ _)
  | loop found stepped =>
    obtain rfl := id_of_loop? found
    exact moored.loopStep regular found (stepLoop_cases stepped)
  | loopEnd id => exact moored.loopEnd regular id

theorem Moored.deeds (moored : h.Moored) (regular : h.Regular) (deeds : Deeds h h') : h'.Moored := by
  induction deeds with
  | refl => exact moored
  | tail before deed ih => exact ih.deed (regular.stirs (Deeds.stirs before regular)) deed

/-- Every event leaves it so. -/
theorem Moored.step (moored : h.Moored) (regular : h.Regular) (e : Event) : (h.step e).Moored := by
  cases script : e.isScript with
  | false => exact moored.deeds regular (step_deeds script)
  | true =>
    cases e with
    | command id c =>
      unfold Hub.step
      simp only
      split
      · cases c with
        | scriptList call => exact moored.of_store (.refl _) rfl rfl
        | scriptWatch call => exact moored.of_store (.refl _) rfl rfl
        | _ => cases script
      · exact moored
    | _ => cases script

theorem moored_run (limit : Nat) (draws : Draws) (es : List Event) :
    ((start limit draws).run es).Moored := by
  induction es using List.reverseRecOn with
  | nil => exact moored_start limit draws
  | append_singleton es e ih =>
    rw [run_append]
    exact ih.step (regular_run limit draws es) e

/-! ## How many watch -/

/-- The loop reads a connection that the store has not closed. -/
def isConnected (h : Hub) (l : Loop) : Bool := l.stage.connection?.any h.backend.store.feedsOn

/-- The streams whose loops read connections that the store has not closed. -/
def connected (h : Hub) : List Nat :=
  (List.range h.streams.length).filter fun n =>
    h.loops.any fun l => decide (l.stream = n) && h.isConnected l

theorem mem_connected {n : Nat} (tended : h.Tended) :
    n ∈ h.connected ↔ ∃ l ∈ h.loops, l.stream = n ∧ h.isConnected l = true := by
  unfold connected
  rw [List.mem_filter, List.mem_range, List.any_eq_true]
  constructor
  · rintro ⟨_, l, mem, reads⟩
    rw [Bool.and_eq_true, decide_eq_true_eq] at reads
    exact ⟨l, mem, reads⟩
  · rintro ⟨l, mem, rfl, reads⟩
    obtain ⟨st, found, _⟩ := tended.begun l mem
    exact ⟨(List.getElem?_eq_some_iff.mp found).1, l, mem, by simp [reads]⟩

/-- As many streams watch as there are loops that read open connections. -/
theorem Tended.length_connected (tended : h.Tended) :
    h.connected.length = h.loops.countP h.isConnected := by
  have distinct : ((h.loops.filter h.isConnected).map (·.stream)).Nodup := by
    refine ((List.Nodup.of_map _ tended.ids).filter _).map_on fun l mem l' mem' same => ?_
    have old := List.mem_of_mem_filter mem
    have old' := List.mem_of_mem_filter mem'
    exact tended.same old old' (tended.sole l old l' old' same)
  rw [List.countP_eq_length_filter, ← List.length_map Loop.stream]
  refine ((List.perm_ext_iff_of_nodup (List.nodup_range.filter _) distinct).mpr fun n => ?_).length_eq
  refine (mem_connected tended).trans ?_
  simp only [List.mem_map, List.mem_filter]
  exact ⟨fun ⟨l, mem, same, reads⟩ => ⟨l, ⟨mem, reads⟩, same⟩,
    fun ⟨l, ⟨mem, reads⟩, same⟩ => ⟨l, mem, same, reads⟩⟩

/-- The store counts the streams that watch, and the open connections that have names. -/
theorem Moored.watcherCount_eq (moored : h.Moored) (tended : h.Tended) :
    h.backend.store.watcherCount.1 =
      h.connected.length + h.names.watches.countP fun e => h.backend.store.feedsOn e.2 := by
  have loops : h.loopConnections.countP h.backend.store.feedsOn = h.loops.countP h.isConnected := by
    unfold Hub.loopConnections
    rw [List.countP_filterMap]
    refine List.countP_congr fun l _ => ?_
    unfold isConnected
    cases l.stage.connection? <;> simp
  rw [moored.tidy.watcherCount_eq, moored.held.countP_eq, List.countP_append, loops,
    tended.length_connected, List.countP_map]
  rfl

/-- While a loop has to wait, its stream is alive. -/
theorem alive_of_waiting {limit : Nat} {draws : Draws} (reached : Stirs (start limit draws) h)
    (found : h.streams[l.stream]? = some st) (waits : h.canTurn l = false) : st.isDead = false := by
  cases dead : st.isDead with
  | false => rfl
  | true =>
    have cancelled := (cancelled_iff_isDead reached found).mpr dead
    unfold canTurn at waits
    simp [found, cancelled] at waits

/-- **No connection leaks.**  After every run, the store counts as many watchers as there are streams
whose loops read connections that it has not closed, and as such connections have names besides.  A
stream has one connection at most; it has none while its loop waits for the answer to a full read, or
for the next attempt; and it has none once it has been stopped or has given up, as soon as all loops
have to wait. -/
theorem no_connection_leaks {limit : Nat} {draws : Draws} {es : List Event} {h : Hub}
    (ran : h = (start limit draws).run es) :
    h.backend.store.watcherCount.1 =
      h.connected.length + h.names.watches.countP (fun e => h.backend.store.feedsOn e.2) ∧
    (∀ l ∈ h.loops, ∀ l' ∈ h.loops, l.stream = l'.stream → h.isConnected l = true →
      h.isConnected l' = true → l = l') ∧
    (∀ l ∈ h.loops, ((∃ call began, l.stage = .listing call began) ∨ ∃ t, l.stage = .resting t) →
      l.stream ∉ h.connected) ∧
    ((∀ l ∈ h.loops, h.canTurn l = false) → ∀ (n : Nat) (st : Stream), h.streams[n]? = some st →
      st.isDead = true → n ∉ h.connected) := by
  have reached : Stirs (start limit draws) h := ran ▸ run_stirs es (regular_start limit draws)
  have tended : h.Tended := ((regular_start limit draws).stirs reached).tended
  have moored : h.Moored := ran ▸ moored_run limit draws es
  have sole {l l' : Loop} (mem : l ∈ h.loops) (mem' : l' ∈ h.loops) (same : l.stream = l'.stream) :
      l = l' := tended.same mem mem' (tended.sole l mem l' mem' same)
  refine ⟨moored.watcherCount_eq tended, fun l mem l' mem' same _ _ => sole mem mem' same,
    fun l mem waits reads => ?_, fun quiet n st found dead reads => ?_⟩
  · obtain ⟨l', mem', same, connected⟩ := (mem_connected tended).mp reads
    obtain rfl := sole mem mem' same.symm
    unfold isConnected at connected
    rcases waits with ⟨call, began, stage⟩ | ⟨t, stage⟩ <;> simp [stage, Stage.connection?] at connected
  · obtain ⟨l, mem, rfl, _⟩ := (mem_connected tended).mp reads
    have alive := alive_of_waiting reached found (quiet l mem)
    cases alive.symm.trans dead

/-- Of two streams, one is stopped by its own first callback.  Its loop goes on to open a watch, and
ends. -/
def stoppedByCallback : List Event :=
  [.command 0 (.apply ⟨"ns", "a"⟩ "x"), .command 1 (.newStream "s" ⟨"ns", "a"⟩ {}),
    .command 2 (.newStream "t" ⟨"ns", "b"⟩ {}),
    .command 3 (.attach "s" ⟨"first", [(.add, .stop "s")]⟩ "r"), .call 3,
    .command 4 (.startStream "s" none), .command 5 (.startStream "t" none),
    .loop 1, .loop 1, .loop 1, .loop 1, .loop 0, .loop 0, .loop 0, .loop 0, .loopEnd 0]

/-- The connection goes with the loop, and only that of the other stream is left. -/
theorem no_connection_leaks_after_stop :
    ((start 4 {}).run stoppedByCallback.dropLast).connected = [0, 1] ∧
    let h := (start 4 {}).run stoppedByCallback
    h.streams.map (·.isStopped) = [true, false] ∧ h.connected = [1] ∧
      h.backend.store.watcherCount.1 = h.connected.length + 0 ∧ 0 ∉ h.connected := by
  obtain ⟨counted, _, _, quiet⟩ := no_connection_leaks
    (rfl : (start 4 {}).run stoppedByCallback = (start 4 {}).run stoppedByCallback)
  have waits : ∀ l ∈ ((start 4 {}).run stoppedByCallback).loops,
      ((start 4 {}).run stoppedByCallback).canTurn l = false := by decide
  exact ⟨by decide, by decide, by decide, counted, quiet waits 0 _ rfl (by decide)⟩

end Hub

end SharedWatch
