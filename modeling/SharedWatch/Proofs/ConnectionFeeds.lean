import SharedWatch.Proofs.StorePast

/-!
# What a connection hands on

A connection that was opened behind a past hands on every change of its key since, one after the
other, for as long as the store feeds it.

* `owned`: the changes of a key, in the order in which they happened.
* `Connection.Feeds`, `Store.Feeds`: what still waits on a connection is what its reader has not seen.
* `Output`: what a store puts out for a reader; `Store.Offers`: what has been put on a connection stays
  there until its reader takes it.
* `Store.Grows`: a later store: it has the past of the earlier one, is as sound, and all connections
  but those in certain hands feed their readers as before.
* `Feeds.read`, `Sound.feeds_watch`: what the reader of a connection gets, and what a new connection
  begins with.
-/

namespace SharedWatch

/-- The changes of a key among those of a past, the oldest first. -/
def owned (key : ObjectKey) (past : List Change) : List Change :=
  (past.filter (key.owns ·.object)).reverse

section Owned

variable {key : ObjectKey} {e : Change} {past : List Change}

theorem owned_own (own : key.owns e.object = true) : owned key (e :: past) = owned key past ++ [e] := by
  simp [owned, own]

theorem owned_foreign (foreign : key.owns e.object = false) :
    owned key (e :: past) = owned key past := by
  simp [owned, foreign]

/-- The first change of a key among many: nothing of the key happened before it. -/
theorem owned_eq_cons {rest : List Change} (first : owned key past = e :: rest) :
    ∃ later earlier, past = later ++ e :: earlier ∧ owned key later = rest ∧
      earlier.filter (key.owns ·.object) = [] ∧ key.owns e.object = true := by
  induction past generalizing rest with
  | nil => cases first
  | cons e' past ih =>
    cases own : key.owns e'.object with
    | false =>
      rw [owned_foreign own] at first
      obtain ⟨later, earlier, rfl, rfl, none, here⟩ := ih first
      exact ⟨e' :: later, earlier, rfl, owned_foreign own, none, here⟩
    | true =>
      rw [owned_own own] at first
      cases before : owned key past with
      | nil =>
        rw [before] at first
        cases first
        exact ⟨[], past, rfl, rfl, by simpa [owned] using before, own⟩
      | cons e₁ rest₁ =>
        rw [before] at first
        cases first
        obtain ⟨later, earlier, rfl, rfl, none, here⟩ := ih before
        exact ⟨e' :: later, earlier, rfl, owned_own own, none, here⟩

/-- Playing the changes of a key leads from what they found to what they left. -/
theorem foldl_owned (key : ObjectKey) (recent older : List Change) :
    (owned key recent).foldl (fun _ e => e.after) (latest key older) = latest key (recent ++ older) := by
  induction recent with
  | nil => rfl
  | cons e recent ih =>
    cases own : key.owns e.object with
    | true => rw [owned_own own, List.foldl_append, List.cons_append, latest_own own]; rfl
    | false => rw [owned_foreign own, List.cons_append, latest_foreign own, ih]

end Owned

/-- What a store puts out for a reader, one thing after the other. -/
inductive Output
  /-- A `list` call has an outcome. -/
  | listed (r : Except StoreFailure (List Object × String))
  /-- A watch is opened. -/
  | opened
  /-- A `watch` call fails. -/
  | refused (f : StoreFailure)
  /-- A change or a failure is put on the connection. -/
  | sent (a : Arrival)
  /-- The connection is closed. -/
  | closed

/-- What has been put on a connection and not been read. -/
def Connection.output (c : Connection) : List Output :=
  c.pending.map .sent ++ if c.attached then [] else [.closed]

namespace Connection

variable {c : Connection}

theorem output_announce (held : c.held = true) (e : Change) :
    (c.announce e).held = true ∧ c.output <+: (c.announce e).output := by
  unfold announce
  cases attached : c.attached with
  | false => exact ⟨held, List.prefix_rfl⟩
  | true =>
    simp only [Bool.not_true, Bool.false_eq_true, if_false]
    split
    · refine ⟨by simp [send, held], ?_⟩
      simp [output, send, held, attached]
    · refine ⟨held, ?_⟩
      simp [output, held, attached]

theorem output_detach (c : Connection) : c.output <+: c.detach.output := by
  unfold output detach
  cases c.attached <;> simp

theorem output_expire (held : c.held = true) (f : StoreFailure) :
    (c.expire f).held = true ∧ c.output <+: (c.expire f).output := by
  unfold expire
  cases attached : c.attached with
  | false => exact ⟨held, List.prefix_rfl⟩
  | true => simp [output, send, detach, held, attached]

end Connection

/-- The reader of the connection has seen the changes of `older`.  What waits for it are the later
ones of the key: all of them while the store feeds the connection, and those up to some time
otherwise. -/
structure Connection.Feeds (c : Connection) (key : ObjectKey) (older past : List Change) : Prop where
  held : c.held = true
  selects : c.selector.key = key
  span : ∃ newer recent failures, past = newer ++ recent ++ older ∧
    c.pending = (owned key recent).map .ok ++ failures.map .error ∧
      (c.attached = true → newer = [] ∧ failures = [])

namespace Connection.Feeds

variable {c : Connection} {key : ObjectKey} {older past : List Change}

theorem announce (feeds : c.Feeds key older past) (e : Change) :
    (c.announce e).Feeds key older (e :: past) := by
  obtain ⟨held, selects, newer, recent, failures, rfl, pending, complete⟩ := feeds
  have admits : c.selector.admits e.object = key.owns e.object := selects ▸ rfl
  unfold Connection.announce
  cases attached : c.attached with
  | false =>
    refine ⟨held, selects, e :: newer, recent, failures, rfl, pending, fun still => ?_⟩
    rw [show c.attached = true from still] at attached
    cases attached
  | true =>
    obtain ⟨rfl, rfl⟩ := complete attached
    rw [admits]
    cases own : key.owns e.object with
    | true =>
      refine ⟨?_, ?_, [], e :: recent, [], rfl, ?_, fun _ => ⟨rfl, rfl⟩⟩
      · simp [send, held]
      · simpa [send, held] using selects
      · simp [send, held, pending, owned_own own]
    | false =>
      refine ⟨held, selects, [], e :: recent, [], rfl, ?_, fun _ => ⟨rfl, rfl⟩⟩
      rw [owned_foreign own]
      exact pending

theorem detach (feeds : c.Feeds key older past) : c.detach.Feeds key older past := by
  obtain ⟨held, selects, newer, recent, failures, same, pending, _⟩ := feeds
  exact ⟨held, selects, newer, recent, failures, same, pending, nofun⟩

theorem expire (feeds : c.Feeds key older past) (f : StoreFailure) :
    (c.expire f).Feeds key older past := by
  unfold Connection.expire
  split
  · obtain ⟨held, selects, newer, recent, failures, same, pending, complete⟩ := feeds
    have sent : c.send (.error f) = { c with pending := c.pending ++ [.error f] } := by
      simp [send, held]
    rw [sent]
    refine ⟨held, selects, newer, recent, failures ++ [f], same, ?_, nofun⟩
    simp [Connection.detach, pending]
  · exact feeds

/-- The reader takes a change: it is the next one of the key. -/
theorem read (feeds : c.Feeds key older past) {e : Change} (arrived : c.read.1 = .arrived (.ok e)) :
    ∃ passed, (e :: passed ++ older) <:+ past ∧ passed.filter (key.owns ·.object) = [] ∧
      key.owns e.object = true ∧ c.read.2.Feeds key (e :: passed ++ older) past := by
  obtain ⟨held, selects, newer, recent, failures, rfl, pending, complete⟩ := feeds
  unfold Connection.read at arrived ⊢
  cases waiting : owned key recent with
  | nil =>
    rw [waiting, List.map_nil, List.nil_append] at pending
    rw [pending] at arrived
    cases failures with
    | nil => simp only [List.map_nil] at arrived; split at arrived <;> cases arrived
    | cons f failures => cases arrived
  | cons e' rest =>
    rw [waiting, List.map_cons, List.cons_append] at pending
    rw [pending] at arrived ⊢
    obtain rfl : e' = e := by simpa using arrived
    obtain ⟨later, earlier, rfl, left, none, own⟩ := owned_eq_cons waiting
    have split : newer ++ (later ++ e' :: earlier) ++ older =
        newer ++ later ++ (e' :: earlier ++ older) := by simp
    refine ⟨earlier, ⟨newer ++ later, split.symm⟩, none, own, held, selects, newer, later,
      failures, split, ?_, complete⟩
    rw [left]

/-- Nothing is lost while the store feeds the connection. -/
theorem play (feeds : c.Feeds key older past) (attached : c.attached = true) :
    ∃ changes : List Change, c.pending = changes.map .ok ∧
      changes.foldl (fun _ e => e.after) (latest key older) = latest key past := by
  obtain ⟨_, _, newer, recent, failures, rfl, pending, complete⟩ := feeds
  obtain ⟨rfl, rfl⟩ := complete attached
  refine ⟨owned key recent, ?_, foldl_owned key recent older⟩
  rw [pending, List.map_nil, List.append_nil]

end Connection.Feeds

namespace Store

variable {s s' s'' : Store} {key : ObjectKey} {id : Nat} {older : List Change}

/-- The connection of a number hands on what has happened to a key since a past. -/
def Feeds (s : Store) (key : ObjectKey) (id : Nat) (older : List Change) : Prop :=
  ∃ c, s.connection? id = some c ∧ c.Feeds key older s.past

theorem connection?_mapConnections {f : Connection → Connection} (ids : ∀ c, (f c).id = c.id)
    {c : Connection} (found : s.connection? id = some c) (held : (f c).held = true) :
    (s.mapConnections f).connection? id = some (f c) := by
  unfold connection? at found ⊢
  obtain ⟨here, before, after, eq, others⟩ := List.find?_eq_some_iff_append.mp found
  have others' : ∀ c' ∈ (before.map f).filter fun c => c.attached || c.held, (!(c'.id == id)) = true := by
    intro c' mem
    obtain ⟨c₀, old, rfl⟩ := List.mem_map.mp (List.mem_filter.mp mem).1
    rw [ids]
    exact others c₀ old
  refine List.find?_eq_some_iff_append.mpr ⟨by rwa [ids], _,
    (after.map f).filter fun c => c.attached || c.held, ?_, others'⟩
  show ((s.connections.map f).filter fun c => c.attached || c.held) = _
  rw [eq, List.map_append, List.map_cons, List.filter_append, List.filter_cons_of_pos]
  simp [held]

/-- Connections change, and the one of the number goes on feeding its reader. -/
theorem Feeds.mapConnections (feeds : s.Feeds key id older) {f : Connection → Connection}
    (same : s'.connections = (s.mapConnections f).connections) (ids : ∀ c, (f c).id = c.id)
    (kept : ∀ c, c.id = id → c.Feeds key older s.past → (f c).Feeds key older s'.past) :
    s'.Feeds key id older := by
  obtain ⟨c, found, carries⟩ := feeds
  have carries' := kept c (connection?_mem found).2 carries
  refine ⟨f c, ?_, carries'⟩
  unfold connection?
  rw [same]
  exact connection?_mapConnections ids found carries'.held

theorem Feeds.lt_opened (feeds : s.Feeds key id older) (sound : s.Sound) : id < s.opened := by
  obtain ⟨c, found, _⟩ := feeds
  obtain ⟨mem, rfl⟩ := connection?_mem found
  exact sound.ids c mem

/-- On the connection of a number, which its reader has not let go, these things have been put before all
others that are still there. -/
def Offers (s : Store) (id : Nat) (xs : List Output) : Prop :=
  ∃ c, s.connection? id = some c ∧ c.held = true ∧ xs <+: c.output

/-- Connections change, and what is on the one of the number stays there. -/
theorem Offers.mapConnections {xs : List Output} (offers : s.Offers id xs) {f : Connection → Connection}
    (same : s'.connections = (s.mapConnections f).connections) (ids : ∀ c, (f c).id = c.id)
    (kept : ∀ c, c.id = id → c.held = true → (f c).held = true ∧ c.output <+: (f c).output) :
    s'.Offers id xs := by
  obtain ⟨c, found, held, before⟩ := offers
  obtain ⟨held', more⟩ := kept c (connection?_mem found).2 held
  refine ⟨f c, ?_, held', before.trans more⟩
  unfold connection?
  rw [same]
  exact connection?_mapConnections ids found held'

/-! ## Later stores -/

/-- A later store.  Only the connections in `hands` have been read or let go by their readers. -/
structure Grows (hands : Nat → Prop) (s s' : Store) : Prop where
  sound : s.Sound → s'.Sound
  past : s.past <:+ s'.past
  opened : s.opened ≤ s'.opened
  feeds : ∀ {key : ObjectKey} {id : Nat} {older : List Change},
    ¬ hands id → s.Feeds key id older → s'.Feeds key id older
  offers : ∀ {id : Nat} {xs : List Output}, ¬ hands id → s.Offers id xs → s'.Offers id xs

variable {hands : Nat → Prop}

theorem Grows.refl (s : Store) : Grows hands s s :=
  ⟨id, List.suffix_rfl, Nat.le_refl _, fun _ => id, fun _ => id⟩

theorem Grows.trans (first : Grows hands s s') (second : Grows hands s' s'') :
    Grows hands s s'' where
  sound := second.sound ∘ first.sound
  past := first.past.trans second.past
  opened := Nat.le_trans first.opened second.opened
  feeds free := second.feeds free ∘ first.feeds free
  offers free := second.offers free ∘ first.offers free

theorem Grows.mono {more : Nat → Prop} (grows : Grows hands s s') (fewer : ∀ id, hands id → more id) :
    Grows more s s' :=
  { grows with
    feeds := fun free => grows.feeds (free ∘ fewer _)
    offers := fun free => grows.offers (free ∘ fewer _) }

theorem grows_publish {e : Change} {objects : List Object} {revision : Nat}
    (sound : s.Sound → ({ s with objects, revision }.publish e).Sound) :
    Grows hands s ({ s with objects, revision }.publish e) where
  sound := sound
  past := List.suffix_cons _ _
  opened := Nat.le_refl _
  feeds _ feeds := feeds.mapConnections rfl (id_announce · e) fun _ _ carries => carries.announce e
  offers _ offers := offers.mapConnections rfl (id_announce · e) fun _ _ held =>
    Connection.output_announce held e

theorem grows_apply (s : Store) (key : ObjectKey) (data : String) :
    Grows hands s (s.apply key data).2 := by
  have sound : s.Sound → (s.apply key data).2.Sound := fun sound => sound.apply key data
  unfold Store.apply at sound ⊢
  simp only at sound ⊢
  split
  · rename_i stored
    simp only [stored] at sound
    exact grows_publish sound
  · rename_i absent
    simp only [absent] at sound
    exact grows_publish sound

theorem grows_delete (s : Store) (key : ObjectKey) : Grows hands s (s.delete key).2 := by
  have sound : s.Sound → (s.delete key).2.Sound := fun sound => sound.delete key
  unfold Store.delete at sound ⊢
  split
  · exact .refl s
  · rename_i stored
    simp only [stored] at sound
    exact grows_publish sound

theorem grows_list (s : Store) (sel : Selector) : Grows hands s (s.list sel).2 := by
  have sound : s.Sound → (s.list sel).2.Sound := fun sound => sound.list sel
  unfold Store.list at sound ⊢
  simp only at sound ⊢
  split
  · rename_i failing
    simp only [failing, if_true] at sound
    exact ⟨sound, List.suffix_rfl, Nat.le_refl _, fun _ => id, fun _ => id⟩
  · rename_i failing
    simp only [failing, if_false] at sound
    exact ⟨sound, List.suffix_rfl, Nat.le_refl _, fun _ => id, fun _ => id⟩

theorem grows_run (s : Store) (op : Op) : Grows hands s (op.run s) := by
  cases op with
  | apply key data => exact grows_apply s key data
  | delete key => exact grows_delete s key
  | disconnect =>
    exact ⟨Sound.disconnect, List.suffix_rfl, Nat.le_refl _, fun _ feeds =>
      feeds.mapConnections rfl (fun _ => rfl) fun _ _ carries => carries.detach, fun _ offers =>
      offers.mapConnections rfl (fun _ => rfl) fun c _ held => ⟨held, c.output_detach⟩⟩
  | compact =>
    exact ⟨Sound.compact, List.suffix_rfl, Nat.le_refl _, fun _ feeds =>
      feeds.mapConnections rfl (id_expire · _) fun _ _ carries => carries.expire _, fun _ offers =>
      offers.mapConnections rfl (id_expire · _) fun _ _ held => Connection.output_expire held _⟩
  | failLists n =>
    exact ⟨fun sound => sound.run (.failLists n), List.suffix_rfl, Nat.le_refl _, fun _ => id,
      fun _ => id⟩
  | failWatches n =>
    exact ⟨fun sound => sound.run (.failWatches n), List.suffix_rfl, Nat.le_refl _, fun _ => id,
      fun _ => id⟩
  | list selector => exact grows_list s selector
  | count =>
    have ids (c : Connection) : (if c.held then c else c.detach).id = c.id := by split <;> rfl
    refine ⟨Sound.watcherCount, List.suffix_rfl, Nat.le_refl _, fun _ feeds =>
      feeds.mapConnections rfl ids fun c _ carries => ?_, fun _ offers =>
      offers.mapConnections rfl ids fun c _ held => ?_⟩
    · rw [if_pos carries.held]
      exact carries
    · rw [if_pos held]
      exact ⟨held, List.prefix_rfl⟩

theorem grows_watch (s : Store) (sel : Selector) (version : String) :
    Grows hands s (s.watch sel version).2 := by
  have kept {id : Nat} {c : Connection} (found : s.connection? id = some c) :
      (s.watch sel version).2.connection? id = some c := by
    unfold Store.watch
    simp only
    split
    · exact found
    · split
      · exact found
      · split
        · exact found
        · unfold connection? at found ⊢
          rw [List.find?_append, found]
          rfl
  refine ⟨fun sound => sound.watch sel version, ?_, ?_, fun _ feeds => ?_,
    fun _ ⟨c, found, held, before⟩ => ⟨c, kept found, held, before⟩⟩
  · unfold Store.watch
    simp only
    split
    · exact List.suffix_rfl
    · split
      · exact List.suffix_rfl
      · split <;> exact List.suffix_rfl
  · unfold Store.watch
    simp only
    split
    · exact Nat.le_refl _
    · split
      · exact Nat.le_refl _
      · split
        · exact Nat.le_refl _
        · exact Nat.le_succ _
  · obtain ⟨c, found, carries⟩ := feeds
    refine ⟨c, kept found, ?_⟩
    unfold Store.watch
    simp only
    split
    · exact carries
    · split
      · exact carries
      · split <;> exact carries

theorem ids_updateConnection {id : Nat} {f : Connection → Connection}
    (same : ∀ c, c.id = id → (f c).id = id) (c : Connection) :
    (if c.id = id then f c else c).id = c.id := by
  split
  · rename_i own
    exact (same c own).trans own.symm
  · rfl

/-- One connection changes at the hands of its reader. -/
theorem grows_updateConnection {id : Nat} {f : Connection → Connection}
    (sound : s.Sound → (s.updateConnection id f).Sound)
    (same : ∀ c, c.id = id → (f c).id = id) : Grows (· = id) s (s.updateConnection id f) where
  sound := sound
  past := List.suffix_rfl
  opened := Nat.le_refl _
  feeds free feeds := by
    refine feeds.mapConnections rfl (ids_updateConnection same) fun c here carries => ?_
    rw [if_neg (here ▸ free)]
    exact carries
  offers free offers := by
    refine offers.mapConnections rfl (ids_updateConnection same) fun c here held => ?_
    rw [if_neg (here ▸ free)]
    exact ⟨held, List.prefix_rfl⟩

theorem grows_read (s : Store) (id : Nat) : Grows (· = id) s (s.read id).2 := by
  have sound : s.Sound → (s.read id).2.Sound := fun sound => sound.read id
  unfold Store.read at sound ⊢
  split
  · exact .refl s
  · rename_i c found
    simp only [found] at sound
    exact grows_updateConnection sound fun _ _ => (id_read c).trans (connection?_mem found).2

theorem grows_of_read {reading : Reading} (read : s.read id = (reading, s')) :
    Grows (· = id) s s' := by
  have grows := grows_read s id
  rwa [read] at grows

theorem grows_release (s : Store) (id : Nat) : Grows (· = id) s (s.release id) :=
  grows_updateConnection (fun sound => sound.release id) fun _ here => here

/-! ## Reading a connection -/

/-- The reader of a connection gets the next change of its key. -/
theorem Feeds.read (feeds : s.Feeds key id older) {e : Change}
    (read : s.read id = (.arrived (.ok e), s')) :
    ∃ passed, (e :: passed ++ older) <:+ s.past ∧ passed.filter (key.owns ·.object) = [] ∧
      key.owns e.object = true ∧ s'.Feeds key id (e :: passed ++ older) := by
  obtain ⟨c, found, carries⟩ := feeds
  unfold Store.read at read
  rw [found] at read
  obtain ⟨arrived, rfl⟩ := Prod.mk.inj read
  obtain ⟨passed, suffix, none, own, carries'⟩ := carries.read arrived
  have here := (connection?_mem found).2
  refine ⟨passed, suffix, none, own, c.read.2, ?_, carries'⟩
  have updated := connection?_mapConnections (f := fun c' => if c'.id = id then c.read.2 else c')
    (fun c' => ?_) found ?_
  · rw [if_pos here] at updated
    exact updated
  · split
    · rename_i same
      rw [id_read, here, same]
    · rfl
  · rw [if_pos here]
    exact carries'.held

/-- The log still has all that has happened since a past. -/
theorem Sound.changesAfter (sound : s.Sound) {recent : List Change} (sel : Selector)
    (same : s.past = recent ++ older) (kept : s.compacted ≤ older.length) :
    s.changesAfter sel older.length = owned sel.key recent := by
  obtain ⟨rest, eq, changes, later⟩ := numbered_append recent older
  have log : s.history = (numbered older).drop s.compacted ++ rest := by
    rw [sound.history, same, eq, List.drop_append_of_le_length (by rwa [length_numbered])]
  have none : ((numbered older).drop s.compacted).filter
      (fun x => decide (older.length < x.1) && sel.admits x.2.object) = [] := by
    refine List.filter_eq_nil_iff.mpr fun x mem => ?_
    have bound := number_le (List.mem_of_mem_drop mem)
    simp [Nat.not_lt.mpr bound]
  have all : rest.filter (fun x => decide (older.length < x.1) && sel.admits x.2.object) =
      rest.filter fun x => sel.admits x.2.object := by
    refine List.filter_congr fun x mem => ?_
    simp [later x mem]
  unfold Store.changesAfter
  rw [log, List.filter_append, none, all, List.nil_append]
  have mapped := List.filter_map (p := fun e : Change => sel.admits e.object) (f := (·.2)) (l := rest)
  rw [changes, List.filter_reverse] at mapped
  exact mapped.symm

/-- What a watch that is opened begins with. -/
theorem watch_eq_ok {sel : Selector} {version : String}
    (opened : s.watch sel version = (.ok id, s')) :
    id = s.opened ∧ ∃ revision, s.startingRevision version = some revision ∧
      s.compacted ≤ revision ∧ s'.past = s.past ∧ s'.opened = s.opened + 1 ∧
      s'.connections = s.connections ++ [{
        id := s.opened, selector := sel
        pending := (s.changesAfter sel revision).map .ok }] := by
  unfold Store.watch at opened
  simp only at opened
  split at opened
  · cases opened
  · split at opened
    · cases opened
    · rename_i revision start
      split at opened
      · cases opened
      · rename_i kept
        cases opened
        exact ⟨rfl, revision, start, Nat.le_of_not_lt kept, rfl, rfl, rfl⟩

/-- A watch from a past hands on what has happened since. -/
theorem Sound.feeds_watch (sound : s.Sound) {sel : Selector} (recent : older <:+ s.past)
    (opened : s.watch sel (toString older.length) = (.ok id, s')) :
    id = s.opened ∧ s'.opened = s.opened + 1 ∧ s'.Feeds sel.key id older := by
  obtain ⟨changes, same⟩ := recent
  obtain ⟨rfl, revision, start, kept, past, more, connections⟩ := watch_eq_ok opened
  have number : revision = older.length := by
    unfold startingRevision at start
    rw [if_neg (show toString older.length ≠ "" from Nat.repr_ne_empty)] at start
    exact Text.readWord_toString start
  subst number
  rw [sound.changesAfter sel same.symm kept] at connections
  have absent : s.connections.find? (fun c => c.id == s.opened) = none := by
    refine List.find?_eq_none.mpr fun c mem => ?_
    have := sound.ids c mem
    simp only [beq_iff_eq]
    omega
  have carries : Connection.Feeds
      { id := s.opened, selector := sel, pending := (owned sel.key changes).map .ok } sel.key older
      s'.past :=
    ⟨rfl, rfl, [], changes, [], past.trans same.symm, (List.append_nil _).symm,
      fun _ => ⟨rfl, rfl⟩⟩
  refine ⟨rfl, more, _, ?_, carries⟩
  unfold connection?
  rw [connections, List.find?_append, absent, Option.none_or, List.find?_cons_of_pos]
  simp

end Store

end SharedWatch
