import SharedWatch.Proofs.ConnectionFeeds

/-!
# What a watch yields

A watch is opened on a store in use, and the store stays in use while the watch is read.  Part of
what its reader gets was logged before the opening, part happens afterwards, and the reader cannot
tell one from the other.

* `Store.Call`, `Store.runAll`: a use of a store, watch connections included.
* `changesSince`: the changes of a past that a selector admits, after a revision.
* `Store.Yields`: what the reader of a connection has got, and what it is going to find.
* `Store.Opened`, `Store.Closed`: a connection before and after the store has let go of it; what one
  call preserves, and what any number of them do.
* `watch_serves`: which watches are refused, what the others yield, and that this is what a list of
  the past needs to become one of the present.
-/

namespace SharedWatch

/-! ## Changes after a revision -/

/-- The changes of a past with a revision greater than `revision` that a selector admits, in the
order of their revisions. -/
def changesSince (sel : Selector) (revision : Nat) (past : List Change) : List Change :=
  ((numbered past).filter fun (r, e) => decide (revision < r) && sel.admits e.object).map (·.2)

/-- A list of objects after a change. -/
def Change.onto (items : List Object) (e : Change) : List Object :=
  (items.filter fun o => !e.object.key.owns o) ++ e.after.toList

section Changes

variable {sel : Selector} {revision : Nat} {e : Change}
  {past older recent : List Change}

theorem changesSince_cons (before : revision ≤ past.length) :
    changesSince sel revision (e :: past) =
      changesSince sel revision past ++ if sel.admits e.object then [e] else [] := by
  have later : revision < past.length + 1 := Nat.lt_succ_of_le before
  unfold changesSince
  rw [numbered, List.filter_append, List.map_append]
  congr 1
  cases admitted : sel.admits e.object <;> simp [later, admitted]

/-- A revision that is yet to come counts for the last one. -/
theorem changesSince_min (sel : Selector) (revision : Nat) (past : List Change) :
    changesSince sel (min revision past.length) past = changesSince sel revision past := by
  unfold changesSince
  congr 1
  refine List.filter_congr fun x mem => ?_
  have bound := number_le mem
  have same : min revision past.length < x.1 ↔ revision < x.1 := by omega
  simp only [same]

/-- After a time of the past, these are the changes of the selector's key since. -/
theorem changesSince_append (sel : Selector) (recent older : List Change) :
    changesSince sel older.length (recent ++ older) = owned sel.key recent := by
  induction recent with
  | nil =>
    have none : (numbered older).filter
        (fun x => decide (older.length < x.1) && sel.admits x.2.object) = [] := by
      refine List.filter_eq_nil_iff.mpr fun x mem => ?_
      simp [Nat.not_lt.mpr (number_le mem)]
    exact congrArg (List.map (·.2)) none
  | cons e recent ih =>
    have before : older.length ≤ (recent ++ older).length := by simp
    rw [List.cons_append, changesSince_cons before, ih, Selector.admits_eq_owns]
    cases own : sel.key.owns e.object with
    | true => rw [if_pos rfl, owned_own own]
    | false => rw [if_neg (by decide), owned_foreign own, List.append_nil]

theorem foldl_onto (key : ObjectKey) {items : List Object} {o? : Option Object}
    {changes : List Change}
    (same : items = o?.toList) (own : ∀ o, o? = some o → key.owns o = true)
    (changed : ∀ e ∈ changes, key.owns e.object = true) :
    changes.foldl Change.onto items = (changes.foldl (fun _ e => e.after) o?).toList := by
  induction changes generalizing items o? with
  | nil => exact same
  | cons e changes ih =>
    have here := changed e List.mem_cons_self
    have keyed : e.object.key = key := ObjectKey.owns_iff.mp here
    have none : items.filter (fun o => !e.object.key.owns o) = [] := by
      refine List.filter_eq_nil_iff.mpr fun o mem => ?_
      rw [same, Option.mem_toList] at mem
      simp [keyed, own o mem]
    refine ih ?_ (fun o left => ?_) fun e' mem => changed e' (List.mem_cons_of_mem _ mem)
    · rw [Change.onto, none, List.nil_append]
    · rw [← object_of_after left]
      exact here

/-- The changes of a key turn what there was of it into what there is. -/
theorem foldl_onto_owned (key : ObjectKey) (recent older : List Change) :
    (owned key recent).foldl Change.onto (latest key older).toList =
      (latest key (recent ++ older)).toList := by
  rw [foldl_onto key rfl (fun o left => ?_) fun e mem => ?_, foldl_owned]
  · exact ObjectKey.owns_iff.mpr (key_of_latest left)
  · exact (List.mem_filter.mp (List.mem_reverse.mp mem)).2

end Changes

namespace Store

variable {s s' : Store} {sel : Selector} {id revision : Nat}

/-! ## Uses of a store -/

/-- What a store can be asked for, watch connections included. -/
inductive Call
  /-- Something that needs no connection. -/
  | op (op : Op)
  /-- Opens a watch. -/
  | watch (sel : Selector) (version : String)
  /-- Reads the next arrival of a connection. -/
  | read (id : Nat)
  /-- The reader of a connection lets go of it. -/
  | release (id : Nat)

/-- The store after a call. -/
def Call.run (s : Store) : Call → Store
  | op o => o.run s
  | watch sel version => (s.watch sel version).2
  | read id => (s.read id).2
  | release id => s.release id

/-- The store after many calls. -/
def runAll (s : Store) (calls : List Call) : Store := calls.foldl Call.run s

/-- What the reader of a connection gets by a call. -/
def Call.arrivals (id : Nat) (s : Store) : Call → List Arrival
  | read i => if i = id then (match (s.read id).1 with
    | .arrived a => [a]
    | _ => []) else []
  | _ => []

/-- What the reader of a connection gets by many calls, one after the other. -/
def arrivals (id : Nat) : Store → List Call → List Arrival
  | _, [] => []
  | s, c :: calls => c.arrivals id s ++ arrivals id (c.run s) calls

/-- Whether a call makes the store let go of its connections. -/
def Call.cuts : Call → Bool
  | op .disconnect => true
  | op .compact => true
  | _ => false

/-- The reader of a connection does not let go of it. -/
def Call.Holds (id : Nat) : Call → Prop
  | release i => i ≠ id
  | _ => True

theorem runAll_append (s : Store) (calls more : List Call) :
    s.runAll (calls ++ more) = (s.runAll calls).runAll more := List.foldl_append

theorem arrivals_append (id : Nat) (s : Store) (calls more : List Call) :
    arrivals id s (calls ++ more) = arrivals id s calls ++ arrivals id (s.runAll calls) more := by
  induction calls generalizing s with
  | nil => rfl
  | cons c calls ih => rw [List.cons_append, arrivals, arrivals, ih, List.append_assoc]; rfl

theorem grows_call (s : Store) (c : Call) : Grows (fun _ => True) s (c.run s) := by
  cases c with
  | op o => exact grows_run s o
  | watch sel version => exact grows_watch s sel version
  | read id => exact (grows_read s id).mono fun _ _ => trivial
  | release id => exact (grows_release s id).mono fun _ _ => trivial

theorem grows_runAll (s : Store) (calls : List Call) : Grows (fun _ => True) s (s.runAll calls) := by
  induction calls generalizing s with
  | nil => exact .refl s
  | cons c calls ih => exact (grows_call s c).trans (ih _)

theorem sound_runAll (limit : Nat) (calls : List Call) :
    ((withHistoryLimit limit).runAll calls).Sound :=
  (grows_runAll _ calls).sound (sound_withHistoryLimit limit)

/-! ## What a call is to a connection -/

/-- What a call comes to for the connections of the store. -/
inductive Op.Reach (s s' : Store) : Op → Prop
  /-- A change is announced to them. -/
  | announced {op : Op} (e : Change) : op ≠ .disconnect → op ≠ .compact → s'.past = e :: s.past →
    s'.connections = (s.mapConnections (·.announce e)).connections → Op.Reach s s' op
  /-- The store lets go of them. -/
  | detached : s'.past = s.past → s'.connections = (s.mapConnections (·.detach)).connections →
    Op.Reach s s' .disconnect
  /-- They are told that their version has expired. -/
  | expired : s'.past = s.past → s'.connections =
    (s.mapConnections (·.expire (.expired (toString s.revision)))).connections →
    Op.Reach s s' .compact
  /-- Those without a reader are forgotten. -/
  | counted : s'.past = s.past → s'.connections =
    (s.mapConnections fun c => if c.held then c else c.detach).connections → Op.Reach s s' .count
  /-- Nothing. -/
  | unreached {op : Op} : op ≠ .disconnect → op ≠ .compact → s'.past = s.past →
    s'.connections = s.connections → Op.Reach s s' op

theorem Op.reach (op : Op) (s : Store) : op.Reach s (op.run s) := by
  cases op with
  | apply key data =>
    unfold Op.run Store.apply
    simp only
    split <;> exact .announced _ nofun nofun rfl rfl
  | delete key =>
    unfold Op.run Store.delete
    simp only
    split
    · exact .unreached nofun nofun rfl rfl
    · exact .announced _ nofun nofun rfl rfl
  | disconnect => exact .detached rfl rfl
  | compact => exact .expired rfl rfl
  | failLists n => exact .unreached nofun nofun rfl rfl
  | failWatches n => exact .unreached nofun nofun rfl rfl
  | list selector =>
    unfold Op.run Store.list
    simp only
    split <;> exact .unreached nofun nofun rfl rfl
  | count => exact .counted rfl rfl

theorem past_watch (s : Store) (sel : Selector) (version : String) :
    (s.watch sel version).2.past = s.past := by
  unfold Store.watch
  simp only
  split
  · rfl
  · split
    · rfl
    · split <;> rfl

theorem past_read (s : Store) (id : Nat) : (s.read id).2.past = s.past := by
  unfold Store.read
  split <;> rfl

theorem connection?_watch {c : Connection} (found : s.connection? id = some c) (sel : Selector)
    (version : String) : (s.watch sel version).2.connection? id = some c := by
  unfold Store.watch
  simp only
  split
  · exact found
  · split
    · exact found
    · split
      · exact found
      · unfold connection? at found ⊢
        rw [List.find?_append, found]
        rfl

theorem connection?_updateConnection {c : Connection} {f : Connection → Connection} {i : Nat}
    (ids : ∀ c, c.id = i → (f c).id = i) (found : s.connection? id = some c)
    (held : (if id = i then f c else c).held = true) :
    (s.updateConnection i f).connection? id = some (if id = i then f c else c) := by
  have here := (connection?_mem found).2
  have updated := connection?_mapConnections (f := fun c => if c.id = i then f c else c)
    (fun c => ?_) found ?_
  · rwa [here] at updated
  · split
    · rename_i same
      rw [ids c same, same]
    · rfl
  · rwa [here]

/-- A call that is no operation and does not concern a connection leaves it as it is. -/
theorem Call.spares {call : Call} {c : Connection} (found : s.connection? id = some c)
    (held : c.held = true) (bare : ¬ ∃ o, call = .op o) (apart : call ≠ .read id)
    (holds : call.Holds id) : (call.run s).past = s.past ∧ (call.run s).connection? id = some c ∧
      call.arrivals id s = [] := by
  have others {i : Nat} (other : id ≠ i) {f : Connection → Connection}
      (ids : ∀ c, c.id = i → (f c).id = i) : (s.updateConnection i f).connection? id = some c := by
    have kept := connection?_updateConnection ids found (by rwa [if_neg other])
    rwa [if_neg other] at kept
  cases call with
  | op o => exact absurd ⟨o, rfl⟩ bare
  | watch sel version => exact ⟨past_watch s sel version, connection?_watch found sel version, rfl⟩
  | read i =>
    have other : id ≠ i := fun same => apart (same ▸ rfl)
    refine ⟨past_read s i, ?_, if_neg other.symm⟩
    show (s.read i).2.connection? id = some c
    unfold Store.read
    split
    · exact found
    · rename_i c' found'
      exact others other fun _ _ => (id_read c').trans (connection?_mem found').2
  | release i => exact ⟨rfl, others (Ne.symm holds) fun _ here => here, rfl⟩

/-- The reader of a connection takes what it finds. -/
theorem Call.takes {c : Connection} (found : s.connection? id = some c) (held : c.held = true) :
    ∃ c', (s.read id).2.connection? id = some c' ∧ c'.held = true ∧ c'.attached = c.attached ∧
      c'.selector = c.selector ∧ (Call.read id).arrivals id s ++ c'.pending = c.pending := by
  have taken : s.read id = (c.read.1, s.updateConnection id fun _ => c.read.2) := by
    unfold Store.read
    rw [found]
  have still : c.read.2.held = true := by
    unfold Connection.read
    split <;> exact held
  refine ⟨c.read.2, ?_, still, ?_, ?_, ?_⟩
  · have updated := connection?_updateConnection (f := fun _ => c.read.2) (i := id)
      (fun _ _ => (id_read c).trans (connection?_mem found).2) found (by rwa [if_pos rfl])
    rw [taken]
    rwa [if_pos rfl] at updated
  · unfold Connection.read
    split <;> rfl
  · unfold Connection.read
    split <;> rfl
  · simp only [arrivals, if_true, taken, Connection.read]
    cases waiting : c.pending with
    | nil => cases c.attached <;> exact waiting
    | cons a rest => rfl

/-! ## Connections before and after the store lets go -/

/-- The store feeds a connection: its reader has got `got`, and what waits for it are all other
changes after a revision. -/
def Opened (s : Store) (sel : Selector) (revision id : Nat) (got : List Arrival) : Prop :=
  revision ≤ s.past.length ∧ ∃ c, s.connection? id = some c ∧ c.held = true ∧ c.attached = true ∧
    c.selector = sel ∧ got ++ c.pending = (changesSince sel revision s.past).map .ok

/-- The store has let go of a connection: its reader has got `got`, and what waits for it is the
rest of `total`. -/
def Closed (s : Store) (id : Nat) (got total : List Arrival) : Prop :=
  ∃ c, s.connection? id = some c ∧ c.held = true ∧ c.attached = false ∧ got ++ c.pending = total

/-- A read finds what is next of `total`, of which the reader of the connection has got `got`, and
`rest` when there is no more. -/
def Yields (s : Store) (id : Nat) (got total : List Arrival) (rest : Reading) : Prop :=
  ∃ left, total = got ++ left ∧ (s.read id).1 = left.head?.elim rest .arrived

variable {got total : List Arrival} {call : Call} {calls : List Call}

theorem connection?_congr (same : s'.connections = s.connections) :
    s'.connection? id = s.connection? id := by
  unfold connection?
  rw [same]

theorem read_eq {c : Connection} (found : s.connection? id = some c) :
    (s.read id).1 = c.pending.head?.elim (if c.attached then .idle else .ended) .arrived := by
  simp only [Store.read, found, Connection.read]
  cases c.pending <;> rfl

theorem Opened.yields (opened : s.Opened sel revision id got) :
    s.Yields id got ((changesSince sel revision s.past).map .ok) .idle := by
  obtain ⟨_, c, found, _, attached, _, whole⟩ := opened
  refine ⟨c.pending, whole.symm, ?_⟩
  rw [read_eq found, attached]
  rfl

theorem Closed.yields (closed : s.Closed id got total) : s.Yields id got total .ended := by
  obtain ⟨c, found, _, detached, whole⟩ := closed
  refine ⟨c.pending, whole.symm, ?_⟩
  rw [read_eq found, detached]
  rfl

/-- A call that does not make the store let go: the reader has the same changes to come, and those
that the call makes. -/
theorem Opened.step (opened : s.Opened sel revision id got) (holds : call.Holds id)
    (whole : call.cuts = false) :
    (call.run s).Opened sel revision id (got ++ call.arrivals id s) := by
  obtain ⟨before, c, found, held, attached, rfl, eq⟩ := opened
  by_cases taken : call = .read id
  · subst taken
    obtain ⟨c', found', held', attached', selector, rest⟩ := Call.takes found held
    have past : ((Call.read id).run s).past = s.past := past_read s id
    rw [Opened, past]
    exact ⟨before, c', found', held', attached'.trans attached, selector, by
      rw [List.append_assoc, rest, eq]⟩
  by_cases bare : ∃ o, call = .op o
  · obtain ⟨o, rfl⟩ := bare
    show (o.run s).Opened c.selector revision id (got ++ [])
    rw [List.append_nil]
    have reach := o.reach s
    generalize o.run s = s' at reach
    cases reach with
    | announced e _ _ past same =>
      rw [Opened, past, changesSince_cons before]
      have sent : c.announce e =
          { c with pending := c.pending ++ if c.selector.admits e.object then [.ok e] else [] } := by
        unfold Connection.announce Connection.send
        cases admitted : c.selector.admits e.object <;> simp [attached, held]
      refine ⟨Nat.le_succ_of_le before, c.announce e, ?_, ?_, ?_, ?_, ?_⟩
      · rw [connection?_congr same]
        exact connection?_mapConnections (id_announce · e) found (sent ▸ held)
      · rw [sent]
        exact held
      · rw [sent]
        exact attached
      · rw [sent]
      · rw [sent, ← List.append_assoc, eq, List.map_append]
        split <;> rfl
    | detached => cases whole
    | expired => cases whole
    | counted past same =>
      rw [Opened, past]
      refine ⟨before, c, ?_, held, attached, rfl, eq⟩
      have kept := connection?_mapConnections (f := fun c => if c.held then c else c.detach)
        (fun c => by split <;> rfl) found (by rw [if_pos held]; exact held)
      rwa [if_pos held, ← connection?_congr same] at kept
    | unreached _ _ past same =>
      rw [Opened, past]
      exact ⟨before, c, (connection?_congr same).trans found, held, attached, rfl, eq⟩
  · obtain ⟨past, found', nothing⟩ := Call.spares found held bare taken holds
    rw [Opened, past, nothing, List.append_nil]
    exact ⟨before, c, found', held, attached, rfl, eq⟩

/-- Once the store has let go, no call makes a difference to what is to come. -/
theorem Closed.step (closed : s.Closed id got total) (holds : call.Holds id) :
    (call.run s).Closed id (got ++ call.arrivals id s) total := by
  obtain ⟨c, found, held, detached, rfl⟩ := closed
  by_cases taken : call = .read id
  · subst taken
    obtain ⟨c', found', held', attached', _, rest⟩ := Call.takes found held
    exact ⟨c', found', held', attached'.trans detached, by rw [List.append_assoc, rest]⟩
  by_cases bare : ∃ o, call = .op o
  · obtain ⟨o, rfl⟩ := bare
    show (o.run s).Closed id (got ++ []) (got ++ c.pending)
    rw [List.append_nil]
    have mapped {f : Connection → Connection}
        (connections : (o.run s).connections = (s.mapConnections f).connections)
        (ids : ∀ c, (f c).id = c.id) (same : f c = c) :
        (o.run s).Closed id got (got ++ c.pending) := by
      have kept := connection?_mapConnections ids found (same.symm ▸ held)
      rw [same, ← connection?_congr connections] at kept
      exact ⟨c, kept, held, detached, rfl⟩
    cases o.reach s with
    | announced e _ _ _ same =>
      exact mapped same (id_announce · e) (by simp [Connection.announce, detached])
    | detached _ same =>
      refine mapped same (fun _ => rfl) ?_
      rw [Connection.detach, ← detached]
    | expired _ same =>
      exact mapped same (id_expire · _) (by simp [Connection.expire, detached])
    | counted _ same =>
      exact mapped same (fun c => by split <;> rfl) (if_pos held)
    | unreached _ _ _ same =>
      exact ⟨c, (connection?_congr same).trans found, held, detached, rfl⟩
  · obtain ⟨_, found', nothing⟩ := Call.spares found held bare taken holds
    rw [nothing, List.append_nil]
    exact ⟨c, found', held, detached, rfl⟩

/-- The store lets go of all connections. -/
theorem Opened.disconnect (opened : s.Opened sel revision id got) :
    s.disconnect.Closed id got ((changesSince sel revision s.past).map .ok) := by
  obtain ⟨_, c, found, held, _, _, eq⟩ := opened
  exact ⟨c.detach, connection?_mapConnections (f := (·.detach)) (fun _ => rfl) found held, held,
    rfl, eq⟩

/-- The store forgets its changes: whoever watches is told so, and then let go of. -/
theorem Opened.compact (opened : s.Opened sel revision id got) :
    s.compact.Closed id got ((changesSince sel revision s.past).map .ok ++
      [.error (.expired (toString s.revision))]) := by
  obtain ⟨_, c, found, held, attached, _, eq⟩ := opened
  have told : c.expire (.expired (toString s.revision)) =
      { c with
        pending := c.pending ++ [.error (.expired (toString s.revision))], attached := false } := by
    simp [Connection.expire, Connection.send, Connection.detach, attached, held]
  refine ⟨_, connection?_mapConnections (id_expire · _) found (told ▸ held), told ▸ held, ?_, ?_⟩
  · rw [told]
  · rw [told, ← List.append_assoc, eq]

theorem Opened.runAll (opened : s.Opened sel revision id got)
    (kept : ∀ c ∈ calls, c.Holds id ∧ c.cuts = false) :
    (s.runAll calls).Opened sel revision id (got ++ arrivals id s calls) := by
  induction calls generalizing s got with
  | nil => rwa [arrivals, List.append_nil]
  | cons c calls ih =>
    obtain ⟨holds, whole⟩ := kept c List.mem_cons_self
    rw [arrivals, ← List.append_assoc]
    exact ih (opened.step holds whole) fun c' mem => kept c' (List.mem_cons_of_mem _ mem)

theorem Closed.runAll (closed : s.Closed id got total) (holds : ∀ c ∈ calls, c.Holds id) :
    (s.runAll calls).Closed id (got ++ arrivals id s calls) total := by
  induction calls generalizing s got with
  | nil => rwa [arrivals, List.append_nil]
  | cons c calls ih =>
    rw [arrivals, ← List.append_assoc]
    exact ih (closed.step (holds c List.mem_cons_self)) fun c' mem =>
      holds c' (List.mem_cons_of_mem _ mem)

/-! ## Opening a watch -/

/-- The changes that have left the log are those up to `compacted`. -/
theorem Sound.left_iff (sound : s.Sound) : (∃ x ∈ numbered s.past, revision < x.1 ∧ x ∉ s.history) ↔
    revision < s.compacted := by
  have bound := sound.compacted
  rw [sound.history]
  constructor
  · rintro ⟨x, mem, later, left⟩
    obtain ⟨i, place⟩ := List.mem_iff_getElem?.mp mem
    have number := number_eq place
    suffices i < s.compacted by omega
    refine Nat.lt_of_not_le fun kept => left ?_
    refine List.mem_iff_getElem?.mpr ⟨i - s.compacted, ?_⟩
    rw [List.getElem?_drop, Nat.add_sub_cancel' kept, place]
  · intro later
    have within : s.compacted - 1 < (numbered s.past).length := by
      rw [length_numbered]
      omega
    have place := List.getElem?_eq_getElem within
    have number := number_eq place
    refine ⟨_, List.getElem_mem within, by omega, fun kept => ?_⟩
    obtain ⟨i, place'⟩ := List.mem_iff_getElem?.mp kept
    rw [List.getElem?_drop] at place'
    have number' := number_eq place'
    omega

/-- When a watch is refused. -/
theorem watch_eq_error (calm : s.failingWatches = 0) (sel : Selector) (version : String)
    (f : StoreFailure) : (s.watch sel version).1 = .error f ↔ f = .expired version ∧
      (s.startingRevision version = none ∨
        ∃ revision, s.startingRevision version = some revision ∧ revision < s.compacted) := by
  have counted : startingRevision { s with watchCalls := s.watchCalls + 1 } version =
      s.startingRevision version := rfl
  simp only [Store.watch, counted, if_neg (show ¬ 0 < s.failingWatches by omega)]
  cases s.startingRevision version with
  | none => simp [eq_comm]
  | some revision => by_cases early : revision < s.compacted <;> simp [early, eq_comm]

/-- A watch is refused for its version only: the text is no revision, or changes after it have left
the log. -/
theorem Sound.refuses (sound : s.Sound) (calm : s.failingWatches = 0) {version : String}
    (f : StoreFailure) : (s.watch sel version).1 = .error f ↔ f = .expired version ∧ version ≠ "" ∧
      (Text.readWord version = none ∨ ∃ revision, Text.readWord version = some revision ∧
        ∃ x ∈ numbered s.past, revision < x.1 ∧ x ∉ s.history) := by
  have kept : s.compacted ≤ s.revision := sound.revision ▸ sound.compacted
  simp only [watch_eq_error calm, sound.left_iff, startingRevision]
  by_cases empty : version = ""
  · simp [empty, kept]
  · simp [empty]

/-- The log has all changes after a revision that it has been cut behind. -/
theorem Sound.changesAfter_eq (sound : s.Sound) (sel : Selector) (kept : s.compacted ≤ revision) :
    s.changesAfter sel revision = changesSince sel revision s.past := by
  have none : ((numbered s.past).take s.compacted).filter
      (fun x => decide (revision < x.1) && sel.admits x.2.object) = [] := by
    refine List.filter_eq_nil_iff.mpr fun x mem => ?_
    obtain ⟨i, place⟩ := List.mem_iff_getElem?.mp mem
    have early : i < s.compacted := by
      have within := (List.getElem?_eq_some_iff.mp place).1
      rw [List.length_take] at within
      omega
    rw [List.getElem?_take_of_lt early] at place
    have number := number_eq place
    simp only [Bool.and_eq_true, decide_eq_true_eq]
    omega
  unfold Store.changesAfter changesSince
  rw [sound.history]
  conv => rhs; rw [← List.take_append_drop s.compacted (numbered s.past), List.filter_append, none]
  rfl

/-- What a watch that is opened begins with: all changes after its revision wait for the reader. -/
theorem Sound.opened_watch (sound : s.Sound) {version : String}
    (opened : (s.watch sel version).1 = .ok id) : ∃ revision,
      s.startingRevision version = some revision ∧
        (s.watch sel version).2.Opened sel (min revision s.revision) id [] := by
  have whole : s.watch sel version = (.ok id, (s.watch sel version).2) := Prod.ext opened rfl
  obtain ⟨rfl, revision, start, kept, past, _, connections⟩ := watch_eq_ok whole
  refine ⟨revision, start, ?_⟩
  rw [Opened, past, sound.revision, changesSince_min]
  refine ⟨Nat.min_le_right _ _,
    { id := s.opened, selector := sel, pending := (s.changesAfter sel revision).map .ok },
    ?_, rfl, rfl, rfl, ?_⟩
  · have absent : s.connections.find? (fun c => c.id == s.opened) = none := by
      refine List.find?_eq_none.mpr fun c mem => ?_
      have := sound.ids c mem
      simp only [beq_iff_eq]
      omega
    unfold connection?
    rw [connections, List.find?_append, absent, Option.none_or, List.find?_cons_of_pos]
    simp
  · rw [sound.changesAfter_eq sel kept]
    rfl

/-! ## Serving a watch -/

/-- A call that lets the watch of a connection go on. -/
def Call.Continues (id : Nat) (c : Call) : Prop := c.Holds id ∧ c.cuts = false

/-- What the reader of a watch gets from its opening on, whatever the store is used for: each
admitted change after `revision` once and in order, until the store lets go. -/
structure Serves (opened : Store) (sel : Selector) (revision id : Nat) : Prop where
  /-- Until then the reader gets all there are, and waits when it has got them. -/
  running : ∀ calls, (∀ c ∈ calls, c.Continues id) →
    (opened.runAll calls).Yields id (arrivals id opened calls)
      ((changesSince sel revision (opened.runAll calls).past).map .ok) .idle
  /-- The store lets go of its connections: the stream ends after the changes until then. -/
  disconnected : ∀ calls more, (∀ c ∈ calls, c.Continues id) → (∀ c ∈ more, c.Holds id) →
    (opened.runAll (calls ++ .op .disconnect :: more)).Yields id
      (arrivals id opened (calls ++ .op .disconnect :: more))
      ((changesSince sel revision (opened.runAll calls).past).map .ok) .ended
  /-- The store empties its log: the stream ends after the changes until then and one failure. -/
  compacted : ∀ calls more, (∀ c ∈ calls, c.Continues id) → (∀ c ∈ more, c.Holds id) →
    (opened.runAll (calls ++ .op .compact :: more)).Yields id
      (arrivals id opened (calls ++ .op .compact :: more))
      ((changesSince sel revision (opened.runAll calls).past).map .ok ++
        [.error (.expired (toString (opened.runAll calls).revision))]) .ended

/-- A connection that is open serves its reader. -/
theorem Opened.serves (opened : s.Opened sel revision id []) : s.Serves sel revision id where
  running _ continued := (opened.runAll continued).yields
  disconnected calls more continued holds := by
    have closed := (opened.runAll continued).disconnect.runAll holds
    rw [runAll_append, arrivals_append]
    exact closed.yields
  compacted calls more continued holds := by
    have closed := (opened.runAll continued).compact.runAll holds
    rw [runAll_append, arrivals_append]
    exact closed.yields

/-- What a full read gets. -/
theorem list_eq_ok {items : List Object} {version : String}
    (listed : (s.list sel).1 = .ok (items, version)) :
    items = s.objects.filter sel.admits ∧ version = toString s.revision := by
  unfold Store.list at listed
  simp only at listed
  split at listed
  · cases listed
  · cases listed
    exact ⟨rfl, rfl⟩

/-- The items of an earlier list, changed as the changes since say, are those of the store. -/
theorem Sound.foldl_onto (sound : s.Sound) {listed : Store} (past : listed.past <:+ s.past)
    (before : listed.Sound) (sel : Selector) :
    (changesSince sel listed.revision s.past).foldl Change.onto (listed.objects.filter sel.admits) =
      s.objects.filter sel.admits := by
  obtain ⟨recent, same⟩ := past
  have admits : sel.admits = sel.key.owns := funext (Selector.admits_eq_owns sel)
  rw [admits, before.objects, sound.objects, ← same, before.revision, changesSince_append,
    foldl_onto_owned]

/-- **What a watch is worth.**  On a store in any use, a watch is refused exactly when its version
is no revision, or one that changes after it have left the log; any other watch hands on the changes
after its version, or after the opening if that comes first; and these make an earlier list one of
the present. -/
theorem watch_serves (limit : Nat) (calls : List Call) (sel : Selector) (version : String)
    (calm : ((withHistoryLimit limit).runAll calls).failingWatches = 0) :
    let s := (withHistoryLimit limit).runAll calls
    let opened := (s.watch sel version).2
    (∀ f, (s.watch sel version).1 = .error f ↔ f = .expired version ∧ version ≠ "" ∧
      (Text.readWord version = none ∨ ∃ revision, Text.readWord version = some revision ∧
        ∃ x ∈ numbered s.past, revision < x.1 ∧ x ∉ s.history)) ∧
    (∀ id, (s.watch sel version).1 = .ok id → ∃ revision,
      s.startingRevision version = some revision ∧
        opened.Serves sel (min revision s.revision) id) ∧
    ∀ earlier later items id, calls = earlier ++ .op (.list sel) :: later →
      (((withHistoryLimit limit).runAll earlier).list sel).1 = .ok (items, version) →
      (s.watch sel version).1 = .ok id → ∀ more, (∀ c ∈ more, c.Continues id) →
      ∃ changes : List Change, (opened.runAll more).Yields id (arrivals id opened more) (changes.map .ok) .idle ∧
        changes.foldl Change.onto items = (opened.runAll more).objects.filter sel.admits := by
  intro s opened
  have sound : s.Sound := sound_runAll limit calls
  refine ⟨fun f => sound.refuses calm f, fun id ok => ?_, ?_⟩
  · obtain ⟨revision, start, begun⟩ := sound.opened_watch ok
    exact ⟨revision, start, begun.serves⟩
  · rintro earlier later items id rfl listed ok more continued
    obtain ⟨revision, start, begun⟩ := sound.opened_watch ok
    refine ⟨_, begun.serves.running more continued, ?_⟩
    have suffix : ((withHistoryLimit limit).runAll earlier).past <:+ s.past := by
      show _ <:+ ((withHistoryLimit limit).runAll (earlier ++ .op (.list sel) :: later)).past
      rw [runAll_append]
      exact (grows_runAll _ _).past
    have before := sound_runAll limit earlier
    generalize (withHistoryLimit limit).runAll earlier = first at listed suffix before
    obtain ⟨rfl, rfl⟩ := list_eq_ok listed
    have number : min revision s.revision = first.revision := by
      unfold startingRevision at start
      rw [if_neg (show toString first.revision ≠ "" from Nat.repr_ne_empty)] at start
      rw [Text.readWord_toString start, sound.revision, before.revision]
      exact Nat.min_eq_left suffix.length_le
    have grows := (grows_watch s sel (toString first.revision)).trans (grows_runAll opened more)
    rw [number]
    exact (grows.sound sound).foldl_onto (suffix.trans grows.past) before sel

/-- A log of two changes after three: the version before all of them is refused, and the version of
a list between the first one and the second one is watched from. -/
theorem watch_serves_short_log :
    let key : ObjectKey := ⟨"ns", "a"⟩
    let calls : List Call := [.op (.apply key "x"), .op (.list key.selector), .op (.apply key "y"),
      .op (.apply key "z")]
    let s := (withHistoryLimit 2).runAll calls
    s.failingWatches = 0 ∧ (s.watch key.selector "0").1 = .error (.expired "0") ∧
      (∃ revision, s.startingRevision "1" = some revision ∧
        (s.watch key.selector "1").2.Serves key.selector (min revision s.revision) 0) ∧
      ∃ changes : List Change, (s.watch key.selector "1").2.Yields 0 [] (changes.map .ok) .idle ∧
        changes.foldl Change.onto [⟨key, "1", "x"⟩] = [⟨key, "3", "z"⟩] := by
  intro key calls s
  have left : ∃ x ∈ numbered s.past, 0 < x.1 ∧ x ∉ s.history :=
    (sound_runAll 2 calls).left_iff.mpr (by decide)
  refine ⟨rfl, ?_, ?_, ?_⟩
  · exact ((watch_serves 2 calls key.selector "0" rfl).1 _).mpr
      ⟨rfl, by decide, .inr ⟨0, by decide, left⟩⟩
  · exact (watch_serves 2 calls key.selector "1" rfl).2.1 0 rfl
  · have one : toString 1 = "1" := by decide
    obtain ⟨changes, yields, folded⟩ := (watch_serves 2 calls key.selector "1" rfl).2.2
      [.op (.apply key "x")] _ [⟨key, "1", "x"⟩] 0 rfl (by rw [← one]; rfl) rfl [] nofun
    exact ⟨changes, yields, folded.trans (by decide)⟩

end Store

end SharedWatch
