import SharedWatch.Proofs.StreamTransitions

/-!
# The store and its past

A store forgets: its log is cut, and its objects give way to others.  Its past forgets nothing, and
everything that the store holds can be read off it.

* `latest`: what the changes of a past have made of a key.
* `numbered`: the changes of a past with their revisions.
* `Store.Sound`: objects, log and connections are as the past says.
* `Sound.run`, `Sound.watch`, `Sound.read`, `Sound.release`: whatever a store is asked for, it stays
  sound.
-/

namespace SharedWatch

/-- What the changes of a past have made of a key; the latest change comes first. -/
def latest (key : ObjectKey) (past : List Change) : Option Object :=
  (past.find? (key.owns ·.object)).bind (·.after)

/-- The changes of a past with their revisions, the oldest first. -/
def numbered : List Change → List (Nat × Change)
  | [] => []
  | e :: past => numbered past ++ [(past.length + 1, e)]

section Past

variable {key : ObjectKey} {e : Change} {newer older past : List Change}

theorem latest_own (own : key.owns e.object = true) : latest key (e :: past) = e.after := by
  simp [latest, own]

theorem latest_foreign (foreign : key.owns e.object = false) :
    latest key (e :: past) = latest key past := by
  simp [latest, foreign]

/-- Changes of other keys make nothing of a key. -/
theorem latest_append_foreign (foreign : newer.filter (key.owns ·.object) = []) :
    latest key (newer ++ older) = latest key older := by
  induction newer with
  | nil => rfl
  | cons e newer ih =>
    cases own : key.owns e.object with
    | true => simp [own] at foreign
    | false =>
      rw [List.cons_append, latest_foreign own]
      exact ih (by simpa [own] using foreign)

/-- What is left of a key was put there by the last change of the key. -/
theorem latest_eq_some {o : Object} (left : latest key past = some o) :
    ∃ later e earlier, past = later ++ e :: earlier ∧ later.filter (key.owns ·.object) = [] ∧
      key.owns e.object = true ∧ e.after = some o := by
  induction past with
  | nil => cases left
  | cons e past ih =>
    cases own : key.owns e.object with
    | true => exact ⟨[], e, past, rfl, rfl, own, latest_own own ▸ left⟩
    | false =>
      rw [latest_foreign own] at left
      rcases ih left with ⟨later, e', earlier, rfl, foreign, own', after⟩
      exact ⟨e :: later, e', earlier, rfl, by simpa [own] using foreign, own', after⟩

theorem object_of_after {o : Object} (after : e.after = some o) : e.object = o := by
  cases e with
  | added _ => exact Option.some.inj after
  | modified _ => exact Option.some.inj after
  | deleted _ => cases after

theorem key_of_latest {o : Object} (left : latest key past = some o) : o.key = key := by
  rcases latest_eq_some left with ⟨_, _, _, _, _, own, after⟩
  rw [← object_of_after after]
  exact ObjectKey.owns_iff.mp own

theorem length_numbered (past : List Change) : (numbered past).length = past.length := by
  induction past with
  | nil => rfl
  | cons e past ih => rw [numbered, List.length_append, ih]; rfl

/-- The number of a change is one more than its place. -/
theorem number_eq {i : Nat} {x : Nat × Change} (found : (numbered past)[i]? = some x) :
    x.1 = i + 1 := by
  induction past with
  | nil => cases found
  | cons e past ih =>
    rw [numbered] at found
    rcases Nat.lt_or_ge i (numbered past).length with earlier | last
    · rw [List.getElem?_append_left earlier] at found
      exact ih found
    · rw [List.getElem?_append_right last] at found
      obtain ⟨here, rfl⟩ := List.getElem?_eq_some_iff.mp found
      have : i = past.length := by
        rw [length_numbered] at here last
        simp only [List.length_singleton] at here
        omega
      simp [this]

theorem mem_of_mem_numbered {x : Nat × Change} (mem : x ∈ numbered past) : x.2 ∈ past := by
  induction past with
  | nil => cases mem
  | cons e past ih =>
    rw [numbered, List.mem_append, List.mem_singleton] at mem
    rcases mem with earlier | rfl
    · exact List.mem_cons_of_mem _ (ih earlier)
    · exact List.mem_cons_self

theorem number_le {x : Nat × Change} (mem : x ∈ numbered past) : x.1 ≤ past.length := by
  obtain ⟨i, found⟩ := List.mem_iff_getElem?.mp mem
  have place := (List.getElem?_eq_some_iff.mp found).1
  rw [length_numbered] at place
  rw [number_eq found]
  omega

/-- The numbered changes of an older past come first. -/
theorem numbered_append (newer older : List Change) :
    ∃ rest, numbered (newer ++ older) = numbered older ++ rest ∧
      rest.map (·.2) = newer.reverse ∧ ∀ x ∈ rest, older.length < x.1 := by
  induction newer with
  | nil => exact ⟨[], by simp, rfl, nofun⟩
  | cons e newer ih =>
    obtain ⟨rest, eq, same, later⟩ := ih
    refine ⟨rest ++ [((newer ++ older).length + 1, e)], ?_, ?_, fun x mem => ?_⟩
    · rw [List.cons_append, numbered, eq, List.append_assoc]
    · rw [List.map_append, same, List.reverse_cons]
      rfl
    · rcases List.mem_append.mp mem with earlier | last
      · exact later x earlier
      · obtain rfl := List.mem_singleton.mp last
        rw [List.length_append]
        omega

end Past

namespace Store

/-- What a store holds is what its past says. -/
structure Sound (s : Store) : Prop where
  revision : s.revision = s.past.length
  versions : ∀ {e : Change} {older : List Change}, e :: older <:+ s.past →
    e.object.version = toString (older.length + 1)
  objects : ∀ key : ObjectKey, s.objects.filter key.owns = (latest key s.past).toList
  history : s.history = (numbered s.past).drop s.compacted
  compacted : s.compacted ≤ s.past.length
  pending : ∀ c ∈ s.connections, ∀ e : Change, .ok e ∈ c.pending → e ∈ s.past
  ids : ∀ c ∈ s.connections, c.id < s.opened

variable {s s' : Store} {key : ObjectKey}

theorem Sound.get? (sound : s.Sound) (key : ObjectKey) : s.get? key = latest key s.past := by
  unfold Store.get?
  rw [← List.head?_filter, sound.objects, Option.head?_toList]

/-- An object that an older past does not show was stored later, and has a version of then. -/
theorem Sound.newest (sound : s.Sound) {newer older : List Change} (recent : newer <:+ s.past)
    (before : older <:+ newer) {o : Object} (left : latest key newer = some o)
    (news : latest key older ≠ some o) :
    ∃ r, o.version = toString r ∧ older.length < r ∧ r ≤ newer.length := by
  rcases latest_eq_some left with ⟨later, e, earlier, split, foreign, own, after⟩
  have change : e :: earlier <:+ newer := ⟨later, split.symm⟩
  have version := sound.versions (change.trans recent)
  rw [object_of_after after] at version
  refine ⟨earlier.length + 1, version, ?_, change.length_le⟩
  refine Nat.lt_of_not_le fun long => news ?_
  -- Otherwise the change is one of the older past, and the last one of the key there, too.
  rcases List.suffix_of_suffix_length_le change before long with ⟨middle, rfl⟩
  rcases before with ⟨rest, whole⟩
  have same : rest ++ middle = later := by
    rw [split, ← List.append_assoc] at whole
    exact List.append_cancel_right whole
  rw [← same, List.filter_append] at foreign
  rw [latest_append_foreign (List.append_eq_nil_iff.mp foreign).2, latest_own own]
  exact after

/-- A full read is of all that has happened. -/
theorem Sound.listed (sound : s.Sound) {sel : Selector} {items : List Object} {version : String}
    (listed : (s.list sel).1 = .ok (items, version)) :
    version = toString s.past.length ∧
      items.filter sel.key.owns = (latest sel.key s.past).toList := by
  unfold Store.list at listed
  simp only at listed
  split at listed
  · cases listed
  · cases listed
    refine ⟨congrArg toString sound.revision, ?_⟩
    rw [← sound.objects, List.filter_filter]
    refine List.filter_congr fun o _ => ?_
    rw [Selector.admits_eq_owns, Bool.and_self]

/-! ## Connections -/

theorem mem_mapConnections {f : Connection → Connection} {c' : Connection}
    (mem : c' ∈ (s.mapConnections f).connections) : ∃ c ∈ s.connections, f c = c' :=
  List.mem_map.mp (List.mem_filter.mp mem).1

/-- Connections may change as they like, as long as they do not make up changes. -/
theorem Sound.mapConnections (sound : s.Sound) {f : Connection → Connection}
    (id : ∀ c, (f c).id = c.id)
    (pending : ∀ c ∈ s.connections, ∀ e : Change, .ok e ∈ (f c).pending → e ∈ s.past) :
    (s.mapConnections f).Sound := by
  refine { sound with pending := fun c' mem => ?_, ids := fun c' mem => ?_ }
  · obtain ⟨c, old, rfl⟩ := mem_mapConnections mem
    exact pending c old
  · obtain ⟨c, old, rfl⟩ := mem_mapConnections mem
    rw [id]
    exact sound.ids c old

theorem pending_send {c : Connection} {a : Arrival} {e : Change}
    (mem : .ok e ∈ (c.send a).pending) : .ok e ∈ c.pending ∨ .ok e = a := by
  unfold Connection.send at mem
  split at mem
  · rcases List.mem_append.mp mem with old | new
    · exact .inl old
    · exact .inr (List.mem_singleton.mp new)
  · exact .inl mem

theorem pending_announce {c : Connection} {e e' : Change}
    (mem : .ok e' ∈ (c.announce e).pending) : .ok e' ∈ c.pending ∨ e' = e := by
  unfold Connection.announce at mem
  split at mem
  · exact .inl mem
  · split at mem
    · exact (pending_send mem).imp_right (Except.ok.inj ·)
    · exact .inl mem

theorem id_send (c : Connection) (a : Arrival) : (c.send a).id = c.id := by
  unfold Connection.send
  split <;> rfl

theorem id_announce (c : Connection) (e : Change) : (c.announce e).id = c.id := by
  unfold Connection.announce
  split
  · rfl
  · split
    · exact id_send c _
    · rfl

theorem id_expire (c : Connection) (f : StoreFailure) : (c.expire f).id = c.id := by
  unfold Connection.expire
  split
  · exact id_send c _
  · rfl

theorem id_read (c : Connection) : c.read.2.id = c.id := by
  unfold Connection.read
  split <;> rfl

theorem pending_read {c : Connection} {a : Arrival} (mem : a ∈ c.read.2.pending) :
    a ∈ c.pending := by
  unfold Connection.read at mem
  split at mem
  · rename_i pending
    rw [pending]
    exact List.mem_cons_of_mem _ mem
  · exact mem

theorem connection?_mem {id : Nat} {c : Connection} (found : s.connection? id = some c) :
    c ∈ s.connections ∧ c.id = id := by
  unfold connection? at found
  exact ⟨List.mem_of_find?_eq_some found, by simpa using List.find?_some found⟩

/-! ## The log -/

/-- Cutting the log keeps it the end of the numbered past. -/
theorem Sound.trim (sound : s.Sound) : s.trim.Sound := by
  have whole : s.history.length = s.past.length - s.compacted := by
    rw [sound.history, List.length_drop, length_numbered]
  have bound := sound.compacted
  have cut : s.trim.compacted = s.compacted + (s.history.length - s.historyLimit) := by
    unfold Store.trim
    simp only
    generalize surplus : s.history.length - s.historyLimit = k
    cases k with
    | zero => rfl
    | succ k =>
      have within : k < s.history.length := by omega
      have last : (s.history.take (k + 1)).getLast? = s.history[k]? := by
        rw [List.getLast?_eq_getElem?, List.length_take, Nat.min_eq_left (by omega),
          List.getElem?_take, if_pos (by omega)]
        rfl
      rw [last, List.getElem?_eq_getElem within]
      have place : (numbered s.past)[s.compacted + k]? = some s.history[k] := by
        rw [← List.getElem?_drop, ← sound.history, List.getElem?_eq_getElem within]
      rw [Option.elim_some, number_eq place]
      omega
  have kept : s.trim.history = (numbered s.past).drop s.trim.compacted := by
    rw [cut, ← List.drop_drop, ← sound.history]
    rfl
  have bound' : s.trim.compacted ≤ s.past.length := by omega
  exact { sound with history := kept, compacted := bound' }

/-- A change is published: the objects are as it leaves them. -/
theorem Sound.publish (sound : s.Sound) {e : Change} {objects : List Object}
    (version : e.object.version = toString (s.revision + 1))
    (changed : ∀ key : ObjectKey,
      objects.filter key.owns = (latest key (e :: s.past)).toList) :
    ({ s with objects, revision := s.revision + 1 }.publish e).Sound := by
  unfold Store.publish
  apply Sound.trim
  have bound := sound.compacted
  have back {c' : Connection} (mem : c' ∈ (s.mapConnections (·.announce e)).connections) :
      ∃ c ∈ s.connections, c.announce e = c' := mem_mapConnections mem
  refine ⟨?_, ?_, changed, ?_, Nat.le_succ_of_le bound, ?_, ?_⟩
  · show s.revision + 1 = (e :: s.past).length
    rw [sound.revision]
    rfl
  · intro e' older suffix
    have suffix : e' :: older <:+ e :: s.past := suffix
    rcases List.suffix_cons_iff.mp suffix with same | earlier
    · cases same
      rw [version, sound.revision]
    · exact sound.versions earlier
  · show s.history ++ [(s.revision + 1, e)] = (numbered s.past ++ [(s.past.length + 1, e)]).drop
      s.compacted
    rw [List.drop_append_of_le_length (by rw [length_numbered]; exact bound), sound.history,
      sound.revision]
  · intro c' mem e' waits
    obtain ⟨c, old, rfl⟩ := back mem
    rcases pending_announce waits with before | rfl
    · exact List.mem_cons_of_mem _ (sound.pending c old e' before)
    · exact List.mem_cons_self
  · intro c' mem
    obtain ⟨c, old, rfl⟩ := back mem
    rw [id_announce]
    exact sound.ids c old

/-! ## Changes of objects -/

theorem owns_eq_false {key key' : ObjectKey} {o : Object} (own : key.owns o = true)
    (other : key ≠ key') : key'.owns o = false := by
  cases own' : key'.owns o with
  | false => rfl
  | true => exact absurd ((ObjectKey.owns_iff.mp own).symm.trans (ObjectKey.owns_iff.mp own')) other

/-- An object is replaced: the others stay. -/
theorem Sound.filter_replace (sound : s.Sound) {o last : Object} (own : o.key = key)
    (stored : s.get? key = some last) (key' : ObjectKey) :
    (s.objects.map fun p => if key.owns p then o else p).filter key'.owns =
      (latest key' (.modified o :: s.past)).toList := by
  have owned : key.owns o = true := ObjectKey.owns_iff.mpr own
  have same (p : Object) : key'.owns (if key.owns p then o else p) = key'.owns p := by
    split
    · rename_i here
      by_cases eq : key = key'
      · rw [← eq, owned, here]
      · rw [owns_eq_false owned eq, owns_eq_false here eq]
    · rfl
  rw [List.filter_map]
  simp only [Function.comp_def, same]
  rw [sound.objects key']
  by_cases eq : key = key'
  · subst eq
    rw [latest_own owned, ← sound.get?, stored]
    have here : key.owns last = true := by
      rw [sound.get?] at stored
      exact ObjectKey.owns_iff.mpr (key_of_latest stored)
    simp [here, Change.after]
  · rw [latest_foreign (owns_eq_false owned eq)]
    cases left : latest key' s.past with
    | none => rfl
    | some p =>
      have here : key.owns p = false :=
        owns_eq_false (ObjectKey.owns_iff.mpr (key_of_latest left)) (Ne.symm eq)
      simp [here]

/-- An object is added: the others stay. -/
theorem Sound.filter_append (sound : s.Sound) {o : Object} (own : o.key = key)
    (absent : s.get? key = none) (key' : ObjectKey) :
    (s.objects ++ [o]).filter key'.owns = (latest key' (.added o :: s.past)).toList := by
  have owned : key.owns o = true := ObjectKey.owns_iff.mpr own
  rw [List.filter_append, sound.objects key']
  by_cases eq : key = key'
  · subst eq
    rw [latest_own owned, ← sound.get?, absent]
    simp [owned, Change.after]
  · have foreign := owns_eq_false owned eq
    rw [latest_foreign foreign]
    simp [foreign]

/-- An object is removed: the others stay. -/
theorem Sound.filter_remove (sound : s.Sound) {o : Object} (own : o.key = key)
    (key' : ObjectKey) :
    (s.objects.filter fun p => !key.owns p).filter key'.owns =
      (latest key' (.deleted o :: s.past)).toList := by
  have owned : key.owns o = true := ObjectKey.owns_iff.mpr own
  have swapped : (s.objects.filter fun p => !key.owns p).filter key'.owns =
      (s.objects.filter key'.owns).filter fun p => !key.owns p := by
    simp only [List.filter_filter, Bool.and_comm]
  rw [swapped, sound.objects key']
  by_cases eq : key = key'
  · subst eq
    rw [latest_own owned]
    cases left : latest key s.past with
    | none => rfl
    | some p => simp [ObjectKey.owns_iff.mpr (key_of_latest left), Change.after]
  · rw [latest_foreign (owns_eq_false owned eq)]
    cases left : latest key' s.past with
    | none => rfl
    | some p =>
      have here : key.owns p = false :=
        owns_eq_false (ObjectKey.owns_iff.mpr (key_of_latest left)) (Ne.symm eq)
      simp [here]

theorem Sound.apply (sound : s.Sound) (key : ObjectKey) (data : String) :
    (s.apply key data).2.Sound := by
  unfold Store.apply
  simp only
  split
  · rename_i last stored
    exact sound.publish rfl (sound.filter_replace rfl stored)
  · rename_i absent
    exact sound.publish rfl (sound.filter_append rfl absent)

theorem Sound.delete (sound : s.Sound) (key : ObjectKey) : (s.delete key).2.Sound := by
  unfold Store.delete
  split
  · exact sound
  · rename_i last stored
    have own : last.key = key := key_of_latest (sound.get? key ▸ stored)
    exact sound.publish rfl (sound.filter_remove own)

/-! ## Other operations -/

theorem Sound.disconnect (sound : s.Sound) : s.disconnect.Sound :=
  sound.mapConnections (fun _ => rfl) sound.pending

theorem Sound.compact (sound : s.Sound) : s.compact.Sound := by
  have nothing : [] = (numbered s.past).drop s.revision := by
    rw [sound.revision, List.drop_of_length_le (Nat.le_of_eq (length_numbered _))]
  have emptied : Store.Sound { s with compacted := s.revision, history := [] } :=
    { sound with history := nothing, compacted := Nat.le_of_eq sound.revision }
  refine emptied.mapConnections (id_expire · _) fun c mem e waits => ?_
  unfold Connection.expire at waits
  split at waits
  · rcases pending_send waits with before | new
    · exact sound.pending c mem e before
    · cases new
  · exact sound.pending c mem e waits

theorem Sound.list (sound : s.Sound) (sel : Selector) : (s.list sel).2.Sound := by
  unfold Store.list
  simp only
  split
  · exact { sound with }
  · exact { sound with }

theorem Sound.watcherCount (sound : s.Sound) : s.watcherCount.2.Sound := by
  refine sound.mapConnections (fun c => ?_) fun c mem e waits => ?_
  · split <;> rfl
  · split at waits
    · exact sound.pending c mem e waits
    · exact sound.pending c mem e waits

theorem Sound.watch (sound : s.Sound) (sel : Selector) (version : String) :
    (s.watch sel version).2.Sound := by
  unfold Store.watch
  simp only
  split
  · exact { sound with }
  · split
    · exact { sound with }
    · split
      · exact { sound with }
      · rename_i revision _ _
        refine { sound with pending := fun c mem e waits => ?_, ids := fun c mem => ?_ }
        · rcases List.mem_append.mp mem with old | new
          · exact sound.pending c old e waits
          · obtain rfl := List.mem_singleton.mp new
            obtain ⟨e', logged, same⟩ := List.mem_map.mp waits
            cases same
            obtain ⟨x, mem', rfl⟩ := List.mem_map.mp logged
            have numbered : x ∈ s.history := (List.mem_filter.mp mem').1
            rw [sound.history] at numbered
            exact mem_of_mem_numbered (List.mem_of_mem_drop numbered)
        · rcases List.mem_append.mp mem with old | new
          · exact Nat.lt_succ_of_lt (sound.ids c old)
          · obtain rfl := List.mem_singleton.mp new
            exact Nat.lt_succ_self _

theorem Sound.updateConnection (sound : s.Sound) {id : Nat} {f : Connection → Connection}
    (same : ∀ c, c.id = id → (f c).id = id)
    (pending : ∀ c ∈ s.connections, ∀ e : Change, .ok e ∈ (f c).pending → e ∈ s.past) :
    (s.updateConnection id f).Sound := by
  refine sound.mapConnections (fun c => ?_) fun c mem e waits => ?_
  · split
    · rename_i here
      rw [same c here, here]
    · rfl
  · split at waits
    · exact pending c mem e waits
    · exact sound.pending c mem e waits

theorem Sound.read (sound : s.Sound) (id : Nat) : (s.read id).2.Sound := by
  unfold Store.read
  split
  · exact sound
  · rename_i c found
    obtain ⟨mem, here⟩ := connection?_mem found
    exact sound.updateConnection (fun _ _ => (id_read c).trans here) fun _ _ e waits =>
      sound.pending c mem e (pending_read waits)

theorem Sound.release (sound : s.Sound) (id : Nat) : (s.release id).Sound :=
  sound.updateConnection (fun _ here => here) fun _ _ _ waits => nomatch waits

theorem Sound.run (sound : s.Sound) (op : Op) : (op.run s).Sound := by
  cases op with
  | apply key data => exact sound.apply key data
  | delete key => exact sound.delete key
  | disconnect => exact sound.disconnect
  | compact => exact sound.compact
  | failLists n => exact { sound with }
  | failWatches n => exact { sound with }
  | list selector => exact sound.list selector
  | count => exact sound.watcherCount

theorem sound_withHistoryLimit (limit : Nat) : (withHistoryLimit limit).Sound where
  revision := rfl
  versions suffix := nomatch List.suffix_nil.mp suffix
  objects _ := rfl
  history := rfl
  compacted := Nat.le_refl 0
  pending _ mem := nomatch mem
  ids _ mem := nomatch mem

end Store

end SharedWatch
