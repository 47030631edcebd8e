import Mathlib.Data.List.Nodup
import Mathlib.Logic.Function.Basic
import SharedWatch.Proofs.WatchYields

/-!
# What the parts of a store say of each other

A store keeps its objects, its revision, its change log and the point up to which the log has been
forgotten side by side, and every operation changes some of them.  They never come apart: each can
be checked against the changes that there have been.

* `replay`: the objects that changes make, one after the other, of none at all.
* `Store.Call.Records`: what a call comes to for the log; `Call.records` is the case for every call.
* `Store.Orderly`: what a call preserves beside `Store.Sound`.
* `Store.Coherent`: what the parts of a store say of each other, and `coherent_runAll`: they do so
  in any use.
-/

namespace SharedWatch

/-- Objects by their keys, after a change of one of them. -/
def Change.enter (e : Change) (held : ObjectKey → Option Object) : ObjectKey → Option Object :=
  Function.update held e.object.key e.after

/-- The objects that changes make of none at all; the latest change comes first. -/
def replay (past : List Change) : ObjectKey → Option Object :=
  past.foldr Change.enter fun _ => none

/-- A change is of the kind that there was to announce, if `before` is what it found of its key: an
object is added where there was none, and one that there was is replaced or removed. -/
def Change.Suits (e : Change) (before : Option Object) : Prop := e = .added e.object ↔ before = none

/-- What is left of a key is what the last change of the key has left. -/
theorem replay_eq_latest (past : List Change) (key : ObjectKey) :
    replay past key = latest key past := by
  induction past with
  | nil => rfl
  | cons e past ih =>
    show e.enter (replay past) key = latest key (e :: past)
    unfold Change.enter
    cases own : key.owns e.object with
    | true => rw [latest_own own, ObjectKey.owns_iff.mp own, Function.update_self]
    | false =>
      have other : key ≠ e.object.key := fun same => by
        rw [ObjectKey.owns_iff.mpr same.symm] at own
        cases own
      rw [latest_foreign own, Function.update_of_ne other, ih]

section Numbers

variable {past : List Change} {r : Nat} {e : Change}

/-- The numbers of a past are those from one on. -/
theorem map_fst_numbered (past : List Change) :
    (numbered past).map (·.1) = List.range' 1 past.length := by
  induction past with
  | nil => rfl
  | cons e past ih =>
    rw [numbered, List.map_append, ih, List.length_cons, List.range'_concat, Nat.one_mul,
      Nat.add_comm 1]
    rfl

/-- A change is found under its number. -/
theorem mem_numbered_iff : (r, e) ∈ numbered past ↔
    ∃ later earlier, past = later ++ e :: earlier ∧ r = earlier.length + 1 := by
  induction past with
  | nil => simp [numbered]
  | cons e' past ih =>
    rw [numbered, List.mem_append, ih, List.mem_singleton]
    constructor
    · rintro (⟨later, earlier, rfl, rfl⟩ | same)
      · exact ⟨e' :: later, earlier, rfl, rfl⟩
      · cases same
        exact ⟨[], past, rfl, rfl⟩
    · rintro ⟨later, earlier, split, rfl⟩
      rcases List.cons_eq_append_iff.mp split with ⟨rfl, same⟩ | ⟨later', rfl, rfl⟩
      · cases same
        exact .inr rfl
      · exact .inl ⟨later', earlier, rfl, rfl⟩

/-- No two changes have one number. -/
theorem eq_of_mem_numbered {e' : Change} (mem : (r, e) ∈ numbered past)
    (mem' : (r, e') ∈ numbered past) : e = e' := by
  obtain ⟨i, place⟩ := List.mem_iff_getElem?.mp mem
  obtain ⟨j, place'⟩ := List.mem_iff_getElem?.mp mem'
  have here : r = i + 1 := number_eq place
  have there : r = j + 1 := number_eq place'
  obtain rfl : i = j := by omega
  rw [place] at place'
  exact congrArg Prod.snd (Option.some.inj place')

end Numbers

namespace Store

variable {s s' : Store} {limit : Nat}

/-! ## What a call comes to for the log -/

/-- What a call comes to for the change log. -/
inductive Call.Records (s s' : Store) : Prop
  /-- A change is published, of the kind that its key calls for. -/
  | published (e : Change) : e.Suits (s.get? e.object.key) → s'.past = e :: s.past →
    s'.history.length ≤ s.historyLimit → s'.historyLimit = s.historyLimit → Call.Records s s'
  /-- The log is emptied. -/
  | emptied : s'.past = s.past → s'.history = [] → s'.historyLimit = s.historyLimit →
    Call.Records s s'
  /-- Nothing. -/
  | unrecorded : s'.past = s.past → s'.history = s.history → s'.historyLimit = s.historyLimit →
    Call.Records s s'

theorem length_history_trim (s : Store) : s.trim.history.length ≤ s.historyLimit := by
  show (s.history.drop (s.history.length - s.historyLimit)).length ≤ s.historyLimit
  rw [List.length_drop]
  omega

theorem length_history_publish (s : Store) (e : Change) :
    (s.publish e).history.length ≤ s.historyLimit :=
  length_history_trim _

theorem records_apply (s : Store) (key : ObjectKey) (data : String) :
    Call.Records s (s.apply key data).2 := by
  unfold Store.apply
  simp only
  split
  · rename_i last stored
    refine .published (.modified ⟨key, toString (s.revision + 1), data⟩) ?_ rfl
      (length_history_publish _ _) rfl
    have stored : s.get? key = some last := stored
    simp [Change.Suits, Change.object, stored]
  · rename_i absent
    refine .published (.added ⟨key, toString (s.revision + 1), data⟩) ?_ rfl
      (length_history_publish _ _) rfl
    have absent : s.get? key = none := absent
    simp [Change.Suits, Change.object, absent]

theorem records_delete (s : Store) (key : ObjectKey) : Call.Records s (s.delete key).2 := by
  unfold Store.delete
  split
  · exact .unrecorded rfl rfl rfl
  · rename_i last stored
    refine .published (.deleted { last with version := toString (s.revision + 1) }) ?_ rfl
      (length_history_publish _ _) rfl
    have here : last.key = key := ObjectKey.owns_iff.mp (List.find?_some stored)
    simp [Change.Suits, Change.object, here, stored]

theorem records_watch (s : Store) (sel : Selector) (version : String) :
    Call.Records s (s.watch sel version).2 := by
  unfold Store.watch
  simp only
  split
  · exact .unrecorded rfl rfl rfl
  · split
    · exact .unrecorded rfl rfl rfl
    · split <;> exact .unrecorded rfl rfl rfl

theorem Call.records (c : Call) (s : Store) : Call.Records s (c.run s) := by
  cases c with
  | op o =>
    cases o with
    | apply key data => exact records_apply s key data
    | delete key => exact records_delete s key
    | compact => exact .emptied rfl rfl rfl
    | list sel =>
      show Call.Records s (s.list sel).2
      unfold Store.list
      simp only
      split <;> exact .unrecorded rfl rfl rfl
    | disconnect | failLists | failWatches | count => exact .unrecorded rfl rfl rfl
  | watch sel version => exact records_watch s sel version
  | read id =>
    show Call.Records s (s.read id).2
    unfold Store.read
    split <;> exact .unrecorded rfl rfl rfl
  | release id => exact .unrecorded rfl rfl rfl

/-! ## What a call preserves -/

/-- The log is no longer than it may be, and every change there has been was of the kind that its
key called for. -/
structure Orderly (s : Store) (limit : Nat) : Prop where
  keeps : s.historyLimit = limit
  bounded : s.history.length ≤ limit
  suits : ∀ {later earlier : List Change} {e : Change}, s.past = later ++ e :: earlier →
    e.Suits (latest e.object.key earlier)

theorem Orderly.step (orderly : s.Orderly limit) (sound : s.Sound) (c : Call) :
    (c.run s).Orderly limit := by
  cases c.records s with
  | published e suits past bounded same =>
    refine ⟨same.trans orderly.keeps, orderly.keeps ▸ bounded, fun split => ?_⟩
    rw [past] at split
    rcases List.cons_eq_append_iff.mp split with ⟨-, here⟩ | ⟨later, -, before⟩
    · cases here
      exact sound.get? _ ▸ suits
    · exact orderly.suits before
  | emptied past empty same =>
    exact ⟨same.trans orderly.keeps, by simp [empty], fun split => orderly.suits (past ▸ split)⟩
  | unrecorded past log same =>
    exact ⟨same.trans orderly.keeps, log ▸ orderly.bounded,
      fun split => orderly.suits (past ▸ split)⟩

theorem orderly_withHistoryLimit (limit : Nat) :
    (withHistoryLimit limit).Orderly (max limit 1) where
  keeps := rfl
  bounded := Nat.zero_le _
  suits split := by simp [withHistoryLimit] at split

theorem orderly_runAll (limit : Nat) (calls : List Call) :
    ((withHistoryLimit limit).runAll calls).Orderly (max limit 1) := by
  suffices kept : ∀ s : Store, s.Sound → s.Orderly (max limit 1) →
      (s.runAll calls).Orderly (max limit 1) from
    kept _ (sound_withHistoryLimit limit) (orderly_withHistoryLimit limit)
  induction calls with
  | nil => exact fun _ _ orderly => orderly
  | cons c calls ih =>
    exact fun s sound orderly => ih _ ((grows_call s c).sound sound) (orderly.step sound c)

/-! ## Objects and their versions -/

theorem Sound.mem_objects_iff (sound : s.Sound) {o : Object} :
    o ∈ s.objects ↔ latest o.key s.past = some o := by
  have own : o.key.owns o = true := ObjectKey.owns_iff.mpr rfl
  rw [← Option.mem_toList, ← sound.objects, List.mem_filter]
  exact ⟨fun mem => ⟨mem, own⟩, fun found => found.1⟩

/-- An object is stored under its own key, and nothing else is. -/
theorem Sound.get?_eq_some (sound : s.Sound) {key : ObjectKey} {o : Object} :
    s.get? key = some o ↔ o ∈ s.objects ∧ o.key = key := by
  rw [sound.get?, sound.mem_objects_iff]
  constructor
  · intro left
    obtain rfl := key_of_latest left
    exact ⟨left, rfl⟩
  · rintro ⟨left, rfl⟩
    exact left

/-- No key has two objects. -/
theorem Sound.nodup_keys (sound : s.Sound) : (s.objects.map (·.key)).Nodup := by
  refine List.nodup_iff_count_le_one.mpr fun key => ?_
  have few : (s.objects.filter key.owns).length ≤ 1 := by
    rw [sound.objects]
    cases latest key s.past <;> simp
  rw [← List.countP_eq_length_filter] at few
  rw [List.count, List.countP_map]
  refine Nat.le_trans (List.countP_mono_left fun o _ same => ?_) few
  exact ObjectKey.owns_iff.mpr (by simpa using same)

/-- An object has the revision of the last change of its key for its version. -/
theorem Sound.last_change (sound : s.Sound) {o : Object} (stored : o ∈ s.objects) :
    ∃ r e, (r, e) ∈ numbered s.past ∧ e.after = some o ∧ o.version = toString r ∧
      ∀ x ∈ numbered s.past, x.2.object.key = o.key → x.1 ≤ r := by
  obtain ⟨later, e, earlier, split, foreign, own, after⟩ :=
    latest_eq_some (sound.mem_objects_iff.mp stored)
  have version := sound.versions ⟨later, split.symm⟩
  rw [object_of_after after] at version
  refine ⟨earlier.length + 1, e, mem_numbered_iff.mpr ⟨later, earlier, split, rfl⟩, after, version,
    fun x mem same => ?_⟩
  -- The changes with greater numbers are those of other keys.
  obtain ⟨rest, eq, changes, -⟩ := numbered_append later (e :: earlier)
  rw [split, eq, List.mem_append] at mem
  rcases mem with before | after
  · exact number_le before
  · have new : x.2 ∈ later := by
      rw [← List.mem_reverse, ← changes]
      exact List.mem_map_of_mem after
    have none := List.filter_eq_nil_iff.mp foreign x.2 new
    exact absurd (ObjectKey.owns_iff.mpr same) none

/-- No two objects have one version. -/
theorem Sound.nodup_versions (sound : s.Sound) : (s.objects.map (·.version)).Nodup := by
  refine List.Nodup.map_on (fun o mem o' mem' same => ?_) (sound.nodup_keys.of_map _)
  obtain ⟨r, e, change, after, version, -⟩ := sound.last_change mem
  obtain ⟨r', e', change', after', version', -⟩ := sound.last_change mem'
  obtain rfl : r = r' := Text.toString_inj (version.symm.trans (same.trans version'))
  obtain rfl := eq_of_mem_numbered change change'
  exact Option.some.inj (after.symm.trans after')

/-! ## The parts of a store -/

/-- What the parts of a store whose log keeps `limit` entries say of each other. -/
structure Coherent (s : Store) (limit : Nat) : Prop where
  /-- The log has the revisions behind the last one that it has forgotten, in order. -/
  revisions : s.history.map (·.1) = List.range' (s.compacted + 1) (s.revision - s.compacted)
  forgotten : s.compacted ≤ s.revision
  bounded : s.history.length ≤ max limit 1
  /-- Its entries are the last of all changes. -/
  entries : s.history <:+ numbered s.past
  /-- The revision counts the changes. -/
  revision : s.revision = s.past.length
  /-- An object is found under its own key, and nothing else is. -/
  keyed : ∀ key o, s.get? key = some o ↔ o ∈ s.objects ∧ o.key = key
  /-- No key has two objects. -/
  single : (s.objects.map (·.key)).Nodup
  /-- The version of an object is the revision of the last change of its key. -/
  stamped : ∀ o ∈ s.objects, ∃ r e, (r, e) ∈ numbered s.past ∧ e.after = some o ∧
    o.version = toString r ∧ ∀ x ∈ numbered s.past, x.2.object.key = o.key → x.1 ≤ r
  distinct : (s.objects.map (·.version)).Nodup
  /-- A change adds exactly where the changes before it have left nothing. -/
  kinds : ∀ later e earlier, s.past = later ++ e :: earlier →
    (e = .added e.object ↔ replay earlier e.object.key = none)
  /-- The objects are those that all changes make. -/
  replayed : s.get? = replay s.past

/-- **The parts of a store agree**, whatever the store has been asked for, and removing what is not
there changes none of them. -/
theorem coherent_runAll (limit : Nat) (calls : List Call) :
    let s := (withHistoryLimit limit).runAll calls
    s.Coherent limit ∧ ∀ key, s.get? key = none → s.delete key = (none, s) := by
  intro s
  have sound : s.Sound := sound_runAll limit calls
  have orderly : s.Orderly (max limit 1) := orderly_runAll limit calls
  refine ⟨?_, fun key absent => ?_⟩
  · exact {
      revisions := by
        rw [sound.history, List.map_drop, map_fst_numbered, List.drop_range', sound.revision]
        simp [Nat.add_comm]
      forgotten := sound.revision ▸ sound.compacted
      bounded := orderly.bounded
      entries := sound.history ▸ List.drop_suffix _ _
      revision := sound.revision
      keyed := fun _ _ => sound.get?_eq_some
      single := sound.nodup_keys
      stamped := fun _ => sound.last_change
      distinct := sound.nodup_versions
      kinds := fun _ _ _ split => replay_eq_latest _ _ ▸ orderly.suits split
      replayed := funext fun key => (sound.get? key).trans (replay_eq_latest _ _).symm }
  · unfold Store.delete
    rw [absent]

end Store

end SharedWatch
