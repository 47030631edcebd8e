import SharedWatch.Proofs.SharingSteps

/-!
# Entries and faces

What is found under a key at a multiplexer, and what a multiplexer sees of a stream, once something
has been done.

* `Hub.monitor?`: the entry of a key; `monitor?_put`, `monitor?_remove`: it is set and removed.
* `Hub.face?`: the face of a stream; `face?_haltStream`, `face?_createStream`: a stream is stopped
  and made.
-/

namespace SharedWatch

/-! ## Entries -/

theorem lookup_filter_ne {α : Type} (k k' : ObjectKey) (l : List (ObjectKey × α)) :
    (l.filter fun e => e.1 != k).lookup k' = if k' = k then none else l.lookup k' := by
  induction l with
  | nil => simp
  | cons e l ih =>
    obtain ⟨k₀, a⟩ := e
    by_cases same : k₀ = k
    · subst same
      rw [List.filter_cons_of_neg (by simp), ih]
      split
      · rfl
      · rename_i other
        rw [List.lookup_cons, show (k' == k₀) = false by simpa using other]
    · rw [List.filter_cons_of_pos (by simpa using same), List.lookup_cons, List.lookup_cons, ih]
      cases here : k' == k₀ with
      | true =>
        have : k' = k₀ := by simpa using here
        simp [this, same]
      | false => rfl

namespace Multiplexer

theorem monitor?_remove (mux : Multiplexer) (k k' : ObjectKey) :
    (mux.remove k).monitor? k' = if k' = k then none else mux.monitor? k' :=
  lookup_filter_ne k k' mux.monitors

theorem monitor?_put (mux : Multiplexer) (k k' : ObjectKey) (e : Monitor) :
    (mux.put k e).monitor? k' = if k' = k then some e else mux.monitor? k' := by
  have removed := monitor?_remove mux k k'
  unfold monitor? at removed ⊢
  unfold put
  simp only
  rw [List.lookup_append, removed]
  split
  · rename_i same
    simp [same]
  · rename_i other
    rw [List.lookup_cons, show (k' == k) = false by simpa using other]
    simp

/-- There is at most one entry for each key. -/
def Distinct (mux : Multiplexer) : Prop := (mux.monitors.map (·.1)).Nodup

theorem Distinct.remove {mux : Multiplexer} (distinct : mux.Distinct) (k : ObjectKey) :
    (mux.remove k).Distinct :=
  List.Nodup.sublist (List.Sublist.map _ List.filter_sublist) distinct

theorem Distinct.put {mux : Multiplexer} (distinct : mux.Distinct) (k : ObjectKey) (e : Monitor) :
    (mux.put k e).Distinct := by
  have rest := distinct.remove k
  unfold Distinct Multiplexer.put at *
  simp only [List.map_append, List.map_cons, List.map_nil]
  rw [List.nodup_append]
  refine ⟨rest, by simp, ?_⟩
  intro a mem b only
  rw [List.mem_singleton] at only
  subst only
  obtain ⟨entry, kept, rfl⟩ := List.mem_map.mp mem
  simpa using (List.mem_filter.mp kept).2

theorem Distinct.mem_iff {mux : Multiplexer} (distinct : mux.Distinct) {k : ObjectKey}
    {e : Monitor} : (k, e) ∈ mux.monitors ↔ mux.monitor? k = some e := by
  unfold Distinct at distinct
  unfold monitor?
  generalize mux.monitors = entries at distinct
  induction entries with
  | nil => simp
  | cons entry entries ih =>
    obtain ⟨k₀, e₀⟩ := entry
    simp only [List.map_cons, List.nodup_cons] at distinct
    rw [List.lookup_cons, List.mem_cons]
    by_cases same : k = k₀
    · subst same
      have absent : (k, e) ∉ entries := fun mem =>
        distinct.1 (List.mem_map_of_mem mem)
      simp [absent, eq_comm]
    · rw [show (k == k₀) = false by simpa using same]
      simp [same, ih distinct.2]

end Multiplexer

/-- What a multiplexer sees of a stream that is stopped. -/
def Face.halt (f : Face) : Face :=
  if f.isStopped then f else { f with handlers := [], isStopped := true }

@[simp] theorem Face.key_halt (f : Face) : f.halt.key = f.key := by
  unfold Face.halt
  split <;> rfl

@[simp] theorem Face.issuer_halt (f : Face) : f.halt.issuer = f.issuer := by
  unfold Face.halt
  split <;> rfl

@[simp] theorem Face.isStopped_halt (f : Face) : f.halt.isStopped = true := by
  unfold Face.halt
  split
  · assumption
  · rfl

theorem Face.handlers_halt (f : Face) : f.halt.handlers.Sublist f.handlers := by
  unfold Face.halt
  split
  · exact .refl _
  · exact List.nil_sublist _

theorem Stream.face_halt (st : Stream) : st.halt.face = st.face.halt := by
  unfold Stream.halt Face.halt
  cases stopped : st.isStopped with
  | true => simp [face, stopped]
  | false =>
    simp only [face, stopped, Bool.false_eq_true, if_false]
    rfl

namespace Hub

/-- The entry of a key at the multiplexer of a number. -/
def monitor? (h : Hub) (m : Nat) (key : ObjectKey) : Option Monitor :=
  (h.multiplexers[m]?).bind (·.monitor? key)

theorem monitor?_eq {h : Hub} {m : Nat} {mux : Multiplexer} {key : ObjectKey}
    (known : h.multiplexers[m]? = some mux) : h.monitor? m key = mux.monitor? key := by
  unfold monitor?
  rw [known]
  rfl

/-- The entry of a key whose stream is number `n` is found by whoever looks for one with that stream. -/
theorem entry_with_stream {h : Hub} {m n : Nat} {key : ObjectKey} {e : Monitor}
    (found : h.monitor? m key = some e) (own : e.stream = n) :
    ∃ mux, h.multiplexers[m]? = some mux ∧ mux.monitor? key = some e ∧
      (mux.monitor? key).filter (·.stream = n) = some e := by
  obtain ⟨mux, known, entry⟩ := Option.bind_eq_some_iff.mp found
  refine ⟨mux, known, entry, ?_⟩
  rw [entry, Option.filter_some, if_pos (by simpa using own)]

theorem monitor?_put {h : Hub} {m : Nat} {mux : Multiplexer} (known : h.multiplexers[m]? = some mux)
    (key : ObjectKey) (e : Monitor) (m' : Nat) (key' : ObjectKey) :
    (h.updateMultiplexer m (·.put key e)).monitor? m' key' =
      if m' = m ∧ key' = key then some e else h.monitor? m' key' := by
  unfold monitor? updateMultiplexer
  simp only
  rw [List.getElem?_modify]
  by_cases same : m = m'
  · subst same
    rw [known]
    simp only [if_true, Option.map_eq_map, Option.map_some, Option.bind_some, true_and]
    exact Multiplexer.monitor?_put mux key key' e
  · have other : m' ≠ m := fun eq => same eq.symm
    simp [same, other]

theorem monitor?_remove {h : Hub} {m : Nat} (key : ObjectKey) (m' : Nat) (key' : ObjectKey) :
    (h.updateMultiplexer m (·.remove key)).monitor? m' key' =
      if m' = m ∧ key' = key then none else h.monitor? m' key' := by
  unfold monitor? updateMultiplexer
  simp only
  rw [List.getElem?_modify]
  by_cases same : m = m'
  · subst same
    cases h.multiplexers[m]? with
    | none => simp
    | some mux =>
      simp only [if_true, Option.map_eq_map, Option.map_some, Option.bind_some, true_and]
      exact Multiplexer.monitor?_remove mux key key'
  · have other : m' ≠ m := fun eq => same eq.symm
    simp [same, other]

/-! ## Faces -/

/-- What a multiplexer sees of the stream of a number. -/
def face? (h : Hub) (n : Nat) : Option Face := (h.streams[n]?).map Stream.face

theorem face?_eq_some {h : Hub} {n : Nat} {f : Face} :
    h.face? n = some f ↔ ∃ st, h.streams[n]? = some st ∧ st.face = f := by
  unfold face?
  rw [Option.map_eq_some_iff]

theorem Apart.face? {h h' : Hub} (apart : h.Apart h') (n : Nat) : h'.face? n = h.face? n := by
  exact Apart.faces_eq apart n

theorem Apart.monitor? {h h' : Hub} (apart : h.Apart h') (m : Nat) (key : ObjectKey) :
    h'.monitor? m key = h.monitor? m key := by
  unfold Hub.monitor?
  rw [apart.multiplexers]

theorem face?_haltStream (h : Hub) (n i : Nat) :
    (h.haltStream n).2.face? i = if n = i then (h.face? i).map Face.halt else h.face? i := by
  have changed : (h.updateStream n (·.halt)).face? i =
      if n = i then (h.face? i).map Face.halt else h.face? i := by
    unfold face?
    rw [streams_updateStream]
    split
    · rw [Option.map_map, Option.map_map]
      congr 1
      funext st
      exact st.face_halt
    · rfl
  unfold haltStream
  split
  · rename_i none
    split
    · rename_i same
      subst same
      simp [face?, none]
    · rfl
  · rename_i st found
    split
    · rename_i stopped
      split
      · rename_i same
        subst same
        simp [face?, found, Stream.face, Face.halt, stopped]
      · rfl
    · simp only
      split
      · exact changed
      · exact changed

theorem face?_createStream (h : Hub) (key : ObjectKey) (policy : RetryPolicy)
    (issuer : Option Nat) (i : Nat) : (h.createStream key policy issuer).2.face? i =
      if i = h.streams.length then some ⟨key, issuer, [], false⟩ else h.face? i := by
  unfold createStream face?
  simp only
  split
  · rename_i last
    rw [last, List.getElem?_append_right (Nat.le_refl _)]
    simp [Stream.face, Stream.isStopped]
  · rename_i other
    rcases Nat.lt_or_gt_of_ne other with old | new
    · rw [List.getElem?_append_left old]
    · rw [List.getElem?_append_right (Nat.le_of_lt new),
        List.getElem?_eq_none (Nat.le_of_lt new), List.getElem?_eq_none]
      simp only [List.length_cons, List.length_nil]
      omega

theorem face?_length (h : Hub) : h.face? h.streams.length = none := by
  simp [face?]

end Hub

end SharedWatch
