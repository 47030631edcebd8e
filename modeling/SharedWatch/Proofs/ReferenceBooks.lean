import SharedWatch.Proofs.EntryLookups

/-!
# The books of the multiplexers

A multiplexer counts the references to the stream of a key.  A reference is held by a handler of the
stream, by a subscriber that waits for it, or is in somebody's hand, on its way from one to the
other.

* `Hub.Indexed`: every running stream of a multiplexer is the current one of its key, and every
  entry of a multiplexer leads to a stream of that key and multiplexer.
* `Hub.Books hand`: moreover, the references of a running stream are counted.  What was done past
  the multiplexer is not: then there may be more references than holders.
* `Books.halt`, `Books.create` and the other theorems of this form: what keeps the books.
-/

namespace SharedWatch

namespace Hub

/-! ## The books -/

/-- How many subscribers wait for the stream of a number. -/
def waiters (h : Hub) (n : Nat) : Nat := h.calls.countP fun c => c.waitsOn? = some n

/-- How many references to the stream of number `n` are in somebody's hand. -/
def inHand (hand : Option Nat) (n : Nat) : Nat := if hand = some n then 1 else 0

/-- Entries and streams agree with each other, and so do the calls that wait. -/
structure Indexed (h : Hub) : Prop where
  ids : (h.calls.map (·.id)).Nodup
  distinct : ∀ {m : Nat} {mux}, h.multiplexers[m]? = some mux → mux.Distinct
  counted : ∀ {m key e}, h.monitor? m key = some e → 1 ≤ e.refcount
  entry : ∀ {m key e}, h.monitor? m key = some e →
    ∃ f, h.face? e.stream = some f ∧ f.key = key ∧ f.issuer = some m
  current : ∀ {n f m}, h.face? n = some f → f.issuer = some m → f.isStopped = false →
    ∃ e, h.monitor? m f.key = some e ∧ e.stream = n
  waiting : ∀ {c n}, c ∈ h.calls → c.waitsOn? = some n →
    ∃ f m, h.face? n = some f ∧ f.issuer = some m ∧ h.target? c.request = some (m, f.key)
  numbered : ∀ {n f}, h.face? n = some f →
    (f.handlers.map (·.1)).Nodup ∧ ∀ handler ∈ f.handlers, handler.1 ≤ h.attached

/-- The references of running streams are counted, those in somebody's hand among them. -/
structure Books (hand : Option Nat) (h : Hub) : Prop extends Indexed h where
  balanced : ∀ {m key e f}, .attached ∉ h.bypasses → h.monitor? m key = some e →
    h.face? e.stream = some f → f.isStopped = false →
    f.handlers.length + h.waiters e.stream + inHand hand e.stream ≤ e.refcount ∧
      (h.bypasses = [] →
        f.handlers.length + h.waiters e.stream + inHand hand e.stream = e.refcount)

variable {h h' : Hub} {hand : Option Nat} {n m : Nat} {key : ObjectKey} {e : Monitor}

/-- The stream of an entry is the stream of no other entry. -/
theorem Indexed.entry_unique (indexed : h.Indexed) {m' : Nat} {key' : ObjectKey} {e' : Monitor}
    (found : h.monitor? m key = some e) (found' : h.monitor? m' key' = some e')
    (same : e'.stream = e.stream) : m' = m ∧ key' = key := by
  obtain ⟨f, face, hkey, issuer⟩ := indexed.entry found
  obtain ⟨f', face', hkey', issuer'⟩ := indexed.entry found'
  rw [same, face] at face'
  cases face'
  rw [issuer] at issuer'
  exact ⟨Option.some.inj issuer'.symm, hkey'.symm.trans hkey⟩

theorem target?_mono (managed : h.managers.map (·.multiplexer) <+: h'.managers.map (·.multiplexer))
    {request : Request} {x : Nat × ObjectKey} (target : h.target? request = some x) :
    h'.target? request = some x := by
  cases request with
  | register g owner name token =>
    simp only [target?, Option.map_eq_some_iff] at target ⊢
    obtain ⟨manager, known, rfl⟩ := target
    have at_g : (h.managers.map (·.multiplexer))[g]? = some manager.multiplexer := by
      rw [List.getElem?_map, known]
      rfl
    obtain ⟨more, eq⟩ := managed
    have at_g' : (h'.managers.map (·.multiplexer))[g]? = some manager.multiplexer := by
      rw [← eq, List.getElem?_append_left (List.getElem?_eq_some_iff.mp at_g).1]
      exact at_g
    rw [List.getElem?_map, Option.map_eq_some_iff] at at_g'
    obtain ⟨manager', known', same⟩ := at_g'
    exact ⟨manager', known', by rw [same]⟩
  | _ => exact target

/-- What looks the same to multiplexers keeps the books. -/
theorem Books.apart (books : h.Books hand) (apart : h.Apart h') : h'.Books hand where
  ids := apart.calls ▸ books.ids
  distinct known := books.distinct (apart.multiplexers ▸ known)
  counted found := books.counted (apart.monitor? _ _ ▸ found)
  entry found := by
    rw [apart.monitor?] at found
    obtain ⟨f, face, rest⟩ := books.entry found
    exact ⟨f, (apart.face? _).trans face, rest⟩
  current face issuer running := by
    rw [apart.face?] at face
    obtain ⟨e, found, same⟩ := books.current face issuer running
    exact ⟨e, (apart.monitor? _ _).trans found, same⟩
  waiting mem waits := by
    rw [apart.calls] at mem
    obtain ⟨f, m, face, issuer, target⟩ := books.waiting mem waits
    exact ⟨f, m, (apart.face? _).trans face, issuer, target?_mono apart.managed target⟩
  numbered face := by
    rw [apart.attached]
    exact books.numbered (apart.face? _ ▸ face)
  balanced allowed found face running := by
    rw [apart.monitor?] at found
    rw [apart.face?] at face
    have allowed' : .attached ∉ h.bypasses := fun mem => allowed (apart.bypasses.mem mem)
    obtain ⟨enough, exact⟩ := books.balanced allowed' found face running
    have waiters : h'.waiters = h.waiters := by
      unfold Hub.waiters
      rw [apart.calls]
    rw [waiters]
    refine ⟨enough, fun none => exact ?_⟩
    exact List.suffix_nil.mp (none ▸ apart.bypasses)

theorem multiplexers_haltStream (h : Hub) (n : Nat) :
    (h.haltStream n).2.multiplexers = h.multiplexers := by
  unfold haltStream
  split
  · rfl
  · simp only
    split
    · rfl
    · split <;> rfl

theorem monitor?_haltStream (h : Hub) (n m : Nat) (key : ObjectKey) :
    (h.haltStream n).2.monitor? m key = h.monitor? m key := by
  unfold monitor?
  rw [multiplexers_haltStream]

theorem rest_haltStream (h : Hub) (n : Nat) :
    (h.haltStream n).2.managers = h.managers ∧ (h.haltStream n).2.attached = h.attached ∧
      (h.haltStream n).2.bypasses = h.bypasses := by
  unfold haltStream
  split
  · exact ⟨rfl, rfl, rfl⟩
  · simp only
    split
    · exact ⟨rfl, rfl, rfl⟩
    · split <;> exact ⟨rfl, rfl, rfl⟩

/-- A face of a hub in which a stream has been stopped. -/
theorem face_of_halted {i : Nat} {f : Face} (face : (h.haltStream n).2.face? i = some f) :
    ∃ f₀, h.face? i = some f₀ ∧ f.key = f₀.key ∧ f.issuer = f₀.issuer ∧
      f.handlers.Sublist f₀.handlers ∧ (f.isStopped = false → f = f₀ ∧ n ≠ i) := by
  rw [face?_haltStream] at face
  split at face
  · obtain ⟨f₀, face₀, rfl⟩ := Option.map_eq_some_iff.mp face
    exact ⟨f₀, face₀, f₀.key_halt, f₀.issuer_halt, f₀.handlers_halt, by simp⟩
  · rename_i other
    exact ⟨f, face, rfl, rfl, .refl _, fun _ => ⟨rfl, other⟩⟩

/-- Nobody counts the references of a stopped stream. -/
theorem Books.halt (books : h.Books hand) (n : Nat) : (h.haltStream n).2.Books hand := by
  obtain ⟨managers, attached, bypasses⟩ := rest_haltStream h n
  have target (request : Request) : (h.haltStream n).2.target? request = h.target? request := by
    unfold target?
    rw [managers]
  refine ⟨⟨?_, ?_, ?_, ?_, ?_, ?_, ?_⟩, ?_⟩
  · rw [calls_haltStream]
    exact books.ids
  · intro m mux known
    rw [multiplexers_haltStream] at known
    exact books.distinct known
  · intro m key e found
    rw [monitor?_haltStream] at found
    exact books.counted found
  · intro m key e found
    rw [monitor?_haltStream] at found
    obtain ⟨f, face, rfl, issuer⟩ := books.entry found
    by_cases same : n = e.stream
    · exact ⟨f.halt, by rw [face?_haltStream, if_pos same, face]; rfl, f.key_halt,
        f.issuer_halt.trans issuer⟩
    · exact ⟨f, by rw [face?_haltStream, if_neg same, face], rfl, issuer⟩
  · intro i f m face issuer running
    obtain ⟨f₀, face₀, _, _, _, unchanged⟩ := face_of_halted face
    obtain ⟨rfl, _⟩ := unchanged running
    rw [monitor?_haltStream]
    exact books.current face₀ issuer running
  · intro c i mem waits
    rw [calls_haltStream] at mem
    obtain ⟨f, m, face, issuer, wanted⟩ := books.waiting mem waits
    by_cases same : n = i
    · exact ⟨f.halt, m, by rw [face?_haltStream, if_pos same, face]; rfl,
        f.issuer_halt.trans issuer, by rw [target, f.key_halt, wanted]⟩
    · exact ⟨f, m, by rw [face?_haltStream, if_neg same, face], issuer, by rw [target, wanted]⟩
  · intro i f face
    obtain ⟨f₀, face₀, _, _, fewer, _⟩ := face_of_halted face
    obtain ⟨nodup, bound⟩ := books.numbered face₀
    rw [attached]
    exact ⟨nodup.sublist (fewer.map _), fun handler mem => bound handler (fewer.subset mem)⟩
  · intro m key e f allowed found face running
    rw [bypasses] at allowed ⊢
    rw [monitor?_haltStream] at found
    obtain ⟨f₀, face₀, _, _, _, unchanged⟩ := face_of_halted face
    obtain ⟨rfl, _⟩ := unchanged running
    have waiters : (h.haltStream n).2.waiters = h.waiters := by
      unfold Hub.waiters
      rw [calls_haltStream]
    rw [waiters]
    exact books.balanced allowed found face₀ running

/-- A reference to a stream that no entry leads to, or that has been stopped, counts no more. -/
theorem Books.settle (books : h.Books hand)
    (idle : ∀ {m key e f}, h.monitor? m key = some e → hand = some e.stream →
      h.face? e.stream = some f → f.isStopped = true) (hand' : Option Nat)
    (idle' : ∀ {m key e f}, h.monitor? m key = some e → hand' = some e.stream →
      h.face? e.stream = some f → f.isStopped = true) : h.Books hand' := by
  refine { books with balanced := fun {m key e f} allowed found face running => ?_ }
  have counted := books.balanced allowed found face running
  have none_in {hand : Option Nat} (idle : hand = some e.stream → f.isStopped = true) :
      inHand hand e.stream = 0 := by
    unfold inHand
    rw [if_neg]
    intro here
    rw [idle here] at running
    cases running
  rw [none_in fun here => idle found here face] at counted
  rw [none_in fun here => idle' found here face]
  exact counted

/-- Once something has been done past a multiplexer, a reference may get lost. -/
theorem Books.lose (books : h.Books hand) (bypassed : h.bypasses ≠ []) : h.Books none := by
  refine { books with balanced := fun allowed found face running => ?_ }
  obtain ⟨enough, _⟩ := books.balanced allowed found face running
  refine ⟨?_, fun empty => absurd empty bypassed⟩
  show _ + 0 ≤ _
  omega

/-! ## Entries change -/

theorem Indexed.distinct_update (indexed : h.Indexed) {m m' : Nat} {f : Multiplexer → Multiplexer}
    (kept : ∀ mux, mux.Distinct → (f mux).Distinct) {mux : Multiplexer}
    (known : (h.updateMultiplexer m f).multiplexers[m']? = some mux) : mux.Distinct := by
  unfold updateMultiplexer at known
  simp only at known
  rw [List.getElem?_modify] at known
  cases before : h.multiplexers[m']? with
  | none =>
    rw [before] at known
    cases known
  | some mux₀ =>
    rw [before] at known
    have distinct := indexed.distinct before
    simp only [Option.map_eq_map, Option.map_some, Option.some.injEq] at known
    subst known
    split
    · exact kept mux₀ distinct
    · exact distinct

/-- References go from one hand to another by way of the entry of their key. -/
theorem Books.recount (books : h.Books hand) {mux : Multiplexer}
    (known : h.multiplexers[m]? = some mux) (found : h.monitor? m key = some e) {count : Nat}
    (positive : 1 ≤ count) {hand' : Option Nat}
    (moved : inHand hand' e.stream + e.refcount = inHand hand e.stream + count)
    (others : ∀ n, n ≠ e.stream → inHand hand' n = inHand hand n) :
    (h.updateMultiplexer m (·.put key { e with refcount := count })).Books hand' := by
  have put := monitor?_put known key { e with refcount := count }
  refine ⟨⟨books.ids, ?_, ?_, ?_, ?_, books.waiting, books.numbered⟩, ?_⟩
  · exact books.distinct_update fun mux distinct => distinct.put key _
  · intro m' key' e' found'
    rw [put] at found'
    split at found'
    · cases found'
      exact positive
    · exact books.counted found'
  · intro m' key' e' found'
    rw [put] at found'
    split at found'
    · rename_i here
      obtain ⟨rfl, rfl⟩ := here
      cases found'
      obtain ⟨f, face, rest⟩ := books.entry found
      exact ⟨f, face, rest⟩
    · exact books.entry found'
  · intro i f m' face issuer running
    obtain ⟨e', found', same⟩ := books.current face issuer running
    rw [put]
    split
    · rename_i here
      rw [here.1, here.2, found] at found'
      cases found'
      exact ⟨_, rfl, same⟩
    · exact ⟨e', found', same⟩
  · intro m' key' e' f allowed found' face running
    rw [put] at found'
    split at found'
    · cases found'
      obtain ⟨enough, exact⟩ := books.balanced allowed found face running
      refine ⟨?_, fun none => ?_⟩
      · show f.handlers.length + h.waiters e.stream + inHand hand' e.stream ≤ count
        omega
      · have exact := exact none
        show f.handlers.length + h.waiters e.stream + inHand hand' e.stream = count
        omega
    · rename_i other
      have away : e'.stream ≠ e.stream := fun same => other (books.entry_unique found found' same)
      rw [others _ away]
      exact books.balanced allowed found' face running

/-- The entry of a stopped stream goes. -/
theorem Books.remove (books : h.Books hand)
    (stopped : ∀ {e f}, h.monitor? m key = some e → h.face? e.stream = some f →
      f.isStopped = true) : (h.updateMultiplexer m (·.remove key)).Books hand := by
  have removed := @monitor?_remove h m key
  have kept {m' : Nat} {key' : ObjectKey} {e' : Monitor}
      (found : (h.updateMultiplexer m (·.remove key)).monitor? m' key' = some e') :
      h.monitor? m' key' = some e' := by
    rw [removed] at found
    split at found
    · cases found
    · exact found
  refine ⟨⟨books.ids, ?_, ?_, ?_, ?_, books.waiting, books.numbered⟩, ?_⟩
  · exact books.distinct_update fun mux distinct => distinct.remove key
  · exact fun found => books.counted (kept found)
  · exact fun found => books.entry (kept found)
  · intro i f m' face issuer running
    obtain ⟨e', found', same⟩ := books.current face issuer running
    rw [removed, if_neg]
    · exact ⟨e', found', same⟩
    · rintro ⟨rfl, here⟩
      rw [here] at found'
      rw [← same] at face
      rw [stopped found' face] at running
      cases running
  · exact fun allowed found => books.balanced allowed (kept found)

/-- A new stream becomes the current one of a key without a running stream; the first reference to
it is in somebody's hand. -/
theorem Books.create (books : h.Books none) {mux : Multiplexer}
    (known : h.multiplexers[m]? = some mux) (policy : RetryPolicy)
    (stopped : ∀ {e f}, h.monitor? m key = some e → h.face? e.stream = some f →
      f.isStopped = true) :
    ((h.createStream key policy (some m)).2.updateMultiplexer m
      (·.put key ⟨h.streams.length, 1⟩)).Books (some h.streams.length) := by
  have put := @monitor?_put (h.createStream key policy (some m)).2 m mux known key
    ⟨h.streams.length, 1⟩
  have created := face?_createStream h key policy (some m)
  have old {i : Nat} {f : Face} (face : h.face? i = some f) :
      (h.createStream key policy (some m)).2.face? i = some f := by
    rw [created, if_neg]
    · exact face
    · rintro rfl
      rw [face?_length] at face
      cases face
  refine ⟨⟨books.ids, ?_, ?_, ?_, ?_, ?_, ?_⟩, ?_⟩
  · intro m' mux' known'
    have kept (mux : Multiplexer) (distinct : mux.Distinct) :
        (mux.put key ⟨h.streams.length, 1⟩).Distinct := distinct.put key _
    exact books.distinct_update kept known'
  · intro m' key' e' found'
    rw [put] at found'
    split at found'
    · cases found'
      exact Nat.le_refl 1
    · exact books.counted found'
  · intro m' key' e' found'
    rw [put] at found'
    split at found'
    · rename_i here
      obtain ⟨rfl, rfl⟩ := here
      cases found'
      exact ⟨_, (created _).trans (if_pos rfl), rfl, rfl⟩
    · obtain ⟨f, face, rest⟩ := books.entry found'
      exact ⟨f, old face, rest⟩
  · intro i f m' face issuer running
    change (h.createStream key policy (some m)).2.face? i = some f at face
    rw [created] at face
    rw [put]
    split at face
    · rename_i last
      cases face
      cases issuer
      rw [if_pos ⟨rfl, rfl⟩]
      exact ⟨_, rfl, last.symm⟩
    · obtain ⟨e', found', same⟩ := books.current face issuer running
      rw [if_neg]
      · exact ⟨e', found', same⟩
      · rintro ⟨rfl, here⟩
        rw [here] at found'
        rw [← same] at face
        rw [stopped found' face] at running
        cases running
  · intro c i mem waits
    obtain ⟨f, m', face, rest⟩ := books.waiting mem waits
    exact ⟨f, m', old face, rest⟩
  · intro i f face
    change (h.createStream key policy (some m)).2.face? i = some f at face
    rw [created] at face
    split at face
    · cases face
      exact ⟨List.nodup_nil, by simp⟩
    · exact books.numbered face
  · intro m' key' e' f allowed found' face running
    change (h.createStream key policy (some m)).2.face? e'.stream = some f at face
    rw [created] at face
    rw [put] at found'
    have none_waits : h.waiters h.streams.length = 0 := by
      unfold waiters
      rw [List.countP_eq_zero]
      intro c mem waits
      obtain ⟨f, _, face, _⟩ := books.waiting mem (of_decide_eq_true waits)
      rw [face?_length] at face
      cases face
    split at found'
    · cases found'
      rw [if_pos rfl] at face
      cases face
      show 0 + h.waiters h.streams.length + inHand (some h.streams.length) h.streams.length ≤ 1 ∧
        (_ → 0 + h.waiters h.streams.length + inHand (some h.streams.length) h.streams.length = 1)
      simp [none_waits, inHand]
    · have away : e'.stream ≠ h.streams.length := by
        intro last
        obtain ⟨f, face, _⟩ := books.entry found'
        rw [last, face?_length] at face
        cases face
      rw [if_neg away] at face
      have none_here : inHand (some h.streams.length) e'.stream = 0 := by
        unfold inHand
        rw [if_neg]
        intro here
        exact away (Option.some.inj here).symm
      rw [none_here]
      exact books.balanced allowed found' face running

/-- A stream of its own is nothing to the books. -/
theorem Books.createOwn (books : h.Books hand) (key : ObjectKey) (policy : RetryPolicy) :
    (h.createStream key policy none).2.Books hand := by
  have created := face?_createStream h key policy none
  have old {i : Nat} {f : Face} (face : h.face? i = some f) :
      (h.createStream key policy none).2.face? i = some f := by
    rw [created, if_neg]
    · exact face
    · rintro rfl
      rw [face?_length] at face
      cases face
  have shared {i m' : Nat} {f : Face} (face : (h.createStream key policy none).2.face? i = some f)
      (issuer : f.issuer = some m') : h.face? i = some f := by
    rw [created] at face
    split at face
    · cases face
      cases issuer
    · exact face
  refine ⟨⟨books.ids, books.distinct, books.counted, ?_, ?_, ?_, ?_⟩, ?_⟩
  · intro m' key' e' found
    obtain ⟨f, face, rest⟩ := books.entry found
    exact ⟨f, old face, rest⟩
  · exact fun face issuer => books.current (shared face issuer) issuer
  · intro c i mem waits
    obtain ⟨f, m', face, rest⟩ := books.waiting mem waits
    exact ⟨f, m', old face, rest⟩
  · intro i f face
    rw [created] at face
    split at face
    · cases face
      exact ⟨List.nodup_nil, by simp⟩
    · exact books.numbered face
  · intro m' key' e' f allowed found face
    obtain ⟨f', face', _, issuer⟩ := books.entry found
    rw [old face'] at face
    cases face
    exact books.balanced allowed found face'

theorem monitor?_addMultiplexer (h : Hub) (settings : Settings) (root m : Nat) (key : ObjectKey) :
    Hub.monitor? { h with multiplexers := h.multiplexers ++ [{ settings, root }] } m key =
      h.monitor? m key := by
  unfold monitor?
  simp only
  rcases Nat.lt_trichotomy m h.multiplexers.length with old | rfl | new
  · rw [List.getElem?_append_left old]
  · rw [List.getElem?_append_right (Nat.le_refl _)]
    simp [Multiplexer.monitor?]
  · rw [List.getElem?_append_right (Nat.le_of_lt new), List.getElem?_eq_none (Nat.le_of_lt new),
      List.getElem?_eq_none]
    simp only [List.length_cons, List.length_nil]
    omega

theorem Books.addMultiplexer (books : h.Books hand) (settings : Settings) (root : Nat) :
    Hub.Books hand { h with multiplexers := h.multiplexers ++ [{ settings, root }] } := by
  have same := monitor?_addMultiplexer h settings root
  refine ⟨⟨books.ids, ?_, ?_, ?_, ?_, books.waiting, books.numbered⟩, ?_⟩
  · intro m mux known
    have mem := List.mem_of_getElem? known
    rcases List.mem_append.mp mem with old | new
    · obtain ⟨m', known'⟩ := List.mem_iff_getElem?.mp old
      exact books.distinct known'
    · rw [List.mem_singleton.mp new]
      exact List.nodup_nil
  · exact fun found => books.counted (same _ _ ▸ found)
  · exact fun found => books.entry (same _ _ ▸ found)
  · intro i f m face issuer running
    obtain ⟨e, found, here⟩ := books.current face issuer running
    exact ⟨e, (same _ _).trans found, here⟩
  · exact fun allowed found => books.balanced allowed (same _ _ ▸ found)

theorem monitor?_clear {h : Hub} {m : Nat} {f : Multiplexer → Multiplexer}
    (cleared : ∀ mux, (f mux).monitors = []) (m' : Nat) (key : ObjectKey) :
    (h.updateMultiplexer m f).monitor? m' key = if m' = m then none else h.monitor? m' key := by
  unfold monitor? updateMultiplexer
  simp only
  rw [List.getElem?_modify]
  by_cases same : m = m'
  · subst same
    cases h.multiplexers[m]? with
    | none => simp
    | some mux => simp [Multiplexer.monitor?, cleared mux]
  · have other : m' ≠ m := fun eq => same eq.symm
    simp [same, other]

/-- All entries of a multiplexer whose streams are stopped go. -/
theorem Books.clear (books : h.Books hand) {f : Multiplexer → Multiplexer}
    (cleared : ∀ mux, (f mux).monitors = [])
    (stopped : ∀ {key e f}, h.monitor? m key = some e → h.face? e.stream = some f →
      f.isStopped = true) : (h.updateMultiplexer m f).Books hand := by
  have gone := @monitor?_clear h m f cleared
  have kept {m' : Nat} {key' : ObjectKey} {e' : Monitor}
      (found : (h.updateMultiplexer m f).monitor? m' key' = some e') :
      h.monitor? m' key' = some e' := by
    rw [gone] at found
    split at found
    · cases found
    · exact found
  refine ⟨⟨books.ids, ?_, ?_, ?_, ?_, books.waiting, books.numbered⟩, ?_⟩
  · refine books.distinct_update fun mux _ => ?_
    unfold Multiplexer.Distinct
    rw [cleared mux]
    exact List.nodup_nil
  · exact fun found => books.counted (kept found)
  · exact fun found => books.entry (kept found)
  · intro i f m' face issuer running
    obtain ⟨e', found', same⟩ := books.current face issuer running
    rw [gone, if_neg]
    · exact ⟨e', found', same⟩
    · rintro rfl
      rw [← same] at face
      rw [stopped found' face] at running
      cases running
  · exact fun allowed found => books.balanced allowed (kept found)

/-! ## Calls change -/

/-- The call of a number in its place among the others. -/
theorem Indexed.split_calls (indexed : h.Indexed) {c : PendingCall}
    (found : h.call? c.id = some c) : ∃ before after, h.calls = before ++ c :: after ∧
      (h.dropCall c.id).calls = before ++ after ∧
      ∀ f, (h.updateCall c.id f).calls = before ++ f c :: after := by
  unfold call? at found
  rw [List.find?_eq_some_iff_append] at found
  obtain ⟨_, before, after, eq, earlier⟩ := found
  have ids := indexed.ids
  rw [eq, List.map_append, List.map_cons, List.nodup_append, List.nodup_cons] at ids
  have before_ne : ∀ b ∈ before, b.id ≠ c.id := fun b mem => by simpa using earlier b mem
  have after_ne : ∀ a ∈ after, a.id ≠ c.id := fun a mem same =>
    ids.2.1.1 (same ▸ List.mem_map_of_mem mem)
  refine ⟨before, after, eq, ?_, fun f => ?_⟩
  · unfold dropCall
    simp only [eq, List.filter_append]
    rw [List.filter_cons_of_neg (by simp), List.filter_eq_self.mpr, List.filter_eq_self.mpr]
    · exact fun a mem => by simpa using after_ne a mem
    · exact fun b mem => by simpa using before_ne b mem
  · unfold updateCall
    simp only [eq, List.map_append, List.map_cons, if_true]
    rw [List.map_congr_left fun b mem => if_neg (before_ne b mem), List.map_id',
      List.map_congr_left fun a mem => if_neg (after_ne a mem), List.map_id']

/-- Other calls, among which references have gone from one hand to another. -/
theorem Books.recall (books : h.Books hand) {calls : List PendingCall} {hand' : Option Nat}
    (ids : (calls.map (·.id)).Nodup)
    (waiting : ∀ {c n}, c ∈ calls → c.waitsOn? = some n →
      ∃ f m, h.face? n = some f ∧ f.issuer = some m ∧ h.target? c.request = some (m, f.key))
    (moved : ∀ n, (calls.countP fun c => c.waitsOn? = some n) + inHand hand' n =
      h.waiters n + inHand hand n) : Hub.Books hand' { h with calls } := by
  refine ⟨⟨ids, books.distinct, books.counted, books.entry, books.current, waiting,
    books.numbered⟩, ?_⟩
  intro m key e f allowed found face running
  have counted := books.balanced allowed found face running
  have moved := moved e.stream
  unfold waiters
  simp only
  refine ⟨?_, fun none => ?_⟩
  · have enough := counted.1
    omega
  · have exact := counted.2 none
    omega

theorem Indexed.ids_split (indexed : h.Indexed) {before after : List PendingCall}
    {c : PendingCall} (eq : h.calls = before ++ c :: after) :
    ((before ++ after).map (·.id)).Nodup := by
  have ids := indexed.ids
  rw [eq] at ids
  exact ids.sublist (List.Sublist.map _ (List.Sublist.append (.refl _) (List.sublist_cons_self _ _)))

/-- A call goes away; what it holds is in somebody's hand. -/
theorem Books.dropCall (books : h.Books none) {c : PendingCall} (found : h.call? c.id = some c) :
    (h.dropCall c.id).Books c.waitsOn? := by
  obtain ⟨before, after, eq, dropped, _⟩ := books.split_calls found
  have same : h.dropCall c.id = { h with calls := before ++ after } := by
    rw [← dropped]
    rfl
  rw [same]
  refine books.recall (books.ids_split eq) (fun mem waits => ?_) fun n => ?_
  · refine books.waiting ?_ waits
    rw [eq]
    rcases List.mem_append.mp mem with early | late
    · exact List.mem_append_left _ early
    · exact List.mem_append_right _ (List.mem_cons_of_mem _ late)
  · unfold waiters inHand
    rw [eq, List.countP_append, List.countP_append, List.countP_cons]
    simp only [decide_eq_true_eq, reduceCtorEq, if_false]
    omega

/-- A call that holds nothing changes; what is in somebody's hand it may hold from now on. -/
theorem Books.updateCall {c : PendingCall} {f : PendingCall → PendingCall}
    (books : h.Books (f c).waitsOn?) (found : h.call? c.id = some c) (idle : c.waitsOn? = none)
    (same : (f c).id = c.id)
    (waiting : ∀ {n}, (f c).waitsOn? = some n → ∃ face m, h.face? n = some face ∧
      face.issuer = some m ∧ h.target? (f c).request = some (m, face.key)) :
    (h.updateCall c.id f).Books none := by
  obtain ⟨before, after, eq, _, updated⟩ := books.split_calls found
  have changed : h.updateCall c.id f = { h with calls := before ++ f c :: after } := by
    rw [← updated f]
    rfl
  rw [changed]
  refine books.recall ?_ (fun mem waits => ?_) fun n => ?_
  · have ids := books.ids
    rw [eq] at ids
    simpa [same] using ids
  · rcases List.mem_append.mp mem with early | late
    · exact books.waiting (eq ▸ List.mem_append_left _ early) waits
    · rcases List.mem_cons.mp late with rfl | later
      · exact waiting waits
      · exact books.waiting
          (eq ▸ List.mem_append_right _ (List.mem_cons_of_mem _ later)) waits
  · unfold waiters inHand
    rw [eq, List.countP_append, List.countP_append, List.countP_cons, List.countP_cons]
    simp only [idle, decide_eq_true_eq, reduceCtorEq, if_false]
    omega

/-- A new call holds nothing. -/
theorem Books.addCall (books : h.Books none) {id : Nat} (free : h.call? id = none)
    (request : Request) (bind : Option String) : (h.addCall id request bind).Books none := by
  have idle : ∀ n, (({ id, request, ticket := h.tickets, bind } : PendingCall).waitsOn? = some n)
      = False := fun n => by simp [PendingCall.waitsOn?]
  have added : h.takeTicket.2.Books none := books.apart (aside_takeTicket h).apart
  refine added.recall ?_ (fun mem waits => ?_) fun n => ?_
  · rw [List.map_append, List.nodup_append]
    refine ⟨books.ids, by simp, ?_⟩
    intro a mem b only
    obtain ⟨c, present, rfl⟩ := List.mem_map.mp mem
    unfold call? at free
    have other := List.find?_eq_none.mp free c present
    simp only [List.map_cons, List.map_nil, List.mem_singleton] at only
    subst only
    simpa using other
  · rcases List.mem_append.mp mem with old | new
    · exact books.waiting old waits
    · rw [List.mem_singleton.mp new] at waits
      cases (idle _ ▸ waits : False)
  · unfold waiters
    rw [List.countP_append, List.countP_singleton]
    simp only [takeTicket, PendingCall.waitsOn?, reduceCtorEq, decide_false, Bool.false_eq_true,
      if_false, Nat.add_zero]

/-! ## Handlers come and go -/

theorem face?_updateStream {st st' : Stream} (found : h.streams[n]? = some st) (i : Nat) :
    (h.updateStream n fun _ => st').face? i = if i = n then some st'.face else h.face? i := by
  unfold face?
  rw [streams_updateStream]
  by_cases same : n = i
  · subst same
    simp [found]
  · have other : i ≠ n := fun eq => same eq.symm
    simp [same, other]

/-- A stream of the same key and multiplexer, running as long as the first one, takes its place:
its handlers have gained or lost what hands have lost or gained. -/
theorem Books.refit (books : h.Books hand) {st st' : Stream} {hand' : Option Nat} {attached : Nat}
    (found : h.streams[n]? = some st) (same_key : st'.key = st.key)
    (same_issuer : st'.issuer = st.issuer) (same_stopped : st'.isStopped = st.isStopped)
    (more : h.attached ≤ attached) (nodup : (st'.handlers.map (·.1)).Nodup)
    (bound : ∀ handler ∈ st'.handlers, handler.1 ≤ attached)
    (moved : st'.handlers.length + inHand hand' n = st.handlers.length + inHand hand n)
    (others : ∀ i, i ≠ n → inHand hand' i = inHand hand i) :
    (Hub.updateStream { h with attached } n fun _ => st').Books hand' := by
  have face : h.face? n = some st.face := by
    unfold face?
    rw [found]
    rfl
  have changed : ∀ i, (Hub.updateStream { h with attached } n fun _ => st').face? i =
      if i = n then some st'.face else h.face? i := by
    have found' : (Hub.streams { h with attached })[n]? = some st := found
    exact face?_updateStream found'
  have facing {i : Nat} {f : Face} (face' : h.face? i = some f) :
      ∃ f', (Hub.updateStream { h with attached } n fun _ => st').face? i = some f' ∧
        f'.key = f.key ∧ f'.issuer = f.issuer := by
    rw [changed]
    split
    · rename_i here
      rw [here, face] at face'
      cases face'
      exact ⟨st'.face, rfl, same_key, same_issuer⟩
    · exact ⟨f, face', rfl, rfl⟩
  have faced {i : Nat} {f' : Face}
      (face' : (Hub.updateStream { h with attached } n fun _ => st').face? i = some f') :
      ∃ f, h.face? i = some f ∧ f'.key = f.key ∧ f'.issuer = f.issuer ∧
        f'.isStopped = f.isStopped ∧
        f'.handlers.length + inHand hand' i = f.handlers.length + inHand hand i := by
    rw [changed] at face'
    split at face'
    · rename_i here
      cases face'
      exact ⟨st.face, here ▸ face, same_key, same_issuer, same_stopped, here ▸ moved⟩
    · rename_i other
      exact ⟨f', face', rfl, rfl, rfl, by rw [others i other]⟩
  refine ⟨⟨books.ids, books.distinct, books.counted, ?_, ?_, ?_, ?_⟩, ?_⟩
  · intro m key e entry
    obtain ⟨f, face', rfl, issuer⟩ := books.entry entry
    obtain ⟨f', face'', eq, eq'⟩ := facing face'
    exact ⟨f', face'', eq, eq'.trans issuer⟩
  · intro i f' m face' issuer running
    obtain ⟨f, face'', eq, eq', stopped, _⟩ := faced face'
    rw [eq]
    exact books.current face'' (eq' ▸ issuer) (stopped ▸ running)
  · intro c i mem waits
    obtain ⟨f, m, face', issuer, target⟩ := books.waiting mem waits
    obtain ⟨f', face'', eq, eq'⟩ := facing face'
    exact ⟨f', m, face'', eq'.trans issuer, eq ▸ target⟩
  · intro i f' face'
    rw [changed] at face'
    split at face'
    · cases face'
      exact ⟨nodup, bound⟩
    · obtain ⟨nodup', bound'⟩ := books.numbered face'
      exact ⟨nodup', fun handler mem => Nat.le_trans (bound' handler mem) more⟩
  · intro m key e f' allowed entry face' running
    obtain ⟨f, face'', _, _, stopped, count⟩ := faced face'
    have counted := books.balanced allowed entry face'' (stopped ▸ running)
    have waiters : (Hub.updateStream { h with attached } n fun _ => st').waiters = h.waiters := rfl
    rw [waiters]
    refine ⟨?_, fun none => ?_⟩
    · have enough := counted.1
      omega
    · have exact := counted.2 none
      omega

theorem length_filter_of_mem {α : Type} {l : List (Nat × α)} {k : Nat}
    (nodup : (l.map (·.1)).Nodup) (mem : ∃ x ∈ l, x.1 = k) :
    (l.filter fun x => x.1 != k).length + 1 = l.length := by
  induction l with
  | nil =>
    obtain ⟨x, mem, _⟩ := mem
    cases mem
  | cons y l ih =>
    simp only [List.map_cons, List.nodup_cons] at nodup
    by_cases here : y.1 = k
    · have rest : l.filter (fun x => x.1 != k) = l := by
        rw [List.filter_eq_self]
        intro x mem
        have other : x.1 ≠ k := fun same =>
          nodup.1 (here ▸ same ▸ List.mem_map_of_mem mem)
        simpa using other
      rw [List.filter_cons_of_neg (by simpa using here), rest]
      rfl
    · have later : ∃ x ∈ l, x.1 = k := by
        obtain ⟨x, mem, same⟩ := mem
        rcases List.mem_cons.mp mem with rfl | later
        · exact absurd same here
        · exact ⟨x, later, same⟩
      rw [List.filter_cons_of_pos (by simpa using here), List.length_cons, List.length_cons,
        ih nodup.2 later]

/-- A handler leaves; its reference is in somebody's hand. -/
theorem Books.detach (books : h.Books none) {st st' : Stream} {r : Registration}
    (found : h.streams[n]? = some st) (left : st.detach n r = .ok st') :
    (h.updateStream n fun _ => st').Books (some n) := by
  obtain ⟨_, _, present, rfl⟩ := Stream.detach_eq_ok left
  have face : h.face? n = some st.face := face?_eq_some.mpr ⟨st, found, rfl⟩
  obtain ⟨nodup, bound⟩ := books.numbered face
  refine books.refit found rfl rfl rfl (Nat.le_refl h.attached) ?_ ?_ ?_ ?_
  · exact nodup.sublist (List.Sublist.map _ List.filter_sublist)
  · exact fun handler mem => bound handler (List.mem_filter.mp mem).1
  · have fewer := length_filter_of_mem nodup present
    unfold inHand
    simp only [if_true, reduceCtorEq, if_false]
    exact fewer
  · intro i other
    have other' : n ≠ i := fun eq => other eq.symm
    unfold inHand
    simp [other']

/-- The reference in somebody's hand goes to a new handler. -/
theorem Books.addHandler (books : h.Books (some n)) {st : Stream} (ref : HandlerRef)
    (found : h.streams[n]? = some st) : (h.addHandler n ref).Books none := by
  have face : h.face? n = some st.face := face?_eq_some.mpr ⟨st, found, rfl⟩
  obtain ⟨nodup, bound⟩ := books.numbered face
  have same : h.addHandler n ref = Hub.updateStream { h with attached := h.attached + 1 } n
      fun _ => st.attach (h.attached + 1) ref := by
    unfold Hub.addHandler updateStream
    simp only
    congr 1
    apply List.ext_getElem?
    intro i
    rw [List.getElem?_modify, List.getElem?_modify]
    by_cases here : n = i
    · subst here
      rw [found]
      simp
    · simp [here]
  rw [same]
  refine books.refit found rfl rfl rfl (Nat.le_succ h.attached) ?_ ?_ ?_ ?_
  · unfold Stream.attach
    rw [List.map_append, List.nodup_append]
    refine ⟨nodup, by simp, ?_⟩
    intro a mem b only
    obtain ⟨handler, old, rfl⟩ := List.mem_map.mp mem
    have known : handler.1 ≤ h.attached := bound handler old
    simp only [List.map_cons, List.map_nil, List.mem_singleton] at only
    omega
  · intro handler mem
    rcases List.mem_append.mp mem with old | new
    · exact Nat.le_trans (bound handler old) (Nat.le_succ _)
    · exact Nat.le_of_eq (congrArg Prod.fst (List.mem_singleton.mp new))
  · unfold inHand Stream.attach
    simp
  · intro i other
    have other' : n ≠ i := fun eq => other eq.symm
    unfold inHand
    simp [other']

end Hub

end SharedWatch
