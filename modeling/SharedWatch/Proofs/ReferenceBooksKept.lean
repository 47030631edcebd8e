import SharedWatch.Proofs.ReferenceBooks

/-!
# Multiplexers keep their books

Whatever a multiplexer does, and whatever is done to a hub beside it, the books are right again
afterwards.

* `Books.giveBack`, `Books.acquire`: a reference goes back, and is taken.
* `Books.unsubscribe`, `Books.release`, `Books.shutdown`: what a multiplexer is asked for.
* `Books.shift`: every piece of a deed keeps the books; `Books.shifts`: so do all pieces together.
-/

namespace SharedWatch

namespace Hub

open Relation (ReflTransGen)

variable {h h' : Hub} {hand : Option Nat} {n m : Nat} {key : ObjectKey} {e : Monitor}
  {mux : Multiplexer}

/-! ## Stopping and entries do not get in each other's way -/

theorem haltStream_updateMultiplexer (h : Hub) (m n : Nat) (f : Multiplexer → Multiplexer) :
    ((h.updateMultiplexer m f).haltStream n).2 = (h.haltStream n).2.updateMultiplexer m f := by
  unfold haltStream updateMultiplexer
  simp only
  split
  · rfl
  · split
    · rfl
    · simp only
      split <;> rfl

theorem apart_stopStream (h : Hub) (n : Nat) : (h.haltStream n).2.Apart (h.stopStream n).2 := by
  unfold stopStream
  simp only
  split
  · exact (aside_say _ _ _).apart
  · exact .refl _

theorem Apart.updateMultiplexer (apart : h.Apart h') (m : Nat) (f : Multiplexer → Multiplexer) :
    (h.updateMultiplexer m f).Apart (h'.updateMultiplexer m f) := by
  have multiplexers : (h'.updateMultiplexer m f).multiplexers
      = (h.updateMultiplexer m f).multiplexers := by
    unfold Hub.updateMultiplexer
    rw [apart.multiplexers]
  exact { apart with multiplexers }

theorem Apart.of_faces (calls : h'.calls = h.calls) (multiplexers : h'.multiplexers = h.multiplexers)
    (managers : h'.managers = h.managers) (attached : h'.attached = h.attached)
    (bypasses : h'.bypasses = h.bypasses) (faces : ∀ i, h'.face? i = h.face? i) : h.Apart h' := by
  refine ⟨calls, multiplexers, managers ▸ List.prefix_rfl, attached, bypasses ▸ List.suffix_rfl, ?_⟩
  apply List.ext_getElem?
  intro i
  rw [List.getElem?_map, List.getElem?_map]
  exact faces i

theorem Apart.haltStream (apart : h.Apart h') (n : Nat) :
    (h.haltStream n).2.Apart (h'.haltStream n).2 := by
  obtain ⟨managers, attached, bypasses⟩ := rest_haltStream h n
  obtain ⟨managers', attached', bypasses'⟩ := rest_haltStream h' n
  refine ⟨?_, ?_, ?_, ?_, ?_, ?_⟩
  · rw [calls_haltStream, calls_haltStream, apart.calls]
  · rw [multiplexers_haltStream, multiplexers_haltStream, apart.multiplexers]
  · rw [managers, managers']
    exact apart.managed
  · rw [attached, attached', apart.attached]
  · rw [bypasses, bypasses']
    exact apart.bypasses
  · apply List.ext_getElem?
    intro i
    rw [List.getElem?_map, List.getElem?_map]
    show (h'.haltStream n).2.face? i = (h.haltStream n).2.face? i
    rw [face?_haltStream, face?_haltStream, apart.face?]

/-- Whether a stream is stopped before another one is made or afterwards is the same. -/
theorem apart_create_halt (h : Hub) (key : ObjectKey) (policy : RetryPolicy) (issuer : Option Nat)
    {n : Nat} (old : n < h.streams.length) :
    ((h.haltStream n).2.createStream key policy issuer).2.Apart
      ((h.createStream key policy issuer).2.haltStream n).2 := by
  obtain ⟨managers, attached, bypasses⟩ := rest_haltStream h n
  obtain ⟨managers', attached', bypasses'⟩ :=
    rest_haltStream (h.createStream key policy issuer).2 n
  have length : (h.haltStream n).2.streams.length = h.streams.length := by
    unfold haltStream
    split
    · rfl
    · simp only
      split
      · rfl
      · split <;> simp [updateStream, addActive]
  refine Apart.of_faces ?_ ?_ ?_ ?_ ?_ fun i => ?_
  · rw [calls_haltStream]
    exact (calls_haltStream h n).symm
  · rw [multiplexers_haltStream]
    exact (multiplexers_haltStream h n).symm
  · rw [managers']
    exact managers.symm
  · rw [attached']
    exact attached.symm
  · rw [bypasses']
    exact bypasses.symm
  · rw [face?_haltStream, face?_createStream, face?_createStream, face?_haltStream, length]
    by_cases last : i = h.streams.length
    · have other : n ≠ i := by omega
      simp [last, last ▸ other]
    · simp [last]

/-! ## Giving back a reference -/

theorem updateMultiplexer_known (known : h.multiplexers[m]? = some mux)
    (f : Multiplexer → Multiplexer) :
    (h.updateMultiplexer m fun _ => f mux) = h.updateMultiplexer m f := by
  have same : (h.multiplexers.modify m fun _ => f mux) = h.multiplexers.modify m f := by
    apply List.ext_getElem?
    intro i
    rw [List.getElem?_modify, List.getElem?_modify]
    by_cases here : m = i
    · subst here
      simp [known]
    · simp [here]
  unfold updateMultiplexer
  rw [same]

/-- Giving back the last reference stops the stream and forgets it. -/
theorem giveBack_last (mux : Multiplexer) (last : e.refcount ≤ 1) :
    (h.giveBack m mux key e).1 = true ∧ ((h.haltStream e.stream).2.updateMultiplexer m
      (·.remove key)).Apart (h.giveBack m mux key e).2 := by
  unfold giveBack
  rw [if_pos last]
  refine ⟨rfl, ?_⟩
  rw [← haltStream_updateMultiplexer]
  exact apart_stopStream _ _

/-- Giving back a reference that is not the last one counts it off. -/
theorem giveBack_other (known : h.multiplexers[m]? = some mux) (more : ¬ e.refcount ≤ 1) :
    h.giveBack m mux key e =
      (false, h.updateMultiplexer m (·.put key { e with refcount := e.refcount - 1 })) := by
  unfold giveBack
  rw [if_neg more]
  exact congrArg (Prod.mk false)
    (updateMultiplexer_known known (·.put key { e with refcount := e.refcount - 1 }))

/-- A reference in somebody's hand goes back to its entry. -/
theorem Books.giveBack (books : h.Books (some e.stream)) (known : h.multiplexers[m]? = some mux)
    (found : mux.monitor? key = some e) : (h.giveBack m mux key e).2.Books none := by
  have entry : h.monitor? m key = some e := (monitor?_eq known).trans found
  by_cases last : e.refcount ≤ 1
  · have halted := books.halt e.stream
    have stopped {f : Face} (face : (h.haltStream e.stream).2.face? e.stream = some f) :
        f.isStopped = true := by
      rw [face?_haltStream, if_pos rfl] at face
      obtain ⟨f₀, _, rfl⟩ := Option.map_eq_some_iff.mp face
      exact f₀.isStopped_halt
    refine Books.apart (Books.remove (halted.settle ?_ none ?_) ?_) (giveBack_last mux last).2
    · intro m' key' e' f _ here face
      rw [← Option.some.inj here] at face
      exact stopped face
    · intro m' key' e' f _ here
      cases here
    · intro e' f found' face
      rw [monitor?_haltStream, entry] at found'
      cases found'
      exact stopped face
  · rw [giveBack_other known last]
    refine books.recount known entry (by omega) ?_ ?_
    · unfold inHand
      simp only [if_true, reduceCtorEq, if_false]
      omega
    · intro i other
      have other' : e.stream ≠ i := fun eq => other eq.symm
      unfold inHand
      simp [other']

/-- A subscriber that failed gives its reference back, unless its stream is no longer its key's. -/
theorem release_cases (h : Hub) (m : Nat) (key : ObjectKey) (n : Nat) :
    h.release m key n = h ∧ (∀ e, h.monitor? m key = some e → e.stream ≠ n) ∨
    ∃ mux e, h.multiplexers[m]? = some mux ∧ mux.monitor? key = some e ∧ e.stream = n ∧
      (h.giveBack m mux key e).2.Aside (h.release m key n) := by
  unfold release
  split
  · rename_i none
    refine .inl ⟨rfl, fun e found => ?_⟩
    simp [monitor?, none] at found
  · rename_i mux known
    have entry := @monitor?_eq h m mux key known
    split
    · rename_i none
      refine .inl ⟨rfl, fun e found => ?_⟩
      rw [entry, none] at found
      cases found
    · rename_i e found
      split
      · rename_i here
        refine .inr ⟨mux, e, known, found, here, ?_⟩
        simp only
        split
        · exact aside_say _ _ _
        · exact .refl _
      · rename_i other
        refine .inl ⟨rfl, fun e' found' => ?_⟩
        rw [entry, found] at found'
        cases found'
        exact other

/-- The reference of a subscriber that failed goes back, unless its stream is no longer its key's. -/
theorem Books.release (books : h.Books (some n))
    (own : ∃ f, h.face? n = some f ∧ f.issuer = some m ∧ f.key = key) :
    (h.release m key n).Books none := by
  obtain ⟨f, face, issuer, rfl⟩ := own
  -- Another entry leads to another stream, so the reference in hand has gone with its entry.
  have gone (absent : ∀ e, h.monitor? m f.key = some e → e.stream ≠ n) : h.Books none := by
    refine books.settle ?_ none fun _ here => by cases here
    intro m' key' e' f' found here face'
    obtain rfl := Option.some.inj here
    obtain ⟨f'', face'', hkey, issuer'⟩ := books.entry found
    rw [face] at face''
    cases face''
    rw [issuer] at issuer'
    cases issuer'
    rw [← hkey] at found
    exact absurd rfl (absent e' found)
  rcases release_cases h m f.key n with ⟨same, absent⟩ | ⟨mux, e, known, found, rfl, aside⟩
  · rw [same]
    exact gone absent
  · exact (books.giveBack known found).apart aside.apart

/-! ## Taking a reference -/

theorem isAlive_iff {st : Stream} (found : h.streams[n]? = some st) :
    h.isAlive n = !st.isDead := by
  unfold isAlive
  rw [found]
  rfl

theorem apart_openStream (h : Hub) (m : Nat) (mux : Multiplexer) (key : ObjectKey) :
    (h.createStream key mux.settings.listWatch (some m)).2.Apart (h.openStream m mux key).2 :=
  (apart_startStream _ _ _).trans (aside_say _ _ _).apart

theorem apart_retire (h : Hub) (e : Monitor) : (h.haltStream e.stream).2.Apart (h.retire e) :=
  ((apart_stopStream h e.stream).trans (apart_deal _ _)).trans (aside_say _ _ _).apart

/-- How a reference is taken.  Either the stream of the key will deliver again, and is shared once
more.  Or it will not, or there is none: then a new stream takes its place, and it is stopped. -/
theorem acquire_cases (books : h.Books none) (known : h.multiplexers[m]? = some mux)
    (key : ObjectKey) :
    (∃ e, mux.monitor? key = some e ∧ h.isAlive e.stream = true ∧ h.acquire m mux key =
      (e.stream, h.updateMultiplexer m (·.put key { e with refcount := e.refcount + 1 }))) ∨
    ∃ g, (h.acquire m mux key).1 = h.streams.length ∧ g.streams.length = h.streams.length ∧
      (g = h ∧ mux.monitor? key = none ∨ ∃ e, mux.monitor? key = some e ∧
        h.isAlive e.stream = false ∧ g = (h.haltStream e.stream).2) ∧
      ((g.createStream key mux.settings.listWatch (some m)).2.updateMultiplexer m
        (·.put key ⟨h.streams.length, 1⟩)).Apart (h.acquire m mux key).2 := by
  unfold acquire
  cases found : mux.monitor? key with
  | none =>
    refine .inr ⟨h, rfl, rfl, .inl ⟨rfl, rfl⟩, ?_⟩
    exact (apart_openStream h m mux key).updateMultiplexer m _
  | some e =>
    simp only
    cases alive : h.isAlive e.stream with
    | true => exact .inl ⟨e, rfl, alive, by simp⟩
    | false =>
      have length : (h.haltStream e.stream).2.streams.length = h.streams.length := by
        unfold haltStream
        split
        · rfl
        · simp only
          split
          · rfl
          · split <;> simp [updateStream, addActive]
      obtain ⟨f, face, _⟩ := books.entry ((monitor?_eq known).trans found)
      obtain ⟨st, stream, _⟩ := face?_eq_some.mp face
      have old : e.stream < h.streams.length := (List.getElem?_eq_some_iff.mp stream).1
      refine .inr ⟨_, rfl, length, .inr ⟨e, rfl, alive, rfl⟩, ?_⟩
      have opened := (apart_create_halt h key mux.settings.listWatch (some m) old).trans
        ((apart_openStream h m mux key).haltStream e.stream)
      have replaced := (opened.updateMultiplexer m (·.put key ⟨h.streams.length, 1⟩))
      rw [← haltStream_updateMultiplexer] at replaced
      exact replaced.trans (apart_retire _ e)

/-- A reference is taken: it is in somebody's hand. -/
theorem Books.acquire (books : h.Books none) (known : h.multiplexers[m]? = some mux)
    (key : ObjectKey) :
    (h.acquire m mux key).2.Books (some (h.acquire m mux key).1) ∧
      ∃ f, (h.acquire m mux key).2.face? (h.acquire m mux key).1 = some f ∧
        f.issuer = some m ∧ f.key = key := by
  have entry := @monitor?_eq h m mux key known
  rcases acquire_cases books known key with
    ⟨e, found, _, eq⟩ | ⟨g, number, length, source, apart⟩
  · rw [eq]
    constructor
    · refine books.recount known (entry.trans found) (Nat.le_add_left 1 e.refcount) ?_ ?_
      · unfold inHand
        simp only [if_true, reduceCtorEq, if_false]
        omega
      · intro i other
        have other' : e.stream ≠ i := fun eq => other eq.symm
        unfold inHand
        simp [other']
    · obtain ⟨f, face, hkey, issuer⟩ := books.entry (entry.trans found)
      exact ⟨f, face, issuer, hkey⟩
  · rw [number]
    have stopped : g.Books none ∧ g.multiplexers[m]? = some mux ∧
        ∀ {e f}, g.monitor? m key = some e → g.face? e.stream = some f → f.isStopped = true := by
      rcases source with ⟨rfl, none⟩ | ⟨e, found, _, rfl⟩
      · refine ⟨books, known, fun {e f} found _ => ?_⟩
        rw [entry, none] at found
        cases found
      · refine ⟨books.halt e.stream, by rw [multiplexers_haltStream, known], ?_⟩
        intro e' f found' face
        rw [monitor?_haltStream, entry, found] at found'
        cases found'
        rw [face?_haltStream, if_pos rfl] at face
        obtain ⟨f₀, _, rfl⟩ := Option.map_eq_some_iff.mp face
        exact f₀.isStopped_halt
    obtain ⟨books', known', stopped⟩ := stopped
    have created := books'.create known' mux.settings.listWatch stopped
    rw [length] at created
    constructor
    · exact created.apart apart
    · refine ⟨⟨key, some m, [], false⟩, (apart.face? _).trans ?_, rfl, rfl⟩
      refine (face?_createStream g key mux.settings.listWatch (some m) h.streams.length).trans ?_
      rw [if_pos length.symm]

theorem managed_acquire (books : h.Books none) (known : h.multiplexers[m]? = some mux)
    (key : ObjectKey) : h.managers.map (·.multiplexer) <+:
      (h.acquire m mux key).2.managers.map (·.multiplexer) := by
  rcases acquire_cases books known key with ⟨e, _, _, eq⟩ | ⟨g, _, _, source, apart⟩
  · rw [eq]
    exact List.prefix_rfl
  · have same : g.managers = h.managers := by
      rcases source with ⟨rfl, _⟩ | ⟨e, _, _, rfl⟩
      · rfl
      · exact (rest_haltStream h e.stream).1
    rw [← same]
    exact apart.managed

/-! ## What a multiplexer is asked for -/

theorem Books.leaveStream (books : h.Books none) {g : Hub} {st : Stream} {r : Registration}
    (found : h.streams[n]? = some st) (left : h.leaveStream n st r = .ok g) :
    g.Books (some n) := by
  have only {f : Face} (face : h.face? n = some f) : f = st.face := by
    unfold face? at face
    rw [found] at face
    exact (Option.some.inj face).symm
  unfold Hub.leaveStream at left
  split at left
  · rename_i stopped
    cases left
    refine (books.settle (fun _ here => by cases here) (some n) ?_).apart (aside_say _ _ _).apart
    intro m key e f _ here face
    rw [← Option.some.inj here] at face
    rw [only face]
    exact stopped
  · cases hd : st.detach n r with
    | error failure => rw [hd] at left; cases left
    | ok st' =>
      rw [hd] at left
      cases left
      exact books.detach found hd

theorem multiplexers_leaveStream {g : Hub} {st : Stream} {r : Registration}
    (left : h.leaveStream n st r = .ok g) : g.multiplexers = h.multiplexers := by
  unfold Hub.leaveStream at left
  split at left
  · cases left
    rfl
  · cases hd : st.detach n r with
    | error failure => rw [hd] at left; cases left
    | ok st' =>
      rw [hd] at left
      cases left
      rfl

theorem Books.closeRegistration (books : h.Books (some e.stream)) {r : Registration}
    (known : h.multiplexers[m]? = some mux) (found : mux.monitor? r.key = some e) (late : Bool) :
    (h.closeRegistration m mux r late e).Books none := by
  have told : ((h.deal (.returned r late)).say .info "handler unsubscribed").Books (some e.stream) :=
    books.apart ((apart_deal h _).trans (aside_say _ _ _).apart)
  exact (told.giveBack known found).apart (aside_closeRegistration h m mux r late e).apart

theorem Books.unsubscribe (books : h.Books none) (m : Nat) (r : Registration) :
    (h.unsubscribe m r).2.Books none := by
  rcases unsubscribe_cases h m r with
    aside | ⟨mux, e, st, g, known, found, _, _, stream, left, eq⟩
  · exact books.apart aside.apart
  · rw [eq]
    have known' : g.multiplexers[m]? = some mux := by
      rw [multiplexers_leaveStream left]
      exact known
    exact (books.leaveStream stream left).closeRegistration known' found _

theorem Books.stopStream (books : h.Books hand) (n : Nat) : (h.stopStream n).2.Books hand :=
  (books.halt n).apart (apart_stopStream h n)

/-- Stopping the streams of a list of entries, with something on the side after each. -/
theorem Books.stopAll (entries : List (ObjectKey × Monitor)) (books : h.Books hand)
    (count : Hub → Monitor → Hub) (counted : ∀ (g : Hub) e, g.Apart (count g e)) :
    (entries.foldl (fun h (_, e) => count (h.stopStream e.stream).2 e) h).Books hand := by
  induction entries generalizing h with
  | nil => exact books
  | cons entry entries ih =>
    exact ih ((books.stopStream entry.2.stream).apart (counted _ _))

theorem stopAll_updateMultiplexer (entries : List (ObjectKey × Monitor)) (m : Nat)
    (f : Multiplexer → Multiplexer) (count : Hub → Monitor → Hub)
    (commutes : ∀ (g : Hub) e, count (g.updateMultiplexer m f) e = (count g e).updateMultiplexer m f)
    (h : Hub) :
    entries.foldl (fun h (_, e) => count (h.stopStream e.stream).2 e) (h.updateMultiplexer m f) =
      (entries.foldl (fun h (_, e) => count (h.stopStream e.stream).2 e) h).updateMultiplexer m
        f := by
  induction entries generalizing h with
  | nil => rfl
  | cons entry entries ih =>
    have stopped : ((h.updateMultiplexer m f).stopStream entry.2.stream).2 =
        (h.stopStream entry.2.stream).2.updateMultiplexer m f := by
      have halted := haltStream_updateMultiplexer h m entry.2.stream f
      have same : ((h.updateMultiplexer m f).haltStream entry.2.stream).1 =
          (h.haltStream entry.2.stream).1 := by
        unfold haltStream updateMultiplexer
        simp only
        split
        · rfl
        · split <;> rfl
      unfold Hub.stopStream
      simp only [halted, same]
      split <;> rfl
    simp only [List.foldl_cons]
    rw [stopped, commutes]
    exact ih _

/-- Stopping the streams of a list of entries stops them, and keeps the entries. -/
theorem stopped_stopAll (entries : List (ObjectKey × Monitor)) (count : Hub → Monitor → Hub)
    (counted : ∀ (g : Hub) e, g.Apart (count g e)) (h : Hub) :
    (∀ m key, (entries.foldl (fun h (_, e) => count (h.stopStream e.stream).2 e) h).monitor? m key
      = h.monitor? m key) ∧
    ∀ n f, (entries.foldl (fun h (_, e) => count (h.stopStream e.stream).2 e) h).face? n = some f →
      (∃ f₀, h.face? n = some f₀ ∧ (f₀.isStopped = true → f.isStopped = true)) ∧
        ((∃ entry ∈ entries, entry.2.stream = n) → f.isStopped = true) := by
  induction entries generalizing h with
  | nil =>
    refine ⟨fun _ _ => rfl, fun n f face => ⟨⟨f, face, id⟩, ?_⟩⟩
    rintro ⟨_, mem, _⟩
    cases mem
  | cons entry entries ih =>
    obtain ⟨same, stopped⟩ := ih (count (h.stopStream entry.2.stream).2 entry.2)
    have first : (h.haltStream entry.2.stream).2.Apart
        (count (h.stopStream entry.2.stream).2 entry.2) :=
      (apart_stopStream h _).trans (counted _ _)
    refine ⟨fun m key => ?_, fun n f face => ?_⟩
    · refine (same m key).trans ?_
      rw [first.monitor?, monitor?_haltStream]
    · obtain ⟨⟨f₁, face₁, later⟩, among⟩ := stopped n f face
      rw [first.face?] at face₁
      obtain ⟨f₀, face₀, _, _, _, unchanged⟩ := face_of_halted face₁
      refine ⟨⟨f₀, face₀, fun before => later ?_⟩, ?_⟩
      · cases running : f₁.isStopped with
        | true => rfl
        | false =>
          rw [(unchanged running).1, before] at running
          cases running
      · rintro ⟨entry', mem, rfl⟩
        rcases List.mem_cons.mp mem with rfl | other
        · refine later ?_
          cases running : f₁.isStopped with
          | true => rfl
          | false => exact absurd rfl (unchanged running).2
        · exact among ⟨entry', other, rfl⟩

/-- A multiplexer that stops everything keeps its books. -/
theorem Books.stopEverything (books : h.Books hand) (known : h.multiplexers[m]? = some mux)
    {f : Multiplexer → Multiplexer} (cleared : ∀ mux, (f mux).monitors = [])
    (count : Hub → Monitor → Hub) (counted : ∀ (g : Hub) e, g.Apart (count g e))
    (commutes : ∀ (g : Hub) e, count (g.updateMultiplexer m f) e = (count g e).updateMultiplexer m f) :
    (mux.monitors.foldl (fun h (_, e) => count (h.stopStream e.stream).2 e)
      (h.updateMultiplexer m f)).Books hand := by
  rw [stopAll_updateMultiplexer mux.monitors m f count commutes]
  obtain ⟨same, stopped⟩ := stopped_stopAll mux.monitors count counted h
  refine (books.stopAll mux.monitors count counted).clear cleared ?_
  intro key e face found seen
  refine (stopped e.stream face seen).2 ⟨(key, e), ?_, rfl⟩
  rw [same, monitor?_eq known] at found
  exact (books.distinct known).mem_iff.mpr found

theorem Books.shutdown (books : h.Books hand) (m : Nat) : (h.shutdown m).Books hand := by
  unfold Hub.shutdown
  split
  · exact books
  · rename_i mux known
    have stopped := books.stopEverything known (f := fun mux => { mux with monitors := [], isShut := true })
      (fun _ => rfl) (fun g e => g.deal (.closed e)) (fun g e => apart_deal g _) fun _ _ => rfl
    exact stopped.apart ((aside_fire _ _).apart.trans (aside_say _ _ _).apart)

theorem Books.dropMultiplexer (books : h.Books hand) (m : Nat) :
    (h.dropMultiplexer m).Books hand := by
  unfold Hub.dropMultiplexer
  split
  · exact books
  · rename_i mux known
    exact books.stopEverything known
      (f := fun mux => { mux with monitors := [], dropped := true }) (fun _ => rfl)
      (fun g e => g.deal (.dropped e)) (fun g e => apart_deal g _) fun _ _ => rfl

/-! ## What is done past a multiplexer -/

theorem isShared_iff : h.isShared n = true ↔ ∃ f m, h.face? n = some f ∧ f.issuer = some m := by
  unfold isShared face?
  rw [Option.any_eq_true]
  constructor
  · rintro ⟨st, found, shared⟩
    obtain ⟨m, issuer⟩ := Option.isSome_iff_exists.mp shared
    exact ⟨st.face, m, by rw [found]; rfl, issuer⟩
  · rintro ⟨f, m, face, issuer⟩
    obtain ⟨st, found, rfl⟩ := Option.map_eq_some_iff.mp face
    exact ⟨st, found, Option.isSome_iff_exists.mpr ⟨m, issuer⟩⟩

/-- A reference to a stream that is not shared counts nowhere. -/
theorem Books.own (books : h.Books hand) (own : h.isShared n = false)
    (within : hand = none ∨ hand = some n) (hand' : Option Nat)
    (within' : hand' = none ∨ hand' = some n) : h.Books hand' := by
  have away {hand : Option Nat} (within : hand = none ∨ hand = some n) {m : Nat}
      {key : ObjectKey} {e : Monitor} (found : h.monitor? m key = some e)
      (here : hand = some e.stream) : False := by
    obtain ⟨f, face, _, issuer⟩ := books.entry found
    rcases within with rfl | rfl
    · cases here
    · obtain rfl := Option.some.inj here
      rw [isShared_iff.mpr ⟨f, m, face, issuer⟩] at own
      cases own
  exact books.settle (fun found here _ => (away within found here).elim) hand'
    fun found here _ => (away within' found here).elim

theorem bypass_shared (shared : h.isShared n = true) (b : Bypass) :
    (h.bypass n b).bypasses = b :: h.bypasses := by
  unfold bypass
  rw [if_pos shared]

theorem bypass_own (own : h.isShared n = false) (b : Bypass) : h.bypass n b = h := by
  unfold bypass
  rw [if_neg (by simp [own])]

/-- A handler is removed from the stream itself. -/
theorem Books.removeHandler (books : h.Books none) {st : Stream} (r : Registration)
    (found : h.streams[n]? = some st) : (h.removeHandler n st r).2.Books none := by
  unfold Hub.removeHandler
  cases left : st.detach n r with
  | error failure => exact books
  | ok st' =>
    have found' : (h.bypass n .detached).streams[n]? = some st := by
      rw [(beside_bypass h n .detached).streams, found]
    have detached := (books.apart (apart_bypass h n .detached)).detach found' left
    cases shared : h.isShared n with
    | true =>
      refine detached.lose ?_
      show (h.bypass n .detached).bypasses ≠ []
      rw [bypass_shared shared]
      exact List.cons_ne_nil _ _
    | false =>
      rw [bypass_own shared] at detached ⊢
      refine detached.own ?_ (.inr rfl) none (.inl rfl)
      cases still : Hub.isShared (h.updateStream n fun _ => st') n with
      | false => rfl
      | true =>
        obtain ⟨_, _, _, rfl⟩ := Stream.detach_eq_ok left
        obtain ⟨f, m, face, issuer⟩ := isShared_iff.mp still
        rw [face?_updateStream found, if_pos rfl] at face
        cases face
        rw [isShared_iff.mpr ⟨st.face, m, face?_eq_some.mpr ⟨st, found, rfl⟩, issuer⟩] at shared
        cases shared

/-- A call goes away where it waits. -/
theorem Books.abort (books : h.Books none) (id : Nat) : (h.abort id).2.Books none := by
  unfold Hub.abort
  split
  · exact books
  · rename_i c found
    have same := id_of_call? found
    subst same
    have gone : ((c.waitsOn?.elim h fun n => (h.bypass n .aborted).deal (.lost n)).dropCall
        c.id).Books none := by
      cases waits : c.waitsOn? with
      | none =>
        have dropped := books.dropCall found
        rw [waits] at dropped
        exact dropped
      | some n =>
        have left : h.Apart ((h.bypass n .aborted).deal (.lost n)) :=
          (apart_bypass h n .aborted).trans (apart_deal _ _)
        have found' : ((h.bypass n .aborted).deal (.lost n)).call? c.id = some c := by
          unfold call? at found ⊢
          rw [left.calls, found]
        have dropped := (books.apart left).dropCall found'
        obtain ⟨f, m, face, issuer, _⟩ := books.waiting (List.mem_of_find?_eq_some found) waits
        rw [waits] at dropped
        refine dropped.lose ?_
        show (h.bypass n .aborted).bypasses ≠ []
        rw [bypass_shared (isShared_iff.mpr ⟨f, m, face, issuer⟩)]
        exact List.cons_ne_nil _ _
    simp only
    split
    · exact gone.apart (aside_leaveTurn _ _ _).apart
    · exact gone

/-- A handler is attached to the stream itself. -/
theorem Books.attach (books : h.Books none) {st : Stream} (ref : HandlerRef)
    (found : h.streams[n]? = some st) : ((h.bypass n .attached).addHandler n ref).Books none := by
  have found' : (h.bypass n .attached).streams[n]? = some st := by
    rw [(beside_bypass h n .attached).streams, found]
  refine Books.addHandler ?_ ref found'
  cases shared : h.isShared n with
  | true =>
    refine { books.apart (apart_bypass h n .attached) with balanced := fun allowed => ?_ }
    rw [bypass_shared shared] at allowed
    exact absurd List.mem_cons_self allowed
  | false =>
    rw [bypass_own shared]
    exact books.own shared (.inl rfl) (some n) (.inr rfl)

/-! ## Subscribers -/

/-- A subscriber takes its reference and begins to wait. -/
theorem Books.enter (books : h.Books none) {c : PendingCall} {w : SyncWait}
    (found : h.call? c.id = some c) (idle : c.waitsOn? = none)
    (target : h.target? c.request = some (m, key)) (known : h.multiplexers[m]? = some mux)
    (taken : w.stream = (h.acquire m mux key).1) :
    ((h.acquire m mux key).2.beginWait c w).Books none := by
  obtain ⟨acquired, f, face, issuer, hkey⟩ := books.acquire known key
  have waits : ∀ ticket, PendingCall.waitsOn? { c with phase := .syncing w, ticket } =
      some (h.acquire m mux key).1 := by
    intro ticket
    have subscribes : c.request.isSubscriber = true := by
      cases asked : c.request <;> first | rfl | (rw [asked] at target; cases target)
    unfold PendingCall.waitsOn?
    simp [subscribes, taken]
  have ticketed := acquired.apart (aside_takeTicket _).apart
  have found' : (h.acquire m mux key).2.takeTicket.2.call? c.id = some c := by
    unfold call? at found ⊢
    exact (congrArg _ (calls_acquire h m mux key)).trans found
  unfold beginWait
  refine Books.updateCall ?_ found' idle rfl fun {i} here => ?_
  · rw [waits]
    exact ticketed
  · rw [waits] at here
    obtain rfl := Option.some.inj here
    refine ⟨f, m, face, issuer, ?_⟩
    rw [hkey]
    exact target?_mono (managed_acquire books known key) target

/-- A subscriber gives up. -/
theorem Books.giveUp (books : h.Books none) {c : PendingCall} (message : String)
    (found : h.call? c.id = some c) (waits : c.waitsOn? = some n)
    (target : h.target? c.request = some (m, key)) :
    (h.giveUp c.id m key n message).Books none := by
  obtain ⟨f, m', face, issuer, target'⟩ :=
    books.waiting (List.mem_of_find?_eq_some found) waits
  rw [target] at target'
  cases target'
  have dropped := books.dropCall found
  rw [waits] at dropped
  exact (dropped.apart (aside_say _ _ _).apart).release ⟨f, face, issuer, rfl⟩

/-- The handler of a subscriber is attached. -/
theorem Books.join (books : h.Books none) {c : PendingCall} {st : Stream} (ref : HandlerRef)
    (found : h.call? c.id = some c) (waits : c.waitsOn? = some n)
    (stream : h.streams[n]? = some st) : ((h.dropCall c.id).addHandler n ref).Books none := by
  have dropped := books.dropCall found
  rw [waits] at dropped
  exact dropped.addHandler ref stream

/-! ## Every piece, every run -/

theorem Books.calm (books : h.Books none) (calm : Calm h h') : h'.Books none := by
  cases calm with
  | aside aside => exact books.apart aside.apart
  | store op => exact books.apart ((still_backend h _).toApart)
  | openWatch sel version name =>
    refine books.apart ?_
    unfold Hub.openWatch
    split
    · exact (still_backend h _).toApart
    · exact { Apart.refl h with }
  | poll limit _ => exact books.apart ((still_backend h _).toApart)
  | dropWatch _ => exact books.apart { Apart.refl h with }
  | create key policy => exact books.createOwn key policy
  | start n parent => exact books.apart (apart_startStream h n parent)
  | halt n => exact books.halt n
  | detach r found => exact books.removeHandler r found
  | unsubscribe m r => exact books.unsubscribe m r
  | enter found idle target known taken => exact books.enter found idle target known taken
  | leave message found waits target => exact books.giveUp message found waits target
  | shutdown m => exact books.shutdown m
  | dropMultiplexer m => exact books.dropMultiplexer m
  | addMultiplexer settings root => exact books.addMultiplexer settings root
  | addCall request bind free => exact books.addCall free request bind
  | dropCall found idle =>
    have dropped := books.dropCall found
    rcases idle with idle | nowhere
    · rw [idle] at dropped
      exact dropped
    · rename_i c
      cases waits : c.waitsOn? with
      | none =>
        rw [waits] at dropped
        exact dropped
      | some n =>
        obtain ⟨f, m, _, _, target⟩ := books.waiting (List.mem_of_find?_eq_some found) waits
        rw [nowhere] at target
        cases target
  | updateCall found idle same idle' =>
    refine Books.updateCall ?_ found idle same fun here => ?_
    · rw [idle']
      exact books
    · rw [idle'] at here
      cases here
  | abort id => exact books.abort id

theorem Books.shift (books : h.Books none) (shift : Shift h h') : h'.Books none := by
  cases shift with
  | apart apart _ => exact books.apart apart
  | calm calm => exact books.calm calm
  | attach ref found _ => exact books.attach ref found
  | join ref found waits stream _ => exact books.join ref found waits stream

theorem Books.shifts (books : h.Books none) (shifts : Shifts h h') : h'.Books none := by
  induction shifts with
  | refl => exact books
  | tail _ shift ih => exact ih.shift shift

/-- The books of the hub in which every run begins. -/
theorem books_start (limit : Nat) (draws : Draws) : (start limit draws).Books none where
  ids := List.nodup_nil
  distinct known := by cases known
  counted found := by cases found
  entry found := by cases found
  current face := by cases face
  waiting mem := by cases mem
  numbered face := by cases face
  balanced _ found := by cases found

end Hub

end SharedWatch
