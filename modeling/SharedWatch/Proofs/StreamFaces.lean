import SharedWatch.Proofs.StreamTransitions

/-!
# What others see of a stream

Multiplexers see little of a stream: whose it is, which handlers it has, and whether it has been
stopped.  Handlers see a change only when the stream sees the object change.  Most of what a loop
does is nothing to either.

* `Stream.face`: what a multiplexer sees of a stream; `Cache.seen`: what a stream sees of the object.
* `Hub.Apart`: the hubs look the same to multiplexers.
* `Hub.Still`: they look the same to handlers, too.
* `Hub.Delivers`: a stream has seen the object change, and its handlers are called.
* `replace_delivers`, `receive_delivers`: a full read and a change are delivered like that.
-/

namespace SharedWatch

/-- What a multiplexer sees of a stream. -/
structure Face where
  /-- The watched key. -/
  key : ObjectKey
  /-- The multiplexer that made the stream, if one did. -/
  issuer : Option Nat
  /-- The handlers. -/
  handlers : List (Nat × HandlerRef)
  /-- The stream has been stopped. -/
  isStopped : Bool

/-- What a stream sees of the object. -/
def Cache.seen (cache : Cache) : Option Object × String := (cache.item, cache.version)

namespace Stream

/-- The loop of a stopped stream is to end. -/
def Ends (st : Stream) : Prop := st.isStopped = true → st.cancelled = true

/-- `st'` is `st` later: its loop is to end if it has been stopped since, and it has been started if
it had been before. -/
structure Ages (st st' : Stream) : Prop where
  ends : st.Ends → st'.Ends
  started : st.state ≠ .created → st'.state ≠ .created

/-- What a multiplexer sees of the stream. -/
def face (st : Stream) : Face := ⟨st.key, st.issuer, st.handlers, st.isStopped⟩

/-- A stopped stream takes no notice of a full read, nor of a change. -/
theorem replace_stopped {st : Stream} (stopped : st.isStopped = true) (items : List Object)
    (version : String) : st.replace items version = (st, none) := by
  unfold replace
  rw [if_pos stopped]

theorem receive_stopped {st : Stream} (stopped : st.isStopped = true) (e : Change) :
    st.receive e = (st, none) := by
  unfold receive
  rw [stopped]
  rfl

/-- A move changes nothing but the state. -/
theorem move_eq (st : Stream) (state : Lifecycle) : ∃ s, st.move state = { st with state := s } := by
  unfold move
  split
  · exact ⟨st.state, rfl⟩
  · exact ⟨state, rfl⟩

/-- A running stream moves to a running state. -/
theorem face_move (st : Stream) {state : Lifecycle} (running : state ≠ .stopped) :
    (st.move state).face = st.face := by
  unfold move
  cases stopped : st.isStopped with
  | true => rfl
  | false => simpa [face, isStopped, running] using stopped

theorem seen_move (st : Stream) (state : Lifecycle) :
    (st.move state).cache.seen = st.cache.seen := by
  obtain ⟨_, eq⟩ := st.move_eq state
  rw [eq]

theorem ages_move (st : Stream) {state : Lifecycle} (running : state ≠ .stopped)
    (started : state ≠ .created) : st.Ages (st.move state) := by
  unfold move
  cases stopped : st.isStopped with
  | true => exact ⟨id, id⟩
  | false => exact ⟨fun _ stopped' => absurd (of_decide_eq_true stopped') running, fun _ => started⟩

theorem ages_replace (st : Stream) (items : List Object) (version : String) :
    st.Ages (st.replace items version).1 := by
  unfold replace
  cases stopped : st.isStopped with
  | true => exact ⟨id, id⟩
  | false => exact ⟨fun _ => nofun, fun _ => nofun⟩

theorem ages_receive (st : Stream) (e : Change) : st.Ages (st.receive e).1 := by
  unfold receive
  split <;> exact ⟨id, id⟩

theorem face_replace (st : Stream) (items : List Object) (version : String) :
    (st.replace items version).1.face = st.face := by
  unfold replace
  cases stopped : st.isStopped with
  | true => rfl
  | false => simpa [face, isStopped] using stopped

theorem face_receive (st : Stream) (e : Change) : (st.receive e).1.face = st.face := by
  unfold receive
  split <;> rfl

theorem face_start {st st' : Stream} (started : st.start? = .ok (some st')) :
    st'.face = st.face := by
  obtain ⟨created, rfl⟩ := start?_eq_ok started
  simp [face, isStopped, created]

end Stream

namespace Hub

open Relation (ReflTransGen)

/-- The hubs look the same to multiplexers; something may have been done past them. -/
structure Apart (h h' : Hub) : Prop where
  calls : h'.calls = h.calls
  multiplexers : h'.multiplexers = h.multiplexers
  managed : h.managers.map (·.multiplexer) <+: h'.managers.map (·.multiplexer)
  attached : h'.attached = h.attached
  bypasses : h.bypasses <:+ h'.bypasses
  faces : h'.streams.map Stream.face = h.streams.map Stream.face

theorem Apart.refl (h : Hub) : h.Apart h := ⟨rfl, rfl, List.prefix_rfl, rfl, List.suffix_rfl, rfl⟩

theorem Apart.trans {h h' h'' : Hub} (first : h.Apart h') (second : h'.Apart h'') :
    h.Apart h'' where
  calls := second.calls.trans first.calls
  multiplexers := second.multiplexers.trans first.multiplexers
  managed := first.managed.trans second.managed
  attached := second.attached.trans first.attached
  bypasses := first.bypasses.trans second.bypasses
  faces := second.faces.trans first.faces

theorem Aside.apart {h h' : Hub} (aside : h.Aside h') : h.Apart h' where
  calls := aside.calls
  multiplexers := aside.multiplexers
  managed := aside.managed
  attached := aside.attached
  bypasses := aside.bypasses ▸ List.suffix_rfl
  faces := by rw [aside.streams]

theorem Apart.faces_eq {h h' : Hub} (apart : h.Apart h') (n : Nat) :
    (h'.streams[n]?).map Stream.face = (h.streams[n]?).map Stream.face := by
  rw [← List.getElem?_map, ← List.getElem?_map, apart.faces]

theorem apart_bypass (h : Hub) (n : Nat) (b : Bypass) : h.Apart (h.bypass n b) := by
  unfold bypass
  split
  · exact { Apart.refl h with bypasses := List.suffix_cons b h.bypasses }
  · exact .refl h

theorem apart_deal (h : Hub) (d : Dealing) : h.Apart (h.deal d) := { Apart.refl h with }

/-- The hubs look the same to handlers, too: no stream has seen the object change.  Nothing has become
of any reference. -/
structure Still (h h' : Hub) : Prop extends Apart h h' where
  accounts : h'.accounts = h.accounts
  tellings : h'.tellings = h.tellings
  seen : h'.streams.map (·.cache.seen) = h.streams.map (·.cache.seen)
  ages : ∀ {n : Nat} {st st' : Stream}, h.streams[n]? = some st → h'.streams[n]? = some st' →
    st.Ages st'

theorem Aside.still {h h' : Hub} (aside : h.Aside h') : h.Still h' := {
  aside.apart with
  accounts := aside.accounts
  tellings := aside.tellings
  seen := by rw [aside.streams]
  ages := fun found found' => by
    rw [aside.streams, found] at found'
    cases found'
    exact ⟨id, id⟩ }

theorem Still.refl (h : Hub) : h.Still h := (Aside.refl h).still

theorem Still.trans {h h' h'' : Hub} (first : h.Still h') (second : h'.Still h'') :
    h.Still h'' := {
  first.toApart.trans second.toApart with
  accounts := second.accounts.trans first.accounts
  tellings := second.tellings.trans first.tellings
  seen := second.seen.trans first.seen
  ages := fun {n st st''} found found'' => by
    have face := second.faces_eq n
    rw [found''] at face
    obtain ⟨st', found', _⟩ := Option.map_eq_some_iff.mp face.symm
    have earlier := first.ages found found'
    have later := second.ages found' found''
    exact ⟨later.ends ∘ earlier.ends, later.started ∘ earlier.started⟩ }

/-- A stream as it was before. -/
theorem Still.back {h h' : Hub} (still : h.Still h') {n : Nat} {st' : Stream}
    (found : h'.streams[n]? = some st') :
    ∃ st, h.streams[n]? = some st ∧ st'.face = st.face ∧ st'.cache.seen = st.cache.seen ∧
      st.Ages st' := by
  have face := still.faces_eq n
  have seen : (h'.streams[n]?).map (·.cache.seen) = (h.streams[n]?).map (·.cache.seen) := by
    rw [← List.getElem?_map, ← List.getElem?_map, still.seen]
  rw [found] at face seen
  obtain ⟨st, before, sameFace⟩ := Option.map_eq_some_iff.mp face.symm
  rw [before] at seen
  exact ⟨st, before, sameFace.symm, Option.some.inj seen, still.ages before found⟩

/-- A stream as it is afterwards. -/
theorem Still.forth {h h' : Hub} (still : h.Still h') {n : Nat} {st : Stream}
    (found : h.streams[n]? = some st) :
    ∃ st', h'.streams[n]? = some st' ∧ st'.face = st.face ∧ st'.cache.seen = st.cache.seen ∧
      st.Ages st' := by
  have face := still.faces_eq n
  rw [found] at face
  obtain ⟨st', found', _⟩ := Option.map_eq_some_iff.mp face
  obtain ⟨st₀, before, same⟩ := still.back found'
  rw [found] at before
  cases before
  exact ⟨st', found', same⟩

/-- The loops of all stopped streams are to end. -/
def Orderly (h : Hub) : Prop := ∀ st ∈ h.streams, st.Ends

theorem Still.orderly {h h' : Hub} (still : h.Still h') (orderly : h.Orderly) : h'.Orderly := by
  intro st' mem
  obtain ⟨n, found⟩ := List.mem_iff_getElem?.mp mem
  obtain ⟨st, before, _, _, ages⟩ := still.back found
  exact ages.ends (orderly st (List.mem_of_getElem? before))

/-! ## Streams change -/

theorem map_updateStream {α : Type} {h : Hub} {n : Nat} {f : Stream → Stream} {g : Stream → α}
    (same : ∀ st, h.streams[n]? = some st → g (f st) = g st) :
    (h.updateStream n f).streams.map g = h.streams.map g := by
  apply List.ext_getElem?
  intro i
  rw [List.getElem?_map, List.getElem?_map, streams_updateStream]
  split
  · rename_i here
    subst here
    cases found : h.streams[n]? with
    | none => rfl
    | some st => exact congrArg some (same st found)
  · rfl

/-- The loops of stopped streams are still to end, if that of the one that changes is. -/
theorem Orderly.updateStream {h : Hub} {n : Nat} {f : Stream → Stream} (orderly : h.Orderly)
    (kept : ∀ st, h.streams[n]? = some st → st.Ends → (f st).Ends) :
    (h.updateStream n f).Orderly := by
  intro st' mem
  obtain ⟨i, found⟩ := List.mem_iff_getElem?.mp mem
  rw [streams_updateStream] at found
  split at found
  · rename_i here
    subst here
    obtain ⟨st, before, rfl⟩ := Option.map_eq_some_iff.mp found
    exact kept st before (orderly st (List.mem_of_getElem? before))
  · exact orderly st' (List.mem_of_getElem? found)

/-- A change of one stream that leaves its face alone. -/
theorem apart_updateStream {h : Hub} {n : Nat} {f : Stream → Stream}
    (same : ∀ st, h.streams[n]? = some st → (f st).face = st.face) :
    h.Apart (h.updateStream n f) :=
  { Apart.refl h with faces := map_updateStream same }

/-- A stream that looks the same to multiplexers takes the place of another one. -/
theorem apart_refaced {h : Hub} {n : Nat} {st st' : Stream} (found : h.streams[n]? = some st)
    (face : st'.face = st.face) : h.Apart (h.updateStream n fun _ => st') := by
  refine apart_updateStream fun st₀ found₀ => ?_
  rw [found] at found₀
  cases found₀
  exact face

/-- A change of one stream that nobody sees. -/
theorem still_updateStream {h : Hub} {n : Nat} {f : Stream → Stream}
    (face : ∀ st, (f st).face = st.face) (seen : ∀ st, (f st).cache.seen = st.cache.seen)
    (ages : ∀ st : Stream, st.Ages (f st)) : h.Still (h.updateStream n f) := {
  apart_updateStream fun st _ => face st with
  accounts := rfl
  tellings := rfl
  seen := map_updateStream fun st _ => seen st
  ages := fun found found' => by
    rw [streams_updateStream, found] at found'
    split at found'
    · cases found'
      exact ages _
    · cases found'
      exact ⟨id, id⟩ }

theorem still_backend (h : Hub) (backend : Backend) : h.Still { h with backend } :=
  { Still.refl h with }

theorem still_loops (h : Hub) (loops : List Loop) : h.Still { h with loops } :=
  { Still.refl h with }

theorem apart_startStream (h : Hub) (n parent : Nat) : h.Apart (h.startStream n parent).2 := by
  unfold startStream
  split
  · exact .refl h
  · rename_i st found
    split
    · exact .refl h
    · exact .refl h
    · rename_i st' started
      exact (apart_refaced found (Stream.face_start started)).trans { Apart.refl _ with }

/-! ## Deliveries -/

/-- The stream of number `n` becomes `st'`, and its handlers are called, if there is a callback. -/
def Delivers (h : Hub) (n : Nat) (st' : Stream) (callback : Option Callback) (h' : Hub) : Prop :=
  ∃ g g', h.Aside g ∧ (g.updateStream n fun _ => st').Aside g' ∧
    h' = callback.elim g' (g'.deliver n)

theorem aside_says {α : Type} (items : List α) (h : Hub) (level : Level) (message : String) :
    h.Aside (items.foldl (fun h _ => h.say level message) h) := by
  suffices said : ∃ trace, items.foldl (fun h _ => h.say level message) h = { h with trace } by
    obtain ⟨trace, eq⟩ := said
    rw [eq]
    exact { Aside.refl h with }
  induction items generalizing h with
  | nil => exact ⟨h.trace, rfl⟩
  | cons item items ih =>
    obtain ⟨trace, eq⟩ := ih (h.say level message)
    exact ⟨trace, eq⟩

theorem replace_delivers {h : Hub} {n : Nat} {st : Stream} (found : h.streams[n]? = some st)
    (items : List Object) (version : String) :
    h.Delivers n (st.replace items version).1 (st.replace items version).2
      (h.replace n items version) := by
  unfold replace
  rw [found]
  refine ⟨_, _, aside_says (items.filter fun o => !st.key.owns o) h .warn
    "list returned a foreign object, ignoring", ?_, rfl⟩
  split
  · exact aside_say _ _ _
  · exact .refl _

theorem receive_delivers {h : Hub} {n : Nat} {st : Stream} (found : h.streams[n]? = some st)
    (e : Change) :
    h.Delivers n (st.receive e).1 (st.receive e).2 (h.receive n e) := by
  unfold receive
  rw [found]
  refine ⟨_, _, ?_, .refl _, rfl⟩
  split
  · exact .refl h
  · exact aside_say _ _ _

end Hub

end SharedWatch
