import SharedWatch.Proofs.SideChanges

/-!
# The life of streams

Whatever is asked of a hub, to its streams only a few things can happen without their being told
anything: they are made, started, stopped, and left by handlers.  Beside that the store changes,
and raw watches of the store are opened, read and dropped.

* `Store.Op`: what a store can be asked for without a connection.
* `Hub.Life`: one of these things happens; `Hub.Lives`: any number of them.
* `lives_acquire`, `lives_unsubscribe` and the other theorems of this form: all that a multiplexer
  does to streams is of this kind.
-/

namespace SharedWatch

/-- What a store can be asked for, watch connections apart. -/
inductive Store.Op
  /-- Stores an object. -/
  | apply (key : ObjectKey) (data : String)
  /-- Removes an object. -/
  | delete (key : ObjectKey)
  /-- Closes all watch connections. -/
  | disconnect
  /-- Empties the change log. -/
  | compact
  /-- Makes the next full reads fail. -/
  | failLists (n : Nat)
  /-- Makes the next watches fail. -/
  | failWatches (n : Nat)
  /-- Reads in full. -/
  | list (selector : Selector)
  /-- Counts the open watch connections. -/
  | count

/-- The store after an operation. -/
def Store.Op.run (s : Store) : Store.Op → Store
  | apply key data => (s.apply key data).2
  | delete key => (s.delete key).2
  | disconnect => s.disconnect
  | compact => s.compact
  | failLists n => s.failLists n
  | failWatches n => s.failWatches n
  | list selector => (s.list selector).2
  | count => s.watcherCount.2

/-- `st'` is `st` later in its life, and nobody has been told anything: it may have been started,
stopped or left by handlers. -/
structure Stream.Keeps (st st' : Stream) : Prop where
  key : st'.key = st.key
  issuer : st'.issuer = st.issuer
  cache : st'.cache = st.cache
  hasSynced : st'.hasSynced = st.hasSynced
  abandoned : st'.abandoned = st.abandoned
  handlers : st'.handlers.Sublist st.handlers
  stopped : st.isStopped = true → st'.isStopped = true
  started : st.state ≠ .created → st'.state ≠ .created

namespace Stream.Keeps

variable {st st' st'' : Stream}

theorem refl (st : Stream) : st.Keeps st := ⟨rfl, rfl, rfl, rfl, rfl, .refl _, id, id⟩

theorem trans (first : st.Keeps st') (second : st'.Keeps st'') : st.Keeps st'' where
  key := second.key.trans first.key
  issuer := second.issuer.trans first.issuer
  cache := second.cache.trans first.cache
  hasSynced := second.hasSynced.trans first.hasSynced
  abandoned := second.abandoned.trans first.abandoned
  handlers := second.handlers.trans first.handlers
  stopped := second.stopped ∘ first.stopped
  started := second.started ∘ first.started

end Stream.Keeps

theorem Stream.keeps_halt (st : Stream) : st.Keeps st.halt := by
  unfold halt
  split
  · exact .refl st
  · exact ⟨rfl, rfl, rfl, rfl, rfl, List.nil_sublist _, fun _ => rfl, fun _ => by simp⟩

/-- Only the handler of the registration leaves. -/
theorem Stream.detach_eq_ok {st st' : Stream} {n : Nat} {r : Registration}
    (left : st.detach n r = .ok st') :
    r.stream = n ∧ r.key = st.key ∧ (∃ h ∈ st.handlers, h.1 = r.handler) ∧
      st' = { st with handlers := st.handlers.filter fun h => h.1 != r.handler } := by
  unfold detach at left
  split at left
  · rename_i known
    obtain ⟨stream, key, attached⟩ := known
    cases left
    refine ⟨stream, key, ?_, rfl⟩
    simpa using attached
  · cases left

theorem Stream.keeps_detach {st st' : Stream} {n : Nat} {r : Registration}
    (left : st.detach n r = .ok st') : st.Keeps st' := by
  obtain ⟨_, _, _, rfl⟩ := detach_eq_ok left
  exact ⟨rfl, rfl, rfl, rfl, rfl, List.filter_sublist, id, id⟩

theorem Stream.start?_eq_ok {st st' : Stream} (started : st.start? = .ok (some st')) :
    st.state = .created ∧ st' = { st with state := .syncing } := by
  unfold start? at started
  split at started
  · cases started
  · cases started
  · cases started
  · rename_i created
    cases started
    exact ⟨created, rfl⟩

theorem Stream.keeps_start {st st' : Stream} (started : st.start? = .ok (some st')) :
    st.Keeps st' := by
  obtain ⟨created, rfl⟩ := start?_eq_ok started
  refine ⟨rfl, rfl, rfl, rfl, rfl, .refl _, fun stopped => ?_, fun _ => by simp⟩
  simp [isStopped, created] at stopped

namespace Hub

open Relation (ReflTransGen)

/-- One thing happens to streams or to the store, and no handler is told. -/
inductive Life : Hub → Hub → Prop
  | beside {h h' : Hub} : h.Beside h' → Life h h'
  | create {h : Hub} (key : ObjectKey) (policy : RetryPolicy) (issuer : Option Nat) :
    Life h (h.createStream key policy issuer).2
  | start {h : Hub} (n parent : Nat) : Life h (h.startStream n parent).2
  | halt {h : Hub} (n : Nat) : Life h (h.haltStream n).2
  | detach {h : Hub} {n : Nat} {st st' : Stream} {r : Registration} :
    h.streams[n]? = some st → st.detach n r = .ok st' → Life h (h.updateStream n fun _ => st')
  | store {h : Hub} (op : Store.Op) : Life h (h.updateStore fun s => op.run s)
  | openWatch {h : Hub} (sel : Selector) (version name : String) :
    Life h (h.openWatch sel version name).2
  | poll {h : Hub} {name : String} {connection : Nat} (limit : Option Nat) :
    h.names.watches.lookup name = some connection → Life h (h.poll connection limit).2
  | dropWatch {h : Hub} {name : String} {connection : Nat} :
    h.names.watches.lookup name = some connection →
    Life h ((h.updateStore (·.release connection)).rename fun d =>
      { d with watches := dropName d.watches name })

/-- Things happen to streams or to the store, one after the other. -/
abbrev Lives : Hub → Hub → Prop := ReflTransGen Life

theorem Beside.lives {h h' : Hub} (beside : h.Beside h') : Lives h h' := .single (.beside beside)

theorem Aside.lives {h h' : Hub} (aside : h.Aside h') : Lives h h' := aside.toBeside.lives

theorem lives_deal (h : Hub) (d : Dealing) : Lives h (h.deal d) := (beside_deal h d).lives

theorem lives_updateMultiplexer (h : Hub) (m : Nat) (f : Multiplexer → Multiplexer) :
    Lives h (h.updateMultiplexer m f) := Beside.lives { Beside.refl h with }

theorem lives_calls (h : Hub) (calls : List PendingCall) : Lives h { h with calls } :=
  Beside.lives { Beside.refl h with }

theorem lives_stopStream (h : Hub) (n : Nat) : Lives h (h.stopStream n).2 := by
  have halted : Lives h (h.haltStream n).2 := .single (.halt n)
  unfold stopStream
  simp only
  split
  · exact halted.trans (aside_say _ _ _).lives
  · exact halted

/-! ## What a life keeps -/

/-- The streams of the first hub are streams of the second one, and any other has no handler and
has seen nothing; nobody has been told anything. -/
structure Keeps (h h' : Hub) : Prop where
  old : ∀ {n : Nat} {st : Stream}, h.streams[n]? = some st →
    ∃ st', h'.streams[n]? = some st' ∧ st.Keeps st'
  new : ∀ {n : Nat} {st' : Stream}, h.streams[n]? = none → h'.streams[n]? = some st' →
    st'.handlers = [] ∧ st'.cache = {}
  attached : h'.attached = h.attached
  tellings : h'.tellings = h.tellings

namespace Keeps

variable {h h' h'' : Hub}

theorem of_streams (streams : h'.streams = h.streams) (attached : h'.attached = h.attached)
    (tellings : h'.tellings = h.tellings) : h.Keeps h' := by
  refine ⟨fun {_ st} found => ⟨st, streams ▸ found, .refl st⟩, fun none some => ?_, attached,
    tellings⟩
  rw [streams, none] at some
  cases some

theorem refl (h : Hub) : h.Keeps h := of_streams rfl rfl rfl

theorem trans (first : h.Keeps h') (second : h'.Keeps h'') : h.Keeps h'' where
  old found := by
    obtain ⟨st', found', keeps⟩ := first.old found
    obtain ⟨st'', found'', keeps'⟩ := second.old found'
    exact ⟨st'', found'', keeps.trans keeps'⟩
  new {n st''} none some := by
    cases found' : h'.streams[n]? with
    | none => exact second.new found' some
    | some st' =>
      obtain ⟨handlers, cache⟩ := first.new none found'
      obtain ⟨_, found'', keeps⟩ := second.old found'
      rw [some] at found''
      cases found''
      exact ⟨List.sublist_nil.mp (handlers ▸ keeps.handlers), keeps.cache.trans cache⟩
  attached := second.attached.trans first.attached
  tellings := second.tellings.trans first.tellings

end Keeps

theorem streams_updateStream (h : Hub) (n : Nat) (f : Stream → Stream) (i : Nat) :
    (h.updateStream n f).streams[i]? = if n = i then h.streams[i]?.map f else h.streams[i]? := by
  unfold updateStream
  rw [List.getElem?_modify]
  split
  · rfl
  · simp

/-- A change of one stream that keeps it keeps all. -/
theorem keeps_updateStream {h : Hub} {n : Nat} {f : Stream → Stream}
    (keeps : ∀ st, h.streams[n]? = some st → st.Keeps (f st)) : h.Keeps (h.updateStream n f) := by
  refine ⟨fun {i st} found => ?_, fun {i st'} none some => ?_, rfl, rfl⟩
  · rw [streams_updateStream, found]
    split
    · rename_i same
      exact ⟨f st, rfl, keeps st (same ▸ found)⟩
    · exact ⟨st, rfl, .refl st⟩
  · rw [streams_updateStream, none] at some
    split at some <;> cases some

theorem keeps_createStream (h : Hub) (key : ObjectKey) (policy : RetryPolicy)
    (issuer : Option Nat) : h.Keeps (h.createStream key policy issuer).2 := by
  unfold createStream
  refine ⟨fun {i st} found => ⟨st, ?_, .refl st⟩, fun {i st'} none some => ?_, rfl, rfl⟩
  · have bound := (List.getElem?_eq_some_iff.mp found).1
    rw [List.getElem?_append_left bound]
    exact found
  · have bound := List.getElem?_eq_none_iff.mp none
    rw [List.getElem?_append_right bound] at some
    obtain ⟨_, rfl⟩ := List.getElem?_eq_some_iff.mp some
    simp

theorem keeps_startStream (h : Hub) (n parent : Nat) : h.Keeps (h.startStream n parent).2 := by
  unfold startStream
  split
  · exact .refl h
  · rename_i st hst
    split
    · exact .refl h
    · exact .refl h
    · rename_i st' started
      have kept : h.Keeps (h.updateStream n fun _ => st') := by
        refine keeps_updateStream fun st₀ found => ?_
        rw [hst] at found
        cases found
        exact Stream.keeps_start started
      exact kept.trans (.of_streams rfl rfl rfl)

theorem keeps_haltStream (h : Hub) (n : Nat) : h.Keeps (h.haltStream n).2 := by
  unfold haltStream
  split
  · exact .refl h
  · rename_i st hst
    split
    · exact .refl h
    · have kept : h.Keeps (h.updateStream n (·.halt)) :=
        keeps_updateStream fun st _ => st.keeps_halt
      simp only
      split
      · exact kept
      · exact kept.trans (.of_streams rfl rfl rfl)

theorem Life.keeps {h h' : Hub} (life : Life h h') : h.Keeps h' := by
  cases life with
  | beside beside => exact .of_streams beside.streams beside.attached beside.tellings
  | create key policy issuer => exact keeps_createStream h key policy issuer
  | start n parent => exact keeps_startStream h n parent
  | halt n => exact keeps_haltStream h n
  | detach found left =>
    refine keeps_updateStream fun st₀ found₀ => ?_
    rw [found] at found₀
    cases found₀
    exact Stream.keeps_detach left
  | store op => exact .of_streams rfl rfl rfl
  | openWatch sel version name =>
    unfold Hub.openWatch
    split <;> exact .of_streams rfl rfl rfl
  | poll limit _ => exact .of_streams rfl rfl rfl
  | dropWatch _ => exact .of_streams rfl rfl rfl

theorem Lives.keeps {h h' : Hub} (lives : Lives h h') : h.Keeps h' := by
  induction lives with
  | refl => exact .refl h
  | tail _ life ih => exact ih.trans life.keeps

/-! ## What a multiplexer does -/

theorem lives_openStream (h : Hub) (m : Nat) (mux : Multiplexer) (key : ObjectKey) :
    Lives h (h.openStream m mux key).2 := by
  unfold openStream
  have created : Lives h (h.createStream key mux.settings.listWatch (some m)).2 :=
    .single (.create _ _ _)
  exact (created.tail (.start _ _)).trans (aside_say _ _ _).lives

theorem lives_retire (h : Hub) (old : Monitor) : Lives h (h.retire old) := by
  unfold retire
  exact ((lives_stopStream h old.stream).trans (lives_deal _ _)).trans
    (aside_say _ _ _).lives

theorem lives_acquire (h : Hub) (m : Nat) (mux : Multiplexer) (key : ObjectKey) :
    Lives h (h.acquire m mux key).2 := by
  unfold acquire
  split
  · split
    · exact lives_updateMultiplexer _ _ _
    · exact ((lives_openStream h m mux key).trans (lives_updateMultiplexer _ _ _)).trans
        (lives_retire _ _)
  · exact (lives_openStream h m mux key).trans (lives_updateMultiplexer _ _ _)

theorem lives_giveBack (h : Hub) (m : Nat) (mux : Multiplexer) (key : ObjectKey) (e : Monitor) :
    Lives h (h.giveBack m mux key e).2 := by
  unfold giveBack
  split
  · exact (lives_updateMultiplexer _ _ _).trans (lives_stopStream _ _)
  · exact lives_updateMultiplexer _ _ _

theorem lives_release (h : Hub) (m : Nat) (key : ObjectKey) (n : Nat) :
    Lives h (h.release m key n) := by
  unfold release
  split
  · exact .refl
  · rename_i mux _
    split
    · exact .refl
    · rename_i e _
      split
      · have given := lives_giveBack h m mux key e
        simp only
        split
        · exact given.trans (aside_say _ _ _).lives
        · exact given
      · exact .refl

theorem lives_leaveStream {h g : Hub} {n : Nat} {st : Stream} {r : Registration}
    (hst : h.streams[n]? = some st) (left : h.leaveStream n st r = .ok g) : Lives h g := by
  unfold leaveStream at left
  split at left
  · cases left
    exact (aside_say _ _ _).lives
  · cases hd : st.detach n r with
    | error failure => rw [hd] at left; cases left
    | ok st' =>
      rw [hd] at left
      cases left
      exact .single (.detach hst hd)

theorem aside_closeRegistration (h : Hub) (m : Nat) (mux : Multiplexer) (r : Registration)
    (late : Bool) (e : Monitor) :
    (((h.deal (.returned r late)).say .info "handler unsubscribed").giveBack m mux r.key e).2.Aside
      (h.closeRegistration m mux r late e) := by
  unfold closeRegistration
  simp only
  split
  · exact aside_say _ _ _
  · exact .refl _

theorem lives_closeRegistration (h : Hub) (m : Nat) (mux : Multiplexer) (r : Registration)
    (late : Bool) (e : Monitor) : Lives h (h.closeRegistration m mux r late e) := by
  have counted : Lives h ((h.deal (.returned r late)).say .info "handler unsubscribed") :=
    (lives_deal _ _).trans (aside_say _ _ _).lives
  exact (counted.trans (lives_giveBack _ m mux r.key e)).trans
    (aside_closeRegistration h m mux r late e).lives

/-- What `unsubscribe` can come to.  Either it only leaves a message, or the registration belongs
to its key's stream: then the handler leaves, unless the stream has been stopped, and the reference
goes back. -/
theorem unsubscribe_cases (h : Hub) (m : Nat) (r : Registration) :
    h.Aside (h.unsubscribe m r).2 ∨ ∃ mux e st g, h.multiplexers[m]? = some mux ∧
      mux.monitor? r.key = some e ∧ e.stream = r.stream ∧ r.issuer = some m ∧
      h.streams[e.stream]? = some st ∧ h.leaveStream e.stream st r = .ok g ∧
      h.unsubscribe m r = (.ok (), g.closeRegistration m mux r st.isStopped e) := by
  unfold unsubscribe
  split
  · exact .inl (.refl h)
  rename_i issued
  split
  · exact .inl (.refl h)
  rename_i mux hmux
  split
  · exact .inl (aside_say _ _ _)
  rename_i e he
  split
  · exact .inl (.refl h)
  rename_i st hst
  split
  · exact .inl (.refl h)
  · rename_i g hg
    obtain ⟨found, same⟩ := Option.filter_eq_some_iff.mp he
    exact .inr ⟨mux, e, st, g, hmux, found, by simpa using same, by simpa using issued, hst, hg,
      rfl⟩

theorem lives_unsubscribe (h : Hub) (m : Nat) (r : Registration) :
    Lives h (h.unsubscribe m r).2 := by
  rcases unsubscribe_cases h m r with aside | ⟨mux, e, st, g, _, _, _, _, hst, left, eq⟩
  · exact aside.lives
  · rw [eq]
    exact (lives_leaveStream hst left).trans (lives_closeRegistration _ _ _ _ _ _)

theorem lives_stopAll (entries : List (ObjectKey × Monitor)) (h : Hub)
    (count : Hub → Monitor → Hub) (counted : ∀ g e, Lives g (count g e)) :
    Lives h (entries.foldl (fun h (_, e) => count (h.stopStream e.stream).2 e) h) := by
  induction entries generalizing h with
  | nil => exact .refl
  | cons entry entries ih =>
    exact ((lives_stopStream h entry.2.stream).trans (counted _ _)).trans (ih _)

theorem lives_shutdown (h : Hub) (m : Nat) : Lives h (h.shutdown m) := by
  unfold shutdown
  split
  · exact .refl
  · rename_i mux _
    have stopped := lives_stopAll mux.monitors (h.updateMultiplexer m fun mux =>
      { mux with monitors := [], isShut := true }) (fun g e => g.deal (.closed e)) fun g e => lives_deal g _
    exact (((lives_updateMultiplexer h m _).trans stopped).trans (aside_fire _ _).lives).trans
      (aside_say _ _ _).lives

theorem lives_dropMultiplexer (h : Hub) (m : Nat) : Lives h (h.dropMultiplexer m) := by
  unfold dropMultiplexer
  split
  · exact .refl
  · exact (lives_updateMultiplexer h m _).trans
      (lives_stopAll _ _ (fun g e => g.deal (.dropped e)) fun g e => lives_deal g _)

end Hub

end SharedWatch
