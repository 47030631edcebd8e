import Mathlib.Data.List.Nodup
import SharedWatch.Proofs.InterveningChanges

/-!
# Who tends a stream

A stream has one loop at most, because only a stream that has never been started can be started.
Whatever passes without a stream seeing its object change leaves it so.

* `Hub.Tended`: no two loops tend one stream.
* `Hub.Passes`: something passes of which no stream sees anything.
* `Lapse.passes`, `Proceeds.passes`, `passes_addHandler`: what is of this kind.
-/

namespace SharedWatch

/-- `st'` is `st` later, and has seen no more of its object. -/
structure Stream.Lasts (st st' : Stream) : Prop where
  key : st'.key = st.key
  seen : st'.cache.seen = st.cache.seen
  stopped : st.isStopped = true → st'.isStopped = true
  started : st.state ≠ .created → st'.state ≠ .created

theorem Stream.Keeps.lasts {st st' : Stream} (keeps : st.Keeps st') : st.Lasts st' :=
  ⟨keeps.key, congrArg Cache.seen keeps.cache, keeps.stopped, keeps.started⟩

theorem Stream.lasts_attach (st : Stream) (handler : Nat) (ref : HandlerRef) :
    st.Lasts (st.attach handler ref) := ⟨rfl, rfl, id, id⟩

namespace Hub

variable {hands : Nat → Prop} {id : Nat} {P : Stage → Prop} {h h' : Hub} {l l' : Loop}

/-- No two loops tend one stream, and a stream that a loop tends has been started. -/
structure Tended (h : Hub) : Prop where
  ids : (h.loops.map (·.id)).Nodup
  started : ∀ l ∈ h.loops, l.id < h.started
  begun : ∀ l ∈ h.loops, ∃ st, h.streams[l.stream]? = some st ∧ st.state ≠ .created
  sole : ∀ l ∈ h.loops, ∀ l' ∈ h.loops, l.stream = l'.stream → l.id = l'.id

theorem Tended.same (tended : h.Tended) (mem : l ∈ h.loops) (mem' : l' ∈ h.loops)
    (ids : l.id = l'.id) : l = l' := List.inj_on_of_nodup_map tended.ids mem mem' ids

/-- Something passes of which no stream sees anything.  The loop of number `id` may have moved, come
or gone; of the connections only those in `hands` have been read or let go. -/
structure Passes (hands : Nat → Prop) (id : Nat) (h h' : Hub) : Prop where
  store : Store.Grows hands h.backend.store h'.backend.store
  lists : h'.backend.lists <:+ h.backend.lists
  answers : h'.backend.watches <:+ h.backend.watches
  named : ∀ c, h'.Named c → h.Named c ∨ h.backend.store.opened ≤ c ∧ c < h'.backend.store.opened
  old : ∀ {n : Nat} {st : Stream}, h.streams[n]? = some st →
    ∃ st', h'.streams[n]? = some st' ∧ st.Lasts st'
  new : ∀ {n : Nat} {st' : Stream}, h.streams[n]? = none → h'.streams[n]? = some st' →
    st'.cache = {}
  loops : ∀ l ∈ h'.loops, l ∈ h.loops ∨ l.id = id
  tended : h.Tended → h'.Tended

/-- A stream is as it was, or has seen nothing yet. -/
theorem Passes.back (passes : Passes hands id h h') {n : Nat} {st' : Stream}
    (found' : h'.streams[n]? = some st') :
    (∃ st, h.streams[n]? = some st ∧ st.Lasts st') ∨ st'.cache = {} := by
  cases found : h.streams[n]? with
  | none => exact .inr (passes.new found found')
  | some st =>
    rcases passes.old found with ⟨st'', found'', lasts⟩
    rw [found'] at found''
    cases found''
    exact .inl ⟨st, rfl, lasts⟩

/-! ## Time passes -/

theorem Tended.lapse (tended : h.Tended) (lapse : h.Lapse h') : h'.Tended := by
  have begun {l : Loop} (mem : l ∈ h.loops) :
      ∃ st, h'.streams[l.stream]? = some st ∧ st.state ≠ .created := by
    rcases tended.begun l mem with ⟨st, found, running⟩
    rcases lapse.old found with ⟨st', found', keeps⟩
    exact ⟨st', found', keeps.started running⟩
  rcases lapse.loops with ⟨same, count⟩ | ⟨l, st, st', more, count, id, _, found, fresh, found', runs⟩
  · refine ⟨same ▸ tended.ids, ?_, ?_, ?_⟩
    · rw [same, count]
      exact tended.started
    · rw [same]
      exact fun l mem => begun mem
    · rw [same]
      exact tended.sole
  -- The stream of the new loop had not been started, so no loop has tended it yet.
  · have earlier {k : Loop} (mem : k ∈ h.loops) : k.id < l.id := id ▸ tended.started k mem
    have elsewhere {k : Loop} (mem : k ∈ h.loops) : k.stream ≠ l.stream := by
      intro same
      rcases tended.begun k mem with ⟨st₀, found₀, running⟩
      rw [same, found] at found₀
      cases found₀
      exact running fresh
    refine ⟨?_, fun k mem => ?_, fun k mem => ?_, fun k mem k' mem' same => ?_⟩
    · rw [more, List.map_append, List.nodup_append]
      refine ⟨tended.ids, List.nodup_singleton _, fun i mem i' only => ?_⟩
      rcases List.mem_map.mp mem with ⟨k, old, rfl⟩
      have new : i' = l.id := List.mem_singleton.mp only
      have := earlier old
      omega
    · rw [more, List.mem_append, List.mem_singleton] at mem
      rcases mem with old | rfl
      · have := tended.started k old
        omega
      · omega
    · rw [more, List.mem_append, List.mem_singleton] at mem
      rcases mem with old | rfl
      · exact begun old
      · exact ⟨st', found', runs⟩
    · rw [more, List.mem_append, List.mem_singleton] at mem mem'
      rcases mem with old | rfl
      · rcases mem' with old' | rfl
        · exact tended.sole k old k' old' same
        · exact absurd same (elsewhere old)
      · rcases mem' with old' | rfl
        · exact absurd same.symm (elsewhere old')
        · rfl

theorem Lapse.passes (lapse : h.Lapse h') : Passes h.Named h.started h h' where
  store := lapse.store
  lists := lapse.lists ▸ List.suffix_rfl
  answers := lapse.answers ▸ List.suffix_rfl
  named := lapse.named
  old found := by
    rcases lapse.old found with ⟨st', found', keeps⟩
    exact ⟨st', found', keeps.lasts⟩
  new := lapse.new
  loops l mem := by
    rcases lapse.loops with ⟨same, _⟩ | ⟨l₀, _, _, more, _, id, _⟩
    · exact .inl (same ▸ mem)
    · rw [more, List.mem_append, List.mem_singleton] at mem
      rcases mem with old | rfl
      · exact .inl old
      · exact .inr id
  tended tended := tended.lapse lapse

theorem Lapse.keeps_loop (lapse : h.Lapse h') (mem : l ∈ h.loops) : l ∈ h'.loops := by
  rcases lapse.loops with ⟨same, _⟩ | ⟨_, _, _, more, _⟩
  · rwa [same]
  · rw [more]
    exact List.mem_append_left _ mem

theorem Lapses.keeps_loop (lapses : Lapses h h') (mem : l ∈ h.loops) : l ∈ h'.loops := by
  induction lapses with
  | refl => exact mem
  | tail _ lapse ih => exact lapse.keeps_loop ih

/-! ## A loop moves -/

theorem Proceeds.old (proceeds : Proceeds hands id P h h') {n : Nat} {st : Stream}
    (found : h.streams[n]? = some st) : ∃ st', h'.streams[n]? = some st' ∧ st.Lasts st' := by
  rcases proceeds.toStill.forth found with ⟨st', found', face, seen, ages⟩
  exact ⟨st', found', congrArg Face.key face, seen,
    fun stopped => (congrArg Face.isStopped face).trans stopped, ages.started⟩

theorem Tended.proceeds (tended : h.Tended) (proceeds : Proceeds hands id P h h') : h'.Tended := by
  have back {l' : Loop} (mem : l' ∈ h'.loops) :
      ∃ l ∈ h.loops, l.id = l'.id ∧ l.stream = l'.stream := by
    rcases proceeds.loops l' mem with ⟨old, _⟩ | ⟨l, old, own, own', stream, _⟩
    · exact ⟨l', old, rfl, rfl⟩
    · exact ⟨l, old, own.trans own'.symm, stream.symm⟩
  refine ⟨tended.ids.sublist proceeds.ids, fun l' mem => ?_, fun l' mem => ?_,
    fun l₁ mem₁ l₂ mem₂ same => ?_⟩
  · rcases back mem with ⟨l, old, ids, _⟩
    rw [proceeds.started, ← ids]
    exact tended.started l old
  · rcases back mem with ⟨l, old, _, stream⟩
    rcases tended.begun l old with ⟨st, found, running⟩
    rcases proceeds.old found with ⟨st', found', lasts⟩
    exact ⟨st', stream ▸ found', lasts.started running⟩
  · rcases back mem₁ with ⟨k₁, old₁, ids₁, stream₁⟩
    rcases back mem₂ with ⟨k₂, old₂, ids₂, stream₂⟩
    rw [← ids₁, ← ids₂]
    exact tended.sole k₁ old₁ k₂ old₂ (by rw [stream₁, stream₂, same])

theorem Proceeds.passes (proceeds : Proceeds hands id P h h') : Passes hands id h h' where
  store := proceeds.store
  lists := proceeds.lists
  answers := proceeds.answers
  named c named := .inl (by unfold Named at named ⊢; rwa [proceeds.watches] at named)
  old := proceeds.old
  new {n st'} none found := by
    rcases proceeds.toStill.back found with ⟨st, before, _⟩
    rw [none] at before
    cases before
  loops l' mem := (proceeds.loops l' mem).imp (·.1) fun ⟨_, _, _, own, _⟩ => own
  tended tended := tended.proceeds proceeds

/-! ## A stream changes -/

/-- A started stream stays started when it changes. -/
theorem Tended.updateStream (tended : h.Tended) {n : Nat} {f : Stream → Stream}
    (started : ∀ st, h.streams[n]? = some st → st.state ≠ .created → (f st).state ≠ .created) :
    (h.updateStream n f).Tended := by
  refine { tended with begun := fun l mem => ?_ }
  rcases tended.begun l mem with ⟨st, found, running⟩
  rw [streams_updateStream]
  split
  · rename_i here
    exact ⟨f st, by rw [found]; rfl, started st (here ▸ found) running⟩
  · exact ⟨st, found, running⟩

theorem passes_addHandler (h : Hub) (n : Nat) (ref : HandlerRef) :
    Passes hands h.started h (h.addHandler n ref) where
  store := .refl _
  lists := List.suffix_rfl
  answers := List.suffix_rfl
  named _ := .inl
  old {i st} found := by
    have here := streams_updateStream { h with attached := h.attached + 1 } n
      (·.attach (h.attached + 1) ref) i
    split at here
    · exact ⟨_, here.trans (congrArg _ found), st.lasts_attach _ _⟩
    · exact ⟨st, here.trans found, rfl, rfl, fun stopped => stopped, fun running => running⟩
  new {i st'} none found := by
    have here := streams_updateStream { h with attached := h.attached + 1 } n
      (·.attach (h.attached + 1) ref) i
    rw [show ({ h with attached := h.attached + 1 } : Hub).streams[i]? = .none from none] at here
    split at here
    · exact nomatch found.symm.trans here
    · exact nomatch found.symm.trans here
  loops _ := .inl
  tended tended := by
    have entered : Tended { h with attached := h.attached + 1 } := { tended with }
    exact entered.updateStream fun _ _ running => running

end Hub

end SharedWatch
