import SharedWatch.Proofs.LoopFrame

/-!
# Tokens of running streams

A multiplexer starts every stream that it makes under its own token, and nobody else starts it.

* `Hub.Rooted`: the loops of a multiplexer's streams heed the multiplexer's token.
* `Rooted.course`: it stays so whatever happens; `rooted_run`: so it is in every run.
-/

namespace SharedWatch

namespace Hub

variable {h h' : Hub} {c : PendingCall} {m n : Nat} {mux : Multiplexer} {at? of? : Option Nat}

/-- The streams of multiplexers have been started, and their loops heed the tokens of these. -/
structure Rooted (h : Hub) : Prop where
  begun : ∀ {n : Nat} {st : Stream}, h.streams[n]? = some st → st.issuer.isSome = true →
    st.state ≠ .created
  parents : ∀ l ∈ h.loops, ∀ {st : Stream} {m : Nat}, h.streams[l.stream]? = some st →
    st.issuer = some m → (h.multiplexers[m]?).map (·.root) = some l.parent

theorem root_of_roots {root : Nat}
    (roots : h.multiplexers.map (fun mux => (mux.root, mux.settings)) <+:
      h'.multiplexers.map fun mux => (mux.root, mux.settings))
    (known : (h.multiplexers[m]?).map (·.root) = some root) :
    (h'.multiplexers[m]?).map (·.root) = some root := by
  obtain ⟨mux, found, rfl⟩ := Option.map_eq_some_iff.mp known
  have known' := known_of_roots roots (m := m) (by rw [found]; rfl)
  obtain ⟨mux', found', same⟩ := Option.map_eq_some_iff.mp known'
  rw [found']
  exact congrArg some (congrArg Prod.fst same)

/-- Whatever happens, multiplexers keep their tokens and settings. -/
theorem Course.roots {e : Event} (course : h.Course e h') :
    h.multiplexers.map (fun mux => (mux.root, mux.settings)) <+:
      h'.multiplexers.map fun mux => (mux.root, mux.settings) := by
  cases course with
  | gentle gentle _ => exact gentle.roots
  | starts n parent gentle => exact gentle.roots.trans (modest_startStream _ n parent).roots
  | steps id => exact (modest_loopStep h id).roots
  | ends id => exact (modest_loopEnd h id).roots
  | waits ms => exact List.prefix_rfl
  | drops _ _ before after _ => exact before.roots.trans after.roots
  | turns _ asked takes turned =>
    exact (asked.gentle.roots.trans takes.modest.roots).trans (SparingSteps.roots turned.sparing)

namespace Rooted

/-- What spares all but one loop and its stream leaves it so. -/
theorem spares (rooted : h.Rooted) (spares : h.Spares at? of? h') : h'.Rooted where
  begun {n st'} found' shared := by
    cases found : h.streams[n]? with
    | none => simp [spares.new found found'] at shared
    | some st =>
      obtain ⟨_, here, same, _⟩ := spares.old found
      cases here.symm.trans found'
      have issuer := congrArg Prod.snd same
      have before := rooted.begun found ((congrArg Option.isSome issuer).symm.trans shared)
      obtain ⟨_, here', begun⟩ := spares.begun ⟨st, found, before⟩
      cases here'.symm.trans found'
      exact begun
  parents l' mem {st' m} found' issuer := by
    -- A loop of a multiplexer's stream was there before, for the same stream and with the same token.
    have ⟨l, old, post⟩ : ∃ l ∈ h.loops, (l.stream, l.parent) = (l'.stream, l'.parent) := by
      by_cases own : of? = some l'.id
      · obtain ⟨l, old, _, same⟩ := spares.own l' mem own
        exact ⟨l, old, same⟩
      · exact ⟨l', (spares.loops own).mp mem, rfl⟩
    obtain ⟨stream, parent⟩ := Prod.mk.inj post
    cases found : h.streams[l'.stream]? with
    | none => cases issuer.symm.trans (spares.new found found')
    | some st =>
      obtain ⟨_, here, same, _⟩ := spares.old found
      cases here.symm.trans found'
      have issuer' : st.issuer = some m := (congrArg Prod.snd same).symm.trans issuer
      rw [← parent]
      exact root_of_roots spares.roots (rooted.parents l old (stream ▸ found) issuer')

/-- Nothing but a loop touches it. -/
theorem lasting : Lasting Rooted where
  spares rooted spares := rooted.spares spares
  starts {h n st} rooted found created parent :=
    { begun := fun found' shared => by
        rcases streams_started_cases found created found' with ⟨_, rfl⟩ | old
        · exact nofun
        · exact rooted.begun old shared
      parents := fun l mem {st' m} found' issuer => by
        have ⟨st₀, before, issuer'⟩ : ∃ st₀, h.streams[l.stream]? = some st₀ ∧ st₀.issuer = some m := by
          rcases streams_started_cases found created found' with ⟨here, rfl⟩ | old
          · exact ⟨st, here ▸ found, issuer⟩
          · exact ⟨st', old, issuer⟩
        rcases loops_started_cases found created mem with old | ⟨rfl, _⟩
        · rw [startStream_eq found created]
          exact rooted.parents l old before issuer'
        · cases found.symm.trans before
          exact absurd created (rooted.begun found (congrArg Option.isSome issuer')) }
  opens {h m mux} rooted tended known key := by
    rw [openStream_eq]
    exact
      { begun := fun found shared => by
          rcases streams_append_cases found with old | ⟨_, rfl⟩
          · exact rooted.begun old shared
          · exact nofun
        parents := fun l mem {st' m'} found issuer => by
          rcases loops_opened_cases tended mem found with ⟨before, old⟩ | ⟨parent, _, rfl⟩
          · exact rooted.parents l before old issuer
          · cases issuer
            rw [parent]
            exact congrArg (Option.map (·.root)) known }

/-- So does one such thing after the other. -/
theorem sparing (rooted : h.Rooted) (steps : SparingSteps at? of? h h') : h'.Rooted := by
  induction steps with
  | refl => exact rooted
  | tail _ step ih =>
    cases step with
    | spares spares => exact ih.spares spares
    | starts n parent => exact lasting.startStream ih n parent

/-- A loop that goes on leaves it so. -/
theorem loopStep (rooted : h.Rooted) (id : Nat) : (h.loopStep id).Rooted := by
  cases found : h.loop? id with
  | none =>
    unfold Hub.loopStep
    rwa [found]
  | some x => exact rooted.sparing (sparing_loopStep found)

/-- So does a loop that ends. -/
theorem loopEnd (rooted : h.Rooted) (id : Nat) : (h.loopEnd id).Rooted := by
  cases found : h.loop? id with
  | none =>
    unfold Hub.loopEnd
    rwa [found]
  | some x => exact rooted.spares (within_loopEnd found).spares

/-- So it stays, whatever happens. -/
theorem course {e : Event} (rooted : h.Rooted) (regular : h.Regular) (course : h.Course e h') :
    h'.Rooted :=
  lasting.course rooted regular (fun id _ => rooted.loopStep id) (fun id _ => rooted.loopEnd id) course

end Rooted

/-- The loops of a multiplexer's streams heed the multiplexer's token. -/
theorem rooted_run (limit : Nat) (draws : Draws) (es : List Event) :
    ((start limit draws).run es).Rooted := by
  induction es using List.reverseRecOn with
  | nil => exact ⟨fun found => (nomatch found), fun _ mem => (List.not_mem_nil mem).elim⟩
  | append_singleton es e ih =>
    exact ih.course (regular_run limit draws es) (run_course limit draws es e)

end Hub

end SharedWatch
