import SharedWatch.Proofs.InterveningChanges

/-!
# What matters to those who share streams

What loops and handlers do in between is nothing to multiplexers, so a deed can be cut into pieces
that are much smaller than a delivery.

* `Hub.Shift`: one piece; `Hub.Shifts`: any number of them.
* `Deed.shifts`: every deed is made of pieces.  Handlers react between two pieces.
* `run_shifts`: so is every run.
* `Orderly.shifts`: whatever stops a stream lets its loop end.
-/

namespace SharedWatch

namespace Hub

open Relation (ReflTransGen)

/-! ## Pieces -/

/-- One piece of a deed. -/
inductive Shift : Hub → Hub → Prop
  | apart {h h' : Hub} : h.Apart h' → (h.Orderly → h'.Orderly) → Shift h h'
  | calm {h h' : Hub} : Calm h h' → Shift h h'
  | attach {h : Hub} {n : Nat} {st : Stream} (ref : HandlerRef) :
    h.streams[n]? = some st → st.isStopped = false →
    Shift h ((h.bypass n .attached).addHandler n ref)
  | join {h : Hub} {c : PendingCall} {n : Nat} {st : Stream} (ref : HandlerRef) :
    h.call? c.id = some c → c.waitsOn? = some n → h.streams[n]? = some st →
    st.isStopped = false → Shift h ((h.dropCall c.id).addHandler n ref)

/-- Pieces, one after the other. -/
abbrev Shifts : Hub → Hub → Prop := ReflTransGen Shift

theorem Still.shifts {h h' : Hub} (still : h.Still h') : Shifts h h' :=
  .single (.apart still.toApart still.orderly)

theorem Beats.shifts {h h' : Hub} (beats : Beats h h') : Shifts h h' := by
  induction beats with
  | refl => exact .refl
  | tail _ beat ih =>
    cases beat with
    | called e => exact ih.tail (.apart { Apart.refl _ with } id)
    | calm calm => exact ih.tail (.calm calm)

/-! ## Steps of a loop -/

/-- A delivery is nothing to multiplexers, but for what handlers do in between. -/
theorem Delivers.shifts {h h' : Hub} {n : Nat} {st st' : Stream} {callback : Option Callback}
    (delivers : h.Delivers n st' callback h') (found : h.streams[n]? = some st)
    (face : st'.face = st.face) (ages : st.Ages st') : Shifts h h' := by
  have changed := apart_refaced found face
  have orderly (all : h.Orderly) : (h.updateStream n fun _ => st').Orderly :=
    all.updateStream fun _ _ _ => ages.ends (all st (List.mem_of_getElem? found))
  exact (ReflTransGen.single (.apart changed orderly)).trans delivers.beats.shifts

/-- One step of a loop is nothing to multiplexers, but for what handlers do in between. -/
theorem LoopStep.shifts {h h' : Hub} {l : Loop} {st : Stream} (step : h.LoopStep l st h')
    (found : h.streams[l.stream]? = some st) : Shifts h h' := by
  rcases step.still_or_delivers found with still | ⟨g, g', x, news, before, found', delivers, after⟩
  · exact still.shifts
  · exact (before.shifts.trans (delivers.shifts found' news.face news.ages)).trans after.shifts

/-! ## Deeds and runs -/

/-- A loop that ends may halt its stream, and nothing else of it matters to multiplexers. -/
theorem loopEnd_cases (h : Hub) (id : Nat) :
    h.Still (h.loopEnd id) ∨ ∃ n, (h.haltStream n).2.Still (h.loopEnd id) := by
  unfold Hub.loopEnd
  split
  · exact .inl (.refl h)
  · rename_i l st _
    split
    · exact .inl (proceeds_endLoop h l).toStill
    · split
      · exact .inr ⟨l.stream, (proceeds_endLoop _ l).toStill⟩
      · exact .inl (.refl h)

theorem Deed.shifts {h h' : Hub} (deed : Deed h h') : Shifts h h' := by
  cases deed with
  | calm calm => exact .single (.calm calm)
  | attach n ref =>
    have streams : (h.bypass n .attached).streams = h.streams :=
      (beside_bypass h n .attached).streams
    rcases attachHandler_cases (h.bypass n .attached) n ref with ⟨same, _⟩ | ⟨st, found, running, more⟩
    · rw [same]
      exact .single (.apart (apart_bypass h n .attached) fun orderly => by
        unfold Orderly
        rwa [streams])
    · rw [streams] at found
      exact (ReflTransGen.single (.attach ref found running)).trans (Beats.shifts more)
  | join found waits attached =>
    rename_i c n ref r
    rcases attachHandler_cases (h.dropCall c.id) n ref with ⟨_, e, refused⟩ | ⟨st, found', running, more⟩
    · rw [refused] at attached
      cases attached
    · have joined := ReflTransGen.single (Shift.join ref found waits found' running)
      exact (joined.trans (Beats.shifts more)).tail (.apart (apart_deal _ _) id)
  | loop found stepped =>
    exact (stepLoop_cases stepped).shifts (stream_of_loop? found)
  | loopEnd id =>
    rcases loopEnd_cases h id with still | ⟨n, still⟩
    · exact still.shifts
    · exact (ReflTransGen.single (.calm (.halt n))).trans still.shifts

/-- Every run is made of pieces. -/
theorem run_shifts (es : List Event) (h : Hub) : Shifts h (h.run es) :=
  run_keeps (P := Shifts h) (fun earlier still => earlier.trans still.shifts)
    (fun earlier deed => earlier.trans deed.shifts) es .refl

/-! ## Stopped streams -/

theorem Orderly.life {h h' : Hub} (orderly : h.Orderly) (life : Life h h') : h'.Orderly := by
  cases life with
  | beside beside =>
    unfold Orderly
    rw [beside.streams]
    exact orderly
  | create key policy issuer =>
    intro st mem
    rcases List.mem_append.mp mem with old | new
    · exact orderly st old
    · obtain rfl := List.mem_singleton.mp new
      exact nofun
  | start n parent =>
    unfold Hub.startStream
    split
    · exact orderly
    · split
      · exact orderly
      · exact orderly
      · rename_i st' started
        obtain ⟨_, rfl⟩ := Stream.start?_eq_ok started
        exact orderly.updateStream fun _ _ _ => nofun
  | halt n =>
    have halted : (h.updateStream n (·.halt)).Orderly := by
      refine orderly.updateStream fun st _ ends => ?_
      unfold Stream.halt
      split
      · exact ends
      · exact fun _ => rfl
    unfold Hub.haltStream
    split
    · exact orderly
    · simp only
      split
      · exact orderly
      · split
        · exact halted
        · exact halted
  | detach found left =>
    rename_i st _ _
    obtain ⟨_, _, _, rfl⟩ := Stream.detach_eq_ok left
    have ends : st.Ends := orderly st (List.mem_of_getElem? found)
    exact orderly.updateStream fun _ _ _ => ends
  | openWatch sel version name =>
    unfold Hub.openWatch
    split
    · exact orderly
    · exact orderly
  | store _ => exact orderly
  | poll _ _ => exact orderly
  | dropWatch _ => exact orderly

theorem Orderly.lives {h h' : Hub} (orderly : h.Orderly) (lives : Lives h h') : h'.Orderly := by
  induction lives with
  | refl => exact orderly
  | tail _ life ih => exact ih.life life

/-- Whatever happens, the loops of stopped streams are to end. -/
theorem Orderly.shifts {h h' : Hub} (orderly : h.Orderly) (shifts : Shifts h h') :
    h'.Orderly := by
  induction shifts with
  | refl => exact orderly
  | tail _ shift ih =>
    cases shift with
    | apart _ kept => exact kept ih
    | calm calm => exact ih.lives calm.lives
    | attach ref _ _ =>
      rename_i n _ _ _
      have bypassed := ih.lives (beside_bypass _ n .attached).lives
      exact bypassed.updateStream fun _ _ ends => ends
    | join ref _ _ _ _ => exact ih.updateStream fun _ _ ends => ends

end Hub

end SharedWatch
