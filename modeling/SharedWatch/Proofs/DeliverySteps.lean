import SharedWatch.Proofs.EventDeeds
import SharedWatch.Proofs.StreamFaces

/-!
# What happens while a stream delivers

While a stream calls its handlers, they are called and may react; nothing else happens.

* `Hub.Beat`: a handler is called, or something happens of which no handler is told; `Hub.Beats`:
  one after the other.
* `beats_deliver`, `Delivers.beats`: so it is with a delivery, once the stream has seen the change.
* `attachHandler_cases`: so it is when a handler is attached, once it has been entered.
-/

namespace SharedWatch

namespace Hub

open Relation (ReflTransGen)

/-- A handler is called, or something happens of which no handler is told. -/
inductive Beat : Hub → Hub → Prop
  | called {h : Hub} (e : LogEntry) : Beat h (h.record e)
  | calm {h h' : Hub} : Calm h h' → Beat h h'

/-- Such things happen one after the other. -/
abbrev Beats : Hub → Hub → Prop := ReflTransGen Beat

theorem Calms.beats {h h' : Hub} (calms : Calms h h') : Beats h h' :=
  ReflTransGen.mono (fun _ _ calm => Beat.calm calm) _ _ calms

theorem Aside.beats {h h' : Hub} (aside : h.Aside h') : Beats h h' := Calms.beats aside.calms

theorem beats_invoke (h : Hub) (n : Nat) (handler : Nat × HandlerRef) (c : Callback) :
    Beats h (h.invoke n handler c) := by
  have called (entry : LogEntry) : Beats h (h.record entry) := .single (.called entry)
  unfold invoke
  simp only
  split
  · exact called _
  · exact (called _).trans (Calms.beats (calms_react _ _ _ _))

theorem beats_deliver (h : Hub) (n : Nat) (c : Callback) : Beats h (h.deliver n c) := by
  unfold deliver
  split
  · exact .refl
  · rename_i st found
    clear found
    generalize st.handlers = handlers
    induction handlers generalizing h with
    | nil => exact .refl
    | cons handler handlers ih =>
      exact ((beats_invoke h n handler c).trans (aside_countDelivery _ _).beats).trans (ih _)

/-- Once a stream has seen the object change, all that is left are calls of handlers. -/
theorem Delivers.beats {h h' : Hub} {n : Nat} {st' : Stream} {callback : Option Callback}
    (delivers : h.Delivers n st' callback h') : Beats (h.updateStream n fun _ => st') h' := by
  rcases delivers with ⟨g, g', before, after, rfl⟩
  have changed : (h.updateStream n fun _ => st').Aside (g.updateStream n fun _ => st') := {
    before with
    streams := congrArg (·.modify n fun _ => st') before.streams }
  have ready := changed.beats.trans after.beats
  cases callback with
  | none => exact ready
  | some c => exact ready.trans (beats_deliver g' n c)

/-- A stopped stream refuses a handler.  Otherwise the handler is entered, and all that is left is
its call. -/
theorem attachHandler_cases (h : Hub) (n : Nat) (ref : HandlerRef) :
    (h.attachHandler n ref).2 = h ∧ (∃ e, (h.attachHandler n ref).1 = .error e) ∨
    ∃ st, h.streams[n]? = some st ∧ st.isStopped = false ∧
      Beats (h.addHandler n ref) (h.attachHandler n ref).2 := by
  unfold attachHandler
  split
  · exact .inl ⟨rfl, _, rfl⟩
  · rename_i st found
    split
    · exact .inl ⟨rfl, _, rfl⟩
    · rename_i running
      refine .inr ⟨st, found, by simpa using running, ?_⟩
      simp only
      split
      · exact (beats_invoke _ _ _ _).trans (aside_countDelivery _ _).beats
      · exact .refl

end Hub

end SharedWatch
