import Mathlib.Algebra.Ring.Int.Defs
import SharedWatch.Proofs.SharingSteps

/-!
# What becomes of references

A reference to a shared stream is granted to a registration, given back, lost with a subscriber, or
counted off with its entry.  Nothing else moves the gauge of live registrations.

* `Hub.Deals`: what becomes of references from one hub to a later one.
* `accounts_haltStream`, `accounts_giveBack` and the other theorems of this form: what leaves the
  accounts alone.
* `Calm.deals`: while no handler is called no registration is granted, and one is given back only when
  somebody unsubscribes.
* `Hub.Reckons`: whatever becomes of references, the gauge counts it; `gauge_run`: so it does in
  every run.
-/

namespace SharedWatch

namespace Dealing

/-- The stream that the references lead to. -/
def stream : Dealing → Nat
  | granted r | returned r _ => r.stream
  | lost n => n
  | closed e | dropped e => e.stream

/-- Whether it happens to a registration. -/
def isPersonal : Dealing → Bool
  | granted _ | returned _ _ => true
  | lost _ | closed _ | dropped _ => false

end Dealing

namespace Hub

open Relation (ReflTransGen)

variable {h h' h'' : Hub} {P Q : Dealing → Prop}

/-- Only what `P` holds of becomes of references, and the gauge counts it. -/
def Deals (P : Dealing → Prop) (h h' : Hub) : Prop :=
  ∃ ds, h'.accounts = (ds ++ h.dealings, h.metrics.liveRegistrations + (ds.map (·.gauge)).sum) ∧
    ∀ d ∈ ds, P d

theorem deals_of_accounts (same : h'.accounts = h.accounts) : Deals P h h' :=
  ⟨[], by rw [same]; simp [accounts], nofun⟩

theorem Deals.refl (h : Hub) : Deals P h h := deals_of_accounts rfl

theorem Deals.trans (first : Deals P h h') (second : Deals P h' h'') : Deals P h h'' := by
  obtain ⟨ds, eq, all⟩ := first
  obtain ⟨ds', eq', all'⟩ := second
  obtain ⟨dealings, live⟩ := Prod.mk.inj eq
  refine ⟨ds' ++ ds, ?_, fun d mem => (List.mem_append.mp mem).elim (all' d) (all d)⟩
  rw [eq', dealings, live, List.append_assoc, List.map_append, List.sum_append, Int.add_assoc,
    Int.add_comm (ds.map _).sum]

theorem Deals.mono (deals : Deals P h h') (weaker : ∀ d, P d → Q d) : Deals Q h h' := by
  obtain ⟨ds, eq, all⟩ := deals
  exact ⟨ds, eq, fun d mem => weaker d (all d mem)⟩

theorem deals_deal (h : Hub) {d : Dealing} (holds : P d) : Deals P h (h.deal d) :=
  ⟨[d], by simp [accounts, deal, addLive], by simpa using holds⟩

theorem Aside.deals (aside : h.Aside h') : Deals P h h' := deals_of_accounts aside.accounts

theorem Still.deals (still : h.Still h') : Deals P h h' := deals_of_accounts still.accounts

/-! ## The accounts stay as they are -/

theorem accounts_haltStream (h : Hub) (n : Nat) : (h.haltStream n).2.accounts = h.accounts := by
  unfold haltStream
  split
  · rfl
  · simp only
    split
    · rfl
    · split <;> rfl

theorem accounts_stopStream (h : Hub) (n : Nat) : (h.stopStream n).2.accounts = h.accounts := by
  unfold stopStream
  simp only
  split
  · exact accounts_haltStream h n
  · exact accounts_haltStream h n

theorem accounts_startStream (h : Hub) (n parent : Nat) :
    (h.startStream n parent).2.accounts = h.accounts := by
  unfold startStream
  split
  · rfl
  · split <;> rfl

theorem accounts_openStream (h : Hub) (m : Nat) (mux : Multiplexer) (key : ObjectKey) :
    (h.openStream m mux key).2.accounts = h.accounts := by
  unfold openStream
  exact accounts_startStream _ _ _

theorem accounts_giveBack (h : Hub) (m : Nat) (mux : Multiplexer) (key : ObjectKey) (e : Monitor) :
    (h.giveBack m mux key e).2.accounts = h.accounts := by
  unfold giveBack
  split
  · exact accounts_stopStream _ _
  · rfl

theorem accounts_release (h : Hub) (m : Nat) (key : ObjectKey) (n : Nat) :
    (h.release m key n).accounts = h.accounts := by
  unfold release
  split
  · rfl
  · split
    · rfl
    · split
      · simp only
        split <;> exact accounts_giveBack _ _ _ _ _
      · rfl

theorem accounts_bypass (h : Hub) (n : Nat) (b : Bypass) :
    (h.bypass n b).accounts = h.accounts := by
  unfold bypass
  split <;> rfl

theorem accounts_removeHandler (h : Hub) (n : Nat) (st : Stream) (r : Registration) :
    (h.removeHandler n st r).2.accounts = h.accounts := by
  unfold removeHandler
  split
  · rfl
  · exact accounts_bypass h n .detached

theorem accounts_leaveStream {g : Hub} {n : Nat} {st : Stream} {r : Registration}
    (left : h.leaveStream n st r = .ok g) : g.accounts = h.accounts := by
  unfold leaveStream at left
  split at left
  · cases left
    rfl
  · cases hd : st.detach n r with
    | error failure => rw [hd] at left; cases left
    | ok st' =>
      rw [hd] at left
      cases left
      rfl

/-! ## What a multiplexer does -/

theorem deals_retire (h : Hub) {e : Monitor} (closed : P (.closed e)) : Deals P h (h.retire e) :=
  (deals_of_accounts (accounts_stopStream h e.stream)).trans
    ((deals_deal _ closed).trans (aside_say _ _ _).deals)

theorem deals_acquire (h : Hub) (m : Nat) (mux : Multiplexer) (key : ObjectKey)
    (closed : ∀ e, P (.closed e)) : Deals P h (h.acquire m mux key).2 := by
  have opened : Deals P h (h.openStream m mux key).2 :=
    deals_of_accounts (accounts_openStream h m mux key)
  unfold acquire
  split
  · split
    · exact deals_of_accounts rfl
    · rename_i e _ _
      exact (opened.trans (deals_of_accounts rfl)).trans (deals_retire _ (closed e))
  · exact opened.trans (deals_of_accounts rfl)

/-- Somebody who unsubscribes gives back one reference, or nothing becomes of any. -/
theorem deals_unsubscribe (h : Hub) (m : Nat) (r : Registration)
    (returned : ∀ late, P (.returned r late)) : Deals P h (h.unsubscribe m r).2 := by
  rcases unsubscribe_cases h m r with aside | ⟨mux, e, st, g, _, _, _, _, _, left, eq⟩
  · exact aside.deals
  · rw [eq]
    have gone : Deals P h g := deals_of_accounts (accounts_leaveStream left)
    refine gone.trans ((deals_deal g (returned st.isStopped)).trans (deals_of_accounts ?_))
    exact (aside_closeRegistration g m mux r st.isStopped e).accounts.trans
      (accounts_giveBack _ m mux r.key e)

theorem deals_stopAll (entries : List (ObjectKey × Monitor)) (h : Hub) (d : Monitor → Dealing)
    (holds : ∀ e, P (d e)) :
    Deals P h (entries.foldl (fun h (_, e) => (h.stopStream e.stream).2.deal (d e)) h) := by
  induction entries generalizing h with
  | nil => exact .refl h
  | cons entry entries ih =>
    have stopped : Deals P h (h.stopStream entry.2.stream).2 :=
      deals_of_accounts (accounts_stopStream h entry.2.stream)
    exact (stopped.trans (deals_deal _ (holds entry.2))).trans (ih _)

theorem deals_shutdown (h : Hub) (m : Nat) (closed : ∀ e, P (.closed e)) :
    Deals P h (h.shutdown m) := by
  unfold shutdown
  split
  · exact .refl h
  · rename_i mux _
    have cleared : Deals P h (h.updateMultiplexer m fun mux => { mux with monitors := [], isShut := true }) :=
      deals_of_accounts rfl
    exact (cleared.trans (deals_stopAll mux.monitors _ .closed closed)).trans
      ((aside_fire _ _).deals.trans (aside_say _ _ _).deals)

theorem deals_dropMultiplexer (h : Hub) (m : Nat) (dropped : ∀ e, P (.dropped e)) :
    Deals P h (h.dropMultiplexer m) := by
  unfold dropMultiplexer
  split
  · exact .refl h
  · rename_i mux _
    have cleared : Deals P h
        (h.updateMultiplexer m fun mux => { mux with monitors := [], dropped := true }) :=
      deals_of_accounts rfl
    exact cleared.trans (deals_stopAll mux.monitors _ .dropped dropped)

theorem deals_abort (h : Hub) (id : Nat) (lost : ∀ n, P (.lost n)) : Deals P h (h.abort id).2 := by
  unfold abort
  split
  · exact .refl h
  · rename_i c _
    have left : Deals P h (c.waitsOn?.elim h fun n => (h.bypass n .aborted).deal (.lost n)) := by
      cases c.waitsOn? with
      | none => exact .refl h
      | some n =>
        exact (deals_of_accounts (accounts_bypass h n .aborted)).trans (deals_deal _ (lost n))
    simp only
    generalize (c.waitsOn?.elim h fun n => (h.bypass n .aborted).deal (.lost n)) = g at left ⊢
    have dropped : Deals P h (g.dropCall id) := left.trans (deals_of_accounts rfl)
    split
    · exact dropped.trans (deals_of_accounts rfl)
    · exact dropped

/-- While no handler is called, no registration is granted, and one is given back only when somebody
unsubscribes. -/
theorem Calm.deals (calm : Calm h h') : Deals (fun d => d.isPersonal = false) h h' ∨
    ∃ m r, h' = (h.unsubscribe m r).2 := by
  cases calm with
  | unsubscribe m r => exact .inr ⟨m, r, rfl⟩
  | aside aside => exact .inl aside.deals
  | store op => exact .inl (still_backend h _).deals
  | openWatch sel version name =>
    left
    unfold Hub.openWatch
    split <;> exact deals_of_accounts rfl
  | poll limit _ => exact .inl (still_backend h _).deals
  | dropWatch _ => exact .inl (deals_of_accounts rfl)
  | create key policy => exact .inl (deals_of_accounts rfl)
  | start n parent => exact .inl (deals_of_accounts (accounts_startStream h n parent))
  | halt n => exact .inl (deals_of_accounts (accounts_haltStream h n))
  | detach r _ => exact .inl (deals_of_accounts (accounts_removeHandler h _ _ r))
  | enter _ _ _ _ _ =>
    exact .inl ((deals_acquire h _ _ _ fun _ => rfl).trans (deals_of_accounts rfl))
  | leave message _ _ _ => exact .inl (deals_of_accounts (accounts_release _ _ _ _))
  | shutdown m => exact .inl (deals_shutdown h m fun _ => rfl)
  | dropMultiplexer m => exact .inl (deals_dropMultiplexer h m fun _ => rfl)
  | addMultiplexer settings root => exact .inl (deals_of_accounts rfl)
  | addCall request bind _ => exact .inl (deals_of_accounts rfl)
  | dropCall _ _ => exact .inl (deals_of_accounts rfl)
  | updateCall _ _ _ _ => exact .inl (deals_of_accounts rfl)
  | abort id => exact .inl (deals_abort h id fun _ => rfl)

/-! ## Deeds and runs -/

/-- Anything may become of references. -/
abbrev Reckons : Hub → Hub → Prop := Deals fun _ => True

theorem Calm.reckons (calm : Calm h h') : Reckons h h' := by
  rcases calm.deals with deals | ⟨m, r, rfl⟩
  · exact deals.mono fun _ _ => trivial
  · exact deals_unsubscribe h m r fun _ => trivial

theorem Beats.reckons (beats : Beats h h') : Reckons h h' := by
  induction beats with
  | refl => exact .refl h
  | tail _ beat ih =>
    cases beat with
    | called e => exact ih.trans (deals_of_accounts rfl)
    | calm calm => exact ih.trans calm.reckons

theorem reckons_attachHandler (h : Hub) (n : Nat) (ref : HandlerRef) :
    Reckons h (h.attachHandler n ref).2 := by
  rcases attachHandler_cases h n ref with ⟨same, _⟩ | ⟨_, _, _, beats⟩
  · rw [same]
    exact .refl h
  · have entered : Reckons h (h.addHandler n ref) := deals_of_accounts rfl
    exact entered.trans (Beats.reckons beats)

theorem LoopStep.reckons {l : Loop} {st : Stream} (step : h.LoopStep l st h')
    (found : h.streams[l.stream]? = some st) : Reckons h h' := by
  rcases step.still_or_delivers found with still | ⟨g, g', x, _, before, _, delivers, after⟩
  · exact still.deals
  · have changed : Reckons g (g.updateStream l.stream fun _ => x.1) := deals_of_accounts rfl
    exact (before.deals.trans (changed.trans delivers.beats.reckons)).trans after.deals

theorem Deed.reckons (deed : Deed h h') : Reckons h h' := by
  cases deed with
  | calm calm => exact calm.reckons
  | attach n ref =>
    exact (deals_of_accounts (accounts_bypass h n .attached)).trans (reckons_attachHandler _ n ref)
  | join _ _ _ =>
    rename_i c n ref r _ _ _
    have dropped : Reckons h (h.dropCall c.id) := deals_of_accounts rfl
    exact (dropped.trans (reckons_attachHandler _ n ref)).trans (deals_deal _ trivial)
  | loop found stepped => exact (stepLoop_cases stepped).reckons (stream_of_loop? found)
  | loopEnd id =>
    rcases loopEnd_cases h id with still | ⟨n, still⟩
    · exact still.deals
    · exact (deals_of_accounts (accounts_haltStream h n)).trans still.deals

theorem run_reckons (es : List Event) (h : Hub) : Reckons h (h.run es) :=
  run_keeps (P := Reckons h) (fun earlier still => earlier.trans still.deals)
    (fun earlier deed => earlier.trans deed.reckons) es (.refl h)

/-- After every run the gauge shows what has become of references. -/
theorem gauge_run (limit : Nat) (draws : Draws) (es : List Event) :
    ((start limit draws).run es).metrics.liveRegistrations =
      (((start limit draws).run es).dealings.map (·.gauge)).sum := by
  obtain ⟨ds, eq, _⟩ := run_reckons es (start limit draws)
  obtain ⟨dealings, live⟩ := Prod.mk.inj eq
  have none : (start limit draws).dealings = [] := rfl
  have zero : (start limit draws).metrics.liveRegistrations = 0 := rfl
  rw [live, dealings, none, zero, List.append_nil, Int.zero_add]

end Hub

end SharedWatch
