import SharedWatch.Proofs.UselessRegistrations
import SharedWatch.Proofs.OwnerReferences

/-!
# What owners hold

The registration of an owner is nobody else's: no other owner holds one of its handler, no name leads to
it, and it has not given its reference back.  So nobody can make the handler leave as long as the stream
runs, and the owner can always unsubscribe.

* `Hub.Tenure`: so it is with what owners hold.
* `Tenure.fewer`, `Tenure.insert`: owners come and go.
* `Course.tenure`: what an event does to it; `tenure_run`: it is so in every run.
-/

namespace SharedWatch

namespace Hub

variable {h h' g : Hub} {who : Option Nat} {c : PendingCall} {k m n : Nat} {owner : OwnerKey}
  {r : Registration}

/-- All registrations that there are have the numbers of handlers that have been attached. -/
def Numbered (h : Hub) : Prop :=
  ∀ ⦃r : Registration⦄, h.Knows r ∨ r ∈ h.givenBack ∨ r ∈ h.granted → r.handler ≤ h.attached

theorem Numbered.modest (numbered : h.Numbered) (modest : h.Modest who h') : h'.Numbered := by
  intro r minted
  refine Nat.le_trans (numbered ?_) modest.attached
  rcases or_assoc.mpr minted with minted | granted
  · exact or_assoc.mp (.inl (modest.minted minted))
  · exact .inr (.inr (modest.granted ▸ granted))

/-- A number that is still to be given to a handler is in no registration. -/
theorem Numbered.withheld (numbered : h.Numbered) (new : h.attached < n) : h.Withheld n :=
  fun _ minted same => Nat.not_le_of_lt (same ▸ new) (numbered (minted.imp id .inl))

/-- What owners hold has been handed out by their managers' multiplexers.  Each owner holds one
registration, nobody else has any of its handler, and its handler is attached, unless its stream has
been stopped. -/
structure Tenure (h : Hub) : Prop where
  single : ∀ k, ((h.owners k).map (·.1)).Nodup
  sole : ∀ {k k' : Nat} {owner owner' : OwnerKey} {r r' : Registration}, (owner, r) ∈ h.owners k →
    (owner', r') ∈ h.owners k' → r.handler = r'.handler → k = k' ∧ owner = owner'
  granted : ∀ {k : Nat} {owner : OwnerKey} {r : Registration}, (owner, r) ∈ h.owners k → r ∈ h.granted
  issued : ∀ {k : Nat} {owner : OwnerKey} {r : Registration}, (owner, r) ∈ h.owners k →
    (h.managers[k]?).map (·.multiplexer) = r.issuer
  withheld : ∀ {k : Nat} {owner : OwnerKey} {r : Registration}, (owner, r) ∈ h.owners k →
    h.Withheld r.handler
  attends : ∀ {k : Nat} {owner : OwnerKey} {r : Registration}, (owner, r) ∈ h.owners k →
    h.Attends r.stream r.handler

/-! ## Owners come and go -/

theorem known_of_owner (held : (owner, r) ∈ h.owners k) : (h.managers[k]?).isSome = true := by
  unfold Hub.owners at held
  cases known : h.managers[k]? with
  | none =>
    rw [known] at held
    cases held
  | some manager => rfl

theorem mem_of_lookup (held : (h.owners k).lookup owner = some r) : (owner, r) ∈ h.owners k := by
  obtain ⟨l₁, l₂, eq, _⟩ := List.lookup_eq_some_iff.mp held
  rw [eq]
  simp

/-- Managers keep their multiplexers. -/
theorem managed_mono
    (managed : h.managers.map (·.multiplexer) <+: h'.managers.map (·.multiplexer))
    (known : (h.managers[k]?).isSome = true) :
    (h'.managers[k]?).map (·.multiplexer) = (h.managers[k]?).map (·.multiplexer) := by
  obtain ⟨more, eq⟩ := managed
  obtain ⟨manager, known⟩ := Option.isSome_iff_exists.mp known
  have here : k < (h.managers.map (·.multiplexer)).length := by
    rw [List.length_map]
    exact (List.getElem?_eq_some_iff.mp known).1
  rw [← List.getElem?_map, ← List.getElem?_map, ← eq, List.getElem?_append_left here]

/-- Owners may go, and whoever stays is left alone. -/
theorem Tenure.fewer (tenure : h.Tenure) (owners : ∀ k, (h'.owners k).Sublist (h.owners k))
    (granted : h'.granted = h.granted)
    (managed : h.managers.map (·.multiplexer) <+: h'.managers.map (·.multiplexer))
    (withheld : ∀ {k owner r}, (owner, r) ∈ h'.owners k → h.Withheld r.handler →
      h'.Withheld r.handler)
    (attends : ∀ {k owner r}, (owner, r) ∈ h'.owners k → h.Withheld r.handler →
      h.Attends r.stream r.handler → h'.Attends r.stream r.handler) : h'.Tenure where
  single k := (tenure.single k).sublist ((owners k).map _)
  sole held held' := tenure.sole ((owners _).subset held) ((owners _).subset held')
  granted held := granted ▸ tenure.granted ((owners _).subset held)
  issued held := by
    have old := (owners _).subset held
    exact (managed_mono managed (known_of_owner old)).trans (tenure.issued old)
  withheld held := withheld held (tenure.withheld ((owners _).subset held))
  attends held := by
    have old := (owners _).subset held
    exact attends held (tenure.withheld old) (tenure.attends old)

theorem Tenure.modest (tenure : h.Tenure) (modest : h.Modest who h') : h'.Tenure :=
  tenure.fewer (fun k => modest.owners k ▸ .refl _) modest.granted
    modest.managed (fun _ => modest.withheld) fun _ => modest.attends

theorem Tenure.lose (tenure : h.Tenure) (n : Nat) : (h.deal (.lost n)).Tenure := { tenure with }

theorem Tenure.grant (tenure : h.Tenure) (r : Registration) : (h.deal (.granted r)).Tenure :=
  { tenure with granted := fun held => List.mem_cons_of_mem _ (tenure.granted held) }

theorem Tenure.answer (tenure : h.Tenure) (id : Nat) (reply : Reply) :
    (h.answer id reply).Tenure := { tenure with }

/-- A registration that gets a name is not one that an owner holds. -/
theorem Tenure.enroll (tenure : h.Tenure) (bind : Option String) (r : Registration)
    (others : ∀ {r' k owner r₀}, (h.enroll bind r).Knows r' → (owner, r₀) ∈ h.owners k →
      r'.handler ≠ r₀.handler) : (h.enroll bind r).Tenure := by
  have owners (k : Nat) : (h.enroll bind r).owners k = h.owners k := by cases bind <;> rfl
  have given : (h.enroll bind r).givenBack = h.givenBack := by cases bind <;> rfl
  refine tenure.fewer (fun k => owners k ▸ .refl _) (granted_enroll _ _ _)
    (by cases bind <;> exact List.prefix_rfl) (fun held withheld r' minted => ?_)
    fun _ _ attends => by cases bind <;> exact attends
  rcases minted with known | back
  · exact others known (owners _ ▸ held)
  · exact withheld r' (.inr (given ▸ back))

/-- An owner gets a registration of a handler that has just been attached. -/
theorem Tenure.insert (tenure : h.Tenure) (free : (h.owners k).lookup owner = none)
    (granted : r ∈ h.granted) (issued : (h.managers[k]?).map (·.multiplexer) = r.issuer)
    (known : (h.managers[k]?).isSome = true)
    (others : ∀ {k' owner' r'}, (owner', r') ∈ h.owners k' → r'.handler ≠ r.handler)
    (withheld : h.Withheld r.handler) (attends : h.Attends r.stream r.handler) :
    (h.updateManager k (·.insert owner r)).Tenure := by
  have owners := owners_insert known owner r
  have cases {k' : Nat} {owner' : OwnerKey} {r' : Registration}
      (held : (owner', r') ∈ (h.updateManager k (·.insert owner r)).owners k') :
      (owner', r') ∈ h.owners k' ∨ k = k' ∧ owner' = owner ∧ r' = r := by
    rw [owners] at held
    rcases List.mem_append.mp held with old | new
    · exact .inl old
    · split at new
      · rename_i here
        cases List.mem_singleton.mp new
        exact .inr ⟨here, rfl, rfl⟩
      · cases new
  have managed {k' : Nat} (known' : (h.managers[k']?).isSome = true) :=
    managed_mono (k := k') (aside_updateManager h k (f := (·.insert owner r)) fun _ => rfl).managed
      known'
  refine ⟨fun k' => ?_, fun held held' same => ?_, fun held => ?_, fun held => ?_, fun held => ?_,
    fun held => ?_⟩
  · rw [owners]
    split
    · rename_i here
      subst here
      rw [List.map_append, List.nodup_append]
      refine ⟨tenure.single k, List.nodup_singleton _, fun o mem o' only same => ?_⟩
      obtain rfl := List.mem_singleton.mp only
      obtain ⟨entry, held, rfl⟩ := List.mem_map.mp mem
      simpa [same] using List.lookup_eq_none_iff.mp free entry held
    · rw [List.append_nil]
      exact tenure.single k'
  · rcases cases held with old | ⟨rfl, rfl, rfl⟩
    · rcases cases held' with old' | ⟨rfl, rfl, rfl⟩
      · exact tenure.sole old old' same
      · exact absurd same (others old)
    · rcases cases held' with old' | ⟨here, rfl, _⟩
      · exact absurd same.symm (others old')
      · exact ⟨here, rfl⟩
  · rcases cases held with old | ⟨_, _, rfl⟩
    · exact tenure.granted old
    · exact granted
  · rcases cases held with old | ⟨rfl, _, rfl⟩
    · exact (managed (known_of_owner old)).trans (tenure.issued old)
    · exact (managed known).trans issued
  · rcases cases held with old | ⟨_, _, rfl⟩
    · exact tenure.withheld old
    · exact withheld
  · rcases cases held with old | ⟨_, _, rfl⟩
    · exact tenure.attends old
    · exact attends

/-- An owner that has unsubscribed goes, and no other one holds a registration of its handler. -/
theorem Tenure.erase (tenure : h.Tenure) (held : (owner, r) ∈ h.owners k)
    (left : h.unsubscribe m r = (.ok (), g)) : (g.updateManager k (·.erase owner)).Tenure := by
  obtain ⟨h₁, same, after⟩ := gentle_of_unsubscribe left
  have owners₁ (i : Nat) : h₁.owners i = h.owners i := by
    rcases same with rfl | ⟨late, rfl⟩ <;> rfl
  have granted₁ : h₁.granted = h.granted := by rcases same with rfl | ⟨late, rfl⟩ <;> rfl
  have managed₁ : h₁.managers = h.managers := by rcases same with rfl | ⟨late, rfl⟩ <;> rfl
  have attends₁ {n j : Nat} (attends : h.Attends n j) : h₁.Attends n j := by
    rcases same with rfl | ⟨late, rfl⟩ <;> exact attends
  have owners (i : Nat) : (g.updateManager k (·.erase owner)).owners i =
      if k = i then (h.owners i).filter (·.1 != owner) else h.owners i := by
    rw [owners_erase, after.owners, owners₁]
  have erased := (aside_updateManager g k (f := (·.erase owner)) fun _ => rfl).managed
  -- Whoever stays is another owner, so its handler has another number.
  have withheld₁ {i : Nat} {owner' : OwnerKey} {r' : Registration}
      (stays : (owner', r') ∈ (g.updateManager k (·.erase owner)).owners i)
      (withheld : h.Withheld r'.handler) : h₁.Withheld r'.handler := by
    rcases same with rfl | ⟨late, rfl⟩
    · exact withheld
    rintro r₀ (known | given)
    · exact withheld r₀ (.inl known)
    · rcases List.mem_cons.mp given with rfl | before
      · intro number
        rw [owners] at stays
        split at stays
        · obtain ⟨mem, other⟩ := List.mem_filter.mp stays
          have own := (tenure.sole held mem number).2
          simp [own] at other
        · rename_i elsewhere
          exact elsewhere (tenure.sole held stays number).1
      · exact withheld r₀ (.inr before)
  refine tenure.fewer (fun i => ?_) ?_ ?_ (fun stays withheld => ?_) fun stays withheld attends => ?_
  · rw [owners]
    split
    · exact List.filter_sublist
    · exact .refl _
  · exact after.granted.trans granted₁
  · exact (managed₁ ▸ after.managed).trans erased
  · exact after.withheld (withheld₁ stays withheld)
  · exact after.attends (withheld₁ stays withheld) (attends₁ attends)

/-! ## Every event, every run -/

/-- A reference goes back by way of a registration that has a name or that an owner holds. -/
theorem Turned.back (turned : Turned h c h') (given : r ∈ h'.givenBack) :
    (h.Knows r ∨ r ∈ h.givenBack) ∨ ∃ k owner, (owner, r) ∈ h.owners k := by
  have early {g : Hub} (modest : h.Modest (some c.id) g) (minted : g.Knows r ∨ r ∈ g.givenBack) :
      (h.Knows r ∨ r ∈ h.givenBack) ∨ ∃ k owner, (owner, r) ∈ h.owners k :=
    .inl (modest.minted minted)
  cases turned with
  | waits gentle _ _ => exact early gentle.toModest (.inr given)
  | answers gentle _ _ => exact early gentle.toModest (.inr given)
  | @attaches g _ _ r' _ _ rouses _ _ _ _ =>
    have same : (g.enroll c.bind r').givenBack = g.givenBack := by cases c.bind <;> rfl
    exact early (Rouses.modest rouses) (.inr (same ▸ given))
  | @subscribes g g' _ _ _ _ r' _ rouses more _ _ _ _ =>
    have same : (g'.enroll c.bind r').givenBack = g'.givenBack := by cases c.bind <;> rfl
    exact early (Rouses.modest rouses) (more.given (same ▸ given))
  | registers _ _ _ _ rouses more _ _ _ _ _ =>
    exact early (Rouses.modest rouses) (more.given given)
  | @unregisters g g' k _ owner r' _ _ held _ left more _ =>
    obtain ⟨h₁, same, after⟩ := gentle_of_unsubscribe left
    have before : h₁.Knows r ∨ r ∈ h₁.givenBack := after.minted (more.given given)
    rcases same with rfl | ⟨late, rfl⟩
    · exact .inl before
    rcases before with known | given
    · exact .inl (.inl known)
    · rcases List.mem_cons.mp given with rfl | old
      · exact .inr ⟨k, owner, mem_of_lookup held⟩
      · exact .inl (.inr old)

/-- What owners hold stays theirs, and who gets a registration gets a new one. -/
theorem Turned.tenure (turned : Turned h c h') (tenure : h.Tenure) (numbered : h.Numbered)
    (others : ∀ {r' k owner r}, h'.Knows r' → (owner, r) ∈ h.owners k → r'.handler ≠ r.handler) :
    h'.Tenure := by
  cases turned with
  | waits gentle _ _ => exact tenure.modest gentle.toModest
  | @answers g _ gentle _ _ => exact (tenure.modest gentle.toModest : g.Tenure).answer _ _
  | @attaches g _ _ r _ _ rouses _ _ _ _ =>
    have modest := Rouses.modest rouses
    refine Tenure.answer (Tenure.enroll (tenure.modest modest) c.bind r ?_) _ _
    exact fun known held => others known (modest.owners _ ▸ held)
  | @subscribes g g' _ _ _ _ r _ rouses more _ _ _ _ =>
    have modest := Rouses.modest rouses
    have granted := (tenure.modest modest : g.Tenure).grant r
    refine Tenure.answer (Tenure.enroll (granted.modest more.toModest) c.bind r ?_) _ _
    intro _ k _ _ known held
    rw [more.owners] at held
    exact others known (modest.owners k ▸ held)
  | @registers g g' k _ owner _ _ r asked target turn free rouses more _ _ _ issuer joins =>
    have modest := Rouses.modest rouses
    have granted := (tenure.modest modest : g.Tenure).grant r
    have known := isSome_of_managed modest.managed turn.known
    have withheld := numbered.withheld joins.fresh
    have owners (i : Nat) : (g.deal (.granted r)).owners i = h.owners i := modest.owners i
    have inserted : ((g.deal (.granted r)).updateManager k (·.insert owner r)).Tenure := by
      refine granted.insert (owners k ▸ free) List.mem_cons_self ?_ known ?_
        (modest.withheld withheld) (joins.attends withheld)
      · rw [asked] at target
        obtain ⟨manager, here, same⟩ := Option.map_eq_some_iff.mp target
        have multiplexer := managed_mono (k := k) modest.managed turn.known
        rw [here] at multiplexer
        exact multiplexer.trans ((congrArg some (Prod.mk.inj same).1).trans issuer.symm)
      · intro k' owner' r' held same
        have old := tenure.granted (owners k' ▸ held)
        exact Nat.not_le_of_lt (same ▸ joins.fresh) (numbered (.inr (.inr old)))
    exact (inserted.modest more.toModest).answer _ _
  | @unregisters g g' k _ owner r _ _ held _ left more _ =>
    exact ((tenure.erase (mem_of_lookup held) left).modest more.toModest).answer _ _

theorem Course.back {e : Event} (course : h.Course e h') (given : r ∈ h'.givenBack) :
    (h.Knows r ∨ r ∈ h.givenBack) ∨ ∃ k owner, (owner, r) ∈ h.owners k := by
  cases course with
  | gentle gentle _ => exact .inl (gentle.given given)
  | starts n parent gentle =>
    exact .inl ((gentle.toModest.trans (modest_startStream _ n parent)).given given)
  | steps id => exact .inl ((modest_loopStep h id).given given)
  | ends id => exact .inl ((modest_loopEnd h id).given given)
  | waits ms => exact .inl (.inr given)
  | drops _ _ before after _ => exact .inl (before.minted (after.given given))
  | turns _ asked takes turned =>
    have modest := asked.gentle.toModest.trans (takes.modest.anybody _)
    refine (turned.back given).imp modest.minted fun ⟨k, owner, held⟩ => ?_
    exact ⟨k, owner, modest.owners k ▸ held⟩

theorem Course.tenure {e : Event} (course : h.Course e h') (tenure : h.Tenure)
    (numbered : h.Numbered)
    (others : ∀ {r' k owner r}, h'.Knows r' → (owner, r) ∈ h.owners k → r'.handler ≠ r.handler) :
    h'.Tenure := by
  cases course with
  | gentle gentle _ => exact tenure.modest gentle.toModest
  | starts n parent gentle =>
    exact tenure.modest (gentle.toModest.trans (modest_startStream _ n parent))
  | steps id => exact tenure.modest (modest_loopStep h id)
  | ends id => exact tenure.modest (modest_loopEnd h id)
  | waits ms => exact { tenure with }
  | drops _ _ before after _ =>
    exact ((tenure.modest before.toModest).lose _).modest after.toModest
  | turns _ asked takes turned =>
    have modest := asked.gentle.toModest.trans (takes.modest.anybody _)
    exact turned.tenure (tenure.modest modest) (numbered.modest modest)
      fun known held => others known (modest.owners _ ▸ held)

theorem tenure_start (limit : Nat) (draws : Draws) : (start limit draws).Tenure where
  single _ := List.nodup_nil
  sole held := nomatch held
  granted held := nomatch held
  issued held := nomatch held
  withheld held := nomatch held
  attends held := nomatch held

/-- In every run, what owners hold is theirs alone. -/
theorem tenure_run (limit : Nat) (draws : Draws) (es : List Event) :
    ((start limit draws).run es).Tenure ∧ ((start limit draws).run es).Numbered := by
  induction es using List.reverseRecOn with
  | nil =>
    refine ⟨tenure_start limit draws, fun r minted => ?_⟩
    rcases minted with known | given | granted
    · cases known
    · cases given
    · cases granted
  | append_singleton es e ih =>
    obtain ⟨tenure, numbered⟩ := ih
    have course := run_course limit draws es e
    have minted {r : Registration} := @genuine_run r limit draws (es ++ [e])
    have roll := roll_run limit draws (es ++ [e])
    have more := (run_sequel ((start limit draws).run es) [e]).attached
    rw [run_snoc] at course minted roll ⊢
    generalize (start limit draws).run es = h at *
    refine ⟨course.tenure tenure numbered fun known held => ?_, fun r new => ?_⟩
    · -- A name leads to a registration that had one before, or that has just been made.
      rename_i r' _ _ r
      rcases course.knows known with old | granted | ⟨fresh, _⟩
      · exact tenure.withheld held r' (.inl old)
      · have handlers := roll.handlers
        rw [granted] at handlers
        intro same
        exact (List.nodup_cons.mp handlers).1
          (List.mem_map.mpr ⟨r, tenure.granted held, same.symm⟩)
      · exact fun same => Nat.not_le_of_lt (same ▸ fresh) (numbered (.inr (.inr (tenure.granted held))))
    · rcases new with known | given | granted
      · exact (minted (.inl known)).1
      · refine Nat.le_trans (numbered ?_) more
        rcases course.back given with minted | ⟨k, owner, held⟩
        · exact minted.imp id .inl
        · exact .inr (.inr (tenure.granted held))
      · exact (minted (.inr granted)).1

end Hub

end SharedWatch
