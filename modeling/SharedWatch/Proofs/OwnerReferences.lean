import Mathlib.Algebra.BigOperators.Group.Finset.Piecewise
import Mathlib.Algebra.Order.BigOperators.Group.Finset
import SharedWatch.Proofs.RegistrationsGauge
import SharedWatch.Proofs.CallTurns

/-!
# Owners and references

Managers keep the registrations of their owners, and a multiplexer counts the references to its
streams.  If nobody but its managers uses a multiplexer, the two tables agree: every reference is that
of an owner, or of a call that registers one.

* `Hub.holdings`, `Hub.registering`: the registrations of a stream that owners hold, and the calls
  that wait for one.
* `Hub.UsedByManagers`: in a run, nobody but its managers uses a multiplexer.
* `Hub.Custody`: what then is true of owners, registrations and references; `custody_run`: so it is
  after every run.
* `Hub.RegisterTurn`: what one turn of a call that registers an owner does.
* `owners_and_references`: at most one registration for each owner, none for a call that fails, and
  as many references as owners and calls.
-/

namespace SharedWatch

/-- Whether a request registers an owner. -/
def Request.isRegister : Request → Bool
  | register _ _ _ _ => true
  | _ => false

namespace Hub

open scoped BigOperators

variable {h h' g : Hub} {k m n : Nat} {key : ObjectKey} {owner : OwnerKey} {r : Registration}
  {c : PendingCall} {who hand : Option Nat}

/-- How many owners hold a registration of the stream of a number. -/
def holdings (h : Hub) (n : Nat) : Nat :=
  ∑ k ∈ Finset.range h.managers.length, (h.owners k).countP fun o => o.2.stream = n

/-- How many calls that register an owner wait for the stream of a number. -/
def registering (h : Hub) (n : Nat) : Nat :=
  h.calls.countP fun c => c.request.isRegister && c.waitsOn? = some n

/-! ## Owner tables -/

theorem owners_updateManager (h : Hub) (k : Nat) (f : Manager → Manager) (i : Nat) :
    (h.updateManager k f).owners i =
      if k = i then ((h.managers[i]?).map f).elim [] (·.owners) else h.owners i := by
  unfold Hub.owners updateManager
  rw [List.getElem?_modify]
  split
  · rfl
  · simp

theorem owners_insert (known : (h.managers[k]?).isSome = true) (owner : OwnerKey)
    (r : Registration) (i : Nat) : (h.updateManager k (·.insert owner r)).owners i =
      h.owners i ++ if k = i then [(owner, r)] else [] := by
  rw [owners_updateManager]
  split
  · rename_i here
    subst here
    obtain ⟨manager, known⟩ := Option.isSome_iff_exists.mp known
    unfold Hub.owners
    rw [known]
    rfl
  · rw [List.append_nil]

theorem owners_erase (h : Hub) (k : Nat) (owner : OwnerKey) (i : Nat) :
    (h.updateManager k (·.erase owner)).owners i =
      if k = i then (h.owners i).filter (·.1 != owner) else h.owners i := by
  rw [owners_updateManager]
  split
  · unfold Hub.owners
    cases h.managers[i]? <;> rfl
  · rfl

theorem length_updateManager (h : Hub) (k : Nat) (f : Manager → Manager) :
    (h.updateManager k f).managers.length = h.managers.length :=
  List.length_modify _ _ _

/-- Managers without owners do not count. -/
theorem holdings_congr (more : h.managers.length ≤ h'.managers.length)
    (same : ∀ k, h'.owners k = h.owners k) (n : Nat) : h'.holdings n = h.holdings n := by
  unfold holdings
  rw [Finset.sum_congr rfl fun k _ => by rw [same k]]
  symm
  refine Finset.sum_subset (Finset.range_mono more) fun k _ past => ?_
  have none : h.owners k = [] := by
    unfold Hub.owners
    rw [List.getElem?_eq_none (by simpa using past)]
    rfl
  rw [none]
  rfl

theorem holdings_insert (known : (h.managers[k]?).isSome = true) (owner : OwnerKey)
    (r : Registration) (n : Nat) : (h.updateManager k (·.insert owner r)).holdings n =
      h.holdings n + if r.stream = n then 1 else 0 := by
  have here : k ∈ Finset.range h.managers.length := by
    simpa using known
  unfold holdings
  rw [length_updateManager]
  have each (i : Nat) : ((h.updateManager k (·.insert owner r)).owners i).countP
      (fun o => o.2.stream = n) = (h.owners i).countP (fun o => o.2.stream = n) +
        if k = i then (if r.stream = n then 1 else 0) else 0 := by
    rw [owners_insert known, List.countP_append]
    split <;> simp [List.countP_cons]
  rw [Finset.sum_congr rfl fun i _ => each i, Finset.sum_add_distrib, Finset.sum_ite_eq,
    if_pos here]

/-- With one entry for each key, a key takes one entry with it. -/
theorem countP_filter_key {α β : Type} [DecidableEq α] {l : List (α × β)} {a : α} {b : β}
    (nodup : (l.map (·.1)).Nodup) (mem : (a, b) ∈ l) (p : α × β → Bool) :
    (l.filter (·.1 != a)).countP p + (if p (a, b) then 1 else 0) = l.countP p := by
  induction l with
  | nil => cases mem
  | cons e l ih =>
    rw [List.map_cons, List.nodup_cons] at nodup
    rcases List.mem_cons.mp mem with rfl | later
    · have others : l.filter (·.1 != a) = l := by
        refine List.filter_eq_self.mpr fun e mem' => ?_
        simpa using fun same : e.1 = a => nodup.1 (List.mem_map.mpr ⟨e, mem', same⟩)
      rw [List.filter_cons_of_neg (by simp), others, List.countP_cons]
    · have other : e.1 ≠ a := fun same => nodup.1 (List.mem_map.mpr ⟨_, later, same.symm⟩)
      rw [List.filter_cons_of_pos (by simpa using other), List.countP_cons, List.countP_cons,
        ← ih nodup.2 later]
      omega

theorem holdings_erase (single : ∀ k, ((h.owners k).map (·.1)).Nodup)
    (held : (owner, r) ∈ h.owners k) (n : Nat) :
    (h.updateManager k (·.erase owner)).holdings n + (if r.stream = n then 1 else 0) =
      h.holdings n := by
  have here : k ∈ Finset.range h.managers.length := by
    refine Finset.mem_range.mpr (Nat.lt_of_not_le fun past => ?_)
    unfold Hub.owners at held
    rw [List.getElem?_eq_none past] at held
    cases held
  have each (i : Nat) : ((h.updateManager k (·.erase owner)).owners i).countP
      (fun o => o.2.stream = n) + (if k = i then (if r.stream = n then 1 else 0) else 0) =
        (h.owners i).countP (fun o => o.2.stream = n) := by
    rw [owners_erase]
    split
    · rename_i same
      subst same
      simpa using countP_filter_key (single k) held fun o => o.2.stream = n
    · rfl
  unfold holdings
  rw [length_updateManager, ← Finset.sum_congr rfl fun i _ => each i, Finset.sum_add_distrib,
    Finset.sum_ite_eq, if_pos here]

theorem holdings_pos (held : (owner, r) ∈ h.owners k) : 0 < h.holdings r.stream := by
  have here : k ∈ Finset.range h.managers.length := by
    refine Finset.mem_range.mpr (Nat.lt_of_not_le fun past => ?_)
    unfold Hub.owners at held
    rw [List.getElem?_eq_none past] at held
    cases held
  have one : 0 < (h.owners k).countP fun o => o.2.stream = r.stream :=
    List.countP_pos_iff.mpr ⟨_, held, by simp⟩
  refine Nat.lt_of_lt_of_le one ?_
  exact Finset.single_le_sum (f := fun k => (h.owners k).countP fun o => o.2.stream = r.stream)
    (fun _ _ => Nat.zero_le _) here

/-! ## Custody -/

/-- The registrations of a stream that were handed out are those that owners hold and those that have
given their references back, unless its references have been counted off.  One of those that have none
any more is still held, if it is in somebody's hand. -/
def Balanced (hand : Option Nat) (h : Hub) (n : Nat) : Prop :=
  (∃ e ∈ h.struck, e.stream = n) ∨
    h.holdings n + (h.givenBack.filter (·.stream = n)).length =
      (h.granted.filter (·.stream = n)).length + inHand hand n

/-- What is true of owners and registrations while nobody but its managers uses multiplexer `m`. -/
structure Custody (m : Nat) (hand : Option Nat) (h : Hub) : Prop where
  outside : ∀ {r : Registration}, h.Knows r → ¬ h.Belongs m r.stream
  undropped : ∀ {n : Nat}, .lost n ∈ h.dealings → ¬ h.Belongs m n
  single : ∀ k, ((h.owners k).map (·.1)).Nodup
  granted : ∀ {k : Nat} {owner : OwnerKey} {r : Registration},
    (owner, r) ∈ h.owners k → r ∈ h.granted
  balanced : ∀ {n : Nat}, h.Belongs m n → h.Balanced hand n

namespace Custody

/-- Modest things leave it to the owners what they hold. -/
theorem modest (custody : h.Custody m hand) (modest : h.Modest who h') : h'.Custody m hand where
  outside known belongs := by
    unfold Knows at known
    rw [modest.registrations] at known
    exact custody.outside known (belongs.before modest.identities)
  undropped lost belongs := custody.undropped (modest.lost lost) (belongs.before modest.identities)
  single k := by
    rw [modest.owners]
    exact custody.single k
  granted held := by
    rw [modest.owners] at held
    rw [modest.granted]
    exact custody.granted held
  balanced {n} belongs := by
    have own := belongs.before modest.identities
    rcases custody.balanced own with ⟨e, struck, here⟩ | balanced
    · exact .inl ⟨e, modest.struck struck, here⟩
    · refine .inr ?_
      obtain ⟨rs, back, known⟩ := modest.back
      -- Whoever gave a reference back had a name, and so was none of the registrations of the stream.
      have none : rs.filter (·.stream = n) = [] := by
        refine List.filter_eq_nil_iff.mpr fun r mem same => ?_
        exact custody.outside (known r mem) (of_decide_eq_true same ▸ own)
      have more : h.managers.length ≤ h'.managers.length := by
        simpa using modest.managed.length_le
      rw [holdings_congr more modest.owners, modest.granted, back, List.filter_append, none,
        List.nil_append]
      exact balanced

/-- A registration is handed out by somebody else. -/
theorem grant (custody : h.Custody m hand) (other : ¬ h.Belongs m r.stream) :
    (h.deal (.granted r)).Custody m hand where
  outside := custody.outside
  undropped lost := custody.undropped ((List.mem_cons.mp lost).resolve_left nofun)
  single := custody.single
  granted held := List.mem_cons_of_mem _ (custody.granted held)
  balanced {n} belongs := by
    have away : ¬ r.stream = n := fun same => other (same ▸ belongs)
    refine (custody.balanced belongs).imp id fun balanced => ?_
    show _ = (List.filter _ (r :: h.granted)).length + inHand hand n
    rw [List.filter_cons_of_neg (by simpa using away)]
    exact balanced

/-- A reference to somebody else's stream gets lost. -/
theorem lose (custody : h.Custody m hand) (other : ¬ h.Belongs m n) : (h.deal (.lost n)).Custody m hand where
  outside := custody.outside
  undropped lost := by
    rcases List.mem_cons.mp lost with same | before
    · cases same
      exact other
    · exact custody.undropped before
  single := custody.single
  granted := custody.granted
  balanced := custody.balanced

theorem answer (custody : h.Custody m hand) (id : Nat) (reply : Reply) : (h.answer id reply).Custody m hand :=
  { custody with }

/-- A registration of somebody else's gets a name. -/
theorem enroll (custody : h.Custody m hand) (other : ¬ h.Belongs m r.stream) (bind : Option String) :
    (h.enroll bind r).Custody m hand := by
  cases bind with
  | none => exact custody
  | some name =>
    refine { custody with outside := fun {r'} known => ?_ }
    obtain ⟨e, mem, rfl⟩ := List.mem_map.mp known
    rcases List.mem_cons.mp mem with rfl | old
    · exact other
    · exact custody.outside (List.mem_map_of_mem (List.mem_filter.mp old).1)

/-- A registration is handed out, and an owner gets it that held none. -/
theorem insert (custody : h.Custody m hand) (known : (h.managers[k]?).isSome = true)
    (free : (h.owners k).lookup owner = none) :
    ((h.deal (.granted r)).updateManager k (·.insert owner r)).Custody m hand where
  outside := custody.outside
  undropped lost := custody.undropped ((List.mem_cons.mp lost).resolve_left nofun)
  single i := by
    rw [owners_insert (h := h.deal (.granted r)) known]
    split
    · rename_i here
      subst here
      rw [List.map_append, List.nodup_append]
      refine ⟨custody.single k, List.nodup_singleton _, fun o mem o' mem' same => ?_⟩
      obtain ⟨e, held, rfl⟩ := List.mem_map.mp mem
      cases List.mem_singleton.mp mem'
      simpa [same] using List.lookup_eq_none_iff.mp free e held
    · rw [List.append_nil]
      exact custody.single i
  granted {i owner' r'} held := by
    rw [owners_insert (h := h.deal (.granted r)) known] at held
    rcases List.mem_append.mp held with old | new
    · exact List.mem_cons_of_mem _ (custody.granted old)
    · split at new
      · cases List.mem_singleton.mp new
        exact List.mem_cons_self
      · cases new
  balanced {n} belongs := by
    refine (custody.balanced belongs).imp id fun balanced => ?_
    rw [holdings_insert (h := h.deal (.granted r)) known]
    show h.holdings n + _ + _ = (List.filter _ (r :: h.granted)).length + inHand hand n
    by_cases here : r.stream = n
    · rw [List.filter_cons_of_pos (by simpa using here), List.length_cons, if_pos here]
      show h.holdings n + 1 + (h.givenBack.filter (·.stream = n)).length = _
      omega
    · rw [List.filter_cons_of_neg (by simpa using here), if_neg here]
      exact balanced

/-- A registration gives its reference back on behalf of its owner. -/
theorem returned (custody : h.Custody m none) (r : Registration) (late : Bool) :
    (h.deal (.returned r late)).Custody m (some r.stream) where
  outside := custody.outside
  undropped lost := custody.undropped ((List.mem_cons.mp lost).resolve_left nofun)
  single := custody.single
  granted := custody.granted
  balanced {n} belongs := by
    refine (custody.balanced belongs).imp id fun balanced => ?_
    show h.holdings n + (List.filter _ (r :: h.givenBack)).length =
      (h.granted.filter (·.stream = n)).length + inHand (some r.stream) n
    unfold inHand at balanced ⊢
    by_cases here : r.stream = n
    · rw [List.filter_cons_of_pos (by simpa using here), List.length_cons, if_pos (by rw [here])]
      rw [if_neg nofun] at balanced
      omega
    · rw [List.filter_cons_of_neg (by simpa using here), if_neg (by simpa using here)]
      exact balanced

/-- A registration has nothing to give back, because the references of its stream have been counted
off. -/
theorem stale (custody : h.Custody m none)
    (struck : h.Belongs m n → ∃ e ∈ h.struck, e.stream = n) : h.Custody m (some n) :=
  { custody with
    balanced := fun {i} belongs => by
      by_cases here : n = i
      · exact .inl (here ▸ struck (here ▸ belongs))
      · refine (custody.balanced belongs).imp id fun balanced => ?_
        unfold inHand at balanced ⊢
        rw [if_neg (by simpa using here)]
        exact balanced }

/-- An owner gives up a registration that has no reference any more. -/
theorem erase (custody : h.Custody m (some r.stream)) (held : (owner, r) ∈ h.owners k) :
    (h.updateManager k (·.erase owner)).Custody m none where
  outside := custody.outside
  undropped := custody.undropped
  single i := by
    rw [owners_erase]
    split
    · exact (custody.single i).sublist (List.filter_sublist.map _)
    · exact custody.single i
  granted {i owner' r'} held' := by
    rw [owners_erase] at held'
    split at held'
    · exact custody.granted (List.mem_filter.mp held').1
    · exact custody.granted held'
  balanced {n} belongs := by
    refine (custody.balanced belongs).imp id fun balanced => ?_
    have fewer := holdings_erase custody.single held n
    show _ + (h.givenBack.filter (·.stream = n)).length = (h.granted.filter (·.stream = n)).length + _
    unfold inHand at balanced ⊢
    by_cases here : r.stream = n
    · rw [if_pos here] at fewer
      rw [if_pos (by rw [here])] at balanced
      rw [if_neg nofun]
      omega
    · rw [if_neg here] at fewer
      rw [if_neg (by simpa using here)] at balanced
      rw [if_neg nofun]
      omega

end Custody

/-- The references of a stream have been counted off if an owner holds a registration of it and no
entry leads there. -/
theorem Custody.struck_of_vacant (custody : h.Custody m none) (tally : h.Tally [])
    (belongs : h.Belongs m r.stream) (held : (owner, r) ∈ h.owners k) (vacant : h.Vacant r.stream) :
    ∃ e ∈ h.struck, e.stream = r.stream := by
  rcases custody.balanced belongs with struck | balanced
  · exact struck
  by_contra unstruck
  -- Then the owner's reference is still out, although no entry counts it.
  have none : h.struck.filter (·.stream = r.stream) = [] :=
    List.filter_eq_nil_iff.mpr fun e mem same => unstruck ⟨e, mem, of_decide_eq_true same⟩
  have held := holdings_pos held
  have out := tally.vacant vacant
  unfold Hub.claims at out
  rw [weight_eq, none, List.map_nil, List.sum_nil] at out
  unfold inHand at balanced
  rw [if_neg nofun] at balanced
  omega

/-- No entry leads to the stream of a registration that has been handed out, if the entry of its own
key does not. -/
theorem vacant_of_stale (indexed : h.Indexed) (roll : h.Roll) (granted : r ∈ h.granted)
    (issuer : r.issuer = some m)
    (stale : ∀ e, h.monitor? m r.key = some e → e.stream ≠ r.stream) : h.Vacant r.stream := by
  obtain ⟨f, face, hkey, issuer'⟩ := roll.faced ((mem_personal rfl).mpr (mem_granted.mp granted))
  intro m' key' e found here
  obtain ⟨f', face', rfl, issuer''⟩ := indexed.entry found
  cases face.symm.trans (here ▸ face')
  cases (issuer''.symm.trans issuer').trans issuer
  exact stale e (hkey ▸ found) here

theorem issuer_of_unsubscribe (left : h.unsubscribe m r = (.ok (), g)) : r.issuer = some m := by
  by_contra other
  unfold Hub.unsubscribe at left
  rw [if_pos other] at left
  cases left

/-- An owner unsubscribes. -/
theorem Custody.unregister {m' : Nat} (custody : h.Custody m none) (indexed : h.Indexed)
    (tally : h.Tally []) (roll : h.Roll) (held : (owner, r) ∈ h.owners k)
    (left : h.unsubscribe m' r = (.ok (), g)) :
    (g.updateManager k (·.erase owner)).Custody m none := by
  have issuer := issuer_of_unsubscribe left
  have granted := custody.granted held
  obtain ⟨f, face, hkey, issuer'⟩ := roll.faced ((mem_personal rfl).mpr (mem_granted.mp granted))
  rcases unsubscribe_gentle h m' r with
    ⟨e, eq⟩ | ⟨g', eq, gentle, accounts, stale⟩ | ⟨late, g', eq, after, _⟩
  · cases left.symm.trans eq
  · cases left.symm.trans eq
    have idle := custody.stale fun belongs => custody.struck_of_vacant tally belongs held
      (vacant_of_stale indexed roll granted issuer fun e found here => ?_)
    · exact (idle.modest gentle.toModest).erase ((gentle.owners k).symm ▸ held)
    · obtain ⟨st, stream, _⟩ := face?_eq_some.mp face
      cases (stale issuer e found here).symm.trans stream
  · cases left.symm.trans eq
    refine ((custody.returned r late).modest after.toModest).erase ?_
    rw [after.owners]
    exact held

/-! ## Every event, every run -/

/-- Whether a call uses multiplexer `m` past its managers: it subscribes to it, or attaches a handler
to one of its streams. -/
def passesManagers (h : Hub) (m : Nat) (c : PendingCall) : Bool :=
  match c.request with
  | .subscribe m' _ _ _ => m' = m
  | .attach n _ => (h.streams[n]?).any (·.issuer = some m)
  | _ => false

/-- In a run, nobody but its managers uses multiplexer `m`, and no call that registers an owner is
dropped. -/
structure UsedByManagers (m : Nat) (h : Hub) (es : List Event) : Prop where
  managed : ∀ fs, fs <+: es → ∀ c ∈ (h.run fs).calls, (h.run fs).passesManagers m c = false
  kept : ∀ fs e, fs ++ [e] <+: es → (h.run fs).dropsSubscriber m e = false

theorem Custody.turn {h₁ : Hub} (custody : h.Custody m none) (books : h.Books none)
    (tally : h.Tally []) (roll : h.Roll) (managed : h.passesManagers m c = false)
    (asked : Asked h c h₁) {h₂ : Hub} (takes : Takes h₁ c h₂) (turned : Turned h₂ c h') :
    h'.Custody m none := by
  have asking := custody.modest asked.gentle.toModest
  have taken := asking.modest takes.modest
  have identities := asked.gentle.identities.trans takes.modest.identities
  unfold passesManagers at managed
  cases turned with
  | waits gentle _ _ => exact taken.modest gentle.toModest
  | answers gentle _ _ => exact (taken.modest gentle.toModest).answer _ _
  | @attaches g n ref r st request rouses _ found own _ =>
    have modest := Rouses.modest rouses
    rw [request] at managed
    obtain rfl := takes.idle_of_target? (by rw [request]; rfl)
    rw [asked.aside.streams] at found
    have other : ¬ h.Belongs m r.stream := by
      refine own ▸ not_belongs found fun same => ?_
      simp [found, same] at managed
    refine ((taken.modest modest).enroll (fun belongs => other ?_) _).answer _ _
    exact (belongs.before modest.identities).before asked.gentle.identities
  | @subscribes g g' m' _ _ _ r request rouses more _ issues _ issuer =>
    have modest := Rouses.modest rouses
    rw [request] at managed
    obtain ⟨st, found, _, same, _⟩ := issues
    have other : ¬ h₂.Belongs m r.stream := by
      refine not_belongs found fun own => ?_
      cases issuer.symm.trans (same.symm.trans own)
      simp at managed
    have away : ¬ g.Belongs m r.stream := fun belongs => other (belongs.before modest.identities)
    have granted := ((taken.modest modest).grant away).modest more.toModest
    refine (granted.enroll (fun belongs => away ?_) _).answer _ _
    have belongs := belongs.before more.identities
    exact belongs
  | @registers g g' k _ owner _ _ r _ _ turn free rouses more _ _ _ _ =>
    have modest := Rouses.modest rouses
    have known := isSome_of_managed modest.managed turn.known
    have free : (g.owners k).lookup owner = none := (modest.owners k).symm ▸ free
    exact (((taken.modest modest).insert known free).modest more.toModest).answer _ _
  | @unregisters g g' k m' owner r request turn held known left more _ =>
    obtain rfl := takes.idle_of_target? (by rw [request]; rfl)
    obtain ⟨before, after, eq, _⟩ := List.lookup_eq_some_iff.mp held
    have mem : (owner, r) ∈ h₂.owners k := by
      rw [eq]
      simp
    have apart := books.apart asked.aside.apart
    have erased := asking.unregister apart.toIndexed (tally.level asked.aside.level)
      (roll.aside asked.aside) mem left
    exact (erased.modest more.toModest).answer _ _

theorem Custody.course {e : Event} (custody : h.Custody m none) (books : h.Books none)
    (tally : h.Tally []) (roll : h.Roll)
    (managed : ∀ c ∈ h.calls, h.passesManagers m c = false) (kept : h.dropsSubscriber m e = false)
    (course : h.Course e h') : h'.Custody m none := by
  cases course with
  | gentle gentle _ => exact custody.modest gentle.toModest
  | starts n parent gentle =>
    exact (custody.modest gentle.toModest).modest (modest_startStream _ n parent)
  | steps id => exact custody.modest (modest_loopStep h id)
  | ends id => exact custody.modest (modest_loopEnd h id)
  | waits ms => exact { custody with }
  | @drops _ i n c g _ found waits before after _ =>
    obtain ⟨f, m', face, issuer, target⟩ := books.waiting (List.mem_of_find?_eq_some found) waits
    have other : ¬ g.Belongs m n := by
      intro belongs
      cases issuer.symm.trans ((belongs.before before.identities) f face)
      unfold dropsSubscriber at kept
      simp [found, target] at kept
    exact ((custody.modest before.toModest).lose other).modest after.toModest
  | turns found asked takes turned =>
    exact custody.turn books tally roll (managed _ (List.mem_of_find?_eq_some found)) asked takes
      turned

theorem custody_start (m limit : Nat) (draws : Draws) : (start limit draws).Custody m none where
  outside known := (List.not_mem_nil known).elim
  undropped lost := (List.not_mem_nil lost).elim
  single _ := List.nodup_nil
  granted held := (List.not_mem_nil held).elim
  balanced _ := .inr rfl

/-- Owners and references agree after every run in which nobody but its managers uses a multiplexer. -/
theorem custody_run {limit : Nat} {draws : Draws} {es : List Event}
    (used : UsedByManagers m (start limit draws) es) :
    ((start limit draws).run es).Custody m none := by
  induction es using List.reverseRecOn with
  | nil => exact custody_start m limit draws
  | append_singleton es e ih =>
    have earlier : es <+: es ++ [e] := List.prefix_append es [e]
    have custody := ih ⟨fun fs before => used.managed fs (before.trans earlier),
      fun fs e before => used.kept fs e (before.trans earlier)⟩
    exact custody.course (moment_run limit draws es).books (tally_run limit draws es)
      (roll_run limit draws es) (used.managed es earlier) (used.kept es e List.prefix_rfl)
      (run_course limit draws es e)

/-- A multiplexer that only its managers use counts the owners of a stream, and the calls that wait for
it on behalf of owners. -/
theorem Custody.references {e : Monitor} (custody : h.Custody m none) (indexed : h.Indexed)
    (tally : h.Tally []) (managed : ∀ c ∈ h.calls, h.passesManagers m c = false)
    (found : h.monitor? m key = some e) :
    e.refcount = h.holdings e.stream + h.registering e.stream := by
  obtain ⟨f, face, _, issuer⟩ := indexed.entry found
  have belongs : h.Belongs m e.stream := fun f' face' => by
    cases face.symm.trans face'
    exact issuer
  have unstruck : h.struck.filter (·.stream = e.stream) = [] := by
    refine List.filter_eq_nil_iff.mpr fun e' mem same => ?_
    exact tally.gone e' mem m key e found (of_decide_eq_true same).symm
  have balanced : h.holdings e.stream + (h.givenBack.filter (·.stream = e.stream)).length =
      (h.granted.filter (·.stream = e.stream)).length := by
    refine (custody.balanced belongs).resolve_left ?_
    rintro ⟨e', mem, same⟩
    exact tally.gone e' mem m key e found same.symm
  have undropped : h.dealings.count (.lost e.stream) = 0 :=
    List.count_eq_zero_of_not_mem fun mem => custody.undropped mem belongs
  have registering : h.registering e.stream = h.waiters e.stream := by
    unfold Hub.registering Hub.waiters
    refine List.countP_congr fun c mem => ?_
    rw [Bool.and_eq_true, and_iff_right_iff_imp]
    intro waits
    obtain ⟨f', m', face', issuer', target⟩ := indexed.waiting mem (of_decide_eq_true waits)
    cases face.symm.trans face'
    cases issuer.symm.trans issuer'
    have managed := managed c mem
    unfold passesManagers at managed
    cases request : c.request with
    | register _ _ _ _ => rfl
    | subscribe m' _ _ _ =>
      rw [request] at target managed
      cases target
      simp at managed
    | _ =>
      rw [request] at target
      cases target
  have counted := tally.counted found
  unfold Hub.claims at counted
  rw [weight_eq, unstruck, undropped, List.map_nil, List.sum_nil, List.count_nil] at counted
  omega

/-! ## Calls that register an owner -/

/-- What one turn of a call does that registers an owner with manager `k`: it waits, and no owner gets
or loses anything; or it succeeds, and the owner holds a registration of its target; or it fails, and
no owner has got or lost anything. -/
inductive RegisterTurn (h : Hub) (c : PendingCall) (k : Nat) (owner : OwnerKey) (target : String) :
    Hub → Prop
  | waits {h' : Hub} {c' : PendingCall} : h'.call? c.id = some c' → c'.request = c.request →
    h'.returned = h.returned → (∀ i, h'.owners i = h.owners i) →
    RegisterTurn h c k owner target h'
  | succeeds {h' : Hub} {r : Registration} : h'.call? c.id = none →
    h'.returned = h.returned ++ [(c.id, .ok)] → (h.owners k).lookup owner = none →
    r.key = ⟨owner.ns, target⟩ →
    (∀ i, h'.owners i = h.owners i ++ if k = i then [(owner, r)] else []) →
    RegisterTurn h c k owner target h'
  | fails {h' : Hub} {e : WatchError} : h'.call? c.id = none →
    h'.returned = h.returned ++ [(c.id, .failed e)] → (∀ i, h'.owners i = h.owners i) →
    RegisterTurn h c k owner target h'

theorem registerTurn {target : String} {token : Nat} (books : h.Books none) (holds : h.Holds c)
    (found : h.call? c.id = some c) (request : c.request = .register k owner target token) :
    h.RegisterTurn c k owner target (h.callTurn c.id) := by
  rcases callTurn_cases books found holds with same | ⟨h₁, h₂, asked, takes, turned⟩
  · rw [same]
    exact .waits found rfl rfl fun _ => rfl
  have owners (i : Nat) : h₂.owners i = h.owners i :=
    (takes.modest.owners i).trans (asked.gentle.owners i)
  have returned : h₂.returned = h.returned := takes.modest.returned.trans asked.gentle.returned
  generalize h.callTurn c.id = h' at turned
  cases turned with
  | waits gentle found' _ =>
    exact .waits found' rfl (gentle.returned.trans returned)
      fun i => (gentle.owners i).trans (owners i)
  | @answers g _ gentle gone fails =>
    obtain ⟨e, rfl⟩ := fails (by rw [request]; rfl)
    have before : g.returned = h.returned := gentle.returned.trans returned
    exact .fails gone (congrArg (· ++ _) before) fun i => (gentle.owners i).trans (owners i)
  | attaches other => cases request.symm.trans other
  | subscribes other => cases request.symm.trans other
  | @registers g g' _ _ _ _ _ r other _ turn free rouses more gone _ hkey _ =>
    cases request.symm.trans other
    have modest := Rouses.modest rouses
    have known := isSome_of_managed modest.managed turn.known
    have before : g'.returned = h.returned :=
      more.returned.trans (modest.returned.trans returned)
    refine .succeeds gone (congrArg (· ++ _) before) (owners k ▸ free) hkey fun i => ?_
    show g'.owners i = _
    rw [more.owners, owners_insert (h := g.deal (.granted r)) known]
    exact congrArg (· ++ _) ((modest.owners i).trans (owners i))
  | unregisters other => cases request.symm.trans other

/-- An owner gets a registration only from a call that registers it and succeeds. -/
theorem Turned.owned (turned : Turned h c h') (held : (owner, r) ∈ h'.owners k) :
    (owner, r) ∈ h.owners k ∨ ∃ target token, c.request = .register k owner target token ∧
      h'.returned = h.returned ++ [(c.id, .ok)] ∧ r.key = ⟨owner.ns, target⟩ := by
  have named {g : Hub} {r : Registration} (i : Nat) : (g.enroll c.bind r).owners i = g.owners i := by
    cases c.bind <;> rfl
  cases turned with
  | waits gentle _ _ => exact .inl (gentle.owners k ▸ held)
  | @answers g _ gentle _ _ =>
    have held : (owner, r) ∈ g.owners k := held
    exact .inl (gentle.owners k ▸ held)
  | @attaches g _ _ r' _ _ rouses _ _ _ _ =>
    have held : (owner, r) ∈ (g.enroll c.bind r').owners k := held
    rw [named, (Rouses.modest rouses).owners] at held
    exact .inl held
  | @subscribes g g' _ _ _ _ r' _ rouses more _ _ _ _ =>
    have held : (owner, r) ∈ (g'.enroll c.bind r').owners k := held
    rw [named, more.owners] at held
    have held : (owner, r) ∈ g.owners k := held
    exact .inl ((Rouses.modest rouses).owners k ▸ held)
  | @registers g g' k' _ owner' _ _ r' request _ turn _ rouses more _ _ hkey _ =>
    have modest := Rouses.modest rouses
    have held : (owner, r) ∈ g'.owners k := held
    rw [more.owners, owners_insert (h := g.deal (.granted r'))
      (isSome_of_managed modest.managed turn.known)] at held
    rcases List.mem_append.mp held with old | new
    · have old : (owner, r) ∈ g.owners k := old
      exact .inl (modest.owners k ▸ old)
    · split at new
      · rename_i here
        subst here
        cases List.mem_singleton.mp new
        have returned : g'.returned = h.returned := more.returned.trans modest.returned
        exact .inr ⟨_, _, request, congrArg (· ++ _) returned, hkey⟩
      · cases new
  | @unregisters g g' k' _ owner' _ _ _ _ _ left more _ =>
    obtain ⟨h₁, same, after⟩ := gentle_of_unsubscribe left
    have held : (owner, r) ∈ g'.owners k := held
    rw [more.owners, owners_erase] at held
    have held : (owner, r) ∈ g.owners k := by
      split at held
      · exact (List.mem_filter.mp held).1
      · exact held
    rw [after.owners] at held
    rcases same with rfl | ⟨late, rfl⟩ <;> exact .inl held

theorem Course.owned {e : Event} (course : h.Course e h') (held : (owner, r) ∈ h'.owners k) :
    (owner, r) ∈ h.owners k ∨ ∃ c target token, e = .call c.id ∧ h.call? c.id = some c ∧
      c.request = .register k owner target token ∧
        h'.returned = h.returned ++ [(c.id, .ok)] ∧ r.key = ⟨owner.ns, target⟩ := by
  cases course with
  | gentle gentle _ => exact .inl (gentle.owners k ▸ held)
  | starts n parent gentle =>
    have started := gentle.toModest.trans (modest_startStream _ n parent)
    exact .inl (started.owners k ▸ held)
  | steps id => exact .inl ((modest_loopStep h id).owners k ▸ held)
  | ends id => exact .inl ((modest_loopEnd h id).owners k ▸ held)
  | waits ms => exact .inl held
  | @drops _ _ n _ g _ _ _ before after _ =>
    rw [after.owners] at held
    have held : (owner, r) ∈ g.owners k := held
    exact .inl (before.owners k ▸ held)
  | @turns c h₁ h₂ _ found asked takes turned =>
    have owners (i : Nat) : h₂.owners i = h.owners i :=
      (takes.modest.owners i).trans (asked.gentle.owners i)
    have returned : h₂.returned = h.returned := takes.modest.returned.trans asked.gentle.returned
    rcases turned.owned held with old | ⟨target, token, request, answered, hkey⟩
    · exact .inl (owners k ▸ old)
    · exact .inr ⟨c, target, token, rfl, found, request, returned ▸ answered, hkey⟩

/-- In the run, a call that registers the owner with manager `k` has succeeded, for the target that the
registration is for. -/
def RegisteredBy (limit : Nat) (draws : Draws) (es : List Event) (k : Nat) (owner : OwnerKey)
    (r : Registration) : Prop :=
  ∃ es₁ es₂ c target token, es = es₁ ++ .call c.id :: es₂ ∧
    ((start limit draws).run es₁).call? c.id = some c ∧
    c.request = .register k owner target token ∧
    ((start limit draws).run (es₁ ++ [.call c.id])).returned =
      ((start limit draws).run es₁).returned ++ [(c.id, .ok)] ∧
    r.key = ⟨owner.ns, target⟩

theorem registered_by (limit : Nat) (draws : Draws) (es : List Event)
    (held : (owner, r) ∈ ((start limit draws).run es).owners k) :
    RegisteredBy limit draws es k owner r := by
  induction es using List.reverseRecOn with
  | nil => cases held
  | append_singleton es e ih =>
    rcases (run_course limit draws es e).owned held with
      old | ⟨c, target, token, rfl, found, request, answered, hkey⟩
    · obtain ⟨es₁, es₂, c, target, token, rfl, rest⟩ := ih old
      exact ⟨es₁, es₂ ++ [e], c, target, token, by simp, rest⟩
    · exact ⟨es, [], c, target, token, rfl, found, request, answered, hkey⟩

/-- Whatever calls register, unregister and read, and however they take turns: each owner holds at most
one registration, which a call that registered it has got for its target; a call that registers an
owner leaves the owner tables alone unless it succeeds; and if nobody but its managers uses a
multiplexer, and no call that registers an owner is dropped, every entry counts as many references as
owners hold registrations of its stream and calls wait for it on behalf of owners.  So a call that has
failed holds none. -/
theorem owners_and_references {limit : Nat} {draws : Draws} {es : List Event} {h : Hub} {m : Nat}
    (used : UsedByManagers m (start limit draws) es) (ran : h = (start limit draws).run es) :
    (∀ k, ((h.owners k).map (·.1)).Nodup) ∧
    (∀ k owner r, (owner, r) ∈ h.owners k → RegisteredBy limit draws es k owner r) ∧
    (∀ c k owner target token, h.call? c.id = some c →
      c.request = .register k owner target token →
        h.RegisterTurn c k owner target (h.step (.call c.id))) ∧
    ∀ key e, h.monitor? m key = some e →
      e.refcount = h.holdings e.stream + h.registering e.stream := by
  subst ran
  have books := (moment_run limit draws es).books
  have custody := custody_run used
  refine ⟨custody.single, fun k owner r => registered_by limit draws es,
    fun c k owner target token found => ?_, fun key e => ?_⟩
  · exact registerTurn books (holds_run limit draws es c (List.mem_of_find?_eq_some found)) found
  · exact custody.references books.toIndexed (tally_run limit draws es)
      (used.managed es List.prefix_rfl)

/-- Two owners register one object, and the first one tries to do so again. -/
def registeredTwice : List Event :=
  [.command 0 (.newMultiplexer "m" {} none), .command 1 (.newManager "g" "m" none),
    .command 2 (.register "g" ⟨"ns", "first"⟩ "a" none),
    .command 3 (.register "g" ⟨"ns", "second"⟩ "a" none),
    .call 2, .call 3, .loop 0, .loop 0, .loop 0, .call 2, .call 3,
    .command 4 (.register "g" ⟨"ns", "first"⟩ "b" none), .call 4]

theorem usedByManagers_registeredTwice : UsedByManagers 0 (start 4 {}) registeredTwice where
  managed fs before := by
    have all : ∀ fs ∈ registeredTwice.inits, ∀ c ∈ ((start 4 {}).run fs).calls,
        ((start 4 {}).run fs).passesManagers 0 c = false := by
      decide
    exact all fs ((List.mem_inits fs registeredTwice).mpr before)
  kept fs e before := by
    have mem : e ∈ registeredTwice := before.subset (by simp)
    simp only [registeredTwice, List.mem_cons, List.not_mem_nil, or_false] at mem
    rcases mem with rfl | rfl | rfl | rfl | rfl | rfl | rfl | rfl | rfl | rfl | rfl | rfl | rfl <;>
      rfl

/-- The two owners hold the two references. -/
theorem owners_and_references_two :
    UsedByManagers 0 (start 4 {}) registeredTwice ∧
      ((start 4 {}).run registeredTwice).monitor? 0 ⟨"ns", "a"⟩ = some ⟨0, 2⟩ ∧
      2 = ((start 4 {}).run registeredTwice).holdings 0 +
        ((start 4 {}).run registeredTwice).registering 0 := by
  have entry : ((start 4 {}).run registeredTwice).monitor? 0 ⟨"ns", "a"⟩ = some ⟨0, 2⟩ := by
    decide
  exact ⟨usedByManagers_registeredTwice, entry,
    (owners_and_references usedByManagers_registeredTwice rfl).2.2.2 _ _ entry⟩

end Hub

end SharedWatch
