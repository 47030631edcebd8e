import Mathlib.Algebra.Ring.Nat
import Mathlib.Data.List.Nodup
import Mathlib.Data.List.Perm.Subperm
import SharedWatch.Proofs.Registrations

/-!
# The gauge of live registrations

What the gauge shows is the number of live registrations, but for entries that went with references
in them: one that is closed takes away from the gauge also what waiting subscribers had never added
to it, and one that goes with its multiplexer takes away nothing.

* `Hub.outstanding`, `Hub.live`: the registrations that have not given their reference back, and those
  among them whose stream is still that of their key.
* `Hub.Sound`: no registration has given back more than it was granted.
* `Tally.references`: an entry counts its live registrations, the subscribers that wait for it, and
  those that were lost.
* `gauge_counts_live`: by how much the gauge is off.
-/

namespace SharedWatch

namespace Dealing

/-- The entry that is closed. -/
def closed? : Dealing → Option Monitor
  | closed e => some e
  | granted _ | returned _ _ | lost _ | dropped _ => none

/-- The entry that goes with its multiplexer. -/
def dropped? : Dealing → Option Monitor
  | dropped e => some e
  | granted _ | returned _ _ | lost _ | closed _ => none

attribute [simp] Dealing.stream Dealing.gauge Dealing.weight Dealing.granted? Dealing.returned?
  Dealing.struck? closed? dropped?

end Dealing

/-- What a list has beyond another one that lies in it. -/
theorem length_filter_not_mem {α : Type} [DecidableEq α] {l l' : List α} (nodup : l.Nodup)
    (within : ∀ a, l'.count a ≤ l.count a) (p : α → Bool) :
    ((l.filter (· ∉ l')).filter p).length + (l'.filter p).length = (l.filter p).length := by
  have perm : (l' ++ l.filter (· ∉ l')).Perm l := by
    rw [← nodup.sdiff_eq_filter]
    exact List.subperm_append_diff_self_of_count_le fun a _ => within a
  have same := (perm.filter p).length_eq
  rw [List.filter_append, List.length_append] at same
  omega

/-- A list falls into as many pieces as a function has values on it. -/
theorem sum_length_filter {α : Type} (f : α → Nat) {ns : List Nat} (nodup : ns.Nodup) (l : List α) :
    (ns.map fun n => (l.filter (f · = n)).length).sum = (l.filter (f · ∈ ns)).length := by
  induction ns with
  | nil => simp
  | cons n ns ih =>
    obtain ⟨fresh, nodup⟩ := List.nodup_cons.mp nodup
    rw [List.map_cons, List.sum_cons, ih nodup]
    clear ih
    induction l with
    | nil => rfl
    | cons a l ih =>
      by_cases first : f a = n
      · simp [first, fresh] at ih ⊢
        omega
      · by_cases later : f a ∈ ns
        · simp [first, later] at ih ⊢
          omega
        · simpa [List.filter_cons, first, later] using ih

/-- A value that a function has only once on a list. -/
theorem filter_eq_singleton {α : Type} (f : α → Nat) {l : List α} (nodup : (l.map f).Nodup) {a : α}
    (mem : a ∈ l) : l.filter (f · = f a) = [a] := by
  induction l with
  | nil => cases mem
  | cons b l ih =>
    obtain ⟨fresh, nodup⟩ := List.nodup_cons.mp nodup
    rcases List.mem_cons.mp mem with rfl | later
    · rw [List.filter_cons_of_pos (by simp), List.filter_eq_nil_iff.mpr]
      intro b mem same
      exact fresh (of_decide_eq_true same ▸ List.mem_map_of_mem mem)
    · rw [List.filter_cons_of_neg, ih nodup later]
      intro same
      exact fresh (of_decide_eq_true same ▸ List.mem_map_of_mem later)

namespace Hub

/-- The registrations that were handed out and have not given their reference back. -/
def outstanding (h : Hub) : List Registration := h.granted.filter (· ∉ h.givenBack)

/-- Those of a stream. -/
def outstandingAt (h : Hub) (n : Nat) : List Registration := h.outstanding.filter (·.stream = n)

/-- The stream of a registration is still that of its key. -/
def isCurrent (h : Hub) (r : Registration) : Bool :=
  (r.issuer.bind fun m => h.monitor? m r.key).any (·.stream = r.stream)

/-- The live registrations: those that have not given their reference back, and whose stream is still
that of their key.  A multiplexer that is gone has no stream for any key. -/
def live (h : Hub) : List Registration := h.outstanding.filter h.isCurrent

/-- The entries that have been closed. -/
def closedEntries (h : Hub) : List Monitor := h.dealings.filterMap (·.closed?)

/-- The entries that have gone with their multiplexers. -/
def droppedEntries (h : Hub) : List Monitor := h.dealings.filterMap (·.dropped?)

/-- No registration has given back more than it was granted. -/
def Sound (h : Hub) : Prop := ∀ r, h.givenBack.count r ≤ h.granted.count r

variable {h : Hub} {hands : List Nat} {n m : Nat} {key : ObjectKey} {r : Registration} {e : Monitor}

/-! ## Counting -/

/-- No two registrations are of one handler. -/
theorem Roll.handlers (roll : h.Roll) : (h.granted.map (·.handler)).Nodup := by
  have same : h.granted = h.personal.filterMap (·.granted?) := by
    unfold granted personal
    rw [List.filterMap_filter]
    congr 1
    funext d
    cases d <;> rfl
  rw [same]
  exact roll.distinct

theorem Roll.nodup (roll : h.Roll) : h.granted.Nodup := List.Nodup.of_map _ roll.handlers

theorem Roll.length_outstanding (roll : h.Roll) (sound : h.Sound) :
    h.outstanding.length + h.givenBack.length = h.granted.length := by
  have all (l : List Registration) : l.filter (fun _ => true) = l := List.filter_true l
  have counted := length_filter_not_mem roll.nodup sound fun _ => true
  rwa [all, all, all] at counted

theorem Roll.length_outstandingAt (roll : h.Roll) (sound : h.Sound) (n : Nat) :
    (h.outstandingAt n).length + (h.givenBack.filter (·.stream = n)).length =
      (h.granted.filter (·.stream = n)).length :=
  length_filter_not_mem roll.nodup sound (·.stream = n)

/-- The references to a stream that are out by what has become of them. -/
theorem weight_eq (h : Hub) (n : Nat) : h.weight n =
    (h.granted.filter (·.stream = n)).length - (h.givenBack.filter (·.stream = n)).length +
      h.dealings.count (.lost n) -
        ((h.struck.filter (·.stream = n)).map fun e => (e.refcount : Int)).sum := by
  unfold weight granted givenBack struck
  induction h.dealings with
  | nil => rfl
  | cons d ds ih =>
    cases d with
    | granted r => by_cases here : r.stream = n <;> simp [here] at ih ⊢ <;> omega
    | returned r late => by_cases here : r.stream = n <;> simp [here] at ih ⊢ <;> omega
    | lost i => by_cases here : i = n <;> simp [here] at ih ⊢ <;> omega
    | closed e => by_cases here : e.stream = n <;> simp [here] at ih ⊢ <;> omega
    | dropped e => by_cases here : e.stream = n <;> simp [here] at ih ⊢ <;> omega

/-- What has become of references moves the gauge. -/
theorem sum_gauge (h : Hub) : (h.dealings.map (·.gauge)).sum =
    h.granted.length - h.givenBack.length - (h.closedEntries.map fun e => (e.refcount : Int)).sum := by
  unfold granted givenBack closedEntries
  induction h.dealings with
  | nil => rfl
  | cons d ds ih => cases d <;> simp at ih ⊢ <;> omega

/-- Entries that have gone have been closed or have gone with their multiplexers. -/
theorem sum_struck (h : Hub) (f : Monitor → Nat) : (h.struck.map f).sum =
    (h.closedEntries.map f).sum + (h.droppedEntries.map f).sum := by
  unfold struck closedEntries droppedEntries
  induction h.dealings with
  | nil => rfl
  | cons d ds ih => cases d <;> simp at ih ⊢ <;> omega

/-- The references to a stream that are out, by who has them. -/
theorem Roll.claims (roll : h.Roll) (sound : h.Sound) (n : Nat) : h.claims [] n =
    h.waiters n + (h.outstandingAt n).length + h.dealings.count (.lost n) -
      ((h.struck.filter (·.stream = n)).map fun e => (e.refcount : Int)).sum := by
  have counted := roll.length_outstandingAt sound n
  unfold Hub.claims
  rw [weight_eq, List.count_nil]
  omega

/-- An entry counts the registrations of its stream, the subscribers that wait for it, and those that
were lost. -/
theorem Tally.references (tally : h.Tally []) (roll : h.Roll) (sound : h.Sound)
    (found : h.monitor? m key = some e) : e.refcount =
      (h.outstandingAt e.stream).length + h.waiters e.stream + h.dealings.count (.lost e.stream) := by
  have counted := tally.counted found
  have none : h.struck.filter (·.stream = e.stream) = [] := by
    refine List.filter_eq_nil_iff.mpr fun e' mem same => ?_
    exact tally.gone e' mem m key e found (of_decide_eq_true same).symm
  rw [roll.claims sound, none, List.map_nil, List.sum_nil] at counted
  omega

/-- A stream without an entry has no more registrations than were counted off with its entry. -/
theorem Tally.outstanding_le (tally : h.Tally []) (roll : h.Roll) (sound : h.Sound)
    (vacant : h.Vacant n) : ((h.outstandingAt n).length : Int) ≤
      ((h.struck.filter (·.stream = n)).map fun e => (e.refcount : Int)).sum := by
  have few := tally.vacant vacant
  rw [roll.claims sound] at few
  omega

/-- A registration belongs to the multiplexer and the key to which the entry of its stream does. -/
theorem Roll.belongs (roll : h.Roll) (indexed : h.Indexed) (granted : r ∈ h.granted)
    (found : h.monitor? m key = some e) (own : e.stream = r.stream) :
    r.issuer = some m ∧ r.key = key := by
  obtain ⟨f, face, hkey, issuer⟩ := roll.faced ((mem_personal rfl).mpr (mem_granted.mp granted))
  obtain ⟨f', face', hkey', issuer'⟩ := indexed.entry found
  rw [own, face] at face'
  cases face'
  exact ⟨issuer.symm.trans issuer', hkey.symm.trans hkey'⟩

/-- A registration whose stream is that of any entry is current. -/
theorem Roll.isCurrent (roll : h.Roll) (indexed : h.Indexed) (granted : r ∈ h.granted)
    (found : h.monitor? m key = some e) (own : e.stream = r.stream) : h.isCurrent r = true := by
  obtain ⟨issuer, rfl⟩ := roll.belongs indexed granted found own
  unfold Hub.isCurrent
  rw [issuer, Option.bind_some, found]
  simpa using own

theorem stream_of_isCurrent (current : h.isCurrent r = true) :
    ∃ m e, r.issuer = some m ∧ h.monitor? m r.key = some e ∧ e.stream = r.stream := by
  unfold isCurrent at current
  rw [Option.any_eq_true] at current
  obtain ⟨e, found, own⟩ := current
  obtain ⟨m, issuer, found⟩ := Option.bind_eq_some_iff.mp found
  exact ⟨m, e, issuer, found, of_decide_eq_true own⟩

/-- A registration that is out is live, or its stream has been counted off, and never both. -/
theorem Tally.live_iff (tally : h.Tally []) (roll : h.Roll) (sound : h.Sound) (indexed : h.Indexed)
    (out : r ∈ h.outstanding) : h.isCurrent r = true ↔ r.stream ∉ h.struck.map (·.stream) := by
  constructor
  · intro current mem
    obtain ⟨e, struck, same⟩ := List.mem_map.mp mem
    obtain ⟨m, e', _, found, own⟩ := stream_of_isCurrent current
    exact tally.gone e struck m r.key e' found (own.trans same.symm)
  · intro absent
    refine Classical.byContradiction fun other => ?_
    have vacant : h.Vacant r.stream := fun m key e found own =>
      other (roll.isCurrent indexed (List.mem_filter.mp out).1 found own)
    have few := tally.outstanding_le roll sound vacant
    have none : h.struck.filter (·.stream = r.stream) = [] := by
      refine List.filter_eq_nil_iff.mpr fun e mem same => ?_
      exact absent (of_decide_eq_true same ▸ List.mem_map_of_mem mem)
    have some : 0 < (h.outstandingAt r.stream).length :=
      List.length_pos_of_mem (List.mem_filter.mpr ⟨out, decide_eq_true rfl⟩)
    rw [none, List.map_nil, List.sum_nil] at few
    omega

/-- The registrations that are out are live, or belong to an entry that has been counted off. -/
theorem Tally.length_live (tally : h.Tally []) (roll : h.Roll) (sound : h.Sound)
    (indexed : h.Indexed) : h.outstanding.length = h.live.length +
      (h.struck.map fun e => (h.outstandingAt e.stream).length).sum := by
  have pieces := sum_length_filter (fun r : Registration => r.stream) tally.distinct h.outstanding
  rw [List.map_map] at pieces
  change (h.struck.map fun e => (h.outstandingAt e.stream).length).sum = _ at pieces
  have live : h.live = h.outstanding.filter fun r => !decide (r.stream ∈ h.struck.map (·.stream)) := by
    refine List.filter_congr fun r out => ?_
    have iff := tally.live_iff roll sound indexed out
    by_cases struck : r.stream ∈ h.struck.map (·.stream)
    · simpa [struck] using iff
    · simpa [struck] using iff
  have split := List.length_eq_length_filter_add (l := h.outstanding)
    fun r => decide (r.stream ∈ h.struck.map (·.stream))
  rw [live]
  omega

/-! ## The gauge -/

theorem sound_iff : h.Sound ↔ ∀ r ∈ h.givenBack, h.givenBack.count r ≤ h.granted.count r := by
  refine ⟨fun sound r _ => sound r, fun sound r => ?_⟩
  by_cases mem : r ∈ h.givenBack
  · exact sound r mem
  · rw [List.count_eq_zero_of_not_mem mem]
    exact Nat.zero_le _

instance (h : Hub) : Decidable h.Sound := decidable_of_iff _ sound_iff.symm

/-- How many references closed entries had beyond those of registrations: those of subscribers that
waited, or were lost. -/
def excess (h : Hub) : Int :=
  (h.closedEntries.map fun e => (e.refcount : Int) - (h.outstandingAt e.stream).length).sum

/-- How many registrations have gone with their multiplexers. -/
def stranded (h : Hub) : Nat := (h.droppedEntries.map fun e => (h.outstandingAt e.stream).length).sum

theorem excess_eq (h : Hub) : h.excess = (h.closedEntries.map fun e => (e.refcount : Int)).sum -
    (h.closedEntries.map fun e => (h.outstandingAt e.stream).length).sum := by
  unfold excess
  induction h.closedEntries with
  | nil => rfl
  | cons e es ih =>
    rw [List.map_cons, List.map_cons, List.map_cons, List.sum_cons, List.sum_cons, List.sum_cons, ih]
    omega

/-- A closed entry had at least as many references as it had registrations. -/
theorem Tally.outstanding_le_refcount (tally : h.Tally []) (roll : h.Roll) (sound : h.Sound)
    (struck : e ∈ h.struck) : (h.outstandingAt e.stream).length ≤ e.refcount := by
  have few := tally.outstanding_le roll sound (tally.gone e struck)
  have only : h.struck.filter (·.stream = e.stream) = [e] :=
    filter_eq_singleton (fun e : Monitor => e.stream) tally.distinct struck
  rw [only] at few
  simpa using few

/-- After every run in which no registration has given back more than it was granted, the gauge shows
the number of live registrations, less the references of waiting and lost subscribers that went with
closed entries, and with the registrations that went with their multiplexers. -/
theorem gauge_counts_live {limit : Nat} {draws : Draws} {es : List Event} {h : Hub}
    (ran : h = (start limit draws).run es) (sound : h.Sound) :
    h.metrics.liveRegistrations = h.live.length - h.excess + h.stranded ∧
    (∀ e ∈ h.closedEntries, (h.outstandingAt e.stream).length ≤ e.refcount) ∧
    (h.metrics.liveRegistrations = h.live.length ↔ h.excess = h.stranded) := by
  have tally : h.Tally [] := ran ▸ tally_run limit draws es
  have roll : h.Roll := ran ▸ roll_run limit draws es
  have indexed : h.Indexed := ran ▸ (moment_run limit draws es).books.toIndexed
  have shown : h.metrics.liveRegistrations = (h.dealings.map (·.gauge)).sum :=
    ran ▸ gauge_run limit draws es
  have total := roll.length_outstanding sound
  have pieces := tally.length_live roll sound indexed
  have beyond := h.excess_eq
  rw [sum_gauge] at shown
  rw [sum_struck] at pieces
  have gauge : h.metrics.liveRegistrations = h.live.length - h.excess + h.stranded := by
    unfold stranded
    omega
  refine ⟨gauge, fun e mem => ?_, by omega⟩
  obtain ⟨d, old, closed⟩ := List.mem_filterMap.mp mem
  refine tally.outstanding_le_refcount roll sound (List.mem_filterMap.mpr ⟨d, old, ?_⟩)
  cases d <;> cases closed
  rfl

/-- When the first of two registrations has unsubscribed, the other one is live. -/
theorem gauge_counts_live_one :
    ((start 4 {}).run firstUnsubscribed).live = [⟨⟨"ns", "a"⟩, 2, 0, some 0⟩] ∧
    ((start 4 {}).run firstUnsubscribed).metrics.liveRegistrations =
      ((start 4 {}).run firstUnsubscribed).live.length := by
  have even : ((start 4 {}).run firstUnsubscribed).excess =
      ((start 4 {}).run firstUnsubscribed).stranded := by decide
  exact ⟨by decide, (gauge_counts_live rfl (by decide)).2.2.mpr even⟩

/-- A subscriber waits for the first sync, and the multiplexer is shut down. -/
def shutDownWhileWaiting : List Event :=
  [.command 0 (.newMultiplexer "m" {} none),
    .command 1 (.subscribe "m" ⟨"ns", "a"⟩ ⟨"first", []⟩ "r" none), .call 1,
    .command 2 (.shutdown "m")]

/-- Two registrations are live, and nobody holds their multiplexer any more. -/
def droppedUnderTwo : List Event := twoRegistered ++ [.command 3 (.dropMultiplexer "m"), .collect]

/-- The gauge falls below zero when an entry is closed for which only a subscriber waits; and it stays
where it is when the multiplexer of two live registrations goes. -/
theorem gauge_off :
    (((start 4 {}).run shutDownWhileWaiting).metrics.liveRegistrations = -1 ∧
      ((start 4 {}).run shutDownWhileWaiting).live = []) ∧
    ((start 4 {}).run droppedUnderTwo).metrics.liveRegistrations = 2 ∧
      ((start 4 {}).run droppedUnderTwo).live = [] := by
  decide

end Hub

end SharedWatch
