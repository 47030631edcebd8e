import SharedWatch.Proofs.ReferenceTally
import SharedWatch.Proofs.References

/-!
# Multiplexers keep the tally

Whatever a multiplexer does, and whatever is done to a hub beside it, entries count the references
that are out, also while the handler of a new registration is called for the first time.

* `Tally.giveBack`, `Tally.acquire`: a reference goes back, and is taken.
* `Tally.stopAll`: all entries of a multiplexer go.
* `Tally.calm`, `Tally.beats`, `Tally.deed`: so it is with everything that happens.
* `tally_run`: entries count the references that are out after every run.
-/

namespace SharedWatch

namespace Hub

open Relation (ReflTransGen)

variable {h h' : Hub} {hands : List Nat} {n m : Nat} {key : ObjectKey} {e : Monitor}
  {mux : Multiplexer}

/-! ## References go back and are taken -/

/-- A reference in somebody's hand goes back to its entry. -/
theorem Tally.giveBack (tally : h.Tally (e.stream :: hands)) (indexed : h.Indexed)
    (known : h.multiplexers[m]? = some mux) (found : mux.monitor? key = some e) :
    (h.giveBack m mux key e).2.Tally hands := by
  have entry : h.monitor? m key = some e := (monitor?_eq known).trans found
  have counted := tally.counted entry
  have claims (n : Nat) : h.claims (e.stream :: hands) n =
      h.claims hands n + if e.stream = n then 1 else 0 := by
    unfold Hub.claims
    rw [count_cons_int]
    omega
  have handed : ∀ n ∈ hands, n < h.streams.length := fun n mem =>
    tally.handed n (List.mem_cons_of_mem _ mem)
  have others (n : Nat) (other : n ≠ e.stream) :
      h.claims hands n = h.claims (e.stream :: hands) n := by
    rw [claims, if_neg (Ne.symm other), Int.add_zero]
  have here : h.claims hands e.stream = e.refcount - 1 := by
    rw [counted, claims, if_pos rfl]
    omega
  have positive := indexed.counted entry
  by_cases last : e.refcount ≤ 1
  · unfold Hub.giveBack
    rw [if_pos last]
    have removed : (h.updateMultiplexer m (·.remove key)).Tally hands :=
      tally.vanish entry (fun m' key' => monitor?_remove key m' key')
        (by show h.claims hands e.stream ≤ 0; omega) others rfl (fun _ => .inl) handed (.inl rfl)
    exact removed.level (level_stopStream _ _)
  · rw [giveBack_other known last]
    refine tally.recount known entry ?_ others handed
    rw [here]
    omega

/-- The reference of a subscriber that failed goes back, or nothing counts it any more. -/
theorem Tally.release (tally : h.Tally (n :: hands)) (indexed : h.Indexed)
    (own : ∃ f, h.face? n = some f ∧ f.issuer = some m ∧ f.key = key) :
    (h.release m key n).Tally hands := by
  obtain ⟨f, face, issuer, rfl⟩ := own
  -- Without an entry of its own, a reference can go from the hands at any time.
  have gone (absent : ∀ e, h.monitor? m f.key = some e → e.stream ≠ n) : h.Tally hands := by
    have vacant : h.Vacant n := by
      intro m' key' e found here
      obtain ⟨f', face', hkey, issuer'⟩ := indexed.entry found
      rw [here, face] at face'
      cases face'
      rw [issuer] at issuer'
      cases issuer'
      exact absent e (hkey ▸ found) here
    have claims (i : Nat) : h.claims (n :: hands) i = h.claims hands i + if n = i then 1 else 0 := by
      unfold Hub.claims
      rw [count_cons_int]
      omega
    refine { tally with
      counted := fun {m' key' e} found => ?_, vacant := fun {i} free => ?_
      handed := fun i mem => tally.handed i (List.mem_cons_of_mem _ mem) }
    · have counted := tally.counted found
      rwa [claims, if_neg (Ne.symm (vacant m' key' e found)), Int.add_zero] at counted
    · have few := tally.vacant free
      rw [claims] at few
      split at few <;> omega
  rcases release_cases h m f.key n with ⟨same, absent⟩ | ⟨mux, e, known, found, rfl, aside⟩
  · rw [same]
    exact gone absent
  · exact (tally.giveBack indexed known found).level aside.level

/-- Nobody waits for a stream that is yet to be made. -/
theorem Indexed.idle (indexed : h.Indexed) : h.waiters h.streams.length = 0 := by
  unfold Hub.waiters
  rw [List.countP_eq_zero]
  intro c mem waits
  obtain ⟨f, _, face, _⟩ := indexed.waiting mem (of_decide_eq_true waits)
  rw [face?_length] at face
  cases face

/-- No reference to a stream that is yet to be made is out. -/
theorem Tally.unmade (tally : h.Tally hands) (idle : h.waiters h.streams.length = 0) :
    h.Vacant h.streams.length ∧ h.claims hands h.streams.length = 0 ∧
      ∀ e ∈ h.struck, e.stream ≠ h.streams.length := by
  have weight : h.weight h.streams.length = 0 := by
    unfold Hub.weight
    rw [List.filter_eq_nil_iff.mpr fun d mem => ?_]
    · rfl
    · simpa using Nat.ne_of_lt (tally.made d mem)
  have count : hands.count h.streams.length = 0 :=
    List.count_eq_zero.mpr fun mem => Nat.lt_irrefl _ (tally.handed _ mem)
  refine ⟨fun m key e found => Nat.ne_of_lt (tally.placed found), ?_, fun e mem => ?_⟩
  · unfold Hub.claims
    rw [weight, idle, count]
    rfl
  · obtain ⟨d, old, struck⟩ := List.mem_filterMap.mp mem
    have stream : d.stream = e.stream := by
      cases d <;> cases struck <;> rfl
    exact Nat.ne_of_lt (stream ▸ tally.made d old)

/-- A stream is made and becomes that of a key; the first reference to it is in somebody's hand. -/
theorem Tally.open (tally : h.Tally hands) (idle : h.waiters h.streams.length = 0)
    (known : h.multiplexers[m]? = some mux) (free : h.monitor? m key = none) (policy : RetryPolicy) :
    ((h.createStream key policy (some m)).2.updateMultiplexer m
      (·.put key ⟨h.streams.length, 1⟩)).Tally (h.streams.length :: hands) := by
  obtain ⟨vacant, unused, fresh⟩ := tally.unmade idle
  have created := level_createStream h key policy (some m)
  have ready := tally.level created
  refine ready.place known ((created.entries m key).trans free) ?_ ?_ ?_ fresh
  · exact vacant
  · rw [claims_eq (created.waiters _) (weight_congr created.dealings _)]
    exact unused
  · show h.streams.length < (h.streams ++ [_]).length
    simp

theorem Level.put {g g' : Hub} {mux' : Multiplexer} (level : g.Level g')
    (known : g.multiplexers[m]? = some mux) (known' : g'.multiplexers[m]? = some mux')
    (key : ObjectKey) (e : Monitor) :
    (g.updateMultiplexer m (·.put key e)).Level (g'.updateMultiplexer m (·.put key e)) :=
  { level with
    entries := fun m' key' => by
      rw [monitor?_put known, monitor?_put known']
      split
      · rfl
      · exact level.entries m' key' }

theorem Level.deal {g g' : Hub} (level : g.Level g') (d : Dealing) :
    (g.deal d).Level (g'.deal d) where
  entries := level.entries
  waiters := level.waiters
  dealings := congrArg (d :: ·) level.dealings
  streams := level.streams

theorem level_retire (h : Hub) (e : Monitor) : (h.deal (.closed e)).Level (h.retire e) :=
  ((level_stopStream h e.stream).deal (.closed e)).trans (aside_say _ _ _).level

theorem multiplexers_openStream (h : Hub) (m : Nat) (mux : Multiplexer) (key : ObjectKey) :
    (h.openStream m mux key).2.multiplexers = h.multiplexers :=
  (apart_openStream h m mux key).multiplexers

/-- An entry that is replaced may as well go before the new stream is made. -/
theorem level_replace (known : h.multiplexers[m]? = some mux) (e : Monitor) :
    ((((h.updateMultiplexer m (·.remove key)).deal (.closed e)).createStream key
      mux.settings.listWatch (some m)).2.updateMultiplexer m (·.put key ⟨h.streams.length, 1⟩)).Level
      (((h.openStream m mux key).2.updateMultiplexer m
        (·.put key ⟨h.streams.length, 1⟩)).retire e) := by
  refine Level.trans ?_ (level_retire _ e)
  have opened := level_openStream h m mux key
  have made : (h.createStream key mux.settings.listWatch (some m)).2.Level
      (h.openStream m mux key).2 :=
    (apart_openStream h m mux key).level (accounts_openStream h m mux key)
  have known' : (h.openStream m mux key).2.multiplexers[m]? = some mux :=
    (multiplexers_openStream h m mux key).symm ▸ known
  have removed : (((h.updateMultiplexer m (·.remove key)).deal (.closed e)).createStream key
      mux.settings.listWatch (some m)).2.multiplexers[m]? = some (mux.remove key) := by
    show (h.multiplexers.modify m _)[m]? = _
    simp [known]
  generalize (h.openStream m mux key).2 = g at opened made known' ⊢
  refine ⟨fun m' key' => ?_, opened.waiters, congrArg (Dealing.closed e :: ·) opened.dealings,
    made.streams⟩
  refine (monitor?_put known' key ⟨h.streams.length, 1⟩ m' key').trans
    (Eq.symm ((monitor?_put removed key ⟨h.streams.length, 1⟩ m' key').trans ?_))
  split
  · rfl
  · rename_i other
    refine ((monitor?_remove key m' key').trans (if_neg other)).trans ?_
    exact (opened.entries m' key').symm

/-- A reference is taken: it is in somebody's hand. -/
theorem Tally.acquire (tally : h.Tally hands) (indexed : h.Indexed)
    (known : h.multiplexers[m]? = some mux) (key : ObjectKey) :
    (h.acquire m mux key).2.Tally ((h.acquire m mux key).1 :: hands) := by
  have entry := @monitor?_eq h m mux key known
  unfold Hub.acquire
  cases found : mux.monitor? key with
  | none =>
    have made := tally.open indexed.idle known (entry.trans found) mux.settings.listWatch
    have opened : (h.createStream key mux.settings.listWatch (some m)).2.Level
        (h.openStream m mux key).2 :=
      (apart_openStream h m mux key).level (accounts_openStream h m mux key)
    have known' : (h.openStream m mux key).2.multiplexers[m]? = some mux :=
      (multiplexers_openStream h m mux key).symm ▸ known
    exact made.level (opened.put known known' key _)
  | some e =>
    have here := entry.trans found
    simp only
    split
    · refine tally.recount known here ?_ (fun n other => ?_) fun n mem => ?_
      · unfold claims
        rw [count_cons_int, if_pos rfl]
        have counted := tally.counted here
        unfold claims at counted
        omega
      · unfold claims
        rw [count_cons_int, if_neg (Ne.symm other), Int.add_zero]
      · rcases List.mem_cons.mp mem with rfl | before
        · exact tally.placed here
        · exact tally.handed n before
    · have struck := tally.strike here (d := .closed e) rfl
      have removed : ((h.updateMultiplexer m (·.remove key)).deal (.closed e)).multiplexers[m]? =
          some (mux.remove key) := by
        show (h.multiplexers.modify m _)[m]? = _
        simp [known]
      have free : ((h.updateMultiplexer m (·.remove key)).deal (.closed e)).monitor? m key = none :=
        (monitor?_remove key m key).trans (if_pos ⟨rfl, rfl⟩)
      have made := struck.open indexed.idle removed free mux.settings.listWatch
      exact made.level (level_replace known e)

/-- A registration gives its reference back. -/
theorem Tally.unsubscribe (tally : h.Tally hands) (books : h.Books none) (m : Nat)
    (r : Registration) : (h.unsubscribe m r).2.Tally hands := by
  rcases unsubscribe_cases h m r with
    aside | ⟨mux, e, st, g, known, entry, own, _, stream, left, eq⟩
  · exact tally.level aside.level
  · rw [eq]
    have known' : g.multiplexers[m]? = some mux := (multiplexers_leaveStream left).symm ▸ known
    have left' := tally.level (level_leaveStream left)
    have held : ((g.deal (.returned r st.isStopped)).say .info "handler unsubscribed").Tally
        (e.stream :: hands) := by
      have placed := left'.placed ((monitor?_eq known').trans entry)
      rw [own] at placed ⊢
      exact (left'.returned st.isStopped placed).level (aside_say _ _ _).level
    have told : g.Apart ((g.deal (.returned r st.isStopped)).say .info "handler unsubscribed") :=
      (apart_deal g _).trans (aside_say _ _ _).apart
    have given := held.giveBack ((books.leaveStream stream left).apart told).toIndexed known' entry
    exact given.level (aside_closeRegistration g m mux r st.isStopped e).level

/-! ## All entries of a multiplexer go -/

/-- Entries of a multiplexer go one after the other, each counted off with its references. -/
def strikeAll (h : Hub) (m : Nat) (deal : Monitor → Dealing) (entries : List (ObjectKey × Monitor)) :
    Hub :=
  entries.foldl (fun h entry => (h.updateMultiplexer m (·.remove entry.1)).deal (deal entry.2)) h

theorem monitor?_strikeAll (entries : List (ObjectKey × Monitor)) (h : Hub) (m : Nat)
    (deal : Monitor → Dealing) (m' : Nat) (key : ObjectKey) :
    (h.strikeAll m deal entries).monitor? m' key =
      if m' = m ∧ key ∈ entries.map (·.1) then none else h.monitor? m' key := by
  induction entries generalizing h with
  | nil => simp [strikeAll]
  | cons entry entries ih =>
    refine (ih ((h.updateMultiplexer m (·.remove entry.1)).deal (deal entry.2))).trans ?_
    have removed : ((h.updateMultiplexer m (·.remove entry.1)).deal (deal entry.2)).monitor? m' key =
        if m' = m ∧ key = entry.1 then none else h.monitor? m' key := monitor?_remove entry.1 m' key
    rw [removed]
    simp only [List.map_cons, List.mem_cons]
    by_cases here : m' = m
    · by_cases first : key = entry.1
      · simp [here, first]
      · simp only [first, and_false, false_or, if_false]
    · simp [here]

theorem Tally.strikeAll {deal : Monitor → Dealing} (struck : ∀ e, (deal e).struck? = some e)
    {entries : List (ObjectKey × Monitor)} (distinct : (entries.map (·.1)).Nodup)
    (tally : h.Tally hands) (found : ∀ entry ∈ entries, h.monitor? m entry.1 = some entry.2) :
    (h.strikeAll m deal entries).Tally hands := by
  induction entries generalizing h with
  | nil => exact tally
  | cons entry entries ih =>
    rw [List.map_cons, List.nodup_cons] at distinct
    refine ih distinct.2 (tally.strike (found entry List.mem_cons_self) (struck entry.2)) ?_
    intro entry' mem
    refine (monitor?_remove entry.1 m entry'.1).trans ?_
    rw [if_neg]
    · exact found entry' (List.mem_cons_of_mem _ mem)
    · rintro ⟨_, same⟩
      exact distinct.1 (same ▸ List.mem_map_of_mem mem)

/-- Stopping the streams of entries that go is as good as letting them go. -/
theorem level_stopAll (entries : List (ObjectKey × Monitor)) (m : Nat) (deal : Monitor → Dealing)
    {h g : Hub} (waiters : ∀ n, g.waiters n = h.waiters n) (dealings : g.dealings = h.dealings)
    (streams : h.streams.length ≤ g.streams.length) :
    (∀ n, (entries.foldl (fun h (_, e) => (h.stopStream e.stream).2.deal (deal e)) g).waiters n =
      (h.strikeAll m deal entries).waiters n) ∧
    (entries.foldl (fun h (_, e) => (h.stopStream e.stream).2.deal (deal e)) g).dealings =
      (h.strikeAll m deal entries).dealings ∧
    (h.strikeAll m deal entries).streams.length ≤
      (entries.foldl (fun h (_, e) => (h.stopStream e.stream).2.deal (deal e)) g).streams.length := by
  induction entries generalizing h g with
  | nil => exact ⟨waiters, dealings, streams⟩
  | cons entry entries ih =>
    have stopped := level_stopStream g entry.2.stream
    refine ih (fun n => (stopped.waiters n).trans (waiters n)) ?_
      (Nat.le_trans streams stopped.streams)
    exact congrArg (deal entry.2 :: ·) (stopped.dealings.trans dealings)

/-- A multiplexer that stops everything counts all references off. -/
theorem Tally.stopEverything (tally : h.Tally hands) (indexed : h.Indexed)
    (known : h.multiplexers[m]? = some mux) {f : Multiplexer → Multiplexer}
    (cleared : ∀ mux, (f mux).monitors = []) {d : Monitor → Dealing}
    (struck : ∀ e, (d e).struck? = some e) :
    (mux.monitors.foldl (fun h (_, e) => (h.stopStream e.stream).2.deal (d e))
      (h.updateMultiplexer m f)).Tally hands := by
  have distinct := indexed.distinct known
  have gone : (h.strikeAll m d mux.monitors).Tally hands := by
    refine tally.strikeAll struck distinct fun entry mem => ?_
    exact (monitor?_eq known).trans (distinct.mem_iff.mp mem)
  obtain ⟨waiters, dealings, streams⟩ := level_stopAll mux.monitors m d
    (h := h) (g := h.updateMultiplexer m f) (fun _ => rfl) rfl (Nat.le_refl _)
  refine gone.level ⟨fun m' key => ?_, waiters, dealings, streams⟩
  have kept := (stopped_stopAll mux.monitors (fun g e => g.deal (d e))
    (fun g e => apart_deal g _) (h.updateMultiplexer m f)).1 m' key
  rw [kept, monitor?_clear cleared, monitor?_strikeAll]
  by_cases here : m' = m
  · subst here
    rw [if_pos rfl]
    split
    · rfl
    · rename_i absent
      cases found : h.monitor? m' key with
      | none => rfl
      | some e =>
        rw [monitor?_eq known] at found
        exact absurd ⟨rfl, List.mem_map_of_mem (distinct.mem_iff.mpr found)⟩ absent
  · rw [if_neg here, if_neg fun both => here both.1]

theorem Tally.shutdown (tally : h.Tally hands) (indexed : h.Indexed) (m : Nat) :
    (h.shutdown m).Tally hands := by
  unfold Hub.shutdown
  split
  · exact tally
  · rename_i mux known
    have stopped := tally.stopEverything indexed known
      (f := fun mux => { mux with monitors := [], isShut := true }) (fun _ => rfl) (d := .closed) fun _ => rfl
    exact stopped.level ((aside_fire _ _).level.trans (aside_say _ _ _).level)

theorem Tally.dropMultiplexer (tally : h.Tally hands) (indexed : h.Indexed) (m : Nat) :
    (h.dropMultiplexer m).Tally hands := by
  unfold Hub.dropMultiplexer
  split
  · exact tally
  · rename_i mux known
    exact tally.stopEverything indexed known
      (f := fun mux => { mux with monitors := [], dropped := true }) (fun _ => rfl)
      (d := .dropped) fun _ => rfl

/-! ## Subscribers -/

/-- A subscriber takes its reference and begins to wait. -/
theorem Tally.enter (tally : h.Tally hands) (books : h.Books none) {c : PendingCall} {w : SyncWait}
    (found : h.call? c.id = some c) (idle : c.waitsOn? = none)
    (target : h.target? c.request = some (m, key)) (known : h.multiplexers[m]? = some mux)
    (taken : w.stream = (h.acquire m mux key).1) :
    ((h.acquire m mux key).2.beginWait c w).Tally hands := by
  have acquired := (tally.acquire books.toIndexed known key).level (aside_takeTicket _).level
  have indexed := ((books.acquire known key).1.apart (aside_takeTicket _).apart).toIndexed
  have found' : (h.acquire m mux key).2.takeTicket.2.call? c.id = some c := by
    unfold call? at found ⊢
    exact (congrArg _ (calls_acquire h m mux key)).trans found
  unfold beginWait
  refine Tally.updateCall ?_ indexed found' idle
  have subscribes : c.request.isSubscriber = true := by
    cases asked : c.request <;> first | rfl | (rw [asked] at target; cases target)
  have waits : ∀ ticket, PendingCall.waitsOn? { c with phase := .syncing w, ticket } =
      some (h.acquire m mux key).1 := by
    intro ticket
    unfold PendingCall.waitsOn?
    simp [subscribes, taken]
  rw [waits]
  exact acquired

/-- A subscriber gives up. -/
theorem Tally.giveUp (tally : h.Tally hands) (books : h.Books none) {c : PendingCall}
    (message : String) (found : h.call? c.id = some c) (waits : c.waitsOn? = some n)
    (target : h.target? c.request = some (m, key)) :
    (h.giveUp c.id m key n message).Tally hands := by
  obtain ⟨f, m', face, issuer, target'⟩ :=
    books.waiting (List.mem_of_find?_eq_some found) waits
  rw [target] at target'
  cases target'
  have dropped := tally.dropCall books.toIndexed found
  rw [waits] at dropped
  have indexed := ((books.dropCall found).apart (aside_say (h.dropCall c.id) .warn message).apart).toIndexed
  exact Tally.release (dropped.level (aside_say _ _ _).level) indexed ⟨f, face, issuer, rfl⟩

/-- A subscriber goes away where it waits. -/
theorem Tally.abort (tally : h.Tally hands) (books : h.Books none) (id : Nat) :
    (h.abort id).2.Tally hands := by
  unfold Hub.abort
  split
  · exact tally
  · rename_i c found
    obtain rfl := id_of_call? found
    have gone : ((c.waitsOn?.elim h fun n => (h.bypass n .aborted).deal (.lost n)).dropCall
        c.id).Tally hands := by
      cases waits : c.waitsOn? with
      | none =>
        have dropped := tally.dropCall books.toIndexed found
        rw [waits] at dropped
        exact dropped
      | some n =>
        have apart := apart_bypass h n .aborted
        have found' : (h.bypass n .aborted).call? c.id = some c := by
          unfold call? at found ⊢
          rw [apart.calls, found]
        have dropped := (tally.level (level_bypass h n .aborted)).dropCall
          (books.apart apart).toIndexed found'
        rw [waits] at dropped
        exact dropped.lose
    simp only
    split
    · exact gone.level (aside_leaveTurn _ _ _).level
    · exact gone

/-! ## Every piece, every run -/

theorem Tally.calm (tally : h.Tally hands) (books : h.Books none) (calm : Calm h h') :
    h'.Tally hands := by
  cases calm with
  | aside aside => exact tally.level aside.level
  | store op => exact tally.level (still_backend h _).level
  | openWatch sel version name =>
    refine tally.level ?_
    unfold Hub.openWatch
    split
    · exact (still_backend h _).level
    · exact ⟨fun _ _ => rfl, fun _ => rfl, rfl, Nat.le_refl _⟩
  | poll limit _ => exact tally.level (still_backend h _).level
  | dropWatch _ => exact tally.level ⟨fun _ _ => rfl, fun _ => rfl, rfl, Nat.le_refl _⟩
  | create key policy => exact tally.level (level_createStream h key policy none)
  | start n parent => exact tally.level (level_startStream h n parent)
  | halt n => exact tally.level (level_haltStream h n)
  | detach r found => exact tally.level (level_removeHandler h _ _ r)
  | unsubscribe m r => exact tally.unsubscribe books m r
  | enter found idle target known taken => exact tally.enter books found idle target known taken
  | leave message found waits target => exact tally.giveUp books message found waits target
  | shutdown m => exact tally.shutdown books.toIndexed m
  | dropMultiplexer m => exact tally.dropMultiplexer books.toIndexed m
  | addMultiplexer settings root =>
    exact tally.level ⟨monitor?_addMultiplexer h settings root, fun _ => rfl, rfl, Nat.le_refl _⟩
  | addCall request bind free => exact tally.level (level_addCall h _ request bind)
  | dropCall found idle =>
    have dropped := tally.dropCall books.toIndexed found
    rename_i c
    cases waits : c.waitsOn? with
    | none =>
      rw [waits] at dropped
      exact dropped
    | some n =>
      obtain ⟨f, m, _, _, target⟩ := books.waiting (List.mem_of_find?_eq_some found) waits
      rcases idle with idle | nowhere
      · rw [idle] at waits
        cases waits
      · rw [nowhere] at target
        cases target
  | updateCall found idle same idle' =>
    refine Tally.updateCall ?_ books.toIndexed found idle
    rw [idle']
    exact tally
  | abort id => exact tally.abort books id

theorem apart_record (h : Hub) (e : LogEntry) : h.Apart (h.record e) := { Apart.refl h with }

theorem Tally.beats (tally : h.Tally hands) (books : h.Books none) (beats : Beats h h') :
    h'.Tally hands := by
  suffices h'.Tally hands ∧ h'.Books none from this.1
  induction beats with
  | refl => exact ⟨tally, books⟩
  | tail _ beat ih =>
    cases beat with
    | called e =>
      exact ⟨ih.1.level ((apart_record _ e).level rfl), ih.2.apart (apart_record _ e)⟩
    | calm calm => exact ⟨ih.1.calm ih.2 calm, ih.2.calm calm⟩

/-- A handler that is attached gets the next number at a stream that runs. -/
theorem attachHandler_eq_ok {ref : HandlerRef} {r : Registration}
    (attached : (h.attachHandler n ref).1 = .ok r) : ∃ st, h.streams[n]? = some st ∧
      r = ⟨st.key, h.attached + 1, n, st.issuer⟩ ∧
      Beats (h.addHandler n ref) (h.attachHandler n ref).2 := by
  rcases attachHandler_cases h n ref with ⟨_, e, refused⟩ | ⟨st, found, running, more⟩
  · rw [refused] at attached
    cases attached
  · refine ⟨st, found, ?_, more⟩
    unfold attachHandler at attached
    rw [found] at attached
    simp only [running, Bool.false_eq_true, if_false] at attached
    exact (Except.ok.inj attached).symm

theorem level_addHandler (h : Hub) (n : Nat) (ref : HandlerRef) :
    h.Level (h.addHandler n ref) := by
  have numbered : h.Level { h with attached := h.attached + 1 } :=
    ⟨fun _ _ => rfl, fun _ => rfl, rfl, Nat.le_refl _⟩
  exact numbered.trans (level_updateStream _ _ _)

theorem Tally.deed (tally : h.Tally []) (books : h.Books none) (deed : Deed h h') :
    h'.Tally [] := by
  cases deed with
  | calm calm => exact tally.calm books calm
  | attach n ref =>
    have bypassed := tally.level (level_bypass h n .attached)
    rcases attachHandler_cases (h.bypass n .attached) n ref with ⟨same, _⟩ | ⟨st, found, _, more⟩
    · rw [same]
      exact bypassed
    · rw [(beside_bypass h n .attached).streams] at found
      exact (bypassed.level (level_addHandler _ n ref)).beats (books.attach ref found) more
  | join found waits attached =>
    rename_i c n ref r
    obtain ⟨st, stream, rfl, more⟩ := attachHandler_eq_ok attached
    have dropped := tally.dropCall books.toIndexed found
    rw [waits] at dropped
    refine Tally.grant ?_
    exact (dropped.level (level_addHandler _ n ref)).beats (books.join ref found waits stream) more
  | loop found stepped =>
    rename_i l st
    rcases (stepLoop_cases stepped).still_or_delivers (stream_of_loop? found) with
      still | ⟨g, g', x, news, before, stream, delivers, after⟩
    · exact tally.level still.level
    · have changed := apart_refaced stream news.face
      have ready := tally.level (before.level.trans (level_updateStream g l.stream fun _ => x.1))
      have books' := (books.apart before.toApart).apart changed
      exact (ready.beats books' delivers.beats).level after.level
  | loopEnd id =>
    rcases loopEnd_cases h id with still | ⟨n, still⟩
    · exact tally.level still.level
    · exact tally.level ((level_haltStream h n).trans still.level)

theorem tally_start (limit : Nat) (draws : Draws) : (start limit draws).Tally [] where
  counted found := by cases found
  vacant _ := Int.le_refl 0
  alone found := by cases found
  placed found := by cases found
  made _ mem := by cases mem
  handed _ mem := by cases mem
  gone _ mem := by cases mem
  distinct := List.nodup_nil

/-- After every run, entries count the references that are out. -/
theorem tally_run (limit : Nat) (draws : Draws) (es : List Event) :
    ((start limit draws).run es).Tally [] :=
  (run_keeps (P := fun h => h.Tally [] ∧ h.Books none)
    (fun kept still => ⟨kept.1.level still.level, kept.2.shifts still.shifts⟩)
    (fun kept deed => ⟨kept.1.deed kept.2 deed, kept.2.shifts deed.shifts⟩) es
    ⟨tally_start limit draws, books_start limit draws⟩).1

end Hub

end SharedWatch
