import SharedWatch.Proofs.ReferenceMoves
import SharedWatch.Proofs.ReferenceBooksKept

/-!
# The tally of references

The count of an entry is the number of references that are out: those that were granted or lost and
have not been given back, those of subscribers that wait, and those in somebody's hands.  Of a stream
without an entry no more references are out than were counted off with it.

* `Dealing.weight`, `Hub.weight`: how what becomes of references changes the number that are out.
* `Hub.claims hands`: how many are out; `hands` are the streams of references in somebody's hands.
* `Hub.Tally hands`: entries count what is out.
* `Hub.Level`: nothing that matters to the tally changes.
* `Tally.recount`, `Tally.place`, `Tally.strike`: what may happen to an entry.
-/

namespace SharedWatch

namespace Dealing

/-- How the number of references that are out changes. -/
def weight : Dealing → Int
  | granted _ | lost _ => 1
  | returned _ _ => -1
  | closed e | dropped e => -e.refcount

/-- The entry that goes with all its references. -/
def struck? : Dealing → Option Monitor
  | closed e | dropped e => some e
  | granted _ | returned _ _ | lost _ => none

end Dealing

namespace Hub

/-- How many references to the stream of a number are out by what has become of references. -/
def weight (h : Hub) (n : Nat) : Int := ((h.dealings.filter (·.stream = n)).map (·.weight)).sum

/-- How many references to the stream of a number are out, with those in somebody's hands. -/
def claims (h : Hub) (hands : List Nat) (n : Nat) : Int := h.waiters n + hands.count n + h.weight n

/-- The entries that have gone with all their references. -/
def struck (h : Hub) : List Monitor := h.dealings.filterMap (·.struck?)

/-- No entry leads to the stream of a number. -/
def Vacant (h : Hub) (n : Nat) : Prop := ∀ m key e, h.monitor? m key = some e → e.stream ≠ n

/-- Entries count the references that are out. -/
structure Tally (hands : List Nat) (h : Hub) : Prop where
  counted : ∀ {m key e}, h.monitor? m key = some e → (e.refcount : Int) = h.claims hands e.stream
  vacant : ∀ {n}, h.Vacant n → h.claims hands n ≤ 0
  alone : ∀ {m key e m' key' e'}, h.monitor? m key = some e → h.monitor? m' key' = some e' →
    e'.stream = e.stream → m' = m ∧ key' = key
  placed : ∀ {m key e}, h.monitor? m key = some e → e.stream < h.streams.length
  made : ∀ d ∈ h.dealings, d.stream < h.streams.length
  handed : ∀ n ∈ hands, n < h.streams.length
  gone : ∀ e ∈ h.struck, h.Vacant e.stream
  distinct : (h.struck.map (·.stream)).Nodup

variable {h h' h'' : Hub} {hands : List Nat} {n m : Nat} {key : ObjectKey} {e : Monitor}
  {mux : Multiplexer}

theorem weight_deal (h : Hub) (d : Dealing) (n : Nat) :
    (h.deal d).weight n = h.weight n + if d.stream = n then d.weight else 0 := by
  unfold weight
  show (((d :: h.dealings).filter (·.stream = n)).map (·.weight)).sum = _
  by_cases here : d.stream = n
  · rw [List.filter_cons_of_pos (by simpa using here), if_pos here, List.map_cons, List.sum_cons,
      Int.add_comm]
  · rw [List.filter_cons_of_neg (by simpa using here), if_neg here, Int.add_zero]

theorem weight_congr (same : h'.dealings = h.dealings) (n : Nat) : h'.weight n = h.weight n := by
  unfold weight
  rw [same]

theorem waiters_congr (same : h'.calls = h.calls) (n : Nat) : h'.waiters n = h.waiters n := by
  unfold waiters
  rw [same]

/-! ## What does not matter to the tally -/

/-- Nothing that matters to the tally changes. -/
structure Level (h h' : Hub) : Prop where
  entries : ∀ m key, h'.monitor? m key = h.monitor? m key
  waiters : ∀ n, h'.waiters n = h.waiters n
  dealings : h'.dealings = h.dealings
  streams : h.streams.length ≤ h'.streams.length

theorem Level.refl (h : Hub) : h.Level h := ⟨fun _ _ => rfl, fun _ => rfl, rfl, Nat.le_refl _⟩

theorem Level.trans (first : h.Level h') (second : h'.Level h'') : h.Level h'' where
  entries m key := (second.entries m key).trans (first.entries m key)
  waiters n := (second.waiters n).trans (first.waiters n)
  dealings := second.dealings.trans first.dealings
  streams := Nat.le_trans first.streams second.streams

theorem Keeps.length_le (keeps : h.Keeps h') : h.streams.length ≤ h'.streams.length := by
  refine Nat.le_of_not_lt fun fewer => ?_
  obtain ⟨_, found, _⟩ := keeps.old (List.getElem?_eq_getElem fewer)
  rw [List.getElem?_eq_none (Nat.le_refl _)] at found
  cases found

/-- What leaves multiplexers, calls and accounts alone is level. -/
theorem Keeps.level (keeps : h.Keeps h') (multiplexers : h'.multiplexers = h.multiplexers)
    (calls : h'.calls = h.calls) (accounts : h'.accounts = h.accounts) : h.Level h' where
  entries m key := by
    unfold monitor?
    rw [multiplexers]
  waiters := waiters_congr calls
  dealings := congrArg Prod.fst accounts
  streams := keeps.length_le

theorem Apart.length_eq (apart : h.Apart h') : h'.streams.length = h.streams.length := by
  have same := congrArg List.length apart.faces
  rwa [List.length_map, List.length_map] at same

theorem Apart.level (apart : h.Apart h') (accounts : h'.accounts = h.accounts) : h.Level h' where
  entries := apart.monitor?
  waiters := waiters_congr apart.calls
  dealings := congrArg Prod.fst accounts
  streams := Nat.le_of_eq apart.length_eq.symm

theorem Aside.level (aside : h.Aside h') : h.Level h' := aside.apart.level aside.accounts

theorem Still.level (still : h.Still h') : h.Level h' := still.toApart.level still.accounts

theorem level_haltStream (h : Hub) (n : Nat) : h.Level (h.haltStream n).2 :=
  (keeps_haltStream h n).level (multiplexers_haltStream h n) (calls_haltStream h n)
    (accounts_haltStream h n)

theorem level_stopStream (h : Hub) (n : Nat) : h.Level (h.stopStream n).2 := by
  refine (level_haltStream h n).trans ((apart_stopStream h n).level ?_)
  rw [accounts_stopStream, accounts_haltStream]

theorem level_createStream (h : Hub) (key : ObjectKey) (policy : RetryPolicy)
    (issuer : Option Nat) : h.Level (h.createStream key policy issuer).2 :=
  (keeps_createStream h key policy issuer).level rfl rfl rfl

theorem level_startStream (h : Hub) (n parent : Nat) : h.Level (h.startStream n parent).2 :=
  (apart_startStream h n parent).level (accounts_startStream h n parent)

theorem level_updateStream (h : Hub) (n : Nat) (f : Stream → Stream) :
    h.Level (h.updateStream n f) := by
  refine ⟨fun _ _ => rfl, fun _ => rfl, rfl, Nat.le_of_eq ?_⟩
  exact (List.length_modify _ _ _).symm

theorem level_openStream (h : Hub) (m : Nat) (mux : Multiplexer) (key : ObjectKey) :
    h.Level (h.openStream m mux key).2 := by
  refine (level_createStream h key mux.settings.listWatch (some m)).trans
    ((apart_openStream h m mux key).level ?_)
  rw [accounts_openStream]
  rfl

theorem level_bypass (h : Hub) (n : Nat) (b : Bypass) : h.Level (h.bypass n b) :=
  (apart_bypass h n b).level (accounts_bypass h n b)

theorem level_removeHandler (h : Hub) (n : Nat) (st : Stream) (r : Registration) :
    h.Level (h.removeHandler n st r).2 := by
  unfold removeHandler
  split
  · exact .refl h
  · exact (level_bypass h n .detached).trans (level_updateStream _ _ _)

theorem level_leaveStream {g : Hub} {st : Stream} {r : Registration}
    (left : h.leaveStream n st r = .ok g) : h.Level g := by
  unfold leaveStream at left
  split at left
  · cases left
    exact (aside_say _ _ _).level
  · cases hd : st.detach n r with
    | error failure => rw [hd] at left; cases left
    | ok st' =>
      rw [hd] at left
      cases left
      exact level_updateStream _ _ _

/-! ## What keeps the tally -/

theorem claims_eq (waiters : h'.waiters n = h.waiters n) (weight : h'.weight n = h.weight n)
    (hands : List Nat) : h'.claims hands n = h.claims hands n := by
  unfold claims
  rw [waiters, weight]

/-- References go from one place to another: the entries stay, and as many are out as before. -/
theorem Tally.move (tally : h.Tally hands) {hands' : List Nat}
    (entries : ∀ m key, h'.monitor? m key = h.monitor? m key)
    (claims : ∀ n, h'.claims hands' n = h.claims hands n)
    (streams : h.streams.length ≤ h'.streams.length)
    (made : ∀ d ∈ h'.dealings, d ∈ h.dealings ∨ d.stream < h.streams.length)
    (handed : ∀ n ∈ hands', n < h.streams.length) (struck : h'.struck = h.struck) :
    h'.Tally hands' := by
  have same {n : Nat} (vacant : h.Vacant n) : h'.Vacant n := fun m key e found =>
    vacant m key e (entries m key ▸ found)
  have back {n : Nat} (vacant : h'.Vacant n) : h.Vacant n := fun m key e found =>
    vacant m key e ((entries m key).trans found)
  refine ⟨fun found => ?_, fun vacant => ?_, fun found found' => ?_, fun found => ?_,
    fun d mem => ?_, fun n mem => Nat.lt_of_lt_of_le (handed n mem) streams, fun e mem => ?_, ?_⟩
  · rw [claims]
    exact tally.counted (entries _ _ ▸ found)
  · rw [claims]
    exact tally.vacant (back vacant)
  · exact tally.alone (entries _ _ ▸ found) (entries _ _ ▸ found')
  · exact Nat.lt_of_lt_of_le (tally.placed (entries _ _ ▸ found)) streams
  · exact Nat.lt_of_lt_of_le ((made d mem).elim (tally.made d) id) streams
  · exact same (tally.gone e (struck ▸ mem))
  · exact struck ▸ tally.distinct

theorem Tally.level (tally : h.Tally hands) (level : h.Level h') : h'.Tally hands := by
  refine tally.move level.entries (fun n => ?_) level.streams (fun d mem => ?_) tally.handed ?_
  · exact claims_eq (level.waiters n) (weight_congr level.dealings n) hands
  · exact .inl (level.dealings ▸ mem)
  · unfold Hub.struck
    rw [level.dealings]

/-- A reference in somebody's hand is granted, lost or given back. -/
theorem Tally.deal (tally : h.Tally hands) {hands' : List Nat} (d : Dealing)
    (whole : d.struck? = none) (old : d.stream < h.streams.length)
    (moved : ∀ n, (hands'.count n : Int) + (if d.stream = n then d.weight else 0) = hands.count n)
    (handed : ∀ n ∈ hands', n < h.streams.length) : (h.deal d).Tally hands' := by
  refine tally.move (fun _ _ => rfl) (fun n => ?_) (Nat.le_refl _) (fun d' mem => ?_) handed ?_
  · have moved := moved n
    unfold claims
    rw [weight_deal]
    show (h.waiters n : Int) + _ + _ = _
    omega
  · rcases List.mem_cons.mp mem with rfl | before
    · exact .inr old
    · exact .inl before
  · unfold Hub.struck
    show (d :: h.dealings).filterMap (·.struck?) = _
    rw [List.filterMap_cons_none whole]

theorem count_cons_int (n i : Nat) (hands : List Nat) :
    ((n :: hands).count i : Int) = hands.count i + if n = i then 1 else 0 := by
  rw [List.count_cons]
  by_cases here : n = i
  · simp [here]
  · simp [here]

/-- The subscriber that held the reference gets its registration. -/
theorem Tally.grant {r : Registration} (tally : h.Tally (r.stream :: hands)) :
    (h.deal (.granted r)).Tally hands := by
  refine tally.deal (.granted r) rfl (tally.handed _ List.mem_cons_self) (fun n => ?_)
    fun n mem => tally.handed n (List.mem_cons_of_mem _ mem)
  rw [count_cons_int]
  rfl

/-- The subscriber that held the reference goes away. -/
theorem Tally.lose (tally : h.Tally (n :: hands)) : (h.deal (.lost n)).Tally hands := by
  refine tally.deal (.lost n) rfl (tally.handed _ List.mem_cons_self) (fun i => ?_)
    fun i mem => tally.handed i (List.mem_cons_of_mem _ mem)
  rw [count_cons_int]
  rfl

/-- A registration gives a reference back. -/
theorem Tally.returned (tally : h.Tally hands) {r : Registration} (late : Bool)
    (old : r.stream < h.streams.length) :
    (h.deal (.returned r late)).Tally (r.stream :: hands) := by
  refine tally.deal (.returned r late) rfl old (fun n => ?_) fun n mem => ?_
  · rw [count_cons_int]
    show _ + (if r.stream = n then (-1 : Int) else 0) = _
    split <;> omega
  · rcases List.mem_cons.mp mem with rfl | before
    · exact old
    · exact tally.handed n before

/-- References go from one hand to another by way of the entry of their key. -/
theorem Tally.recount (tally : h.Tally hands) (known : h.multiplexers[m]? = some mux)
    (found : h.monitor? m key = some e) {count : Nat} {hands' : List Nat}
    (moved : (count : Int) = h.claims hands' e.stream)
    (others : ∀ n, n ≠ e.stream → h.claims hands' n = h.claims hands n)
    (handed : ∀ n ∈ hands', n < h.streams.length) :
    (h.updateMultiplexer m (·.put key { e with refcount := count })).Tally hands' := by
  have put := monitor?_put known key { e with refcount := count }
  -- Every entry leads where one of the old entries led.
  have old {m' : Nat} {key' : ObjectKey} {e' : Monitor}
      (found' : (h.updateMultiplexer m (·.put key { e with refcount := count })).monitor? m' key' =
        some e') : ∃ e₀, h.monitor? m' key' = some e₀ ∧ e'.stream = e₀.stream := by
    rw [put] at found'
    split at found'
    · rename_i here
      obtain ⟨rfl, rfl⟩ := here
      cases found'
      exact ⟨e, found, rfl⟩
    · exact ⟨e', found', rfl⟩
  have new {m' : Nat} {key' : ObjectKey} {e₀ : Monitor} (found' : h.monitor? m' key' = some e₀) :
      ∃ e', (h.updateMultiplexer m (·.put key { e with refcount := count })).monitor? m' key' =
        some e' ∧ e'.stream = e₀.stream := by
    rw [put]
    split
    · rename_i here
      obtain ⟨rfl, rfl⟩ := here
      rw [found] at found'
      cases found'
      exact ⟨_, rfl, rfl⟩
    · exact ⟨e₀, found', rfl⟩
  have same {n : Nat} : (h.updateMultiplexer m (·.put key { e with refcount := count })).Vacant n ↔
      h.Vacant n := by
    constructor
    · intro vacant m' key' e₀ found'
      obtain ⟨e', found'', stream⟩ := new found'
      exact stream ▸ vacant m' key' e' found''
    · intro vacant m' key' e' found'
      obtain ⟨e₀, found'', stream⟩ := old found'
      exact stream ▸ vacant m' key' e₀ found''
  refine ⟨fun {m' key' e'} found' => ?_, fun {n} vacant => ?_, fun found' found'' eq => ?_,
    fun found' => ?_, tally.made, handed, fun e' mem => same.mpr (tally.gone e' mem),
    tally.distinct⟩
  · rw [put] at found'
    split at found'
    · cases found'
      exact moved
    · rename_i other
      have away : e'.stream ≠ e.stream := fun eq => other (tally.alone found found' eq)
      exact (tally.counted found').trans (others _ away).symm
  · have free := same.mp vacant
    show h.claims hands' n ≤ 0
    rw [others n fun eq => free m key e found eq.symm]
    exact tally.vacant free
  · obtain ⟨e₁, found₁, stream₁⟩ := old found'
    obtain ⟨e₂, found₂, stream₂⟩ := old found''
    exact tally.alone found₁ found₂ (stream₂ ▸ stream₁ ▸ eq)
  · obtain ⟨e₁, found₁, stream₁⟩ := old found'
    exact stream₁ ▸ tally.placed found₁

/-- The entry of a key goes, with all references to its stream that are still out. -/
theorem Tally.vanish (tally : h.Tally hands) (found : h.monitor? m key = some e)
    {hands' : List Nat} (entries : ∀ m' key', h'.monitor? m' key' =
      if m' = m ∧ key' = key then none else h.monitor? m' key')
    (moved : h'.claims hands' e.stream ≤ 0)
    (others : ∀ n, n ≠ e.stream → h'.claims hands' n = h.claims hands n)
    (streams : h'.streams = h.streams)
    (made : ∀ d ∈ h'.dealings, d ∈ h.dealings ∨ d.stream = e.stream)
    (handed : ∀ n ∈ hands', n < h.streams.length)
    (struck : h'.struck = h.struck ∨ h'.struck = e :: h.struck) : h'.Tally hands' := by
  have kept {m' : Nat} {key' : ObjectKey} {e' : Monitor} (found' : h'.monitor? m' key' = some e') :
      h.monitor? m' key' = some e' ∧ e'.stream ≠ e.stream := by
    rw [entries] at found'
    split at found'
    · cases found'
    · rename_i other
      exact ⟨found', fun eq => other (tally.alone found found' eq)⟩
  have free : h'.Vacant e.stream := fun m' key' e' found' => (kept found').2
  have still {n : Nat} (vacant : h.Vacant n) : h'.Vacant n := fun m' key' e' found' =>
    vacant m' key' e' (kept found').1
  refine ⟨fun found' => ?_, fun {n} vacant => ?_,
    fun found' found'' => tally.alone (kept found').1 (kept found'').1,
    fun found' => streams ▸ tally.placed (kept found').1, fun d mem => ?_, streams ▸ handed, ?_, ?_⟩
  · rw [others _ (kept found').2]
    exact tally.counted (kept found').1
  · by_cases here : n = e.stream
    · exact here ▸ moved
    · rw [others n here]
      refine tally.vacant fun m' key' e' found' eq => ?_
      -- An entry that led there would still do so.
      have stays : h'.monitor? m' key' = some e' := by
        rw [entries, if_neg, found']
        rintro ⟨rfl, rfl⟩
        rw [found] at found'
        cases found'
        exact here eq.symm
      exact vacant m' key' e' stays eq
  · rw [streams]
    rcases made d mem with old | same
    · exact tally.made d old
    · exact same ▸ tally.placed found
  · intro e' mem
    rcases struck with same | more
    · exact still (tally.gone e' (same ▸ mem))
    · rw [more] at mem
      rcases List.mem_cons.mp mem with rfl | old
      · exact free
      · exact still (tally.gone e' old)
  · rcases struck with same | more
    · exact same ▸ tally.distinct
    · rw [more, List.map_cons, List.nodup_cons]
      refine ⟨fun mem => ?_, tally.distinct⟩
      obtain ⟨e', old, eq⟩ := List.mem_map.mp mem
      exact tally.gone e' old m key e found eq.symm

/-- The entry of a key goes, and is counted off with all its references. -/
theorem Tally.strike (tally : h.Tally hands) (found : h.monitor? m key = some e) {d : Dealing}
    (struck : d.struck? = some e) :
    ((h.updateMultiplexer m (·.remove key)).deal d).Tally hands := by
  have stream : d.stream = e.stream ∧ d.weight = -e.refcount := by
    cases d <;> cases struck <;> exact ⟨rfl, rfl⟩
  have claims (n : Nat) : ((h.updateMultiplexer m (·.remove key)).deal d).claims hands n =
      h.claims hands n - if n = e.stream then (e.refcount : Int) else 0 := by
    have weight : ((h.updateMultiplexer m (·.remove key)).deal d).weight n =
        h.weight n + if d.stream = n then d.weight else 0 := weight_deal _ d n
    unfold Hub.claims
    rw [weight, stream.1, stream.2]
    show (h.waiters n : Int) + _ + _ = _
    by_cases here : n = e.stream
    · rw [if_pos here, if_pos here.symm]
      omega
    · rw [if_neg here, if_neg (Ne.symm here)]
      omega
  refine tally.vanish found (fun m' key' => monitor?_remove key m' key') ?_ (fun n other => ?_) rfl
    (fun d' mem => ?_) tally.handed (.inr ?_)
  · rw [claims, if_pos rfl, ← tally.counted found]
    omega
  · rw [claims, if_neg other, Int.sub_zero]
  · rcases List.mem_cons.mp mem with rfl | old
    · exact .inr stream.1
    · exact .inl old
  · exact List.filterMap_cons_some struck

/-- A key without an entry gets one for a stream to which no reference is out; the first one is in
somebody's hand. -/
theorem Tally.place (tally : h.Tally hands) (known : h.multiplexers[m]? = some mux)
    (free : h.monitor? m key = none) (vacant : h.Vacant n) (unused : h.claims hands n = 0)
    (made : n < h.streams.length) (fresh : ∀ e ∈ h.struck, e.stream ≠ n) :
    (h.updateMultiplexer m (·.put key ⟨n, 1⟩)).Tally (n :: hands) := by
  have put := monitor?_put known key ⟨n, 1⟩
  have claims (i : Nat) : (h.updateMultiplexer m (·.put key ⟨n, 1⟩)).claims (n :: hands) i =
      h.claims hands i + if n = i then 1 else 0 := by
    unfold Hub.claims
    rw [count_cons_int]
    show (h.waiters i : Int) + _ + h.weight i = _
    omega
  have old {m' : Nat} {key' : ObjectKey} {e' : Monitor} (found' : h.monitor? m' key' = some e') :
      (h.updateMultiplexer m (·.put key ⟨n, 1⟩)).monitor? m' key' = some e' := by
    rw [put, if_neg, found']
    rintro ⟨rfl, rfl⟩
    rw [free] at found'
    cases found'
  refine ⟨fun {m' key' e'} found' => ?_, fun {i} vacant' => ?_, fun {m₁ key₁ e₁ m₂ key₂ e₂} f₁ f₂ eq => ?_,
    fun {m' key' e'} found' => ?_, tally.made, fun i mem => ?_, fun e' mem m' key' e₀ found' => ?_,
    tally.distinct⟩
  · rw [claims]
    rw [put] at found'
    split at found'
    · cases found'
      show ((1 : Nat) : Int) = h.claims hands n + if n = n then 1 else 0
      rw [unused, if_pos rfl]
      rfl
    · rw [if_neg fun eq => vacant m' key' e' found' eq.symm, Int.add_zero]
      exact tally.counted found'
  · rw [claims, if_neg, Int.add_zero]
    · exact tally.vacant fun m' key' e' found' => vacant' m' key' e' (old found')
    · exact vacant' m key ⟨n, 1⟩ (by rw [put, if_pos ⟨rfl, rfl⟩])
  · rw [put] at f₁ f₂
    split at f₁ <;> split at f₂
    · rename_i here here'
      exact ⟨here'.1.trans here.1.symm, here'.2.trans here.2.symm⟩
    · cases f₁
      exact absurd eq (vacant m₂ key₂ e₂ f₂)
    · cases f₂
      exact absurd eq.symm (vacant m₁ key₁ e₁ f₁)
    · exact tally.alone f₁ f₂ eq
  · rw [put] at found'
    split at found'
    · cases found'
      exact made
    · exact tally.placed found'
  · rcases List.mem_cons.mp mem with rfl | before
    · exact made
    · exact tally.handed i before
  · rw [put] at found'
    split at found'
    · cases found'
      exact (fresh e' mem).symm
    · exact tally.gone e' mem m' key' e₀ found'

/-! ## Calls -/

theorem waiters_dropCall (indexed : h.Indexed) {c : PendingCall} (found : h.call? c.id = some c)
    (n : Nat) : h.waiters n = (h.dropCall c.id).waiters n + c.waitsOn?.toList.count n := by
  obtain ⟨before, after, eq, dropped, _⟩ := indexed.split_calls found
  unfold waiters
  rw [eq, dropped, List.countP_append, List.countP_append, List.countP_cons]
  cases c.waitsOn? with
  | none => simp
  | some i => by_cases here : i = n <;> simp [here, Nat.add_assoc]

theorem waiters_updateCall (indexed : h.Indexed) {c : PendingCall} (found : h.call? c.id = some c)
    (idle : c.waitsOn? = none) (f : PendingCall → PendingCall) (n : Nat) :
    (h.updateCall c.id f).waiters n = h.waiters n + (f c).waitsOn?.toList.count n := by
  obtain ⟨before, after, eq, _, updated⟩ := indexed.split_calls found
  unfold waiters
  rw [eq, updated f, List.countP_append, List.countP_append, List.countP_cons, List.countP_cons,
    idle]
  cases (f c).waitsOn? with
  | none => simp
  | some i => by_cases here : i = n <;> simp [here, Nat.add_assoc]

/-- A call goes away; what it holds is in somebody's hand. -/
theorem Tally.dropCall (tally : h.Tally hands) (indexed : h.Indexed) {c : PendingCall}
    (found : h.call? c.id = some c) : (h.dropCall c.id).Tally (c.waitsOn?.toList ++ hands) := by
  refine tally.move (fun _ _ => rfl) (fun n => ?_) (Nat.le_refl _) (fun _ => .inl) (fun n mem => ?_)
    rfl
  · unfold claims
    rw [waiters_dropCall indexed found n, List.count_append]
    show _ + _ + h.weight n = _
    omega
  · rcases List.mem_append.mp mem with held | before
    · have waits : c.waitsOn? = some n := Option.mem_toList.mp held
      obtain ⟨f, _, face, _⟩ := indexed.waiting (List.mem_of_find?_eq_some found) waits
      obtain ⟨st, stream, _⟩ := face?_eq_some.mp face
      exact (List.getElem?_eq_some_iff.mp stream).1
    · exact tally.handed n before

/-- A call that holds nothing changes; what is in somebody's hand it may hold from now on. -/
theorem Tally.updateCall {c : PendingCall} {f : PendingCall → PendingCall}
    (tally : h.Tally ((f c).waitsOn?.toList ++ hands)) (indexed : h.Indexed)
    (found : h.call? c.id = some c) (idle : c.waitsOn? = none) :
    (h.updateCall c.id f).Tally hands := by
  refine tally.move (fun _ _ => rfl) (fun n => ?_) (Nat.le_refl _) (fun _ => .inl)
    (fun n mem => tally.handed n (List.mem_append_right _ mem)) rfl
  unfold claims
  rw [waiters_updateCall indexed found idle f n, List.count_append]
  show _ + _ + h.weight n = _
  omega

theorem level_addCall (h : Hub) (id : Nat) (request : Request) (bind : Option String) :
    h.Level (h.addCall id request bind) := by
  refine ⟨fun _ _ => rfl, fun n => ?_, rfl, Nat.le_refl _⟩
  unfold waiters addCall
  simp [takeTicket, PendingCall.waitsOn?]

end Hub

end SharedWatch
