import SharedWatch.Proofs.SingleLoop

/-!
# Where objects come from

Streams make up no objects.  What they cache and tell of has been stored in the store, or prepared
for them in an answer.

* `Event.objects`: the objects that an event prepares.
* `Hub.known`: the objects that have been prepared or stored.
* `Hub.Supplied`: whatever is on its way to a stream, or cached, is known.
* `Supplied.deed`, `Supplied.script`: so it stays.
-/

namespace SharedWatch

/-- The objects in the answer to a `list` call. -/
def Scripted.items : Scripted (List Object × String) → List Object
  | .gives answer => answer.1
  | _ => []

/-- The object that is there once an item of a feed has arrived. -/
def FeedItem.object? : FeedItem → Option Object
  | .arrives (.ok e) => e.after
  | _ => none

/-- The objects in the answer to a `watch` call. -/
def Scripted.arrivals : Scripted (List FeedItem × Bool) → List Object
  | .gives answer => answer.1.filterMap (·.object?)
  | _ => []

/-- The objects on their way to a stream whose loop is at a stage. -/
def Stage.objects : Stage → List Object
  | .listing call _ => call.answer.items
  | .listed items _ => items
  | .opening _ call _ => call.answer.arrivals
  | .consuming (.scripted items _) _ => items.filterMap (·.object?)
  | _ => []

/-- The objects that an event prepares. -/
def Event.objects : Event → List Object
  | .command _ (.scriptList c) => c.answer.items
  | .command _ (.scriptWatch c) => c.answer.arrivals
  | _ => []

theorem Event.objects_of_plain {e : Event} (plain : e.isScript = false) : e.objects = [] := by
  cases e with
  | command id c =>
    cases c with
    | scriptList _ => cases plain
    | scriptWatch _ => cases plain
    | _ => rfl
  | _ => rfl

theorem Stream.pick_eq_some {st : Stream} {items : List Object} {o : Object}
    (picked : st.pick items = some o) : o ∈ items ∧ o.key = st.key := by
  unfold pick at picked
  obtain ⟨mem, own⟩ := List.mem_filter.mp (List.mem_of_getLast? picked)
  exact ⟨mem, ObjectKey.owns_iff.mp own⟩

namespace Hub

/-- The objects that have been prepared or stored. -/
def known (given : List Object) (h : Hub) : List Object :=
  given ++ h.backend.store.past.filterMap (·.after)

/-- Whatever is on its way to a stream, or cached, is known. -/
structure Supplied (given : List Object) (h : Hub) : Prop where
  lists : ∀ call ∈ h.backend.lists, ∀ o ∈ call.answer.items, o ∈ h.known given
  answers : ∀ call ∈ h.backend.watches, ∀ o ∈ call.answer.arrivals, o ∈ h.known given
  loops : ∀ l ∈ h.loops, ∀ o ∈ l.stage.objects, o ∈ h.known given
  caches : ∀ {n : Nat} {st : Stream} {o : Object}, h.streams[n]? = some st →
    st.cache.item = some o → o ∈ h.known given ∧ o.key = st.key

variable {given : List Object} {hands : Nat → Prop} {h h' : Hub} {o : Object}

theorem known_grows (grows : Store.Grows hands h.backend.store h'.backend.store)
    (known : o ∈ h.known given) : o ∈ h'.known given := by
  rcases List.mem_append.mp known with prepared | stored
  · exact List.mem_append_left _ prepared
  · exact List.mem_append_right _ ((grows.past.sublist.filterMap _).subset stored)

theorem known_append (more : List Object) (known : o ∈ h.known given) :
    o ∈ h.known (given ++ more) := by
  unfold Hub.known at known ⊢
  rw [List.append_assoc]
  rcases List.mem_append.mp known with prepared | stored
  · exact List.mem_append_left _ prepared
  · exact List.mem_append_right _ (List.mem_append_right _ stored)

theorem known_of_past {e : Change} (mem : e ∈ h.backend.store.past) (after : e.after = some o) :
    o ∈ h.known given :=
  List.mem_append_right _ (List.mem_filterMap.mpr ⟨e, mem, after⟩)

/-! ## Pieces -/

/-- What passes without a stream seeing anything leaves it so, if what the loop of the number comes
to wait for is known. -/
theorem Supplied.passes {id : Nat} (supplied : h.Supplied given) (passes : Passes hands id h h')
    (coming : ∀ l ∈ h'.loops, l.id = id → ∀ o ∈ l.stage.objects, o ∈ h.known given) :
    h'.Supplied given := by
  refine ⟨?_, ?_, ?_, ?_⟩
  · intro call mem o item
    exact known_grows passes.store (supplied.lists call (passes.lists.subset mem) o item)
  · intro call mem o item
    exact known_grows passes.store (supplied.answers call (passes.answers.subset mem) o item)
  · intro l mem o object
    refine known_grows passes.store ?_
    rcases passes.loops l mem with old | here
    · exact supplied.loops l old o object
    · exact coming l mem here o object
  · intro n st' o found' cached'
    rcases passes.back found' with ⟨st, found, lasts⟩ | fresh
    · have cached : st.cache.item = some o := (congrArg Prod.fst lasts.seen).symm.trans cached'
      rw [lasts.key]
      exact (supplied.caches found cached).imp_left (known_grows passes.store)
    · rw [fresh] at cached'
      cases cached'

theorem Supplied.lapse (supplied : h.Supplied given) (lapse : h.Lapse h') :
    h'.Supplied given := by
  refine supplied.passes lapse.passes fun l mem _ o object => ?_
  rcases lapse.loops with ⟨same, _⟩ | ⟨l₀, _, _, more, _, _, fresh, _⟩
  · exact supplied.loops l (same ▸ mem) o object
  · rw [more, List.mem_append, List.mem_singleton] at mem
    rcases mem with old | rfl
    · exact supplied.loops l old o object
    · rw [fresh] at object
      cases object

theorem Supplied.lapses (supplied : h.Supplied given) (lapses : Lapses h h') :
    h'.Supplied given := by
  induction lapses with
  | refl => exact supplied
  | tail _ lapse ih => exact ih.lapse lapse

theorem Supplied.proceeds {id : Nat} {P : Stage → Prop} (supplied : h.Supplied given)
    (proceeds : Proceeds hands id P h h')
    (coming : ∀ s, P s → ∀ o ∈ s.objects, o ∈ h.known given) : h'.Supplied given := by
  refine supplied.passes proceeds.passes fun l mem _ o object => ?_
  rcases proceeds.loops l mem with ⟨old, _⟩ | ⟨_, _, _, _, _, stage⟩
  · exact supplied.loops l old o object
  · exact coming _ stage o object

/-- A stream comes to see a known object, and its handlers are called. -/
theorem Supplied.delivers (supplied : h.Supplied given) {n : Nat} {st' : Stream}
    {callback : Option Callback} (delivers : h.Delivers n st' callback h')
    (item : ∀ o, st'.cache.item = some o → o ∈ h.known given ∧ o.key = st'.key) :
    h'.Supplied given := by
  refine Supplied.lapses (h := h.updateStream n fun _ => st') ?_ delivers.beats.lapses
  refine { supplied with caches := fun {i st o} found cached => ?_ }
  rw [streams_updateStream] at found
  split at found
  · obtain ⟨_, _, rfl⟩ := Option.map_eq_some_iff.mp found
    exact item o cached
  · exact supplied.caches found cached

theorem Supplied.attachHandler (supplied : h.Supplied given) (n : Nat) (ref : HandlerRef) :
    (h.attachHandler n ref).2.Supplied given := by
  rcases attachHandler_cases h n ref with ⟨same, _⟩ | ⟨_, _, _, beats⟩
  · rw [same]
    exact supplied
  · have passed : Passes (fun _ => False) h.started h (h.addHandler n ref) :=
      passes_addHandler h n ref
    have entered := supplied.passes passed fun l mem _ => supplied.loops l mem
    exact entered.lapses (Beats.lapses beats)

/-! ## Steps of a loop -/

theorem Supplied.ends {id : Nat} (supplied : h.Supplied given)
    (proceeds : Proceeds hands id (fun s => ∃ t, s = .resting t) h h') : h'.Supplied given :=
  supplied.proceeds proceeds fun _ ⟨_, eq⟩ _ object => by rw [eq] at object; cases object

theorem known_replace {st : Stream} {items : List Object} {version : String}
    (coming : ∀ o ∈ items, o ∈ h.known given)
    (cached : ∀ o, st.cache.item = some o → o ∈ h.known given ∧ o.key = st.key) :
    ∀ o, (st.replace items version).1.cache.item = some o →
      o ∈ h.known given ∧ o.key = (st.replace items version).1.key := by
  intro o item
  unfold Stream.replace at item ⊢
  split at item
  · rename_i stopped
    rw [if_pos stopped]
    exact cached o item
  · rename_i running
    rw [if_neg running]
    obtain ⟨mem, own⟩ := Stream.pick_eq_some item
    exact ⟨coming o mem, own⟩

theorem known_receive {st : Stream} {e : Change}
    (coming : ∀ o, e.after = some o → o ∈ h.known given)
    (cached : ∀ o, st.cache.item = some o → o ∈ h.known given ∧ o.key = st.key) :
    ∀ o, (st.receive e).1.cache.item = some o →
      o ∈ h.known given ∧ o.key = (st.receive e).1.key := by
  intro o item
  unfold Stream.receive at item ⊢
  split at item
  · rename_i silent
    rw [if_pos silent]
    exact cached o item
  · rename_i heard
    rw [if_neg heard]
    have own : st.key.owns e.object = true := by simp at heard; exact heard.2
    have after : e.after = some o := item
    rw [object_of_after after] at own
    exact ⟨coming o after, ObjectKey.owns_iff.mp own⟩

theorem known_listed (sound : h.backend.store.Sound) {sel : Selector}
    {answer : Scripted (List Object × String)} {items : List Object} {version : String}
    (prepared : ∀ o ∈ answer.items, o ∈ h.known given)
    (listed : (h.backend.finishList sel answer).1 = .ok (items, version)) :
    ∀ o ∈ items, o ∈ h.known given := by
  intro o mem
  cases answer with
  | fails f => cases listed
  | gives a =>
    obtain rfl := Except.ok.inj listed
    exact prepared o mem
  | asks =>
    have listed : (h.backend.store.list sel).1 = .ok (items, version) := listed
    unfold Store.list at listed
    simp only at listed
    split at listed
    · cases listed
    · cases listed
      have stored : o ∈ h.backend.store.objects.filter o.key.owns :=
        List.mem_filter.mpr ⟨(List.mem_filter.mp mem).1, ObjectKey.owns_iff.mpr rfl⟩
      rw [sound.objects, Option.mem_toList] at stored
      obtain ⟨later, e, earlier, split, _, _, after⟩ := latest_eq_some stored
      exact known_of_past (by simp [split]) after

theorem known_feed {sel : Selector} {version : String}
    {answer : Scripted (List FeedItem × Bool)} {feed : Feed}
    (prepared : ∀ o ∈ answer.arrivals, o ∈ h.known given)
    (opened : (h.backend.finishWatch sel version answer).1 = .ok feed) :
    ∀ o ∈ (Stage.consuming feed none).objects, o ∈ h.known given := by
  cases answer with
  | fails f => cases opened
  | gives a =>
    cases opened
    exact prepared
  | asks =>
    have opened : (h.backend.store.watch sel version).1.map Feed.live = .ok feed := opened
    cases result : (h.backend.store.watch sel version).1 with
    | error f => rw [result] at opened; cases opened
    | ok connection =>
      rw [result] at opened
      cases opened
      exact nofun

/-- What is read from a connection has been published. -/
theorem mem_past_of_read {s s' : Store} {connection : Nat} {e : Change} (sound : s.Sound)
    (read : s.read connection = (.arrived (.ok e), s')) : e ∈ s.past := by
  unfold Store.read at read
  cases found : s.connection? connection with
  | none => rw [found] at read; cases read
  | some c =>
    rw [found] at read
    have arrived : c.read.1 = .arrived (.ok e) := congrArg Prod.fst read
    unfold Connection.read at arrived
    split at arrived
    · rename_i a rest pending
      cases arrived
      refine sound.pending c (Store.connection?_mem found).1 e ?_
      rw [pending]
      exact List.mem_cons_self
    · split at arrived <;> cases arrived

/-- Reading a connection leaves everything else alone. -/
theorem Supplied.read (supplied : h.Supplied given) {connection : Nat} {reading : Reading}
    {store : Store} (read : h.backend.store.read connection = (reading, store)) :
    (h.updateStore fun _ => store).Supplied given := by
  have grows : Store.Grows (· = connection) h.backend.store
      (h.updateStore fun _ => store).backend.store := Store.grows_of_read read
  exact {
    lists := fun call mem o item => known_grows grows (supplied.lists call mem o item)
    answers := fun call mem o item => known_grows grows (supplied.answers call mem o item)
    loops := fun l mem o object => known_grows grows (supplied.loops l mem o object)
    caches := fun found cached => (supplied.caches found cached).imp_left (known_grows grows) }

/-- A scripted feed is played on. -/
theorem Supplied.play (supplied : h.Supplied given) {l : Loop} {item : FeedItem}
    {rest : List FeedItem} {ends : Bool} {silent : Option Nat} (mem : l ∈ h.loops)
    (stage : l.stage = .consuming (.scripted (item :: rest) ends) silent) (silent' : Option Nat) :
    ∀ s : Stage, s = .consuming (.scripted rest ends) silent' → ∀ o ∈ s.objects, o ∈ h.known given := by
  rintro s rfl o object
  refine supplied.loops l mem o ?_
  rw [stage]
  exact (List.sublist_cons_self item rest).filterMap _ |>.subset object

theorem Supplied.loopStep (supplied : h.Supplied given) (sound : h.backend.store.Sound)
    {l : Loop} {st : Stream} (mem : l ∈ h.loops) (found : h.streams[l.stream]? = some st)
    (step : h.LoopStep l st h') : h'.Supplied given := by
  have cached : ∀ o, st.cache.item = some o → o ∈ h.known given ∧ o.key = st.key :=
    fun o => supplied.caches found
  have begins {g : Hub} (proceeds : Proceeds Anyone l.id (fun s => ∃ call began,
      s = .listing call began ∧ (call ∈ h.backend.lists ∨ call.answer = .asks)) h g) :
      g.Supplied given := by
    refine supplied.proceeds proceeds fun s stage o object => ?_
    obtain ⟨call, began, rfl, prepared | asks⟩ := stage
    · exact supplied.lists call prepared o object
    · simp [Stage.objects, asks, Scripted.items] at object
  cases step with
  | first _ => exact begins ((proceeds_heed h l).trans (proceeds_beginCycle (h.heed l) l st))
  | again _ => exact begins (proceeds_beginCycle h l st)
  | timedOut _ => exact supplied.ends (proceeds_callTimedOut h l)
  | listAnswered stage =>
    have prepared := supplied.loops l mem
    rw [stage] at prepared
    refine supplied.proceeds (proceeds_listAnswered h l st _) fun s comes o object => ?_
    rcases comes with ⟨t, rfl⟩ | ⟨items, version, rfl, listed⟩
    · cases object
    · exact known_listed sound prepared listed o object
  | reconcile stage =>
    rename_i items version
    have coming := supplied.loops l mem
    rw [stage] at coming
    have delivered := supplied.delivers (replace_delivers found items version)
      (known_replace coming cached)
    have asked : Proceeds Anyone l.id _ _ (h.reconcile l st items version) :=
      reconcile_proceeds h l st items version
    refine delivered.proceeds asked fun s comes o object => ?_
    obtain ⟨call, began, rfl, prepared | asks⟩ := comes
    · exact delivered.answers call prepared o object
    · simp [Stage.objects, asks, Scripted.arrivals] at object
  | watchAnswered stage =>
    rename_i version call began
    have prepared := supplied.loops l mem
    rw [stage] at prepared
    rcases watchAnswered_cases h l st version call.answer with ends | ⟨feed, opened, eq⟩
    · exact supplied.ends ends
    · rw [eq]
      have reads : Proceeds Anyone l.id _ h _ :=
        proceeds_opened h l.id st.key.selector version call.answer feed
      refine supplied.proceeds reads ?_
      rintro s rfl
      exact known_feed prepared opened
  | arrived stage arrived =>
    rename_i e store
    have here : (h.updateStore fun _ => store).streams[l.stream]? = some st := found
    have ready := supplied.read arrived
    refine ready.delivers (receive_delivers here e) (known_receive (fun o after => ?_) fun o =>
      ready.caches here)
    have known : o ∈ h.known given := known_of_past (mem_past_of_read sound arrived) after
    exact known_grows (Store.grows_of_read arrived) known
  | played stage =>
    rename_i e rest ends silent
    have here : (h.updateLoop l.id fun l =>
      { l with stage := .consuming (.scripted rest ends) none }).streams[l.stream]? = some st := found
    have played : Proceeds Anyone l.id (· = .consuming (.scripted rest ends) none) h
        (h.updateLoop l.id fun l => { l with stage := .consuming (.scripted rest ends) none }) :=
      proceeds_updateLoop (fun _ => rfl) (fun _ => rfl) fun _ => rfl
    have ready := supplied.proceeds played (supplied.play mem stage none)
    refine ready.delivers (receive_delivers here e) (known_receive (fun o after => ?_) cached)
    refine supplied.loops l mem o ?_
    rw [stage]
    exact List.mem_filterMap.mpr ⟨_, List.mem_cons_self, after⟩
  | broken _ arrived => exact (supplied.read arrived).ends (proceeds_endCycle _ l _)
  | closed _ ended => exact (supplied.read ended).ends (proceeds_endCycle _ l _)
  | playedOut ending _ => exact supplied.ends (proceeds_endCycle h l ending)
  | paused stage =>
    exact supplied.proceeds (proceeds_enter h l.id _ : Proceeds Anyone _ _ _ _)
      (supplied.play mem stage _)

/-! ## Deeds and events -/

theorem Supplied.deed (supplied : h.Supplied given) (sound : h.backend.store.Sound)
    (deed : Deed h h') : h'.Supplied given := by
  cases deed with
  | calm calm => exact supplied.lapses calm.lives.lapses
  | attach n ref =>
    have bypassed := (beside_bypass h n .attached).lives.lapses
    exact (supplied.lapses bypassed).attachHandler n ref
  | join _ _ _ =>
    rename_i c n ref r _ _ _
    have dropped : (h.dropCall c.id).Supplied given := supplied.lapses (lives_calls h _).lapses
    exact (dropped.attachHandler n ref).lapses (lives_deal _ _).lapses
  | loop found stepped =>
    exact supplied.loopStep sound (mem_of_loop? found) (stream_of_loop? found)
      (stepLoop_cases stepped)
  | loopEnd id =>
    have ends {g : Hub} (ready : g.Supplied given) (l : Loop) : (g.endLoop l).Supplied given :=
      ready.proceeds (proceeds_endLoop g l) fun _ => False.elim
    unfold Hub.loopEnd
    split
    · exact supplied
    · rename_i l _ _
      split
      · exact ends supplied l
      · split
        · exact ends (supplied.lapse (Life.halt l.stream).lapse) l
        · exact supplied

/-- Preparing an answer makes its objects known. -/
theorem Supplied.script (supplied : h.Supplied given) {e : Event} (script : e.isScript = true) :
    (h.step e).Supplied (given ++ e.objects) := by
  have more {o : Object} (known : o ∈ h.known given) : o ∈ h.known (given ++ e.objects) :=
    known_append _ known
  have new {o : Object} (mem : o ∈ e.objects) : o ∈ h.known (given ++ e.objects) :=
    List.mem_append_left _ (List.mem_append_right _ mem)
  have same : h.Supplied (given ++ e.objects) := {
    lists := fun call mem o item => more (supplied.lists call mem o item)
    answers := fun call mem o item => more (supplied.answers call mem o item)
    loops := fun l mem o object => more (supplied.loops l mem o object)
    caches := fun found cached => (supplied.caches found cached).imp_left more }
  cases e with
  | command id c =>
    unfold step
    simp only
    split
    · cases c with
      | scriptList c =>
        refine { same with lists := fun call mem o item => ?_ }
        rcases List.mem_append.mp mem with old | last
        · exact same.lists call old o item
        · obtain rfl := List.mem_singleton.mp last
          exact new item
      | scriptWatch c =>
        refine { same with answers := fun call mem o item => ?_ }
        rcases List.mem_append.mp mem with old | last
        · exact same.answers call old o item
        · obtain rfl := List.mem_singleton.mp last
          exact new item
      | _ => cases script
    · exact same
  | _ => cases script

theorem supplied_start (limit : Nat) (draws : Draws) : (start limit draws).Supplied [] where
  lists _ mem := nomatch mem
  answers _ mem := nomatch mem
  loops _ mem := nomatch mem
  caches found := nomatch found

end Hub

end SharedWatch
