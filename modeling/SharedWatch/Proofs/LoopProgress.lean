import SharedWatch.Proofs.ConnectionFeeds
import SharedWatch.Proofs.LoopStep
import SharedWatch.Proofs.StreamFaces

/-!
# How a loop proceeds

Most steps of a loop are nothing to handlers and multiplexers: the loop asks the store for something
or is answered, and comes to another stage.

* `Stage.holds`: the connection that a loop holds at a stage.
* `Hub.Proceeds`: a loop comes to another stage or ends, and nobody else sees anything of it.
* `proceeds_beginCycle`, `proceeds_endCycle` and the other theorems of this form: the steps that are
  of this kind.
-/

namespace SharedWatch

/-- The connection that a loop holds at a stage, if it holds one. -/
def Stage.holds : Stage → Nat → Prop
  | .consuming (.live connection) _, id => id = connection
  | _, _ => False

namespace Backend

/-- What a `list` call will be answered is prepared, or up to the store. -/
theorem beginList_spec (b : Backend) (now : Nat) (sel : Selector) :
    (b.beginList now sel).2.store = b.store ∧ (b.beginList now sel).2.lists <:+ b.lists ∧
      (b.beginList now sel).2.watches = b.watches ∧
      ((b.beginList now sel).1 ∈ b.lists ∨ (b.beginList now sel).1.answer = .asks) := by
  unfold beginList
  cases prepared : b.lists with
  | nil => exact ⟨rfl, by simp, rfl, .inr rfl⟩
  | cons call rest => exact ⟨rfl, List.suffix_cons _ _, rfl, .inl List.mem_cons_self⟩

/-- What a `watch` call will be answered is prepared, or up to the store. -/
theorem beginWatch_spec (b : Backend) (now : Nat) (sel : Selector) (version : String) :
    (b.beginWatch now sel version).2.store = b.store ∧
      (b.beginWatch now sel version).2.lists = b.lists ∧
      (b.beginWatch now sel version).2.watches <:+ b.watches ∧
      ((b.beginWatch now sel version).1 ∈ b.watches ∨
        (b.beginWatch now sel version).1.answer = .asks) := by
  unfold beginWatch
  cases prepared : b.watches with
  | nil => exact ⟨rfl, rfl, by simp, .inr rfl⟩
  | cons call rest => exact ⟨rfl, rfl, List.suffix_cons _ _, .inl List.mem_cons_self⟩

theorem finishList_spec (b : Backend) (sel : Selector)
    (answer : Scripted (List Object × String)) {hands : Nat → Prop} :
    Store.Grows hands b.store (b.finishList sel answer).2.store ∧
      (b.finishList sel answer).2.lists = b.lists ∧
      (b.finishList sel answer).2.watches = b.watches := by
  cases answer with
  | fails f => exact ⟨.refl _, rfl, rfl⟩
  | gives a => exact ⟨.refl _, rfl, rfl⟩
  | asks => exact ⟨Store.grows_list _ sel, rfl, rfl⟩

theorem finishWatch_spec (b : Backend) (sel : Selector) (version : String)
    (answer : Scripted (List FeedItem × Bool)) {hands : Nat → Prop} :
    Store.Grows hands b.store (b.finishWatch sel version answer).2.store ∧
      (b.finishWatch sel version answer).2.lists = b.lists ∧
      (b.finishWatch sel version answer).2.watches = b.watches := by
  cases answer with
  | fails f => exact ⟨.refl _, rfl, rfl⟩
  | gives a => exact ⟨.refl _, rfl, rfl⟩
  | asks => exact ⟨Store.grows_watch _ sel version, rfl, rfl⟩

end Backend

namespace Hub

/-- The loop of a number comes to a stage of which `P` holds, or ends.  The store may have been asked
for something; of the connections only those in `hands` have been read or let go. -/
structure Proceeds (hands : Nat → Prop) (id : Nat) (P : Stage → Prop) (h h' : Hub) : Prop
    extends Still h h' where
  store : Store.Grows hands h.backend.store h'.backend.store
  lists : h'.backend.lists <:+ h.backend.lists
  answers : h'.backend.watches <:+ h.backend.watches
  watches : h'.names.watches = h.names.watches
  started : h'.started = h.started
  ids : (h'.loops.map (·.id)).Sublist (h.loops.map (·.id))
  loops : ∀ l' ∈ h'.loops, l' ∈ h.loops ∧ l'.id ≠ id ∨
    ∃ l ∈ h.loops, l.id = id ∧ l'.id = id ∧ l'.stream = l.stream ∧ P l'.stage

variable {hands : Nat → Prop} {id : Nat} {P Q : Stage → Prop} {h h' h'' : Hub} {l : Loop}

theorem Proceeds.trans (first : Proceeds hands id P h h') (second : Proceeds hands id Q h' h'') :
    Proceeds hands id Q h h'' := {
  first.toStill.trans second.toStill with
  store := first.store.trans second.store
  lists := second.lists.trans first.lists
  answers := second.answers.trans first.answers
  watches := second.watches.trans first.watches
  started := second.started.trans first.started
  ids := second.ids.trans first.ids
  loops := fun l'' mem => by
    rcases second.loops l'' mem with ⟨old, other⟩ | ⟨l', old, own, own'', stream, stage⟩
    · rcases first.loops l'' old with before | ⟨_, _, _, same, _⟩
      · exact .inl before
      · exact absurd same other
    · rcases first.loops l' old with ⟨_, other⟩ | ⟨l, before, here, _, stream', _⟩
      · exact absurd own other
      · exact .inr ⟨l, before, here, own'', stream.trans stream', stage⟩ }

theorem Proceeds.mono {more : Nat → Prop} (proceeds : Proceeds hands id P h h')
    (fewer : ∀ c, hands c → more c) (weaker : ∀ s, P s → Q s) : Proceeds more id Q h h' :=
  { proceeds with
    store := proceeds.store.mono fewer
    loops := fun l' mem => (proceeds.loops l' mem).imp_right
      fun ⟨l, old, own, own', stream, stage⟩ => ⟨l, old, own, own', stream, weaker _ stage⟩ }

theorem Proceeds.aside (proceeds : Proceeds hands id P h h') (aside : h'.Aside h'') :
    Proceeds hands id P h h'' := {
  proceeds.toStill.trans aside.still with
  store := aside.store ▸ proceeds.store
  lists := aside.lists ▸ proceeds.lists
  answers := aside.answers ▸ proceeds.answers
  watches := aside.watches.trans proceeds.watches
  started := aside.started.trans proceeds.started
  ids := aside.loops ▸ proceeds.ids
  loops := aside.loops ▸ proceeds.loops }

/-! ## Pieces -/

/-- What is nothing to loops either. -/
theorem Still.proceeds (still : h.Still h')
    (store : Store.Grows hands h.backend.store h'.backend.store)
    (lists : h'.backend.lists <:+ h.backend.lists)
    (answers : h'.backend.watches <:+ h.backend.watches)
    (watches : h'.names.watches = h.names.watches) (started : h'.started = h.started)
    (loops : h'.loops = h.loops) : Proceeds hands id (fun _ => True) h h' := {
  still with
  store, lists, answers, watches, started
  ids := loops ▸ .refl _
  loops := fun l' mem => by
    rw [loops] at mem
    by_cases own : l'.id = id
    · exact .inr ⟨l', mem, own, own, rfl, trivial⟩
    · exact .inl ⟨mem, own⟩ }

theorem Aside.proceeds (aside : h.Aside h') : Proceeds hands id (fun _ => True) h h' :=
  aside.still.proceeds (aside.store ▸ .refl _) (aside.lists ▸ List.suffix_rfl)
    (aside.answers ▸ List.suffix_rfl) aside.watches aside.started aside.loops

/-- The store is asked for something. -/
theorem proceeds_backend {backend : Backend}
    (store : Store.Grows hands h.backend.store backend.store)
    (lists : backend.lists <:+ h.backend.lists) (answers : backend.watches <:+ h.backend.watches) :
    Proceeds hands id (fun _ => True) h { h with backend } :=
  (still_backend h backend).proceeds store lists answers rfl rfl rfl

/-- A stream changes, and nobody sees it. -/
theorem proceeds_updateStream {n : Nat} {f : Stream → Stream}
    (face : ∀ st, (f st).face = st.face) (seen : ∀ st, (f st).cache.seen = st.cache.seen)
    (ages : ∀ st : Stream, st.Ages (f st)) : Proceeds hands id (fun _ => True) h (h.updateStream n f) :=
  (still_updateStream face seen ages).proceeds (.refl _) List.suffix_rfl List.suffix_rfl rfl rfl rfl

/-- The loop changes. -/
theorem proceeds_updateLoop {f : Loop → Loop} (ids : ∀ l, (f l).id = l.id)
    (streams : ∀ l, (f l).stream = l.stream) (stage : ∀ l, P (f l).stage) :
    Proceeds hands id P h (h.updateLoop id f) := {
  still_loops h _ with
  store := .refl _
  lists := List.suffix_rfl
  answers := List.suffix_rfl
  watches := rfl
  started := rfl
  ids := by
    have same : (h.updateLoop id f).loops.map (·.id) = h.loops.map (·.id) := by
      unfold updateLoop
      rw [List.map_map]
      refine List.map_congr_left fun l _ => ?_
      simp only [Function.comp]
      split
      · exact ids l
      · rfl
    exact same ▸ .refl _
  loops := fun l' mem => by
    obtain ⟨l, old, rfl⟩ := List.mem_map.mp mem
    by_cases own : l.id = id
    · rw [if_pos own]
      exact .inr ⟨l, old, own, (ids l).trans own, streams l, stage l⟩
    · rw [if_neg own]
      exact .inl ⟨old, own⟩ }

theorem proceeds_enter (h : Hub) (id : Nat) (stage : Stage) :
    Proceeds hands id (· = stage) h (h.enter id stage) :=
  (aside_takeTicket h).proceeds.trans
    (proceeds_updateLoop (fun _ => rfl) (fun _ => rfl) fun _ => rfl)

theorem proceeds_release (h : Hub) (id : Nat) (stage : Stage) :
    Proceeds stage.holds id (fun _ => True) h (match stage with
      | .consuming feed _ => { h with backend := h.backend.release feed }
      | _ => h) := by
  split
  · rename_i feed silent
    cases feed with
    | live connection =>
      exact proceeds_backend (Store.grows_release _ connection) List.suffix_rfl List.suffix_rfl
    | scripted items ends => exact proceeds_backend (.refl _) List.suffix_rfl List.suffix_rfl
  · exact (Aside.refl h).proceeds

theorem proceeds_endLoop (h : Hub) (l : Loop) :
    Proceeds l.stage.holds l.id (fun _ => False) h (h.endLoop l) := by
  have gone : Proceeds l.stage.holds l.id (fun _ => False) h
      { h with loops := h.loops.filter fun k => k.id != l.id } := {
    still_loops h _ with
    store := .refl _
    lists := List.suffix_rfl
    answers := List.suffix_rfl
    watches := rfl
    started := rfl
    ids := List.filter_sublist.map _
    loops := fun l' mem => by
      obtain ⟨old, other⟩ := List.mem_filter.mp mem
      exact .inl ⟨old, by simpa using other⟩ }
  have released := proceeds_release { h with loops := h.loops.filter fun k => k.id != l.id } l.id
    l.stage
  refine { gone.trans released with loops := fun l' mem => ?_ }
  rcases released.loops l' mem with ⟨old, other⟩ | ⟨l₀, old, own, _⟩
  · rcases gone.loops l' old with before | ⟨_, _, _, _, _, stage⟩
    · exact .inl before
    · exact stage.elim
  · rcases gone.loops l₀ old with ⟨_, other⟩ | ⟨_, _, _, _, _, stage⟩
    · exact absurd own other
    · exact stage.elim

/-! ## Steps -/

/-- The next cycle begins: a full read is asked for. -/
theorem proceeds_listing (h : Hub) (l : Loop) (st : Stream) :
    Proceeds hands l.id (· = .listing (h.backend.beginList h.now st.key.selector).1 h.now) h
      (h.beginCycle l st) := by
  have moved : Proceeds hands l.id (fun _ => True) h (h.updateStream l.stream (·.move .syncing)) :=
    proceeds_updateStream (fun st => st.face_move (by simp)) (fun st => st.seen_move _)
      fun st => st.ages_move (by simp) (by simp)
  obtain ⟨store, lists, answers, _⟩ := h.backend.beginList_spec h.now st.key.selector
  unfold beginCycle
  have asked : Proceeds hands l.id (fun _ => True) (h.updateStream l.stream (·.move .syncing))
      { h.updateStream l.stream (·.move .syncing) with
        backend := (h.backend.beginList h.now st.key.selector).2 } :=
    proceeds_backend (store ▸ .refl _) lists (answers ▸ List.suffix_rfl)
  exact (moved.trans asked).trans (proceeds_enter _ _ _)

/-- What the call will be answered is prepared, or up to the store. -/
theorem proceeds_beginCycle (h : Hub) (l : Loop) (st : Stream) :
    Proceeds hands l.id (fun s => ∃ call began, s = .listing call began ∧
      (call ∈ h.backend.lists ∨ call.answer = .asks)) h (h.beginCycle l st) := by
  obtain ⟨_, _, _, call⟩ := h.backend.beginList_spec h.now st.key.selector
  exact (proceeds_listing h l st).mono (fun _ => id) fun s eq => ⟨_, _, eq, call⟩

theorem proceeds_heed (h : Hub) (l : Loop) : Proceeds hands l.id (fun _ => True) h (h.heed l) :=
  (aside_takeTicket h).proceeds.trans
    (proceeds_updateLoop (fun _ => rfl) (fun _ => rfl) fun _ => trivial)

theorem proceeds_reportEnd (h : Hub) (n : Nat) (ending : CycleEnd) :
    Proceeds hands id (fun _ => True) h (h.reportEnd n ending) := by
  unfold reportEnd
  split
  · exact (Aside.refl h).proceeds
  · exact (aside_say _ _ _).proceeds
  · exact (aside_say _ _ _).proceeds.trans
      (proceeds_updateStream (fun _ => rfl) (fun _ => rfl) fun _ => ⟨fun ends => ends, fun run => run⟩)

theorem proceeds_abandon (h : Hub) (l : Loop) (key : ObjectKey) (lastError : Option String) :
    Proceeds l.stage.holds l.id (fun _ => False) h (h.abandon l key lastError) := by
  unfold abandon
  have given (g : Hub) (reason : String) : Proceeds l.stage.holds l.id (fun _ => True) g
      (g.updateStream l.stream (·.abandon reason)) :=
    proceeds_updateStream (fun _ => rfl) (fun _ => rfl) fun _ => ⟨fun _ _ => rfl, fun run => run⟩
  exact (((aside_say h _ _).proceeds.trans (given _ _)).trans (proceeds_endLoop _ l)).aside
    (aside_say _ _ _)

/-- A cycle ends: the loop rests, or is over. -/
theorem proceeds_endCycle (h : Hub) (l : Loop) (ending : CycleEnd) :
    Proceeds l.stage.holds l.id (fun s => ∃ t, s = .resting t) h (h.endCycle l ending) := by
  unfold endCycle
  have told := ((proceeds_release h l.id l.stage).trans
    (proceeds_reportEnd _ l.stream ending)).trans (aside_countRestart _ ending.reason).proceeds
  have rests (g : Hub) (backoff : Backoff) (draws : Draws) (t : Nat) :
      Proceeds l.stage.holds l.id (fun s => ∃ t, s = .resting t) g
        (({ g with draws }.updateLoop l.id fun l => { l with backoff }).enter l.id (.resting t)) := by
    have backed : Proceeds l.stage.holds l.id (fun _ => True) { g with draws }
        ({ g with draws }.updateLoop l.id fun l => { l with backoff }) :=
      proceeds_updateLoop (fun _ => rfl) (fun _ => rfl) fun _ => trivial
    exact ((aside_draws g draws).proceeds.trans backed).trans
      ((proceeds_enter _ _ _).mono (fun _ => id) fun _ eq => ⟨t, eq⟩)
  simp only
  split
  · exact told.trans (rests _ _ _ _)
  · split
    · exact (told.trans (aside_draws _ _).proceeds).trans
        ((proceeds_endLoop _ l).mono (fun _ => id) fun _ => False.elim)
    · exact (told.trans (aside_draws _ _).proceeds).trans
        ((proceeds_abandon _ { l with stage := .fresh } _ _).mono (fun _ => False.elim)
          fun _ => False.elim)

theorem proceeds_callTimedOut (h : Hub) (l : Loop) :
    Proceeds l.stage.holds l.id (fun s => ∃ t, s = .resting t) h (h.callTimedOut l) :=
  (aside_say h _ _).proceeds.trans (proceeds_endCycle _ l _)

/-- A full read has been answered: the loop keeps what was read, or the cycle ends. -/
theorem proceeds_listAnswered (h : Hub) (l : Loop) (st : Stream)
    (answer : Scripted (List Object × String)) :
    Proceeds l.stage.holds l.id (fun s => (∃ t, s = .resting t) ∨ ∃ items version,
      s = .listed items version ∧ (h.backend.finishList st.key.selector answer).1 =
        .ok (items, version)) h (h.listAnswered l st answer) := by
  obtain ⟨store, lists, answers⟩ := h.backend.finishList_spec st.key.selector answer
  have asked : Proceeds l.stage.holds l.id (fun _ => True) h
      { h with backend := (h.backend.finishList st.key.selector answer).2 } :=
    proceeds_backend store (lists ▸ List.suffix_rfl) (answers ▸ List.suffix_rfl)
  unfold listAnswered
  cases result : (h.backend.finishList st.key.selector answer).1 with
  | error f =>
    simp only [result]
    exact asked.trans ((proceeds_endCycle _ _ _).mono (fun _ => id) fun _ => .inl)
  | ok read =>
    simp only [result]
    exact asked.trans (proceeds_updateLoop (fun _ => rfl) (fun _ => rfl)
      fun _ => .inr ⟨read.1, read.2, rfl, rfl⟩)

/-- A watch has been answered: the loop reads its feed, or the cycle ends. -/
theorem watchAnswered_cases (h : Hub) (l : Loop) (st : Stream) (version : String)
    (answer : Scripted (List FeedItem × Bool)) :
    Proceeds l.stage.holds l.id (fun s => ∃ t, s = .resting t) h
      (h.watchAnswered l st version answer) ∨
    ∃ feed, (h.backend.finishWatch st.key.selector version answer).1 = .ok feed ∧
      h.watchAnswered l st version answer =
        Hub.enter { h with backend := (h.backend.finishWatch st.key.selector version answer).2 }
          l.id (.consuming feed none) := by
  obtain ⟨store, lists, answers⟩ := h.backend.finishWatch_spec st.key.selector version answer
  have asked : Proceeds l.stage.holds l.id (fun _ => True) h
      { h with backend := (h.backend.finishWatch st.key.selector version answer).2 } :=
    proceeds_backend store (lists ▸ List.suffix_rfl) (answers ▸ List.suffix_rfl)
  unfold watchAnswered
  cases result : (h.backend.finishWatch st.key.selector version answer).1 with
  | error f =>
    simp only [result]
    exact .inl (asked.trans (proceeds_endCycle _ _ _))
  | ok feed =>
    simp only [result]
    exact .inr ⟨feed, rfl, rfl⟩

/-- A loop that opens a feed comes to read it. -/
theorem proceeds_opened (h : Hub) (id : Nat) (sel : Selector) (version : String)
    (answer : Scripted (List FeedItem × Bool)) (feed : Feed) :
    Proceeds hands id (· = .consuming feed none) h
      (Hub.enter { h with backend := (h.backend.finishWatch sel version answer).2 } id
        (.consuming feed none)) := by
  obtain ⟨store, lists, answers⟩ := h.backend.finishWatch_spec sel version answer
  exact (proceeds_backend store (lists ▸ List.suffix_rfl) (answers ▸ List.suffix_rfl)).trans
    (proceeds_enter _ _ _)

/-- A loop that has delivered a full read asks for a watch. -/
theorem proceeds_opening (h : Hub) (l : Loop) (st : Stream) (items : List Object)
    (version : String) :
    let g := h.replace l.stream items version
    Proceeds hands l.id
      (· = .opening version (g.backend.beginWatch g.now st.key.selector version).1 g.now)
      g (h.reconcile l st items version) := by
  unfold reconcile
  generalize h.replace l.stream items version = g
  obtain ⟨store, lists, answers, _⟩ := g.backend.beginWatch_spec g.now st.key.selector version
  have reset : Proceeds hands l.id (fun _ => True) g
      (g.updateLoop l.id fun l => { l with backoff := l.backoff.reset }) :=
    proceeds_updateLoop (fun _ => rfl) (fun _ => rfl) fun _ => trivial
  have asked : Proceeds hands l.id (fun _ => True)
      (g.updateLoop l.id fun l => { l with backoff := l.backoff.reset })
      { g.updateLoop l.id fun l => { l with backoff := l.backoff.reset } with
        backend := (g.backend.beginWatch g.now st.key.selector version).2 } :=
    proceeds_backend (store ▸ .refl _) (lists ▸ List.suffix_rfl) answers
  exact (reset.trans asked).trans (proceeds_enter _ _ _)

/-- What the call will be answered is prepared, or up to the store. -/
theorem reconcile_proceeds (h : Hub) (l : Loop) (st : Stream) (items : List Object)
    (version : String) :
    Proceeds hands l.id (fun s => ∃ call began, s = .opening version call began ∧
      (call ∈ (h.replace l.stream items version).backend.watches ∨ call.answer = .asks))
      (h.replace l.stream items version) (h.reconcile l st items version) := by
  obtain ⟨_, _, _, call⟩ := (h.replace l.stream items version).backend.beginWatch_spec
    (h.replace l.stream items version).now st.key.selector version
  exact (proceeds_opening h l st items version).mono (fun _ => id) fun s eq => ⟨_, _, eq, call⟩

/-! ## What a step comes to -/

/-- What a loop tells its stream: the stream afterwards, and the callback for its handlers. -/
inductive News (h : Hub) (l : Loop) (st : Stream) : Stream × Option Callback → Prop
  | read {items : List Object} {version : String} :
    l.stage = .listed items version → News h l st (st.replace items version)
  | arrived {connection : Nat} {silent : Option Nat} {e : Change} {store : Store} :
    l.stage = .consuming (.live connection) silent →
    h.backend.store.read connection = (.arrived (.ok e), store) → News h l st (st.receive e)
  | played {e : Change} {rest : List FeedItem} {ends : Bool} {silent : Option Nat} :
    l.stage = .consuming (.scripted (.arrives (.ok e) :: rest) ends) silent →
    News h l st (st.receive e)

theorem News.face {st : Stream} {x : Stream × Option Callback} (news : h.News l st x) :
    x.1.face = st.face := by
  cases news with
  | read _ => exact st.face_replace _ _
  | arrived _ _ => exact st.face_receive _
  | played _ => exact st.face_receive _

theorem News.ages {st : Stream} {x : Stream × Option Callback} (news : h.News l st x) :
    st.Ages x.1 := by
  cases news with
  | read _ => exact st.ages_replace _ _
  | arrived _ _ => exact st.ages_receive _
  | played _ => exact st.ages_receive _

/-- A step of a loop is nothing to handlers, but for the delivery of what the loop tells its
stream. -/
theorem LoopStep.still_or_delivers {st : Stream} (step : h.LoopStep l st h')
    (found : h.streams[l.stream]? = some st) :
    h.Still h' ∨ ∃ g g' x, h.News l st x ∧ h.Still g ∧ g.streams[l.stream]? = some st ∧
      g.Delivers l.stream x.1 x.2 g' ∧ g'.Still h' := by
  have still {P : Stage → Prop} {g g' : Hub} (proceeds : Proceeds l.stage.holds l.id P g g') :
      g.Still g' := proceeds.toStill
  cases step with
  | first _ => exact .inl ((still (proceeds_heed h l)).trans (still (proceeds_beginCycle _ l st)))
  | again _ => exact .inl (still (proceeds_beginCycle h l st))
  | timedOut _ => exact .inl (still (proceeds_callTimedOut h l))
  | listAnswered _ => exact .inl (still (proceeds_listAnswered h l st _))
  | watchAnswered _ =>
    rcases watchAnswered_cases h l st _ _ with ends | ⟨feed, _, eq⟩
    · exact .inl ends.toStill
    · rw [eq]
      exact .inl (still (proceeds_opened h l.id st.key.selector _ _ feed))
  | reconcile stage =>
    exact .inr ⟨h, _, _, .read stage, .refl h, found, replace_delivers found _ _,
      still (reconcile_proceeds h l st _ _)⟩
  | arrived stage read =>
    rename_i store
    have here : (h.updateStore fun _ => store).streams[l.stream]? = some st := found
    exact .inr ⟨_, _, _, .arrived stage read, still_backend h _, here, receive_delivers here _,
      .refl _⟩
  | played stage =>
    rename_i rest ends _
    have here : (h.updateLoop l.id fun l =>
      { l with stage := .consuming (.scripted rest ends) none }).streams[l.stream]? = some st := found
    exact .inr ⟨_, _, _, .played stage, still_loops h _, here, receive_delivers here _, .refl _⟩
  | broken _ _ => exact .inl ((still_backend h _).trans (still (proceeds_endCycle _ l _)))
  | closed _ _ => exact .inl ((still_backend h _).trans (still (proceeds_endCycle _ l _)))
  | playedOut ending _ => exact .inl (still (proceeds_endCycle h l ending))
  | paused _ => exact .inl (still (proceeds_enter h l.id _))

end Hub

end SharedWatch
