import Mathlib.Data.Fintype.EquivFin
import SharedWatch.Proofs.ForeignSimulation

/-!
# Stores that give no objects of other keys

A store may as well keep to what it is asked for.  The loops of a run in which it does wait with nothing
but what concerns their streams.

* `Hub.givesOwn`: what a loop is given at an event concerns its stream.
* `Hub.Unmixed`: loops wait with nothing else; `Unmixed.step`: so it stays if they are given nothing else.
* `Hub.Spends`: prepared answers are taken, and none is added; `LoopStep.spends`, `Errand.spends`: that is
  all that ever becomes of them.
* `Hub.Stocked`: just one answer is prepared, or none; `Stocked.step`: the loop takes it that asks for it.
* `Stocked.answers`: how a store answers like another one, without objects of other keys.
-/

namespace SharedWatch

/-- What a loop waits with concerns the stream of a key. -/
def Stage.IsOwn (key : ObjectKey) : Stage → Prop
  | .listing call _ => key.ownRead call = call
  | .listed items _ => ∀ o ∈ items, key.owns o = true
  | .opening _ call _ => key.ownFeed call = call
  | .consuming (.scripted items _) _ => ∀ item ∈ items, key.heeds item = true
  | _ => True

theorem ObjectKey.owns_of_ownRead {key : ObjectKey} {call : ScriptedCall (List Object × String)}
    (own : key.ownRead call = call) {items : List Object} {version : String}
    (gives : call.answer = .gives (items, version)) : ∀ o ∈ items, key.owns o = true := by
  have same : (key.ownRead call).answer = call.answer := congrArg (·.answer) own
  simp only [ownRead, ScriptedCall.map, gives, Scripted.map, Scripted.gives.injEq,
    Prod.mk.injEq, and_true] at same
  exact List.filter_eq_self.mp same

theorem ObjectKey.heeds_of_ownFeed {key : ObjectKey} {call : ScriptedCall (List FeedItem × Bool)}
    (own : key.ownFeed call = call) {items : List FeedItem} {ends : Bool}
    (gives : call.answer = .gives (items, ends)) : ∀ item ∈ items, key.heeds item = true := by
  have same : (key.ownFeed call).answer = call.answer := congrArg (·.answer) own
  simp only [ownFeed, ScriptedCall.map, gives, Scripted.map, Scripted.gives.injEq,
    Prod.mk.injEq, and_true] at same
  exact List.filter_eq_self.mp same

/-- What concerns other objects is left out once. -/
theorem Answer.own_own (key : ObjectKey) (a : Answer) : (a.own key).own key = a.own key := by
  cases a with
  | read call =>
    obtain ⟨_, _, answer⟩ := call
    cases answer <;> simp [own, ObjectKey.ownRead, ScriptedCall.map, Scripted.map]
  | watch call =>
    obtain ⟨_, _, answer⟩ := call
    cases answer <;> simp [own, ObjectKey.ownFeed, ScriptedCall.map, Scripted.map]

namespace Hub

variable {hands : Nat → Prop} {h h' g : Hub} {id n : Nat} {key : ObjectKey} {l : Loop} {st : Stream}
  {P : Stage → Prop} {e : Event}

/-- Whether what a loop is given at an event, in an answer or by a prepared feed, concerns its stream. -/
def givesOwn (h : Hub) : Event → Bool
  | .loop id => (h.loop? id).all fun (l, st) =>
    !h.handsForeign l st && (h.givenTo? l).all fun a => a.own st.key = a
  | _ => true

/-- Whether streams are given nothing in a run but what concerns them. -/
def onlyGivesOwn (h : Hub) : List Event → Bool
  | [] => true
  | e :: es => h.givesOwn e && (h.step e).onlyGivesOwn es

/-- Loops wait with nothing but what concerns their streams. -/
def Unmixed (h : Hub) : Prop :=
  ∀ l ∈ h.loops, ∃ key, h.keyOf l.stream = some key ∧ l.stage.IsOwn key

/-- Streams keep their keys. -/
def KeepsKeys (h h' : Hub) : Prop :=
  ∀ (n : Nat) (key : ObjectKey), h.keyOf n = some key → h'.keyOf n = some key

theorem keepsKeys_of_old (old : ∀ {n : Nat} {st : Stream}, h.streams[n]? = some st →
    ∃ st', h'.streams[n]? = some st' ∧ st'.key = st.key) : h.KeepsKeys h' := by
  intro n key known
  obtain ⟨st, found, rfl⟩ := Option.map_eq_some_iff.mp known
  obtain ⟨st', found', same⟩ := old found
  exact (keyOf_eq found').trans (congrArg some same)

theorem Lapse.keepsKeys (lapse : h.Lapse h') : h.KeepsKeys h' :=
  keepsKeys_of_old fun found => (lapse.old found).imp fun _ ⟨found', keeps⟩ => ⟨found', keeps.key⟩

theorem Lapses.keepsKeys (lapses : Lapses h h') : h.KeepsKeys h' := by
  induction lapses with
  | refl => exact fun _ _ => id
  | tail _ lapse ih => exact fun n key known => lapse.keepsKeys n key (ih n key known)

theorem Passes.keepsKeys (passes : Passes hands id h h') : h.KeepsKeys h' :=
  keepsKeys_of_old fun found => (passes.old found).imp fun _ ⟨found', lasts⟩ => ⟨found', lasts.key⟩

theorem keepsKeys_updateStream {st' : Stream} (found : h.streams[n]? = some st)
    (face : st'.face = st.face) : h.KeepsKeys (h.updateStream n fun _ => st') := by
  refine keepsKeys_of_old fun {i k} here => ?_
  rw [streams_updateStream]
  split
  · rename_i same
    subst same
    obtain rfl := Option.some.inj (found.symm.trans here)
    exact ⟨st', by rw [found]; rfl, congrArg Face.key face⟩
  · exact ⟨k, here, rfl⟩

theorem Delivers.keepsKeys {st' : Stream} {callback : Option Callback}
    (delivers : h.Delivers n st' callback h') (found : h.streams[n]? = some st)
    (face : st'.face = st.face) : h.KeepsKeys h' :=
  fun n key known =>
    Lapses.keepsKeys delivers.beats.lapses n key (keepsKeys_updateStream found face n key known)

namespace Unmixed

theorem isOwn (unmixed : h.Unmixed) (found : h.loop? id = some (l, st)) : l.stage.IsOwn st.key := by
  obtain ⟨key, known, own⟩ := unmixed l (mem_of_loop? found)
  obtain rfl := Option.some.inj (known.symm.trans (keyOf_eq (stream_of_loop? found)))
  exact own

/-! ## Pieces -/

/-- Loops that are not what they were wait with nothing else either. -/
theorem of_kept (unmixed : h.Unmixed) (kept : h.KeepsKeys h')
    (loops : ∀ l ∈ h'.loops, l ∈ h.loops ∨
      ∃ key, h'.keyOf l.stream = some key ∧ l.stage.IsOwn key) : h'.Unmixed := by
  intro l mem
  rcases loops l mem with old | moved
  · obtain ⟨key, known, own⟩ := unmixed l old
    exact ⟨key, kept _ key known, own⟩
  · exact moved

theorem lapse (unmixed : h.Unmixed) (lapse : h.Lapse h') : h'.Unmixed := by
  refine unmixed.of_kept lapse.keepsKeys fun l mem => ?_
  rcases lapse.loops with ⟨same, _⟩ | ⟨l₀, _, st', more, _, _, fresh, _, _, found', _⟩
  · exact .inl (same ▸ mem)
  · rw [more, List.mem_append, List.mem_singleton] at mem
    rcases mem with old | rfl
    · exact .inl old
    · exact .inr ⟨st'.key, keyOf_eq found', fresh ▸ trivial⟩

theorem lapses (unmixed : h.Unmixed) (lapses : Lapses h h') : h'.Unmixed := by
  induction lapses with
  | refl => exact unmixed
  | tail _ lapse ih => exact ih.lapse lapse

/-- The loop of a number comes to wait. -/
theorem proceeds (unmixed : h.Unmixed) (proceeds : Proceeds hands id P h h')
    (tends : h.Tends h.keyOf id key) (own : ∀ s, P s → s.IsOwn key) : h'.Unmixed := by
  refine unmixed.of_kept proceeds.passes.keepsKeys fun l' mem => ?_
  rcases proceeds.loops l' mem with ⟨old, _⟩ | ⟨l, old, here, _, stream, stage⟩
  · exact .inl old
  · exact .inr ⟨key, stream ▸ proceeds.passes.keepsKeys _ key (tends l old here), own _ stage⟩

theorem ends (unmixed : h.Unmixed) (tends : h.Tends h.keyOf id key)
    (rests : Proceeds hands id (fun s => ∃ t, s = .resting t) h h') : h'.Unmixed :=
  unmixed.proceeds rests tends fun _ ⟨_, rested⟩ => rested ▸ trivial

/-- A stream comes to see something, and its handlers are called. -/
theorem delivers (unmixed : h.Unmixed) {st' : Stream} {callback : Option Callback}
    (delivers : h.Delivers n st' callback h') (found : h.streams[n]? = some st)
    (face : st'.face = st.face) : h'.Unmixed := by
  have changed : (h.updateStream n fun _ => st').Unmixed :=
    unmixed.of_kept (keepsKeys_updateStream found face) fun _ mem => .inl mem
  exact changed.lapses (Beats.lapses delivers.beats)

theorem attachHandler (unmixed : h.Unmixed) (n : Nat) (ref : HandlerRef) :
    (h.attachHandler n ref).2.Unmixed := by
  rcases attachHandler_cases h n ref with ⟨same, _⟩ | ⟨_, _, _, beats⟩
  · exact same.symm ▸ unmixed
  · have added : Passes (fun _ => False) h.started h (h.addHandler n ref) :=
      passes_addHandler h n ref
    have entered : (h.addHandler n ref).Unmixed :=
      unmixed.of_kept added.keepsKeys fun l mem => .inl mem
    exact entered.lapses (Beats.lapses beats)

/-! ## Steps -/

/-- What the store itself lists are objects of the key. -/
theorem isOwn_listed {b : Backend} {call : ScriptedCall (List Object × String)} {items : List Object}
    {version : String} (own : key.ownRead call = call)
    (listed : (b.finishList key.selector call.answer).1 = .ok (items, version)) :
    Stage.IsOwn key (.listed items version) := by
  cases answer : call.answer with
  | fails f =>
    rw [answer] at listed
    cases listed
  | gives a =>
    rw [answer] at listed
    obtain rfl := Except.ok.inj listed
    exact ObjectKey.owns_of_ownRead own answer
  | asks =>
    rw [answer] at listed
    have listed : (b.store.list key.selector).1 = .ok (items, version) := listed
    unfold Store.list at listed
    simp only at listed
    split at listed
    · cases listed
    · cases listed
      intro o mem
      have admitted := (List.mem_filter.mp mem).2
      rwa [Selector.admits_eq_owns, ObjectKey.key_selector] at admitted

/-- What a watch yields of the store itself is a connection. -/
theorem isOwn_consuming {b : Backend} {call : ScriptedCall (List FeedItem × Bool)} {version : String}
    {feed : Feed} (own : key.ownFeed call = call)
    (opened : (b.finishWatch key.selector version call.answer).1 = .ok feed) :
    Stage.IsOwn key (.consuming feed none) := by
  cases answer : call.answer with
  | fails f =>
    rw [answer] at opened
    cases opened
  | gives a =>
    rw [answer] at opened
    cases opened
    exact ObjectKey.heeds_of_ownFeed own answer
  | asks =>
    rw [answer] at opened
    have opened : (b.store.watch key.selector version).1.map Feed.live = .ok feed := opened
    cases result : (b.store.watch key.selector version).1 with
    | error f => rw [result] at opened; cases opened
    | ok connection =>
      rw [result] at opened
      cases opened
      trivial

/-- A prepared feed is played on. -/
theorem isOwn_rest {item : FeedItem} {rest : List FeedItem} {ends : Bool} {silent : Option Nat}
    (own : Stage.IsOwn key (.consuming (.scripted (item :: rest) ends) silent))
    (silent' : Option Nat) : Stage.IsOwn key (.consuming (.scripted rest ends) silent') :=
  fun item mem => own item (List.mem_cons_of_mem _ mem)

theorem stepLoop (unmixed : h.Unmixed) (tended : h.Tended) (found : h.loop? id = some (l, st))
    (gives : ∀ a, h.givenTo? l = some a → a.own st.key = a) (stepped : h.stepLoop l st = some h') :
    h'.Unmixed := by
  have here := stream_of_loop? found
  have own := unmixed.isOwn found
  have tends := tends_of_loop? tended found
  -- The call that is answered next concerns the stream, if the loop asks for a full read.
  have reads (asks : h.givenTo? l = some (.read (h.backend.lists.headD {}))) :
      Stage.IsOwn st.key (.listing (h.backend.beginList h.now st.key.selector).1 h.now) := by
    rw [fst_beginList]
    exact Answer.read.inj (gives _ asks)
  have step := stepLoop_cases stepped
  cases step with
  | first stage =>
    have asks : h.givenTo? l = some (.read (h.backend.lists.headD {})) := by
      unfold givenTo?
      rw [stage]
    have begins : Proceeds Anyone l.id _ h _ :=
      (proceeds_heed h l).trans (proceeds_listing (h.heed l) l st)
    exact unmixed.proceeds begins tends fun s listing => listing ▸ reads asks
  | @again t stage =>
    have due : t ≤ h.now := by
      by_contra early
      unfold Hub.stepLoop at stepped
      simp [stage, early] at stepped
    have asks : h.givenTo? l = some (.read (h.backend.lists.headD {})) := by
      unfold givenTo?
      rw [stage]
      exact if_pos due
    have begins : Proceeds Anyone l.id _ h _ := proceeds_listing h l st
    exact unmixed.proceeds begins tends fun s listing => listing ▸ reads asks
  | timedOut _ => exact unmixed.ends tends (proceeds_callTimedOut h l)
  | listAnswered stage =>
    rw [stage] at own
    refine unmixed.proceeds (proceeds_listAnswered h l st _) tends fun s comes => ?_
    rcases comes with ⟨t, rfl⟩ | ⟨items, version, rfl, listed⟩
    · trivial
    · exact isOwn_listed own listed
  | reconcile stage =>
    rename_i items version
    have asks : h.givenTo? l = some (.watch (h.backend.watches.headD {})) := by
      unfold givenTo?
      rw [stage]
    have delivers := replace_delivers here items version
    have told : (h.replace l.stream items version).Unmixed :=
      unmixed.delivers delivers here (st.face_replace items version)
    have opens : Proceeds Anyone l.id _ _ (h.reconcile l st items version) :=
      proceeds_opening h l st items version
    have keeps := delivers.keepsKeys here (st.face_replace items version)
    have tends' : (h.replace l.stream items version).Tends (h.replace l.stream items version).keyOf
        l.id st.key :=
      fun k mem own => keeps _ _
        (tends.delivers delivers (tended.started l (mem_of_loop? found)) k mem own)
    refine told.proceeds opens tends' fun s opening => ?_
    rw [opening, fst_beginWatch, watches_replace here]
    exact Answer.watch.inj (gives _ asks)
  | watchAnswered stage =>
    rename_i version call began
    rw [stage] at own
    rcases watchAnswered_cases h l st version call.answer with ends | ⟨feed, opened, eq⟩
    · exact unmixed.ends tends ends
    · rw [eq]
      have reads : Proceeds Anyone l.id _ h _ :=
        proceeds_opened h l.id st.key.selector version call.answer feed
      exact unmixed.proceeds reads tends fun s consuming => consuming ▸ isOwn_consuming own opened
  | @arrived _ _ e store =>
    have ready : (h.updateStore fun _ => store).Unmixed := unmixed
    have found' : (h.updateStore fun _ => store).streams[l.stream]? = some st := here
    exact ready.delivers (receive_delivers found' e) found' (st.face_receive e)
  | @broken _ _ _ store =>
    have ready : (h.updateStore fun _ => store).Unmixed := unmixed
    exact ready.ends tends (proceeds_endCycle _ l _)
  | @closed _ _ store =>
    have ready : (h.updateStore fun _ => store).Unmixed := unmixed
    exact ready.ends tends (proceeds_endCycle _ l _)
  | played stage =>
    rename_i e rest ends silent
    rw [stage] at own
    have played : Proceeds Anyone l.id (· = .consuming (.scripted rest ends) none) h
        (h.updateLoop l.id fun l => { l with stage := .consuming (.scripted rest ends) none }) :=
      proceeds_updateLoop (fun _ => rfl) (fun _ => rfl) fun _ => rfl
    have ready := unmixed.proceeds played tends fun s rest => rest ▸ isOwn_rest own none
    have found' : (h.updateLoop l.id fun l =>
      { l with stage := .consuming (.scripted rest ends) none }).streams[l.stream]? = some st := here
    exact ready.delivers (receive_delivers found' e) found' (st.face_receive e)
  | playedOut ending _ => exact unmixed.ends tends (proceeds_endCycle h l ending)
  | @paused ms rest ends _ stage =>
    rw [stage] at own
    have paused : Proceeds Anyone l.id _ h _ :=
      proceeds_enter h l.id (.consuming (.scripted rest ends) (some (h.now + ms)))
    exact unmixed.proceeds paused tends fun s rest => rest ▸ isOwn_rest own _

theorem loopStep (unmixed : h.Unmixed) (tended : h.Tended) (gives : h.givesOwn (.loop id) = true) :
    (h.loopStep id).Unmixed := by
  unfold Hub.loopStep
  cases found : h.loop? id with
  | none => exact unmixed
  | some x =>
    obtain ⟨l, st⟩ := x
    simp only
    cases stepped : h.stepLoop l st with
    | none => exact unmixed
    | some h' =>
      rw [givesOwn, found] at gives
      obtain ⟨_, given⟩ := (Bool.and_eq_true _ _).mp (Option.all_some.symm.trans gives)
      have own : l.id = id := id_of_loop? found
      refine stepLoop unmixed tended (own ▸ found) (fun a asked => ?_) stepped
      rw [asked] at given
      simpa using given

theorem endLoop (unmixed : h.Unmixed) (l : Loop) : (h.endLoop l).Unmixed := by
  have ends := proceeds_endLoop h l
  refine unmixed.of_kept ends.passes.keepsKeys fun k mem => ?_
  rcases ends.loops k mem with ⟨old, _⟩ | ⟨_, _, _, _, _, none⟩
  · exact .inl old
  · exact none.elim

theorem loopEnd (unmixed : h.Unmixed) (id : Nat) : (h.loopEnd id).Unmixed := by
  unfold Hub.loopEnd
  split
  · exact unmixed
  · rename_i l st _
    split
    · exact unmixed.endLoop l
    · split
      · exact (unmixed.lapse (lapse_haltStream h l.stream)).endLoop l
      · exact unmixed

theorem errand (unmixed : h.Unmixed) (errand : Errand h h') : h'.Unmixed := by
  cases errand with
  | calm calm => exact unmixed.lapses calm.lives.lapses
  | attach n ref =>
    have bypassed := (beside_bypass h n .attached).lives.lapses
    exact (unmixed.lapses bypassed).attachHandler n ref
  | @join c n ref r _ _ _ =>
    have dropped : (h.dropCall c.id).Unmixed := unmixed.lapses (lives_calls h _).lapses
    exact (dropped.attachHandler n ref).lapses (lives_deal _ _).lapses

/-- Loops stay so, if what they are given concerns their streams. -/
theorem step (unmixed : h.Unmixed) (tended : h.Tended) (gives : h.givesOwn e = true) :
    (h.step e).Unmixed := by
  cases script : e.isScript with
  | true =>
    cases e with
    | command id c =>
      unfold Hub.step
      simp only
      split
      · cases c with
        | scriptList | scriptWatch => exact unmixed
        | _ => cases script
      · exact unmixed
    | _ => cases script
  | false =>
    cases e with
    | loop id => exact unmixed.loopStep tended gives
    | loopEnd id => exact unmixed.loopEnd id
    | command | call | collect | wait =>
      have errands := step_errands (h := h) script (by simp) (by simp)
      generalize h.step _ = h' at errands
      induction errands with
      | refl => exact unmixed
      | tail _ last ih => exact ih.errand last

end Unmixed

/-! ## Prepared answers -/

/-- Prepared answers are taken, and none is added. -/
structure Spends (h h' : Hub) : Prop where
  lists : h'.backend.lists <:+ h.backend.lists
  watches : h'.backend.watches <:+ h.backend.watches

theorem Spends.refl (h : Hub) : h.Spends h := ⟨List.suffix_rfl, List.suffix_rfl⟩

theorem Spends.trans (first : h.Spends g) (second : g.Spends h') : h.Spends h' :=
  ⟨second.lists.trans first.lists, second.watches.trans first.watches⟩

theorem Passes.spends (passes : Passes hands id h h') : h.Spends h' := ⟨passes.lists, passes.answers⟩

theorem Lapses.spends (lapses : Lapses h h') : h.Spends h' := by
  induction lapses with
  | refl => exact .refl h
  | tail _ lapse ih => exact ih.trans lapse.passes.spends

theorem Delivers.spends {st' : Stream} {callback : Option Callback}
    (delivers : h.Delivers n st' callback h') : h.Spends h' :=
  (⟨List.suffix_rfl, List.suffix_rfl⟩ : h.Spends (h.updateStream n fun _ => st')).trans
    (Lapses.spends delivers.beats.lapses)

theorem LoopStep.spends (step : h.LoopStep l st h') (here : h.streams[l.stream]? = some st) :
    h.Spends h' := by
  have spends {P : Stage → Prop} {g g' : Hub} (proceeds : Proceeds l.stage.holds l.id P g g') :
      g.Spends g' := proceeds.passes.spends
  have read (store : Store) : h.Spends (h.updateStore fun _ => store) :=
    ⟨List.suffix_rfl, List.suffix_rfl⟩
  cases step with
  | first _ => exact (spends (proceeds_heed h l)).trans (spends (proceeds_listing _ l st))
  | again _ => exact spends (proceeds_listing h l st)
  | timedOut _ => exact spends (proceeds_callTimedOut h l)
  | listAnswered _ => exact spends (proceeds_listAnswered h l st _)
  | reconcile _ =>
    exact (replace_delivers here _ _).spends.trans (spends (proceeds_opening h l st _ _))
  | @watchAnswered version call _ _ =>
    rcases watchAnswered_cases h l st version call.answer with ends | ⟨feed, _, eq⟩
    · exact spends ends
    · rw [eq]
      exact spends (proceeds_opened h l.id st.key.selector version call.answer feed)
  | @arrived _ _ e store =>
    have here' : (h.updateStore fun _ => store).streams[l.stream]? = some st := here
    exact (read store).trans (receive_delivers here' e).spends
  | @broken _ _ _ store => exact (read store).trans (spends (proceeds_endCycle _ l _))
  | @closed _ _ store => exact (read store).trans (spends (proceeds_endCycle _ l _))
  | @played e rest ends _ _ =>
    have here' : (h.updateLoop l.id fun l =>
      { l with stage := .consuming (.scripted rest ends) none }).streams[l.stream]? = some st := here
    exact Spends.trans (g := h.updateLoop l.id fun l =>
      { l with stage := .consuming (.scripted rest ends) none })
      ⟨List.suffix_rfl, List.suffix_rfl⟩ (receive_delivers here' e).spends
  | playedOut ending _ => exact spends (proceeds_endCycle h l ending)
  | paused _ => exact spends (proceeds_enter h l.id _)

theorem Errand.spends (errand : Errand h h') : h.Spends h' := by
  have attaches (g : Hub) (n : Nat) (ref : HandlerRef) : g.Spends (g.attachHandler n ref).2 := by
    rcases attachHandler_cases g n ref with ⟨same, _⟩ | ⟨_, _, _, beats⟩
    · exact same.symm ▸ .refl g
    · have added : Passes (fun _ => False) g.started g (g.addHandler n ref) :=
        passes_addHandler g n ref
      exact added.spends.trans (Lapses.spends (Beats.lapses beats))
  cases errand with
  | calm calm => exact Lapses.spends calm.lives.lapses
  | attach n ref =>
    exact (Lapses.spends (beside_bypass h n .attached).lives.lapses).trans (attaches _ n ref)
  | @join c n ref r _ _ _ =>
    have dropped : h.Spends (h.dropCall c.id) := Lapses.spends (lives_calls h _).lapses
    exact (dropped.trans (attaches _ n ref)).trans (Lapses.spends (lives_deal _ _).lapses)

theorem spends_loopEnd (h : Hub) (id : Nat) : h.Spends (h.loopEnd id) := by
  have ends (g : Hub) (l : Loop) : g.Spends (g.endLoop l) := (proceeds_endLoop g l).passes.spends
  unfold Hub.loopEnd
  split
  · exact .refl h
  · rename_i l _ _
    split
    · exact ends h l
    · split
      · exact (lapse_haltStream h l.stream).passes.spends.trans (ends _ l)
      · exact .refl h

/-- The answer that the store gives at an event, if it is asked for one. -/
def given? (h : Hub) : Event → Option Answer
  | .loop id => (h.loop? id).bind fun (l, _) => h.givenTo? l
  | _ => none

/-- No answer is prepared but the one. -/
def Stocked (h : Hub) : Option Answer → Prop
  | none => h.backend.lists = [] ∧ h.backend.watches = []
  | some (.read call) => h.backend.lists = [call] ∧ h.backend.watches = []
  | some (.watch call) => h.backend.lists = [] ∧ h.backend.watches = [call]

theorem Spends.stocked (spends : h.Spends h') (none : h.Stocked none) : h'.Stocked .none :=
  ⟨List.suffix_nil.mp (none.1 ▸ spends.lists), List.suffix_nil.mp (none.2 ▸ spends.watches)⟩

namespace Stocked

theorem beginCycle {call : ScriptedCall (List Object × String)}
    (stocked : h.Stocked (some (.read call))) (l : Loop) (st : Stream) :
    (h.beginCycle l st).Stocked none := by
  obtain ⟨lists, watches⟩ := stocked
  unfold Hub.beginCycle Backend.beginList
  have prepared : (h.updateStream l.stream (·.move .syncing)).backend.lists = [call] := lists
  simp only [prepared]
  exact ⟨rfl, watches⟩

theorem reconcile {call : ScriptedCall (List FeedItem × Bool)}
    (stocked : h.Stocked (some (.watch call))) (here : h.streams[l.stream]? = some st)
    (items : List Object) (version : String) : (h.reconcile l st items version).Stocked none := by
  obtain ⟨lists, watches⟩ := stocked
  have prepared := (watches_replace here items version).trans watches
  have spent := (replace_delivers here items version).spends.lists
  rw [lists] at spent
  unfold Hub.reconcile Backend.beginWatch
  have prepared : ((h.replace l.stream items version).updateLoop l.id fun k =>
    { k with backoff := k.backoff.reset }).backend.watches = [call] := prepared
  simp only [prepared]
  exact ⟨List.suffix_nil.mp spent, rfl⟩

/-- The loop takes the answer that it asks for. -/
theorem stepLoop (stocked : h.Stocked (h.givenTo? l)) (here : h.streams[l.stream]? = some st)
    (stepped : h.stepLoop l st = some h') : h'.Stocked none := by
  have spends := LoopStep.spends (stepLoop_cases stepped) here
  unfold givenTo? at stocked
  unfold Hub.stepLoop at stepped
  generalize l.stage = stage at stocked stepped
  cases stage with
  | fresh =>
    cases stepped
    exact Stocked.beginCycle (h := h.heed l) stocked l st
  | resting t =>
    dsimp only at stocked stepped
    split at stepped
    · cases stepped
      rw [if_pos ‹_›] at stocked
      exact stocked.beginCycle l st
    · cases stepped
  | listed items version =>
    cases stepped
    exact stocked.reconcile here items version
  | listing | opening | consuming => exact spends.stocked stocked

/-- A loop that has to wait is given nothing. -/
theorem givenTo?_of_waits (waits : h.stepLoop l st = none) : h.givenTo? l = none := by
  unfold Hub.stepLoop at waits
  unfold givenTo?
  generalize l.stage = stage at waits
  cases stage with
  | fresh | listed => cases waits
  | resting t =>
    dsimp only at waits ⊢
    split at waits
    · cases waits
    · exact if_neg ‹_›
  | listing | opening | consuming => rfl

theorem step (stocked : h.Stocked (h.given? e)) (plain : e.isScript = false) :
    (h.step e).Stocked none := by
  cases e with
  | loop id =>
    show (h.loopStep id).Stocked none
    unfold Hub.loopStep
    rw [given?] at stocked
    cases found : h.loop? id with
    | none =>
      rw [found] at stocked
      exact stocked
    | some x =>
      obtain ⟨l, st⟩ := x
      rw [found] at stocked
      simp only
      cases stepped : h.stepLoop l st with
      | none => exact givenTo?_of_waits stepped ▸ stocked
      | some h' => exact stepLoop stocked (stream_of_loop? found) stepped
  | loopEnd id => exact (spends_loopEnd h id).stocked stocked
  | command | call | collect | wait =>
    have errands := step_errands (h := h) plain (by simp) (by simp)
    generalize h.step _ = h' at errands
    induction errands with
    | refl => exact stocked
    | tail _ last ih => exact last.spends.stocked ih

end Stocked

/-! ## An answer at the ready -/

theorem handsForeign_of_isOwn (own : l.stage.IsOwn st.key) : h.handsForeign l st = false := by
  refine Bool.eq_false_iff.mpr fun hands => ?_
  obtain ⟨e, rest, ends, silent, stage, _, foreign⟩ := handsForeign_cases hands
  rw [stage] at own
  have heeded : st.key.owns e.object = true := own (.arrives (.ok e)) List.mem_cons_self
  exact Bool.false_ne_true (foreign.symm.trans heeded)

/-- A loop is given the answer that is prepared, as soon as a loop abreast asks for one. -/
theorem Stocked.givenTo? {s : Stage} (abreast : Abreast h.keyOf h.now h h')
    (stages : l.stage.Alike key h.now s)
    (stocked : h'.Stocked ((h.givenTo? l).map (·.own key))) :
    h'.givenTo? { l with stage := s } = (h.givenTo? l).map (·.own key) := by
  unfold Hub.givenTo? at stocked ⊢
  generalize l.stage = stage at stages stocked ⊢
  cases stages with
  | fresh => simp [Answer.own, stocked.1]
  | resting t =>
    dsimp only at stocked ⊢
    rw [abreast.clock]
    split
    · rw [if_pos ‹_›] at stocked
      simp [Answer.own, stocked.1]
    · rfl
  | listed => simp [Answer.own, stocked.2]
  | listing | opening | live | scripted => rfl

/-- If the store has at the ready what it gives to hubs abreast, but for other objects, then it gives
this, and nothing of other objects. -/
theorem Stocked.answers (abreast : Abreast h.keyOf h.now h h') (unmixed : h'.Unmixed)
    (stocked : h'.Stocked (h.answer? e)) (plain : e.isScript = false) :
    h'.given? e = h.answer? e ∧ h'.answer? e = h.answer? e ∧ h'.givesOwn e = true ∧
      h'.isApart e = false := by
  cases e with
  | loop id =>
    rw [answer?] at stocked
    rw [given?, answer?, answer?, givesOwn, isApart]
    rcases abreast.loop?_cases id with ⟨gone, gone'⟩ | ⟨l, st, s, found, found', stages⟩
    · rw [gone, gone']
      exact ⟨rfl, rfl, rfl, rfl⟩
    · rw [found] at stocked
      rw [found, found']
      have given := Stocked.givenTo? abreast stages stocked
      have foreign : h'.handsForeign { l with stage := s } st = false :=
        handsForeign_of_isOwn (unmixed.isOwn found')
      have own : ((h.givenTo? l).map (·.own st.key)).map (·.own st.key) =
          (h.givenTo? l).map (·.own st.key) := by
        simp [Function.comp_def, Answer.own_own]
      simp only [Option.bind_some, Option.all_some, Option.any_some, given, foreign, own]
      refine ⟨trivial, trivial, ?_, trivial⟩
      cases h.givenTo? l with
      | none => rfl
      | some a => simp [Answer.own_own]
  | command | loopEnd | call | collect | wait => exact ⟨rfl, rfl, rfl, plain⟩

/-- An answer can be prepared at any time. -/
theorem exists_stock (empty : h.Stocked none) (a : Option Answer) : ∃ ps : List Event,
    (∀ e ∈ ps, e.isScript = true) ∧ (h.run ps).Stocked a ∧ (h.run ps).front = h.front ∧
      (h.run ps).loops = h.loops := by
  obtain ⟨id, unused⟩ := Infinite.exists_notMem_finset (h.calls.map (·.id)).toFinset
  have free : h.call? id = none := by
    refine List.find?_eq_none.mpr fun c mem same => unused ?_
    exact List.mem_toFinset.mpr (List.mem_map.mpr ⟨c, mem, by simpa using same⟩)
  have prepares (c : Command) (instant : c.isInstant = true) :
      h.run [.command id c] = (h.perform id c).2 := by
    show h.step (.command id c) = _
    unfold Hub.step
    simp [instant, free]
  cases a with
  | none => exact ⟨[], by simp, empty, rfl, rfl⟩
  | some a =>
    cases a with
    | read call =>
      refine ⟨[.command id (.scriptList call)], by simp [Event.isScript, Command.isScript], ?_⟩
      rw [prepares (.scriptList call) rfl]
      exact ⟨⟨congrArg (· ++ [call]) empty.1, empty.2⟩, rfl, rfl⟩
    | watch call =>
      refine ⟨[.command id (.scriptWatch call)], by simp [Event.isScript, Command.isScript], ?_⟩
      rw [prepares (.scriptWatch call) rfl]
      exact ⟨⟨empty.1, congrArg (· ++ [call]) empty.2⟩, rfl, rfl⟩

end Hub

end SharedWatch
