import SharedWatch.Proofs.DeliverySteps
import SharedWatch.Proofs.LoopProgress

/-!
# Time passes

While loops wait and handlers are called, much can happen to streams and to the store, but not
everything.

* `Hub.Lapse`: what can happen to the store, to streams and to loops.
* `Beats.lapses`: nothing else happens while a stream delivers.
* `run_keeps`: what lasts through every deed lasts through every run.
* `Deed.grows`, `run_grows`: no deed takes anything from the past of the store.
-/

namespace SharedWatch

namespace Hub

open Relation (ReflTransGen)

/-! ## What can happen -/

/-- A watch connection of the store that a name stands for. -/
def Named (h : Hub) (id : Nat) : Prop := id ∈ h.names.watches.map (·.2)

/-- Time has passed for streams and loops: streams may have been made, started, stopped and left by
handlers, the store may have changed, and connections with names may have been used. -/
structure Lapse (h h' : Hub) : Prop where
  store : Store.Grows h.Named h.backend.store h'.backend.store
  lists : h'.backend.lists = h.backend.lists
  answers : h'.backend.watches = h.backend.watches
  named : ∀ id, h'.Named id →
    h.Named id ∨ h.backend.store.opened ≤ id ∧ id < h'.backend.store.opened
  old : ∀ {n : Nat} {st : Stream}, h.streams[n]? = some st →
    ∃ st', h'.streams[n]? = some st' ∧ st.Keeps st'
  new : ∀ {n : Nat} {st' : Stream}, h.streams[n]? = none → h'.streams[n]? = some st' →
    st'.cache = {}
  loops : h'.loops = h.loops ∧ h'.started = h.started ∨ ∃ l st st',
    h'.loops = h.loops ++ [l] ∧ h'.started = h.started + 1 ∧ l.id = h.started ∧ l.stage = .fresh ∧
      h.streams[l.stream]? = some st ∧ st.state = .created ∧
      h'.streams[l.stream]? = some st' ∧ st'.state ≠ .created

theorem named_of_lookup {h : Hub} {name : String} {id : Nat}
    (found : h.names.watches.lookup name = some id) : h.Named id := by
  obtain ⟨_, _, eq, _⟩ := List.lookup_eq_some_iff.mp found
  refine List.mem_map.mpr ⟨(name, id), ?_, rfl⟩
  rw [eq]
  exact List.mem_append_right _ List.mem_cons_self

theorem Keeps.lapse {h h' : Hub} (keeps : h.Keeps h')
    (store : Store.Grows h.Named h.backend.store h'.backend.store)
    (lists : h'.backend.lists = h.backend.lists) (answers : h'.backend.watches = h.backend.watches)
    (watches : h'.names.watches = h.names.watches) (loops : h'.loops = h.loops)
    (started : h'.started = h.started) : h.Lapse h' where
  store := store
  lists := lists
  answers := answers
  named id named := .inl (by unfold Named at named ⊢; rwa [watches] at named)
  old := keeps.old
  new none some := (keeps.new none some).2
  loops := .inl ⟨loops, started⟩

theorem grows_readArrivals (connection : Nat) (limit : Nat) (s : Store) :
    Store.Grows (· = connection) s (readArrivals connection limit s).2 := by
  induction limit generalizing s with
  | zero => exact .refl s
  | succ limit ih =>
    have read := Store.grows_read s connection
    unfold readArrivals
    split
    · rename_i a s' eq
      rw [eq] at read
      exact read.trans (ih s')
    · rename_i s' eq
      rw [eq] at read
      exact read
    · rename_i s' eq
      rw [eq] at read
      exact read

theorem lapse_startStream (h : Hub) (n parent : Nat) : h.Lapse (h.startStream n parent).2 := by
  have keeps := keeps_startStream h n parent
  unfold startStream at keeps ⊢
  split
  · exact (Keeps.refl h).lapse (.refl _) rfl rfl rfl rfl rfl
  · rename_i st found
    split
    · exact (Keeps.refl h).lapse (.refl _) rfl rfl rfl rfl rfl
    · exact (Keeps.refl h).lapse (.refl _) rfl rfl rfl rfl rfl
    · rename_i st' started
      simp only [found, started] at keeps
      obtain ⟨created, rfl⟩ := Stream.start?_eq_ok started
      have here : (h.updateStream n fun _ => { st with state := .syncing }).streams[n]? =
          some { st with state := .syncing } := by
        rw [streams_updateStream, if_pos rfl, found]
        rfl
      exact {
        store := .refl _
        lists := rfl
        answers := rfl
        named := fun _ => .inl
        old := keeps.old
        new := fun none some => (keeps.new none some).2
        loops := .inr ⟨_, st, _, rfl, rfl, rfl, rfl, found, created, here, by simp⟩ }

theorem lapse_haltStream (h : Hub) (n : Nat) : h.Lapse (h.haltStream n).2 := by
  have keeps := keeps_haltStream h n
  unfold haltStream at keeps ⊢
  split
  · exact (Keeps.refl h).lapse (.refl _) rfl rfl rfl rfl rfl
  · rename_i st found
    simp only [found] at keeps
    split
    · exact (Keeps.refl h).lapse (.refl _) rfl rfl rfl rfl rfl
    · rename_i running
      simp only [running] at keeps
      simp only
      split
      · rename_i fresh
        simp only [fresh] at keeps
        exact keeps.lapse (.refl _) rfl rfl rfl rfl rfl
      · rename_i fresh
        simp only [fresh] at keeps
        exact keeps.lapse (.refl _) rfl rfl rfl rfl rfl

theorem lapse_openWatch (h : Hub) (sel : Selector) (version name : String) :
    h.Lapse (h.openWatch sel version name).2 := by
  have keeps : h.Keeps (h.openWatch sel version name).2 := (Life.openWatch sel version name).keeps
  have watched : Store.Grows h.Named _ (h.backend.store.watch sel version).2 :=
    Store.grows_watch h.backend.store sel version
  unfold openWatch at keeps ⊢
  split
  · rename_i f s eq
    rw [eq] at watched
    simp only [eq] at keeps
    exact keeps.lapse watched rfl rfl rfl rfl rfl
  · rename_i connection s eq
    rw [eq] at watched
    simp only [eq] at keeps
    obtain ⟨rfl, _, _, _, _, more, _⟩ := Store.watch_eq_ok eq
    have released : Store.Grows h.Named s ((h.names.watches.lookup name).elim s s.release) := by
      cases found : h.names.watches.lookup name with
      | none => exact .refl s
      | some id => exact (Store.grows_release s id).mono fun _ same => same ▸ named_of_lookup found
    exact {
      store := watched.trans released
      lists := rfl
      answers := rfl
      named := fun id named => by
        rcases List.mem_map.mp named with ⟨entry, mem, rfl⟩
        rcases List.mem_cons.mp mem with rfl | older
        · exact .inr ⟨Nat.le_refl _, Nat.lt_of_lt_of_le (more ▸ Nat.lt_succ_self _) released.opened⟩
        · exact .inl (List.mem_map_of_mem (List.mem_filter.mp older).1)
      old := keeps.old
      new := fun none some => (keeps.new none some).2
      loops := .inl ⟨rfl, rfl⟩ }

theorem lapse_record (h : Hub) (e : LogEntry) : h.Lapse (h.record e) where
  store := .refl _
  lists := rfl
  answers := rfl
  named _ := .inl
  old found := ⟨_, found, .refl _⟩
  new none some := ((Keeps.refl h).new none some).2
  loops := .inl ⟨rfl, rfl⟩

theorem Life.lapse {h h' : Hub} (life : Life h h') : h.Lapse h' := by
  have keeps := life.keeps
  cases life with
  | beside beside =>
    exact keeps.lapse (beside.store ▸ .refl _) beside.lists beside.answers beside.watches
      beside.loops beside.started
  | create key policy issuer => exact keeps.lapse (.refl _) rfl rfl rfl rfl rfl
  | start n parent => exact lapse_startStream h n parent
  | halt n => exact lapse_haltStream h n
  | detach _ _ => exact keeps.lapse (.refl _) rfl rfl rfl rfl rfl
  | store op => exact keeps.lapse (Store.grows_run _ op) rfl rfl rfl rfl rfl
  | openWatch sel version name => exact lapse_openWatch h sel version name
  | poll limit found =>
    exact keeps.lapse ((grows_readArrivals _ _ _).mono fun _ same => same ▸ named_of_lookup found)
      rfl rfl rfl rfl rfl
  | dropWatch found =>
    exact {
      store := (Store.grows_release _ _).mono fun _ same => same ▸ named_of_lookup found
      lists := rfl
      answers := rfl
      named := fun id named => by
        rcases List.mem_map.mp named with ⟨entry, mem, rfl⟩
        exact .inl (List.mem_map_of_mem (List.mem_filter.mp mem).1)
      old := keeps.old
      new := fun none some => (keeps.new none some).2
      loops := .inl ⟨rfl, rfl⟩ }

/-! ## One thing after the other -/

/-- Time passes, and passes again. -/
abbrev Lapses : Hub → Hub → Prop := ReflTransGen Lapse

theorem Lives.lapses {h h' : Hub} (lives : Lives h h') : Lapses h h' :=
  ReflTransGen.mono (fun _ _ life => Life.lapse life) _ _ lives

theorem Beats.lapses {h h' : Hub} (beats : Beats h h') : Lapses h h' := by
  induction beats with
  | refl => exact .refl
  | tail _ beat ih =>
    cases beat with
    | called e => exact ih.tail (lapse_record _ e)
    | calm calm => exact ih.trans calm.lives.lapses

theorem Lapses.old {h h' : Hub} (lapses : Lapses h h') {n : Nat} {st : Stream}
    (found : h.streams[n]? = some st) :
    ∃ st', h'.streams[n]? = some st' ∧ st.Keeps st' := by
  induction lapses with
  | refl => exact ⟨st, found, .refl st⟩
  | tail _ lapse ih =>
    rcases ih with ⟨st', found', keeps⟩
    rcases lapse.old found' with ⟨st'', found'', keeps'⟩
    exact ⟨st'', found'', keeps.trans keeps'⟩

/-! ## The store -/

/-- Whatever connections have been used. -/
abbrev Anyone : Nat → Prop := fun _ => True

theorem Lapses.grows {h h' : Hub} (lapses : Lapses h h') :
    Store.Grows Anyone h.backend.store h'.backend.store := by
  induction lapses with
  | refl => exact .refl _
  | tail _ lapse ih => exact ih.trans (lapse.store.mono fun _ _ => trivial)

theorem Proceeds.grows {hands : Nat → Prop} {id : Nat} {P : Stage → Prop} {h h' : Hub}
    (proceeds : Proceeds hands id P h h') :
    Store.Grows Anyone h.backend.store h'.backend.store :=
  proceeds.store.mono fun _ _ => trivial

theorem LoopStep.grows {h h' : Hub} {l : Loop} {st : Stream} (step : h.LoopStep l st h')
    (found : h.streams[l.stream]? = some st) :
    Store.Grows Anyone h.backend.store h'.backend.store := by
  have proceeds {P : Stage → Prop} {g g' : Hub} (proceeds : Proceeds l.stage.holds l.id P g g') :
      Store.Grows Anyone g.backend.store g'.backend.store := proceeds.grows
  have read {connection : Nat} {reading : Reading} {store : Store}
      (read : h.backend.store.read connection = (reading, store)) :
      Store.Grows Anyone h.backend.store (h.updateStore fun _ => store).backend.store :=
    (Store.grows_of_read read).mono fun _ _ => trivial
  cases step with
  | first _ => exact (proceeds (proceeds_heed h l)).trans (proceeds (proceeds_beginCycle _ l st))
  | again _ => exact proceeds (proceeds_beginCycle h l st)
  | timedOut _ => exact proceeds (proceeds_callTimedOut h l)
  | listAnswered _ => exact proceeds (proceeds_listAnswered h l st _)
  | watchAnswered _ =>
    rcases watchAnswered_cases h l st _ _ with ends | ⟨feed, _, eq⟩
    · exact proceeds ends
    · rw [eq]
      exact proceeds (proceeds_opened h l.id st.key.selector _ _ feed)
  | reconcile _ =>
    exact (replace_delivers found _ _).beats.lapses.grows.trans (proceeds (reconcile_proceeds h l st _ _))
  | arrived _ arrived =>
    rename_i e store _
    have here : (h.updateStore fun _ => store).streams[l.stream]? = some st := found
    exact (read arrived).trans (receive_delivers here e).beats.lapses.grows
  | played _ =>
    rename_i e rest ends _ _
    have here : (h.updateLoop l.id fun l =>
      { l with stage := .consuming (.scripted rest ends) none }).streams[l.stream]? = some st := found
    exact (receive_delivers here e).beats.lapses.grows
  | broken _ arrived => exact (read arrived).trans (proceeds (proceeds_endCycle _ l _))
  | closed _ ended => exact (read ended).trans (proceeds (proceeds_endCycle _ l _))
  | playedOut ending _ => exact proceeds (proceeds_endCycle h l ending)
  | paused _ => exact proceeds (proceeds_enter h l.id _)

theorem attachHandler_grows (h : Hub) (n : Nat) (ref : HandlerRef) :
    Store.Grows Anyone h.backend.store (h.attachHandler n ref).2.backend.store := by
  rcases attachHandler_cases h n ref with ⟨same, _⟩ | ⟨_, _, _, beats⟩
  · rw [same]
    exact .refl _
  · exact (Beats.lapses beats).grows

theorem Deed.grows {h h' : Hub} (deed : Deed h h') :
    Store.Grows Anyone h.backend.store h'.backend.store := by
  cases deed with
  | calm calm => exact calm.lives.lapses.grows
  | attach n ref =>
    have same := (beside_bypass h n .attached).store
    exact same ▸ attachHandler_grows (h.bypass n .attached) n ref
  | join _ _ _ =>
    rename_i c n ref _ _ _ _
    exact attachHandler_grows (h.dropCall c.id) n ref
  | loop found stepped => exact (stepLoop_cases stepped).grows (stream_of_loop? found)
  | loopEnd id =>
    unfold Hub.loopEnd
    split
    · exact .refl _
    · rename_i l _ _
      split
      · exact (proceeds_endLoop h l).grows
      · split
        · have halted := (Lapses.grows (.single (Life.halt (h := h) l.stream).lapse))
          exact halted.trans (proceeds_endLoop _ l).grows
        · exact .refl _

theorem Deeds.grows {h h' : Hub} (deeds : Deeds h h') :
    Store.Grows Anyone h.backend.store h'.backend.store := by
  induction deeds with
  | refl => exact .refl _
  | tail _ deed ih => exact ih.trans deed.grows

/-- Preparing an answer of the store is nothing to anybody. -/
theorem still_script {h : Hub} {e : Event} (script : e.isScript = true) : h.Still (h.step e) := by
  cases e with
  | command id c =>
    unfold step
    simp only
    split
    · cases c with
      | scriptList call => exact still_backend h _
      | scriptWatch call => exact still_backend h _
      | _ => cases script
    · exact .refl h
  | _ => cases script

theorem step_grows (h : Hub) (e : Event) :
    Store.Grows Anyone h.backend.store (h.step e).backend.store := by
  cases script : e.isScript with
  | false => exact Deeds.grows (step_deeds script)
  | true =>
    cases e with
    | command id c =>
      unfold step
      simp only
      split
      · cases c with
        | scriptList _ => exact .refl _
        | scriptWatch _ => exact .refl _
        | _ => cases script
      · exact .refl _
    | _ => cases script

/-- What lasts through every deed, and through what is nothing to anybody, lasts through every run. -/
theorem run_keeps {P : Hub → Prop} (still : ∀ {h h' : Hub}, P h → h.Still h' → P h')
    (deed : ∀ {h h' : Hub}, P h → Deed h h' → P h') (es : List Event) {h : Hub} (holds : P h) :
    P (h.run es) := by
  induction es generalizing h with
  | nil => exact holds
  | cons e es ih =>
    refine ih ?_
    cases script : e.isScript with
    | true => exact still holds (still_script script)
    | false =>
      have deeds : Deeds h (h.step e) := step_deeds script
      generalize h.step e = h' at deeds ⊢
      induction deeds with
      | refl => exact holds
      | tail _ last before => exact deed before last

/-- Whatever happens, the store forgets nothing of its past and stays sound. -/
theorem run_grows (es : List Event) (h : Hub) :
    Store.Grows Anyone h.backend.store (h.run es).backend.store := by
  induction es generalizing h with
  | nil => exact .refl _
  | cons e es ih => exact (step_grows h e).trans (ih (h.step e))

end Hub

end SharedWatch
