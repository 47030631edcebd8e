import SharedWatch.Proofs.CallTurns

/-!
# Who waits for its turn

A call that has asked for its turn at a manager and has not got it is in the manager's queue, and somebody
else has the turn.  So no call in a queue is forgotten.  Whoever has the turn is itself a call of that
manager that has neither returned nor been dropped, so that no turn is lost.

* `Turned.lines`, `steady_lined`: calls stay in line until their turns come.
* `lined_run`: so it is in every run.
* `InLine.turn`: whoever is in line has the turn, or somebody else has it.
* `Hub.Rota`: whoever has a turn or waits for it pends at the manager; `rota_run`: so it is in every run.
* `Hub.HeldBy`: who has the turn, and what it waits for; `HasTurn.heldBy`.
-/

namespace SharedWatch

namespace Hub

variable {h h' g : Hub} {c c' : PendingCall} {k m n : Nat} {who : Option Nat}

/-- Whoever is in line has the turn, or somebody else has it. -/
theorem InLine.turn (line : h.InLine k n) : h.HasTurn k n ∨ ∃ i, i ≠ n ∧ h.HasTurn k i := by
  obtain ⟨manager, known, turn | ⟨taken, _⟩⟩ := line
  · exact .inl ⟨manager, known, turn⟩
  · obtain ⟨i, turn⟩ := Option.isSome_iff_exists.mp taken
    by_cases own : i = n
    · exact .inl ⟨manager, known, own ▸ turn⟩
    · exact .inr ⟨i, own, manager, known, turn⟩

/-- The owner table may change. -/
theorem InLine.updateManager (line : h.InLine k n) {f : Manager → Manager}
    (turn : ∀ manager, (f manager).turn = manager.turn)
    (queue : ∀ manager, (f manager).queue = manager.queue) : (h.updateManager m f).InLine k n := by
  obtain ⟨manager, known, waits⟩ := line
  refine ⟨if m = k then f manager else manager, ?_, ?_⟩
  · unfold Hub.updateManager
    rw [List.getElem?_modify, known]
    rfl
  · unfold Manager.InLine
    split
    · rw [turn, queue]
      exact waits
    · exact waits

/-- Other calls stay in line. -/
theorem Turned.lines (turned : Turned h c h') (other : n ≠ c.id) (line : h.InLine k n) :
    h'.InLine k n := by
  have away : some c.id ≠ some n := fun same => other (Option.some.inj same).symm
  cases turned with
  | waits gentle _ _ _ => exact gentle.lines away line
  | @answers g _ gentle _ _ => exact (gentle.lines away line : g.InLine k n)
  | attaches _ rouses _ _ _ _ =>
    have kept := (Rouses.modest rouses).lines away line
    cases c.bind <;> exact kept
  | @subscribes g g' _ _ _ _ r _ rouses more _ _ _ _ =>
    have kept : (g.deal (.granted r)).InLine k n := (Rouses.modest rouses).lines away line
    have kept := more.lines away kept
    cases c.bind <;> exact kept
  | @registers g g' _ _ _ _ _ r _ _ _ _ rouses more _ _ _ _ _ =>
    have kept : (g.deal (.granted r)).InLine k n := (Rouses.modest rouses).lines away line
    have kept := more.lines away (kept.updateManager (fun _ => rfl) fun _ => rfl)
    exact kept
  | @unregisters g g' _ _ _ r _ _ _ _ left more _ =>
    obtain ⟨h₁, same, after⟩ := gentle_of_unsubscribe left
    have given : h₁.InLine k n := by rcases same with rfl | ⟨late, rfl⟩ <;> exact line
    have kept := more.lines away ((after.lines nofun given).updateManager (fun _ => rfl) fun _ => rfl)
    exact kept

/-- A call in a queue is not disturbed by what is modest to it. -/
theorem Lined.modest (lined : h.Lined c) (modest : h.Modest who h') (other : who ≠ some c.id) :
    h'.Lined c :=
  ⟨fun own queued => modest.lines other (lined.queued own queued), lined.waits⟩

/-- Whoever is in a queue is still in line. -/
theorem steady_lined : Steady Lined where
  fresh fresh := ⟨fun _ queued => (nomatch fresh.symm.trans queued),
    fun waits => (nomatch fresh.symm.trans waits)⟩
  waits _ lined := lined
  modest modest other lined := lined.modest modest other
  lost lined := { lined with }
  later lined := { lined with }
  turned turned other lined :=
    ⟨fun own queued => turned.lines other (lined.queued own queued), lined.waits⟩

theorem lined_run (limit : Nat) (draws : Draws) (es : List Event) :
    ∀ c ∈ ((start limit draws).run es).calls, ((start limit draws).run es).Lined c := by
  induction es using List.reverseRecOn with
  | nil => exact fun _ mem => (List.not_mem_nil mem).elim
  | append_singleton es e ih =>
    have books := (moment_run limit draws (es ++ [e])).books
    exact steady_lined.course (run_course limit draws es e) books.toIndexed ih

/-! ## Who is in a line -/

theorem line_updateManager (h : Hub) (g : Nat) (f : Manager → Manager) (k : Nat) :
    (h.updateManager g f).line k =
      (h.managers[k]?).elim [] fun manager => if g = k then (f manager).line else manager.line := by
  unfold line updateManager
  rw [List.getElem?_modify]
  cases h.managers[k]? with
  | none => rfl
  | some manager =>
    show Manager.line (if g = k then f manager else manager) = if g = k then _ else _
    split <;> rfl

/-- Whoever asks for a turn gets in line, if the manager is there. -/
theorem line_ask (h : Hub) (g id k : Nat) :
    ((h.updateManager g (·.ask id)).line k).Perm (h.line k) ∨
      g = k ∧ ((h.updateManager g (·.ask id)).line k).Perm (id :: h.line k) := by
  rw [line_updateManager]
  unfold line
  cases h.managers[k]? with
  | none => exact .inl .rfl
  | some manager =>
    by_cases own : g = k
    · refine .inr ⟨own, ?_⟩
      rw [Option.elim_some, if_pos own]
      exact manager.line_ask id
    · rw [Option.elim_some, if_neg own]
      exact .inl .rfl

theorem line_leaveTurn (nodup : (h.line m).Nodup) (g id : Nat) :
    (h.leaveTurn g id).line m = if g = m then (h.line m).filter (· != id) else h.line m := by
  unfold leaveTurn
  rw [line_updateManager]
  unfold line at nodup ⊢
  cases known : h.managers[m]? with
  | none => simp
  | some manager =>
    rw [known, Option.elim_some] at nodup
    rw [Option.elim_some, Option.elim_some, manager.line_leave nodup id]

/-- Call `i` has asked for its turn at manager `k`, and has neither returned nor been dropped: it is
queued, or waits on behalf of an owner. -/
def Pends (h : Hub) (k i : Nat) : Prop :=
  ∃ c ∈ h.calls, c.id = i ∧ c.request.manager? = some k ∧
    ((∃ counted, c.phase = .queued counted) ∨ c.waitsOn?.isSome = true)

/-- While call `c` goes on, nobody is in a line twice, and everybody else who is in the line of a manager
pends there. -/
structure RotaBut (c : PendingCall) (h : Hub) : Prop where
  nodup : ∀ k, (h.line k).Nodup
  pends : ∀ {k i : Nat}, i ∈ h.line k → i ≠ c.id ∧ h.Pends k i ∨ i = c.id ∧ c.request.manager? = some k

/-- Between the turns of calls so does everybody. -/
structure Rota (h : Hub) : Prop where
  nodup : ∀ k, (h.line k).Nodup
  pends : ∀ {k i : Nat}, i ∈ h.line k → h.Pends k i

/-- Call `c` is in no line. -/
def Away (c : PendingCall) (h : Hub) : Prop := ∀ k, c.id ∉ h.line k

/-- Nobody gets in line or leaves it, and no call goes away. -/
structure Idles (h h' : Hub) : Prop where
  lines : ∀ k, h'.line k = h.line k
  calls : ∀ c ∈ h.calls, c ∈ h'.calls

theorem Idles.trans {h'' : Hub} (first : h.Idles h') (second : h'.Idles h'') : h.Idles h'' :=
  ⟨fun k => (second.lines k).trans (first.lines k), fun c mem => second.calls c (first.calls c mem)⟩

theorem Modest.idles (modest : h.Modest none h') : h.Idles h' :=
  ⟨modest.queues rfl, fun c mem => (modest.calls fun same : none = some c.id => nomatch same).mpr mem⟩

/-- A registration that is handed out or given back is nothing to the managers. -/
theorem idles_deal (h : Hub) (d : Dealing) : h.Idles (h.deal d) := ⟨fun _ => rfl, fun _ => id⟩

/-- Owners come and go without anybody's getting in line. -/
theorem idles_updateManager (h : Hub) (g : Nat) {f : Manager → Manager}
    (turn : ∀ manager, (f manager).turn = manager.turn)
    (queue : ∀ manager, (f manager).queue = manager.queue) : h.Idles (h.updateManager g f) := by
  refine ⟨fun k => ?_, fun _ => id⟩
  have same (manager : Manager) : (f manager).line = manager.line := by
    unfold Manager.line
    rw [turn, queue]
  rw [line_updateManager]
  simp only [same, ite_self]
  rfl

theorem Pends.of_calls {i : Nat} (pends : h.Pends k i)
    (calls : ∀ c ∈ h.calls, c.id = i → c ∈ h'.calls) : h'.Pends k i := by
  obtain ⟨c, mem, own, rest⟩ := pends
  exact ⟨c, calls c mem own, own, rest⟩

/-- A rota is kept when lines stay as they are. -/
theorem Rota.keep (rota : h.Rota) (lines : ∀ k, h'.line k = h.line k)
    (calls : ∀ c ∈ h.calls, c.phase ≠ .fresh → c ∈ h'.calls) : h'.Rota where
  nodup k := lines k ▸ rota.nodup k
  pends mem := by
    obtain ⟨c, there, own, manager, phase⟩ := rota.pends (lines _ ▸ mem)
    refine ⟨c, calls c there fun fresh => ?_, own, manager, phase⟩
    rcases phase with ⟨_, queued⟩ | waits
    · cases fresh.symm.trans queued
    · unfold PendingCall.waitsOn? at waits
      rw [fresh] at waits
      cases waits

theorem Rota.idles (rota : h.Rota) (idles : h.Idles h') : h'.Rota :=
  rota.keep idles.lines fun c mem _ => idles.calls c mem

/-- A call begins its turn. -/
theorem Rota.but (rota : h.Rota) (ids : (h.calls.map (·.id)).Nodup)
    (found : h.call? c.id = some c) : RotaBut c h where
  nodup := rota.nodup
  pends {k i} mem := by
    have pends := rota.pends mem
    by_cases own : i = c.id
    · obtain ⟨c', there, same, manager, _⟩ := pends
      have mem' := List.mem_of_find?_eq_some found
      rw [List.inj_on_of_nodup_map ids there mem' (same.trans own)] at manager
      exact .inr ⟨own, manager⟩
    · exact .inl ⟨own, pends⟩

/-- A call that is neither queued nor waits on behalf of an owner is in no line. -/
theorem Rota.away (rota : h.Rota) (ids : (h.calls.map (·.id)).Nodup)
    (found : h.call? c.id = some c) (queued : ∀ counted, c.phase ≠ .queued counted)
    (waits : c.waitsOn? = none) : Away c h := by
  intro k mem
  obtain ⟨c', there, same, _, phase⟩ := rota.pends mem
  rw [List.inj_on_of_nodup_map ids there (List.mem_of_find?_eq_some found) same, waits] at phase
  rcases phase with ⟨counted, phase⟩ | phase
  · exact queued counted phase
  · cases phase

namespace RotaBut

theorem keep (but : RotaBut c h) (lines : ∀ k, h'.line k = h.line k)
    (calls : ∀ c' ∈ h.calls, c'.id ≠ c.id → c' ∈ h'.calls) : RotaBut c h' where
  nodup k := lines k ▸ but.nodup k
  pends mem := (but.pends (lines _ ▸ mem)).imp_left fun ⟨other, pends⟩ =>
    ⟨other, pends.of_calls fun c' mem own => calls c' mem (own ▸ other)⟩

theorem idles (but : RotaBut c h) (idles : h.Idles h') : RotaBut c h' :=
  but.keep idles.lines fun c mem _ => idles.calls c mem

theorem dropCall (but : RotaBut c h) : RotaBut c (h.dropCall c.id) :=
  but.keep (fun _ => rfl) fun _ mem other => List.mem_filter.mpr ⟨mem, by simpa using other⟩

theorem updateCall (but : RotaBut c h) (f : PendingCall → PendingCall) :
    RotaBut c (h.updateCall c.id f) :=
  but.keep (fun _ => rfl) fun c' mem other => List.mem_map.mpr ⟨c', mem, if_neg other⟩

/-- A call that needs no turn at a manager is in no line. -/
theorem away (but : RotaBut c h) (plain : c.request.manager? = none) : Away c h := by
  intro k mem
  rcases but.pends mem with ⟨other, _⟩ | ⟨_, own⟩
  · exact other rfl
  · cases plain.symm.trans own

/-- A call that is in no line may be gone. -/
theorem rota (but : RotaBut c h) (away : Away c h) : h.Rota where
  nodup := but.nodup
  pends mem := (but.pends mem).elim And.right fun ⟨own, _⟩ => (away _ (own ▸ mem)).elim

/-- A call that pends may be in line. -/
theorem rota_of_pends (but : RotaBut c h)
    (pends : ∀ k, c.request.manager? = some k → h.Pends k c.id) : h.Rota where
  nodup := but.nodup
  pends mem := (but.pends mem).elim And.right fun ⟨own, manager⟩ => own ▸ pends _ manager

theorem leave (but : RotaBut c h) (own : c.request.manager? = some k) :
    RotaBut c (h.leaveTurn k c.id) ∧ Away c (h.leaveTurn k c.id) := by
  have mem {i j : Nat} (mem : i ∈ (h.leaveTurn k c.id).line j) : i ∈ h.line j ∧ (k = j → i ≠ c.id) := by
    rw [line_leaveTurn (but.nodup j)] at mem
    split at mem
    · exact ⟨List.mem_of_mem_filter mem, fun _ => by simpa using (List.mem_filter.mp mem).2⟩
    · rename_i other
      exact ⟨mem, fun same => (other same).elim⟩
  constructor
  · refine ⟨fun j => ?_, fun there => but.pends (mem there).1⟩
    rw [line_leaveTurn (but.nodup j)]
    split
    · exact (but.nodup j).filter _
    · exact but.nodup j
  · intro j there
    rcases but.pends (mem there).1 with ⟨other, _⟩ | ⟨_, own'⟩
    · exact other rfl
    · exact (mem there).2 (Option.some.inj (own.symm.trans own')) rfl

theorem ask (but : RotaBut c h) (away : Away c h) (own : c.request.manager? = some k) :
    RotaBut c (h.updateManager k (·.ask c.id)) where
  nodup j := by
    rcases line_ask h k c.id j with same | ⟨_, joined⟩
    · exact same.nodup_iff.mpr (but.nodup j)
    · exact joined.nodup_iff.mpr (List.nodup_cons.mpr ⟨away j, but.nodup j⟩)
  pends {j i} mem := by
    rcases line_ask h k c.id j with same | ⟨here, joined⟩
    · exact but.pends (same.mem_iff.mp mem)
    · rcases List.mem_cons.mp (joined.mem_iff.mp mem) with rfl | old
      · exact .inr ⟨rfl, here ▸ own⟩
      · exact but.pends old

/-! ## A call goes on -/

variable {reply : Reply} {w : SyncWait} {counted : Option Nat}

theorem finish (but : RotaBut c h) (reply : Reply) : RotaBut c (h.finish c reply) := by
  have named : (h.finish c reply).managers = h.managers ∧
      (h.finish c reply).calls = (h.dropCall c.id).calls := by
    unfold Hub.finish
    cases reply <;> cases c.bind <;> exact ⟨rfl, rfl⟩
  refine but.keep (fun k => ?_) fun c' mem other => ?_
  · unfold line
    rw [named.1]
  · rw [named.2]
    exact List.mem_filter.mpr ⟨mem, by simpa using other⟩

theorem finished (but : RotaBut c h) (away : Away c h) (reply : Reply) :
    (h.finish c reply).Rota := by
  refine (but.finish reply).rota fun k => ?_
  have managers : (h.finish c reply).managers = h.managers := by
    unfold Hub.finish
    cases reply <;> cases c.bind <;> rfl
  unfold line
  rw [managers]
  exact away k

theorem finishedTurn (but : RotaBut c h) (own : c.request.manager? = some k) (reply : Reply) :
    (h.finishTurn c k reply).Rota := by
  obtain ⟨left, away⟩ := (but.finish reply).leave own
  exact left.rota away

end RotaBut

/-! ## Turns -/

section

variable {w : SyncWait} {counted : Option Nat} {mux : Multiplexer} {key : ObjectKey} {r : Registration}

theorem Away.idles (away : Away c h) (idles : h.Idles h') : Away c h' := by
  intro k mem
  rw [idles.lines k] at mem
  exact away k mem

/-- What becomes of the wait of a subscriber is nothing to the managers. -/
theorem idles_concludeSubscribe (h : Hub) (m : Nat) (key : ObjectKey) (ref : HandlerRef) (n : Nat)
    (outcome : Except WatchError Unit) :
    h.Idles (h.concludeSubscribe m key ref n outcome).2 := by
  rcases concludeSubscribe_gentle h m key ref n outcome with ⟨r, g, _, _, more, _, eq⟩ | ⟨e, g, gentle, eq⟩
  · rw [eq]
    have told := (gentle_say (g.deal (.granted r)) .info "handler subscribed").toModest.idles
    exact ((Rouses.modest more).idles.trans (idles_deal g (.granted r))).trans told
  · rw [eq]
    exact gentle.toModest.idles

/-- The wait of a call is over.  Whoever waits on behalf of an owner gives on its turn. -/
theorem RotaBut.conclude (but : RotaBut c h) (away : c.request.isSubscriber = false → Away c h)
    (outcome : Except WatchError Unit) : (h.conclude c w outcome).Rota := by
  have dropped := but.dropCall
  unfold Hub.conclude
  cases asked : c.request with
  | awaitSync n token => exact dropped.finished (away (by rw [asked]; rfl)) _
  | subscribe m key ref token =>
    have settled := dropped.idles (idles_concludeSubscribe (h.dropCall c.id) m key ref w.stream outcome)
    exact settled.finished (settled.away (by rw [asked]; rfl)) _
  | register k owner target token =>
    have own : c.request.manager? = some k := by rw [asked]; rfl
    simp only
    split
    · rename_i unknown
      refine dropped.rota fun j mem => ?_
      rcases dropped.pends mem with ⟨other, _⟩ | ⟨_, here⟩
      · exact other rfl
      · cases own.symm.trans here
        unfold line at mem
        rw [unknown] at mem
        cases mem
    · rename_i manager _
      have settled := dropped.idles (idles_concludeSubscribe (h.dropCall c.id) manager.multiplexer
        (owner.target target) manager.handler w.stream outcome)
      split
      · exact settled.finishedTurn own _
      · rename_i r _
        have told := settled.idles (gentle_say _ .info "owner registered").toModest.idles
        have inserted := told.idles (idles_updateManager _ k (f := (·.insert owner r))
          (fun _ => rfl) fun _ => rfl)
        exact inserted.finishedTurn own _
  | _ => exact dropped.finished (away (by rw [asked]; rfl)) _

/-- Whoever waits for its stream pends, if it does so on behalf of an owner. -/
theorem RotaBut.waitOrConclude (but : RotaBut c h) (found : h.call? c.id = some c)
    (away : c.request.isSubscriber = false → Away c h) : (h.waitOrConclude c w).Rota := by
  have began : RotaBut c (h.beginWait c w) :=
    (but.idles (gentle_takeTicket h).toModest.idles).updateCall _
  have found' := call?_beginWait found w
  unfold Hub.waitOrConclude
  simp only
  split
  · exact began.conclude (fun plain => away plain) _
  · cases plain : c.request.isSubscriber with
    | false => exact began.rota (away plain)
    | true =>
      refine began.rota_of_pends fun k own =>
        ⟨_, List.mem_of_find?_eq_some found', rfl, own, .inr ?_⟩
      simp [PendingCall.waitsOn?, plain]

theorem RotaBut.runCurrent (but : RotaBut c h) (found : h.call? c.id = some c) (away : Away c h)
    (m : Nat) (r : Registration) : (h.runCurrent c m r).Rota := by
  unfold Hub.runCurrent
  split
  · exact but.finished away _
  · exact but.waitOrConclude found fun _ => away

/-- A subscriber takes its reference and waits, or fails. -/
theorem RotaBut.beginSubscribe (but : RotaBut c h) (found : h.call? c.id = some c)
    (subscribes : c.request.isSubscriber = true) (m : Nat) (key : ObjectKey) (token : Nat) :
    (∃ e, h.beginSubscribe m key token = (.error e, h)) ∨
      ∃ w g, h.beginSubscribe m key token = (.ok w, g) ∧ (g.waitOrConclude c w).Rota := by
  rcases beginSubscribe_cases h m key token with ⟨e, eq⟩ | ⟨mux, w, _, _, eq⟩
  · exact .inl ⟨e, eq⟩
  · have found' : (h.acquire m mux key).2.call? c.id = some c := by
      unfold call? at found ⊢
      rw [calls_acquire, found]
    refine .inr ⟨w, _, eq, (but.idles (modest_acquire h m mux key).idles).waitOrConclude found' ?_⟩
    exact fun plain => nomatch plain.symm.trans subscribes

/-- Whoever has its turn gives it on, keeps it while it waits on behalf of an owner, or queues again. -/
theorem RotaBut.runTurn (but : RotaBut c h) (found : h.call? c.id = some c)
    (own : c.request.manager? = some k) (manager : Manager) :
    (h.runTurn c k manager counted).Rota := by
  have fails (reply : Reply) := but.finishedTurn own reply
  obtain ⟨left, away⟩ := but.leave own
  unfold Hub.runTurn
  cases asked : c.request with
  | register k' owner target token =>
    simp only
    split
    · exact fails _
    · rcases but.beginSubscribe found (by rw [asked]; rfl) manager.multiplexer (owner.target target)
        token with ⟨e, eq⟩ | ⟨w, g, eq, rota⟩
      · rw [eq]
        exact fails _
      · rw [eq]
        exact rota
  | unregister k' owner =>
    simp only
    split
    · exact fails _
    · rename_i r _
      have erases {g : Hub} (idles : h.Idles g) :
          (((g.updateManager k (·.erase owner)).say .info "owner unregistered").finishTurn c k .ok).Rota := by
        have erased := (but.idles idles).idles
          (idles_updateManager g k (f := (·.erase owner)) (fun _ => rfl) fun _ => rfl)
        exact (erased.idles (gentle_say _ _ _).toModest.idles).finishedTurn own _
      rcases unsubscribe_gentle h manager.multiplexer r with
        ⟨e, eq⟩ | ⟨g, eq, gentle, _⟩ | ⟨late, g, eq, gentle, _⟩
      · rw [eq]
        exact fails _
      · rw [eq]
        exact erases gentle.toModest.idles
      · rw [eq]
        exact erases ((idles_deal h _).trans gentle.toModest.idles)
  | currentOf k' owner =>
    simp only
    split
    · exact fails _
    · exact left.runCurrent found away _ _
  | isRegistered k' owner => exact fails _
  | targetOf k' owner => exact fails _
  | size k' =>
    simp only
    split
    · exact fails _
    · split
      · exact left.rota away
      · have asked := left.ask away own
        split
        · exact asked.finishedTurn own _
        · refine (asked.updateCall _).rota_of_pends fun j own' => ?_
          have queued := call?_queued (h := (h.leaveTurn k c.id).updateManager k (·.ask c.id)) found
            (some manager.owners.length)
          exact ⟨_, List.mem_of_find?_eq_some queued, rfl, own', .inl ⟨_, rfl⟩⟩
  | attach n ref => rw [asked] at own; cases own
  | awaitSync n token => rw [asked] at own; cases own
  | subscribe m key ref token => rw [asked] at own; cases own
  | current m r => rw [asked] at own; cases own

/-- Whoever asks for its turn gets it, or is queued. -/
theorem RotaBut.enterManager (but : RotaBut c h) (away : Away c h) (found : h.call? c.id = some c)
    (own : c.request.manager? = some k) : (h.enterManager c k).Rota := by
  unfold Hub.enterManager
  split
  · exact but.rota away
  · rename_i manager _
    have asked := but.ask away own
    have found' : (h.updateManager k (·.ask c.id)).call? c.id = some c := found
    simp only
    split
    · exact asked.runTurn found' own manager
    · have queued := call?_queued found' none
      exact (asked.updateCall _).rota_of_pends fun j own' =>
        ⟨_, List.mem_of_find?_eq_some queued, rfl, own', .inl ⟨_, rfl⟩⟩

theorem RotaBut.startCall (but : RotaBut c h) (away : Away c h) (found : h.call? c.id = some c) :
    (h.startCall c).Rota := by
  have enters {k : Nat} (own : c.request.manager? = some k) := but.enterManager away found own
  unfold Hub.startCall
  cases asked : c.request with
  | attach n ref =>
    have bypassed := (gentle_bypass h n .attached).toModest
    have done := (bypassed.trans (Rouses.modest (rouses_attachHandler (h.bypass n .attached) n ref))).idles
    simp only
    split
    · rename_i r g eq
      rw [eq] at done
      exact (but.idles done).finished (away.idles done) _
    · rename_i e g eq
      rw [eq] at done
      exact (but.idles done).finished (away.idles done) _
  | awaitSync n token => exact but.waitOrConclude found fun _ => away
  | subscribe m key ref token =>
    rcases but.beginSubscribe found (by rw [asked]; rfl) m key token with ⟨e, eq⟩ | ⟨w, g, eq, rota⟩
    · simp only [eq]
      exact but.finished away _
    · simp only [eq]
      exact rota
  | current m r => exact but.runCurrent found away m r
  | register k owner target token =>
    simp only
    split
    · exact but.finished away _
    · exact enters (by rw [asked]; rfl)
  | unregister k owner => exact enters (by rw [asked]; rfl)
  | currentOf k owner => exact enters (by rw [asked]; rfl)
  | isRegistered k owner => exact enters (by rw [asked]; rfl)
  | targetOf k owner => exact enters (by rw [asked]; rfl)
  | size k => exact enters (by rw [asked]; rfl)

/-- A turn of a call leaves no stranger in any line. -/
theorem Rota.callTurn (rota : h.Rota) (ids : (h.calls.map (·.id)).Nodup) (i : Nat) :
    (h.callTurn i).Rota := by
  cases found : h.call? i with
  | none =>
    unfold Hub.callTurn
    rwa [found]
  | some c =>
    obtain rfl := id_of_call? found
    have but := rota.but ids found
    unfold Hub.callTurn
    rw [found]
    simp only
    split
    · rename_i fresh
      refine but.startCall (rota.away ids found (fun _ queued => nomatch fresh.symm.trans queued) ?_) found
      unfold PendingCall.waitsOn?
      rw [fresh]
    · split
      · exact rota
      · rename_i k own
        split
        · exact rota
        · rename_i manager _
          split
          · exact but.runTurn found own manager
          · exact rota
    · rename_i w syncing
      split
      · exact rota
      · refine but.conclude (fun plain => rota.away ids found
          (fun _ queued => nomatch syncing.symm.trans queued) ?_) _
        unfold PendingCall.waitsOn?
        rw [syncing]
        simp [plain]

/-- A call that is dropped leaves its line. -/
theorem Rota.abort (rota : h.Rota) (ids : (h.calls.map (·.id)).Nodup) (i : Nat) :
    (h.abort i).2.Rota := by
  cases found : h.call? i with
  | none =>
    unfold Hub.abort
    rwa [found]
  | some c =>
    obtain rfl := id_of_call? found
    have lost : h.Idles (c.waitsOn?.elim h fun n => (h.bypass n .aborted).deal (.lost n)) := by
      cases c.waitsOn? with
      | none => exact ⟨fun _ => rfl, fun _ => id⟩
      | some n => exact (gentle_bypass h n .aborted).toModest.idles.trans (idles_deal _ _)
    have but := ((rota.but ids found).idles lost).dropCall
    unfold Hub.abort
    rw [found]
    simp only
    split
    · rename_i k own
      obtain ⟨left, away⟩ := but.leave own
      exact left.rota away
    · rename_i plain
      exact but.rota (but.away plain)

end

/-! ## Runs -/

/-- No event leaves a stranger in any line. -/
theorem Rota.step (rota : h.Rota) (ids : (h.calls.map (·.id)).Nodup) (e : Event) :
    (h.step e).Rota := by
  cases e with
  | command id o =>
    unfold Hub.step
    simp only
    split
    · rename_i possible
      rw [Bool.and_eq_true] at possible
      have free : h.call? id = none := by simpa using possible.2
      by_cases drop : ∃ i, o = .abort i
      · obtain ⟨i, rfl⟩ := drop
        exact rota.abort ids i
      · have ordered := perform_ordered possible.1 (fun i same => drop ⟨i, same⟩) free
        generalize (h.perform id o).2 = h' at ordered ⊢
        cases ordered with
        | gentle gentle _ lines =>
          refine rota.keep lines fun c mem _ => (gentle.calls fun same => ?_).mpr mem
          have absent := List.find?_eq_none.mp free c mem
          simp [Option.some.inj same] at absent
        | starts n parent gentle =>
          exact rota.idles (gentle.toModest.trans (modest_startStream _ n parent)).idles
    · exact rota
  | loop id => exact rota.idles (modest_loopStep h id).idles
  | loopEnd id => exact rota.idles (modest_loopEnd h id).idles
  | call id => exact rota.callTurn ids id
  | collect => exact rota.idles (gentle_collect h).toModest.idles
  | wait ms => exact ⟨rota.nodup, rota.pends⟩

/-- In every run, whoever has a turn or waits for it pends. -/
theorem rota_run (limit : Nat) (draws : Draws) (es : List Event) : ((start limit draws).run es).Rota := by
  induction es using List.reverseRecOn with
  | nil => exact ⟨fun k => List.nodup_nil, fun mem => nomatch mem⟩
  | append_singleton es e ih =>
    rw [run_snoc]
    exact ih.step (moment_run limit draws es).books.ids e

/-- Call `c` has the turn at manager `k`.  It is a pending call of that manager, and can go on at once or
waits, on behalf of an owner, for the first sync of the owner's stream. -/
structure HeldBy (h : Hub) (k : Nat) (c : PendingCall) : Prop where
  turn : h.HasTurn k c.id
  pending : h.call? c.id = some c
  request : c.request.manager? = some k
  goesOn : h.canProceed c = true ∨
    ∃ owner target token w, c.request = .register k owner target token ∧ c.phase = .syncing w

/-- No turn is lost: a pending call of the manager has it. -/
theorem HasTurn.heldBy {i : Nat} (turn : h.HasTurn k i) (rota : h.Rota) (indexed : h.Indexed) :
    ∃ c, c.id = i ∧ h.HeldBy k c := by
  obtain ⟨manager, known, here⟩ := turn
  have mem : i ∈ h.line k := by
    unfold line Manager.line
    rw [known, Option.elim_some, here]
    exact List.mem_cons_self
  obtain ⟨c, there, rfl, own, phase⟩ := rota.pends mem
  refine ⟨c, rfl, ⟨manager, known, here⟩, call?_of_mem indexed there, own, ?_⟩
  rcases phase with ⟨counted, queued⟩ | waits
  · left
    unfold canProceed
    simp [queued, own, known, here]
  · right
    unfold PendingCall.waitsOn? at waits
    cases syncing : c.phase with
    | syncing w =>
      cases asked : c.request with
      | register k' owner target token =>
        rw [asked] at own
        cases own
        exact ⟨owner, target, token, w, rfl, rfl⟩
      | _ => simp [syncing, asked, Request.isSubscriber, Request.manager?] at waits own
    | _ => simp [syncing] at waits

end Hub

end SharedWatch
