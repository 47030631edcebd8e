import SharedWatch.Proofs.StoreOutputs

/-!
# What is put out is taken in

One event after the other, what a stream is still to take in becomes less by what it takes in, and by
nothing else.

* `due_stepLoop`: the steps of its own loop.
* `StaysAt`, `due_of_others`: everything else.
* `Undisturbed.due_run`: what is put out in the course of a run is taken in in the course of the run, or
  still to be taken in at its end.
-/

namespace SharedWatch

namespace Output

/-- One arrival is taken in, and more may be put on the connection behind the others. -/
theorem intakes_sent (e : Change) {tail ys : List Output} (stays : tail <+: ys) (rest : List Output) :
    intakes .arrival (sent (.ok e) :: tail ++ (ys.drop tail.length ++ rest)) =
      .heard e :: intakes .arrival (ys ++ rest) := by
  obtain ⟨more, rfl⟩ := stays
  rw [List.drop_left, ← List.append_assoc, List.cons_append, List.cons_append]
  rfl

/-- A connection breaks off, and what it still yields is nothing. -/
theorem intakes_cut {x : Output} {ending : CycleEnd} {late : List Output}
    (cuts : meet .arrival x = (.read, some (.ended ending))) (arrivals : ∀ y ∈ late, y.isArrival = true)
    (rest : List Output) : intakes .arrival (x :: late ++ rest) = .ended ending :: intakes .read rest := by
  rw [List.cons_append, intakes, cuts, intakes_late_append arrivals]
  rfl

end Output

namespace Store

/-- What is on a connection once its reader has taken something. -/
theorem offers_read {s s' : Store} {id : Nat} {c : Connection} {a : Arrival}
    (found : s.connection? id = some c) (held : c.held = true) (read : s.read id = (.arrived a, s')) :
    ∃ rest, c.output = .sent a :: rest ∧ s'.Offers id rest := by
  unfold Store.read at read
  simp only [found, Prod.mk.injEq] at read
  obtain ⟨arrived, rfl⟩ := read
  unfold Connection.read at arrived
  cases pending : c.pending with
  | nil =>
    rw [pending] at arrived
    simp only at arrived
    split at arrived <;> cases arrived
  | cons b more =>
    rw [pending] at arrived
    cases arrived
    have taken : c.read.2 = { c with pending := more } := by
      unfold Connection.read
      rw [pending]
    refine ⟨({ c with pending := more } : Connection).output, ?_, ?_⟩
    · unfold Connection.output
      rw [pending]
      rfl
    · have here := (connection?_mem found).2
      have updated := connection?_mapConnections
        (f := fun c' => if c'.id = id then c.read.2 else c') (fun c' => ?_) found ?_
      · rw [if_pos here] at updated
        exact ⟨c.read.2, updated, taken ▸ held, taken ▸ List.prefix_rfl⟩
      · split
        · rename_i same
          rw [id_read, here, same]
        · rfl
      · rw [if_pos here, taken]
        exact held

/-- When its reader finds the end of a connection, nothing else is on it. -/
theorem output_of_ended {s s' : Store} {id : Nat} {c : Connection} (found : s.connection? id = some c)
    (read : s.read id = (.ended, s')) : c.output = [.closed] := by
  unfold Store.read at read
  simp only [found, Prod.mk.injEq] at read
  have ended := read.1
  unfold Connection.read at ended
  cases pending : c.pending with
  | nil =>
    rw [pending] at ended
    simp only at ended
    split at ended
    · cases ended
    · rename_i detached
      unfold Connection.output
      rw [pending, if_neg detached]
      rfl
  | cons b more =>
    rw [pending] at ended
    cases ended

end Store

namespace Hub

variable {h h' g : Hub} {n id c : Nat} {l : Loop} {st st' : Stream} {e : Event} {xs rest : List Output}
  {hands : Nat → Prop} {P : Stage → Prop}

/-! ## The steps of its loop -/

/-- A loop that comes to have nothing, or ends, is to take in what is put out from then on. -/
theorem Proceeds.due (proceeds : Proceeds hands l.id P h h')
    (sole : ∀ k ∈ h.loops, k.stream = l.stream → k.id = l.id) (idle : ∀ s, P s → s.isIdle = true)
    (rest : List Output) :
    h'.stock l.stream = [] ∧ h'.due l.stream rest = Output.intakes .read rest := by
  refine due_of_idle (fun k mem own => ?_) rest
  rcases proceeds.loops k mem with ⟨old, other⟩ | ⟨_, _, _, _, _, stage⟩
  · exact absurd (sole k old own) other
  · exact idle _ stage

theorem isIdle_resting (s : Stage) : (∃ t, s = .resting t) → s.isIdle = true := by
  rintro ⟨t, rfl⟩
  rfl

/-- A loop whose cycle ends with what is put out first has nothing any more. -/
theorem due_cut {feed : Feed} {x : Output} {late : List Output} {ending : CycleEnd}
    (sole : ∀ k ∈ h.loops, k.stream = l.stream → k.id = l.id) (same : g.loops = h.loops)
    (here : feed.output h.backend = x :: late)
    (cuts : Output.meet .arrival x = (.read, some (.ended ending))) (rest : List Output) :
    Output.intakes .arrival (feed.output h.backend ++ (((g.endCycle l ending).stock l.stream).drop
      ((feed.output h.backend).length - 1) ++ rest)) =
        .ended ending :: (g.endCycle l ending).due l.stream rest := by
  have arrivals := feed.isArrival_output h.backend
  rw [here] at arrivals
  have ended := proceeds_endCycle g l ending
  obtain ⟨none, due⟩ := ended.due (same ▸ sole) isIdle_resting rest
  rw [due, none, here, List.drop_nil, List.nil_append,
    Output.intakes_cut cuts fun y late => arrivals y (List.mem_cons_of_mem x late)]

/-- A loop that takes a change from its feed goes on to read. -/
theorem due_taken {feed : Feed} {k : Loop} {e : Change} {tail : List Output} (tended' : h'.Tended)
    (kept : k ∈ h'.loops) (own : k.stream = l.stream) (reads : k.stage.awaits = .arrival)
    (here : feed.output h.backend = .sent (.ok e) :: tail)
    (stays : tail <+: k.stage.output h'.backend) (rest : List Output) :
    Output.intakes .arrival (feed.output h.backend ++ ((h'.stock l.stream).drop
      ((feed.output h.backend).length - 1) ++ rest)) = .heard e :: h'.due l.stream rest := by
  rw [← own, stock_eq tended' kept, due_eq tended' kept, reads, here]
  exact Output.intakes_sent e stays rest

/-- What a loop reads from a connection is the first of what the connection still yields. -/
theorem due_consume_live {connection : Nat} {silent : Option Nat} (tended : h.Tended)
    (tended' : h'.Tended) (moored : h.Moored) (mem : l ∈ h.loops)
    (found : h.streams[l.stream]? = some st)
    (stage : l.stage = .consuming (.live connection) silent)
    (read : h.consume l (.live connection) = some h') (rest : List Output) :
    Output.intakes .arrival ((Feed.live connection).output h.backend ++ ((h'.stock l.stream).drop
      (((Feed.live connection).output h.backend).length -
        (h.arrival? (.live connection)).toList.length) ++ rest)) =
      (h.arrival? (.live connection)).toList ++ h'.due l.stream rest := by
  have sole (k : Loop) (old : k ∈ h.loops) (own : k.stream = l.stream) : k.id = l.id :=
    tended.sole k old l mem own
  obtain ⟨put, _⟩ := moored.hasPut tended mem stage
  obtain ⟨conn, here, held, _⟩ := put.offers
  have output : (Feed.live connection).output h.backend = conn.output := by
    show (h.backend.store.connection? connection).elim _ _ = _
    rw [here]
    rfl
  unfold consume at read
  unfold arrival?
  cases reads : h.backend.store.read connection with
  | mk reading store =>
    simp only [reads] at read ⊢
    split at read
    · rename_i e
      cases read
      obtain ⟨tail, first, offers⟩ := Store.offers_read here held reads
      have delivers := receive_delivers (h := h.updateStore fun _ => store) found e
      have opened := (Store.grows_of_read reads).opened
      have left : (h.updateStore fun _ => store).HasPut connection tail :=
        ⟨Nat.lt_of_lt_of_le put.given opened, put.unnamed, offers⟩
      obtain ⟨conn', here', _, stays⟩ := (left.delivers delivers).offers
      refine due_taken tended' (delivers.keeps mem) rfl (by rw [stage]; rfl) (output.trans first) ?_ rest
      rw [stage]
      show tail <+: (Store.connection? _ connection).elim _ _
      rw [here']
      exact stays
    · cases read
      obtain ⟨tail, first, _⟩ := Store.offers_read here held reads
      exact due_cut (g := h.updateStore fun _ => store) sole rfl (output.trans first) rfl rest
    · cases read
      exact due_cut (g := h.updateStore fun _ => store) sole rfl
        (output.trans (Store.output_of_ended here reads)) rfl rest
    · cases read

/-- What a loop reads from its feed is the first of what is there. -/
theorem due_consume {feed : Feed} {silent : Option Nat} (tended : h.Tended) (tended' : h'.Tended)
    (moored : h.Moored) (mem : l ∈ h.loops) (found : h.streams[l.stream]? = some st)
    (stage : l.stage = .consuming feed silent) (read : h.consume l feed = some h')
    (rest : List Output) :
    Output.intakes .arrival (feed.output h.backend ++ ((h'.stock l.stream).drop
      ((feed.output h.backend).length - (h.arrival? feed).toList.length) ++ rest)) =
      (h.arrival? feed).toList ++ h'.due l.stream rest := by
  have sole (k : Loop) (old : k ∈ h.loops) (own : k.stream = l.stream) : k.id = l.id :=
    tended.sole k old l mem own
  cases feed with
  | live connection => exact due_consume_live tended tended' moored mem found stage read rest
  | scripted items ends =>
    unfold consume at read
    unfold arrival?
    cases items with
    | nil =>
      simp only at read
      split at read
      · rename_i closes
        cases read
        subst closes
        exact due_cut (g := h) sole rfl rfl rfl rest
      · cases read
    | cons item more =>
      cases item with
      | arrives a =>
        cases a with
        | ok e =>
          cases read
          have moved : { l with stage := .consuming (.scripted more ends) none } ∈ (h.updateLoop l.id
              fun l => { l with stage := .consuming (.scripted more ends) none }).loops :=
            List.mem_map.mpr ⟨l, mem, if_pos rfl⟩
          have delivers := receive_delivers (h := h.updateLoop l.id
            fun l => { l with stage := .consuming (.scripted more ends) none }) found e
          exact due_taken tended' (delivers.keeps moved) rfl rfl rfl List.prefix_rfl rest
        | error f =>
          cases read
          exact due_cut (g := h) sole rfl rfl rfl rest
      | pauses ms =>
        cases read
        have kept : { l with
          stage := .consuming (.scripted more ends) (some (h.now + ms)), ticket := h.tickets } ∈
            (h.enter l.id (.consuming (.scripted more ends) (some (h.now + ms)))).loops :=
          List.mem_map.mpr ⟨l, mem, if_pos rfl⟩
        have stock := stock_eq tended' kept
        have due := due_eq tended' kept rest
        dsimp only at stock due
        rw [stock, due]
        have same : (Stage.consuming (.scripted more ends) (some (h.now + ms))).output
            (h.enter l.id (.consuming (.scripted more ends) (some (h.now + ms)))).backend =
          (Feed.scripted (.pauses ms :: more) ends).output h.backend := rfl
        rw [same, Option.toList_none, List.length_nil, Nat.sub_zero, List.drop_length,
          List.nil_append]
        rfl

/-- A loop that has delivered a full read is to take in a watch. -/
theorem due_reconcile {items : List Object} {version : String} (mem : l ∈ h.loops)
    (found : h.streams[l.stream]? = some st) (tended' : (h.reconcile l st items version).Tended)
    (rest : List Output) : (h.reconcile l st items version).stock l.stream = [] ∧
      (h.reconcile l st items version).due l.stream rest = Output.intakes .watch rest := by
  obtain ⟨g, f, delivers, _, _, same, loops⟩ := reconcile_delivers found items version
  have kept : f l ∈ (h.reconcile l st items version).loops :=
    loops ▸ List.mem_map.mpr ⟨l, delivers.keeps mem, if_pos rfl⟩
  have asked := @proceeds_opening (fun _ => False) h l st items version
  rcases asked.loops (f l) kept with ⟨_, other⟩ | ⟨_, _, _, _, _, opens⟩
  · exact absurd (same l).1 other
  have stock := stock_eq tended' kept
  have due := due_eq tended' kept rest
  rw [(same l).2.1, opens] at stock due
  exact ⟨stock, due⟩

/-- A loop whose full read has been answered is to deliver it, or to take in what is put out from then
on. -/
theorem due_listAnswered {answer : Scripted (List Object × String)}
    (sole : ∀ k ∈ h.loops, k.stream = l.stream → k.id = l.id) (mem : l ∈ h.loops)
    (tended' : (h.listAnswered l st answer).Tended) (rest : List Output) :
    (h.listAnswered l st answer).due l.stream rest =
      Output.intakes .read (match (h.backend.finishList st.key.selector answer).1 with
        | .error _ => rest
        | .ok read => .listed (.ok read) :: rest) := by
  cases result : (h.backend.finishList st.key.selector answer).1 with
  | error f =>
    refine ((proceeds_listAnswered h l st answer).due sole (fun s comes => ?_) rest).2
    rcases comes with rests | ⟨_, _, _, read⟩
    · exact isIdle_resting s rests
    · cases result.symm.trans read
  | ok read =>
    unfold listAnswered at tended' ⊢
    simp only [result] at tended' ⊢
    exact due_eq tended' (List.mem_map.mpr ⟨l, mem, if_pos rfl⟩) rest

/-- A loop whose watch has been answered is to take in what its feed has, or what is put out from then
on. -/
theorem due_watchAnswered {version : String} {answer : Scripted (List FeedItem × Bool)}
    (sole : ∀ k ∈ h.loops, k.stream = l.stream → k.id = l.id) (mem : l ∈ h.loops)
    (tended' : (h.watchAnswered l st version answer).Tended) (rest : List Output) :
    (h.watchAnswered l st version answer).due l.stream rest =
      match h.backend.finishWatch st.key.selector version answer with
        | (.error _, _) => Output.intakes .read rest
        | (.ok feed, backend) => Output.intakes .arrival (feed.output backend ++ rest) := by
  cases result : h.backend.finishWatch st.key.selector version answer with
  | mk r backend =>
    cases r with
    | error f =>
      rcases watchAnswered_cases h l st version answer with ends | ⟨feed, opened, _⟩
      · exact (ends.due sole isIdle_resting rest).2
      · rw [result] at opened
        cases opened
    | ok feed =>
      unfold watchAnswered at tended' ⊢
      simp only [result] at tended' ⊢
      exact due_eq tended' (List.mem_map.mpr ⟨l, mem, if_pos rfl⟩) rest

/-- A step of its loop: what is put out at it and what has been there before is taken in, or is there
afterwards. -/
theorem due_stepLoop (regular : h.Regular) (tended' : h'.Tended) (moored : h.Moored) (mem : l ∈ h.loops)
    (found : h.streams[l.stream]? = some st) (stepped : h.stepLoop l st = some h')
    (rest : List Output) :
    h.due l.stream ((h.outcome? l st).getD ((h'.stock l.stream).drop
      ((h.stock l.stream).length - (h.offer? l st).toList.length)) ++ rest) =
      (h.offer? l st).toList ++ h'.due l.stream rest := by
  have tended := regular.tended
  have sole (k : Loop) (old : k ∈ h.loops) (own : k.stream = l.stream) : k.id = l.id :=
    tended.sole k old l mem own
  rw [due_eq tended mem, stock_eq tended mem]
  unfold stepLoop at stepped
  unfold outcome? offer?
  cases stage : l.stage with
  | fresh =>
    simp only [stage] at stepped
    cases stepped
    have begun := (proceeds_heed h l).trans (@proceeds_beginCycle (fun _ => False) _ l st)
    obtain ⟨none, due⟩ := begun.due sole (by rintro _ ⟨_, _, rfl, _⟩; rfl) rest
    simp only [due, none]
    rfl
  | resting t =>
    simp only [stage] at stepped
    split at stepped
    · cases stepped
      have begun := @proceeds_beginCycle (fun _ => False) h l st
      obtain ⟨none, due⟩ := begun.due sole (by rintro _ ⟨_, _, rfl, _⟩; rfl) rest
      simp only [due, none]
      rfl
    · cases stepped
  | listed items version =>
    simp only [stage] at stepped
    cases stepped
    obtain ⟨none, due⟩ := due_reconcile mem found tended' rest
    simp only [due, none]
    rfl
  | listing call began =>
    simp only [stage] at stepped ⊢
    cases progress : call.progress began h.now l.backoff.policy.timeoutMs.toNat with
    | waiting => simp [progress] at stepped
    | timedOut =>
      simp only [progress] at stepped
      cases stepped
      obtain ⟨_, due⟩ := (proceeds_callTimedOut h l).due sole isIdle_resting rest
      rw [due]
      rfl
    | answered answer =>
      simp only [progress, Option.some.injEq] at stepped ⊢
      subst stepped
      have due := due_listAnswered sole mem tended' rest
      cases result : (h.backend.finishList st.key.selector answer).1 with
      | error f =>
        simp only [result] at due
        rw [due]
        rfl
      | ok read =>
        simp only [result] at due
        rw [due]
        rfl
  | opening version call began =>
    simp only [stage] at stepped ⊢
    cases progress : call.progress began h.now l.backoff.policy.timeoutMs.toNat with
    | waiting => simp [progress] at stepped
    | timedOut =>
      simp only [progress] at stepped
      cases stepped
      obtain ⟨_, due⟩ := (proceeds_callTimedOut h l).due sole isIdle_resting rest
      rw [due]
      rfl
    | answered answer =>
      simp only [progress, Option.some.injEq] at stepped ⊢
      subst stepped
      have due := due_watchAnswered sole mem tended' rest
      cases result : h.backend.finishWatch st.key.selector version answer with
      | mk r backend =>
        cases r with
        | error f =>
          simp only [result] at due ⊢
          rw [due]
          rfl
        | ok feed =>
          simp only [result] at due ⊢
          rw [due]
          rfl
  | consuming feed silent =>
    simp only [stage] at stepped
    split at stepped
    · rename_i due
      simp only [due, if_true]
      exact due_consume tended tended' moored mem found stage stepped rest
    · cases stepped

/-! ## Everything else -/

/-- The stream of number `n` has no other loop than one at this stage. -/
structure StaysAt (n : Nat) (stage : Stage) (h : Hub) : Prop where
  begun : stage = .fresh ∨ h.Begun n
  loops : ∀ l ∈ h.loops, l.stream = n → l.stage = stage

namespace StaysAt

variable {stage : Stage} {at? of? : Option Nat}

theorem spares (stays : StaysAt n stage h) (spares : h.Spares at? of? h') (minds : h.Minds at? of?)
    (other : at? ≠ some n) : StaysAt n stage h' where
  begun := stays.begun.imp_right spares.begun
  loops l mem own := stays.loops l ((spares.loops_of minds other own).mp mem) own

/-- Nothing but a step of the loop takes it elsewhere. -/
theorem concerns (n : Nat) (stage : Stage) : Concerns n (StaysAt n stage) where
  spares stays spared := stays.spares spared (minds_none _ _) nofun
  others := spares
  ends stays found found' bides fewer :=
    { begun := stays.begun.imp_right fun ⟨_, here, begun⟩ => by
        cases found.symm.trans here
        exact ⟨_, found', bides.started begun⟩
      loops := fun l mem => stays.loops l (fewer mem) }
  starts {h i st} stays found created parent := by
    refine ⟨stays.begun.imp_right fun begun => ?_, fun l mem own => ?_⟩
    · obtain ⟨_, here, begun⟩ := begun
      obtain ⟨st', here', endures⟩ := endures_startStream i parent here
      exact ⟨st', here', endures.started begun⟩
    rw [startStream_eq found created] at mem
    rcases List.mem_append.mp mem with old | new
    · exact stays.loops l old own
    · obtain rfl := List.mem_singleton.mp new
      rcases stays.begun with fresh | ⟨_, here, begun⟩
      · exact fresh.symm
      · obtain rfl : i = n := own
        cases found.symm.trans here
        exact absurd created begun
  opens {h m mux} stays tended known key := by
    rw [openStream_eq]
    refine ⟨stays.begun.imp_right fun begun => ?_, fun l mem own => ?_⟩
    · obtain ⟨st, here, begun⟩ := begun
      have bound := (List.getElem?_eq_some_iff.mp here).1
      exact ⟨st, (List.getElem?_append_left bound).trans here, begun⟩
    · rcases List.mem_append.mp mem with old | new
      · exact stays.loops l old own
      · obtain rfl := List.mem_singleton.mp new
        rcases stays.begun with fresh | ⟨_, here, _⟩
        · exact fresh.symm
        · obtain rfl : h.streams.length = n := own
          exact absurd (List.getElem?_eq_some_iff.mp here).1 (Nat.lt_irrefl _)

end StaysAt

/-- What is there for a loop stays there while others do something. -/
theorem output_stays (tended : h.Tended) (moored : h.Moored) (mem : l ∈ h.loops)
    (others : ∀ id k st, (e = .loop id ∨ e = .loopEnd id) → h.loop? id = some (k, st) → k.id ≠ l.id) :
    l.stage.output h.backend <+: l.stage.output (h.step e).backend := by
  cases stage : l.stage with
  | consuming feed silent =>
    cases feed with
    | live connection =>
      obtain ⟨put, apart⟩ := moored.hasPut tended mem stage
      rw [stage] at put
      obtain ⟨conn, found, _, stays⟩ := (put.step fun id k st does here =>
        apart k (mem_of_loop? here) (others id k st does here)).offers
      show _ <+: (Store.connection? _ connection).elim _ _
      rw [found]
      exact stays
    | scripted items ends => exact List.prefix_rfl
  | _ => exact List.prefix_rfl

/-- Whatever else happens while the stream runs, more may be put on the connection of its loop behind what
is there, and nothing is taken. -/
theorem due_of_others (regular : h.Regular) (moored : h.Moored) (course : h.Course e (h.step e))
    (staffed' : (h.step e).Staffed) (found' : (h.step e).streams[n]? = some st')
    (running : st'.isStopped = false) (alive : st'.abandoned = none)
    (others : ∀ id l st, e = .loop id → h.loop? id = some (l, st) → l.stream ≠ n) (rest : List Output) :
    h.due n ((((h.step e).stock n).drop (h.stock n).length) ++ rest) = (h.step e).due n rest := by
  have tended := regular.tended
  have stirs := step_stirs e regular
  have tended' := (regular.stirs stirs).tended
  cases loop : h.loops.find? (·.stream = n) with
  | none =>
    -- Without a loop it has nothing, and a loop that is started has nothing either.
    have nobody (l : Loop) (mem : l ∈ h.loops) : l.stream ≠ n := by
      simpa using List.find?_eq_none.mp loop l mem
    have before : StaysAt n .fresh h := ⟨.inl rfl, fun l mem own => absurd own (nobody l mem)⟩
    have after := (StaysAt.concerns n .fresh).course before regular course others
    obtain ⟨none, due⟩ := due_of_idle (fun l mem own => absurd own (nobody l mem)) (n := n) rest
    obtain ⟨none', due'⟩ := due_of_idle (h := h.step e) (n := n)
      (fun l mem own => by rw [after.loops l mem own]; rfl) rest
    rw [none', List.drop_nil, List.nil_append, due, due']
  | some l =>
    have mem := List.mem_of_find?_eq_some loop
    obtain rfl : l.stream = n := by simpa using List.find?_some loop
    have before : StaysAt l.stream l.stage h := by
      refine ⟨.inr (tended.begun l mem), fun k old own => ?_⟩
      rw [tended.same old mem (tended.sole k old l mem own)]
    have after := (StaysAt.concerns l.stream l.stage).course before regular course others
    -- The stream runs, so it still has its loop.
    obtain ⟨_, here, begun⟩ := tended.begun l mem
    obtain ⟨_, here', begun'⟩ := Stirs.started stirs here begun
    cases found'.symm.trans here'
    obtain ⟨k, kept, own⟩ :=
      (staffed'.streams found').staffed (Stream.isActive_iff.mpr ⟨begun', running⟩) alive
    have stage := after.loops k kept own
    have stays : l.stage.output h.backend <+: l.stage.output (h.step e).backend := by
      by_cases ends : ∃ st, e = .loopEnd l.id ∧ h.loop? l.id = some (l, st)
      · obtain ⟨st, rfl, found⟩ := ends
        have kept : k ∈ (h.loopEnd l.id).loops := kept
        show _ <+: l.stage.output (h.loopEnd l.id).backend
        rcases loopEnd_ended found with same | ⟨loops, _⟩
        · simp only [same, List.prefix_rfl]
        · rw [loops, List.mem_filter] at kept
          have same := tended.sole k kept.1 l mem own
          simp [same] at kept
      · refine output_stays tended moored mem fun id k st does found same => ?_
        obtain rfl := tended.same (mem_of_loop? found) mem same
        obtain rfl := id_of_loop? found
        rcases does with steps | last
        · exact others k.id k st steps found rfl
        · exact ends ⟨st, last, found⟩
    obtain ⟨more, eq⟩ := stays
    rw [due_eq tended mem, stock_eq tended mem, ← own, stock_eq tended' kept, due_eq tended' kept, stage,
      ← eq, List.drop_left, List.append_assoc]

/-! ## Runs -/

/-- While a loop has to wait, nothing comes of its calls. -/
theorem outcome?_of_waits (waits : h.stepLoop l st = none) : h.outcome? l st = none := by
  unfold stepLoop at waits
  unfold outcome?
  cases stage : l.stage with
  | listing call began =>
    simp only [stage] at waits ⊢
    cases progress : call.progress began h.now l.backoff.policy.timeoutMs.toNat with
    | waiting => rfl
    | timedOut => simp [progress] at waits
    | answered answer => simp [progress] at waits
  | opening version call began =>
    simp only [stage] at waits ⊢
    cases progress : call.progress began h.now l.backoff.policy.timeoutMs.toNat with
    | waiting => rfl
    | timedOut => simp [progress] at waits
    | answered answer => simp [progress] at waits
  | _ => rfl

theorem comesTo?_eq (found : h.loop? id = some (l, st)) :
    h.comesTo? l.stream (.loop id) = h.outcome? l st := by
  simp only [comesTo?, found, Option.bind_some, if_true]

/-- Only at a step of its loop a call of a stream comes to anything. -/
theorem comesTo?_of_others
    (others : ∀ id l st, e = .loop id → h.loop? id = some (l, st) → l.stream ≠ n) :
    h.comesTo? n e = none := by
  cases e with
  | loop id =>
    cases found : h.loop? id with
    | none => simp only [comesTo?, found, Option.bind_none]
    | some x => simp only [comesTo?, found, Option.bind_some, if_neg (others id _ _ rfl found)]
  | _ => rfl

/-- One event: what is put out at it and what has been there before is taken in, or is there
afterwards. -/
theorem due_step (regular : h.Regular) (moored : h.Moored) (course : h.Course e (h.step e))
    (staffed' : (h.step e).Staffed) (found' : (h.step e).streams[n]? = some st')
    (running : st'.isStopped = false) (alive : st'.abandoned = none) (rest : List Output) :
    h.due n (h.output n e ++ rest) = (h.intake? n e).toList ++ (h.step e).due n rest := by
  unfold output
  by_cases own : ∃ id l st, e = .loop id ∧ h.loop? id = some (l, st) ∧ l.stream = n
  · obtain ⟨id, l, st, rfl, loop, rfl⟩ := own
    have tended' := (regular.stirs (step_stirs (.loop id) regular)).tended
    have eq : h.step (.loop id) = (h.stepLoop l st).getD h := loopStep_eq loop
    rw [comesTo?_eq loop, intake?_eq loop]
    cases stepped : h.stepLoop l st with
    | none =>
      rw [eq, stepped, outcome?_of_waits stepped, offer?_of_waits stepped, Option.getD_none,
        Option.getD_none, Option.toList_none, List.length_nil, Nat.sub_zero, List.drop_length]
      rfl
    | some h' =>
      rw [stepped, Option.getD_some] at eq
      rw [eq] at tended' ⊢
      exact due_stepLoop regular tended' moored (mem_of_loop? loop) (stream_of_loop? loop) stepped rest
  · have others (id : Nat) (l : Loop) (st : Stream) (steps : e = .loop id)
        (loop : h.loop? id = some (l, st)) : l.stream ≠ n :=
      fun here => own ⟨id, l, st, steps, loop, here⟩
    rw [comesTo?_of_others others, intake?_of_others others]
    exact due_of_others regular moored course staffed' found' running alive others rest

/-- What is put out in the course of a run for a stream that is left alone is taken in in the course of the
run, or still to be taken in at its end. -/
theorem Undisturbed.due_run {limit : Nat} {draws : Draws} {es₀ es : List Event}
    (found : ((start limit draws).run es₀).streams[n]? = some st) (running : st.isStopped = false)
    (unlimited : st.policy.maxRetries = 0) (alone : ((start limit draws).run es₀).Undisturbed n es)
    (rest : List Output) :
    ((start limit draws).run es₀).due n (((start limit draws).run es₀).outputs n es ++ rest) =
      ((start limit draws).run es₀).intakes n es ++
        (((start limit draws).run es₀).run es).due n rest := by
  induction es generalizing es₀ st with
  | nil => rfl
  | cons e es ih =>
    have course := run_course limit draws es₀ e
    have regular := regular_run limit draws es₀
    have moored := moored_run limit draws es₀
    have staffed' := staffed_run limit draws (es₀ ++ [e])
    have next : (start limit draws).run (es₀ ++ [e]) = ((start limit draws).run es₀).step e :=
      run_snoc _ _ _
    obtain ⟨still, later⟩ := alone
    rw [next] at course staffed'
    obtain ⟨st', found', alike⟩ := alike_step regular course found still
    rw [← next] at later found'
    have running' : st'.isStopped = false :=
      alike.isStopped.trans ((congrArg Face.isStopped (st.face_after _)).trans running)
    have unlimited' : st'.policy.maxRetries = 0 := by
      rw [alike.policy, st.policy_after]
      exact unlimited
    have alive := alive_run limit draws (es₀ ++ [e]) found' running' unlimited'
    have whole := ih found' running' unlimited' later
    rw [next] at whole found'
    unfold outputs intakes
    rw [List.append_assoc, List.append_assoc,
      due_step regular moored course staffed' found' running' alive, whole]
    rfl

/-- If nothing is left at the end, all that has been put out has been taken in. -/
theorem Undisturbed.intakes_eq {limit : Nat} {draws : Draws} {es₀ es : List Event}
    (found : ((start limit draws).run es₀).streams[n]? = some st) (running : st.isStopped = false)
    (unlimited : st.policy.maxRetries = 0) (alone : ((start limit draws).run es₀).Undisturbed n es)
    (drained : (((start limit draws).run es₀).run es).stock n = []) :
    ((start limit draws).run es₀).intakes n es =
      Output.intakes (((start limit draws).run es₀).awaits n)
        (((start limit draws).run es₀).stock n ++ ((start limit draws).run es₀).outputs n es) := by
  have whole := alone.due_run found running unlimited []
  unfold due at whole
  rw [drained, List.append_nil, List.append_nil, Output.intakes, List.append_nil] at whole
  exact whole.symm

end Hub

end SharedWatch
