import SharedWatch.Proofs.ShutMultiplexers

/-!
# After a shutdown

Once a multiplexer has been shut down, nobody gets a registration from it any more, and it holds
nothing but what is still being waited for.

A multiplexer may be shut down by a command, or by a handler in the middle of a poll.  The stages of that
poll all go on: a stream loop takes further steps, and a subscriber whose own handler shuts the
multiplexer down in its replay is told of its registration.  The theorems are about what comes after
the poll.

* `Hub.Answers`: what is true of the answers that calls have been given in between.
* `Hub.Spent`: no reference to the streams of a multiplexer is out, but those of calls that wait.
* `Course.shut`: a multiplexer that is shut down in an event is cleared when the event is over.
* `Course.stays`: it is never taken into use again.
* `quenched_runPolls`: a multiplexer that has been shut down stays as it is.
* `nothing_after_shutdown`: nobody gets a registration, and when all who have subscribed are answered,
  there are no entries and no running streams.
-/

namespace SharedWatch

namespace Hub

variable {h h' g : Hub} {c : PendingCall} {k m n root : Nat} {key : ObjectKey} {r : Registration}
  {settings : Settings} {st : Stream} {mux : Multiplexer}

/-! ## Answers -/

/-- All answers that have been given in between are to calls that were pending, and of call and answer
`P` holds. -/
def Answers (h h' : Hub) (P : PendingCall → Reply → Prop) : Prop :=
  ∃ as, h'.returned = h.returned ++ as ∧ ∀ a ∈ as, ∃ c, h.call? a.1 = some c ∧ P c a.2

variable {P : PendingCall → Reply → Prop}

theorem answers_none (same : h'.returned = h.returned) : h.Answers h' P :=
  ⟨[], by rw [same, List.append_nil], nofun⟩

theorem answers_one {a : Reply} (found : h.call? c.id = some c) (holds : P c a)
    (same : h'.returned = h.returned ++ [(c.id, a)]) : h.Answers h' P :=
  ⟨[(c.id, a)], same, fun x mem => by
    obtain rfl := List.mem_singleton.mp mem
    exact ⟨c, found, holds⟩⟩

theorem modest_task (h : Hub) (id k : Nat) (ends : Bool) :
    h.Modest none (h.runPoll (.task id k ends)) := by
  have steps (k : Nat) (h : Hub) : h.Modest none (h.run (List.replicate k (.loop id))) := by
    induction k generalizing h with
    | zero => exact .refl none h
    | succ k ih => exact (modest_loopStep h id).trans (ih _)
  rw [runPoll_task]
  split
  · exact (steps k h).trans (modest_loopEnd _ id)
  · exact steps k h

/-- Nobody is answered in an event but the call that it polls.  Whoever wants to subscribe to a multiplexer
that has been shut down fails, if answered. -/
theorem Course.answers {e : Event} (course : h.Course e h') :
    h.Answers h' fun c reply => e = .call c.id ∧
      (h.Quenched m root settings → h.Regular → ∀ key, h.target? c.request = some (m, key) →
        ∃ e, reply = .failed e) := by
  cases course with
  | gentle gentle _ => exact answers_none gentle.returned
  | starts n parent gentle =>
    exact answers_none ((modest_startStream _ n parent).returned.trans gentle.returned)
  | steps id => exact answers_none (modest_loopStep h id).returned
  | ends id => exact answers_none (modest_loopEnd h id).returned
  | waits ms => exact answers_none rfl
  | drops _ _ before after _ => exact answers_none (after.returned.trans before.returned)
  | @turns c h₁ h₂ _ found asked takes turned =>
    have later (quenched : h.Quenched m root settings) (regular : h.Regular) :=
      Quenched.lasting.takes quenched regular asked takes
    have returned : h₂.returned = h.returned :=
      takes.modest.returned.trans asked.gentle.returned
    cases turned with
    | waits gentle _ _ => exact answers_none (gentle.returned.trans returned)
    | @answers g reply gentle _ fails =>
      refine answers_one (a := reply) found ⟨rfl, fun _ _ key target => fails ?_⟩ ?_
      · cases request : c.request <;>
          first | rfl | (rw [request] at target; cases target)
      · show g.returned ++ _ = _
        rw [gentle.returned, returned]
    | @attaches g n ref r st request rouses _ _ _ _ =>
      refine answers_one (a := .registration r) found ⟨rfl, fun _ _ key target => ?_⟩ ?_
      · rw [request] at target
        cases target
      · have enrolled : (g.enroll c.bind r).returned = g.returned := by cases c.bind <;> rfl
        show (g.enroll c.bind r).returned ++ _ = _
        rw [enrolled, (Rouses.modest rouses).returned, returned]
    | @subscribes g g' m' _ _ _ r request rouses more _ issues _ issuer =>
      refine answers_one (a := .registration r) found
        ⟨rfl, fun quenched regular key target => ?_⟩ ?_
      · rw [request] at target
        cases target
        exact absurd issuer ((later quenched regular).not_issues issues)
      · have enrolled : (g'.enroll c.bind r).returned = g'.returned := by cases c.bind <;> rfl
        have granted : g'.returned = g.returned := more.returned
        show (g'.enroll c.bind r).returned ++ _ = _
        rw [enrolled, granted, (Rouses.modest rouses).returned, returned]
    | @registers g g' k m' owner _ _ r request aims _ _ rouses more _ issues _ issuer =>
      refine answers_one (a := .ok) found ⟨rfl, fun quenched regular key target => ?_⟩ ?_
      · have managed := asked.gentle.managed.trans takes.modest.managed
        cases aims.symm.trans (target?_mono managed target)
        exact absurd issuer ((later quenched regular).not_issues issues)
      · have granted : g'.returned = g.returned := more.returned
        show g'.returned ++ _ = _
        rw [granted, (Rouses.modest rouses).returned, returned]
    | @unregisters g g' k m' owner r request _ _ _ left more _ =>
      refine answers_one (a := .ok) found ⟨rfl, fun _ _ key target => ?_⟩ ?_
      · rw [request] at target
        cases target
      · obtain ⟨g₁, same, after⟩ := gentle_of_unsubscribe left
        have given : g₁.returned = h₂.returned := by rcases same with rfl | ⟨late, rfl⟩ <;> rfl
        have erased : g'.returned = g.returned := more.returned
        show g'.returned ++ _ = _
        rw [erased, after.returned, given, returned]

/-! ## References -/

/-- No reference to a stream of multiplexer `m` is out, but those of calls that wait. -/
def Spent (m : Nat) (h : Hub) : Prop := ∀ ⦃n : Nat⦄, h.Belongs m n → h.weight n ≤ 0

namespace Spent

theorem modest {who : Option Nat} (spent : h.Spent m) (modest : h.Modest who h') : h'.Spent m :=
  fun n belongs => Int.le_trans (modest.weight_le n) (spent (belongs.before modest.identities))

/-- References may go back, and what becomes of those to other streams does not matter. -/
theorem deal (spent : h.Spent m) {d : Dealing}
    (harmless : d.weight ≤ 0 ∨ ¬ h.Belongs m d.stream) : (h.deal d).Spent m := fun n belongs => by
  have before : h.weight n ≤ 0 := spent belongs
  rw [weight_deal]
  split
  · rename_i own
    have less := harmless.resolve_right fun other => other (own ▸ belongs)
    omega
  · omega

theorem turned (spent : h.Spent m) (quenched : h.Quenched m root settings)
    (turned : Turned h c h') : h'.Spent m := by
  have granted {g : Hub} {r : Registration} (modest : h.Modest (some c.id) g)
      (issues : h.Issues r) : (g.deal (.granted r)).Spent m := by
    obtain ⟨st, found, _, issuer, _⟩ := id issues
    have other : ¬ h.Belongs m r.stream :=
      not_belongs found fun own => quenched.not_issues issues (issuer.symm.trans own)
    exact (spent.modest modest).deal
      (.inr fun belongs => other (belongs.before modest.identities))
  cases turned with
  | waits gentle _ _ => exact spent.modest gentle.toModest
  | answers gentle _ _ =>
    have left := spent.modest gentle.toModest
    exact left
  | attaches _ rouses _ _ _ _ =>
    have left := spent.modest (Rouses.modest rouses)
    cases c.bind <;> exact left
  | subscribes _ rouses more _ issues _ _ =>
    have left := (granted (Rouses.modest rouses) issues).modest more.toModest
    cases c.bind <;> exact left
  | @registers g g' k _ owner _ _ r _ _ _ _ rouses more _ issues _ _ =>
    have given := granted (Rouses.modest rouses) issues
    have inserted : ((g.deal (.granted r)).updateManager k (·.insert owner r)).Spent m := given
    have left := inserted.modest more.toModest
    exact left
  | @unregisters g g' k _ owner r _ _ _ _ left more _ =>
    obtain ⟨h₁, same, after⟩ := gentle_of_unsubscribe left
    have given : h₁.Spent m := by
      rcases same with rfl | ⟨late, rfl⟩
      · exact spent
      · exact spent.deal (d := .returned r late) (.inl (by simp [Dealing.weight]))
    have unsubscribed := given.modest after.toModest
    have erased : (g.updateManager k (·.erase owner)).Spent m := unsubscribed
    have left := erased.modest more.toModest
    exact left

/-- So it stays, unless a call goes away that waits for one of the streams. -/
theorem course {e : Event} (spent : h.Spent m) (quenched : h.Quenched m root settings)
    (regular : h.Regular) (indexed : h.Indexed) (kept : h.dropsSubscriber m e = false)
    (course : h.Course e h') : h'.Spent m := by
  cases course with
  | gentle gentle _ => exact spent.modest gentle.toModest
  | starts n parent gentle =>
    exact (spent.modest gentle.toModest).modest (modest_startStream _ n parent)
  | steps id => exact spent.modest (modest_loopStep h id)
  | ends id => exact spent.modest (modest_loopEnd h id)
  | waits ms => exact spent
  | @drops _ i n c g _ found waits before after _ =>
    obtain ⟨f, m', face, issuer, target⟩ := indexed.waiting (List.mem_of_find?_eq_some found) waits
    have other : ¬ g.Belongs m n := by
      intro belongs
      cases issuer.symm.trans ((belongs.before before.identities) f face)
      unfold dropsSubscriber at kept
      simp [found, target] at kept
    exact ((spent.modest before.toModest).deal (d := .lost n) (.inr other)).modest after.toModest
  | turns _ asked takes turned =>
    have taken := (spent.modest asked.gentle.toModest).modest takes.modest
    exact taken.turned (Quenched.lasting.takes quenched regular asked takes) turned

theorem runPoll (spent : h.Spent m) (quenched : h.Quenched m root settings) (regular : h.Regular)
    (indexed : h.Indexed) (course : ∀ e, h.Course e (h.step e)) {p : Poll}
    (kept : ∀ e, p = .other e → h.dropsSubscriber m e = false) : (h.runPoll p).Spent m := by
  cases p with
  | task id k ends => exact spent.modest (modest_task h id k ends)
  | other e =>
    cases plain : e.isLoop with
    | false =>
      rw [runPoll_other h plain]
      exact spent.course quenched regular indexed (kept e rfl) (course e)
    | true =>
      unfold Hub.runPoll pollEvents
      simp only [plain]
      exact spent

end Spent

/-! ## When there are no entries -/

section

variable (empty : ∀ key, h.monitor? m key = none)
include empty

theorem monitors_eq_nil (known : h.multiplexers[m]? = some mux) : mux.monitors = [] := by
  cases entries : mux.monitors with
  | nil => rfl
  | cons entry more =>
    have head := empty entry.1
    rw [monitor?_eq known] at head
    unfold Multiplexer.monitor? at head
    rw [entries, List.lookup_cons_self] at head
    cases head

/-- Once a multiplexer has no entries, all its streams have been stopped. -/
theorem stopped_of_empty (indexed : h.Indexed) (found : h.streams[n]? = some st)
    (issuer : st.issuer = some m) : st.isStopped = true := by
  cases running : st.isStopped with
  | true => rfl
  | false =>
    have face : h.face? n = some st.face := face?_eq_some.mpr ⟨st, found, rfl⟩
    obtain ⟨e, entry, _⟩ := indexed.current face issuer running
    cases (empty _).symm.trans entry

/-- Nothing is left of such a multiplexer. -/
theorem gone_of_empty (indexed : h.Indexed) (regular : h.Regular)
    (known : h.multiplexers[m]? = some mux) :
    mux.monitors = [] ∧ ∀ (n : Nat) (st : Stream), h.streams[n]? = some st → st.issuer = some m →
      st.state = .stopped ∧ st.handlers = [] := by
  refine ⟨monitors_eq_nil empty known, fun n st found issuer => ?_⟩
  have stopped := stopped_of_empty empty indexed found issuer
  exact ⟨of_decide_eq_true stopped, (regular.honest found).stopped stopped⟩

end

/-- While nobody waits for it, a multiplexer without references has no entries. -/
theorem Spent.empty (spent : h.Spent m) (indexed : h.Indexed) (tally : h.Tally [])
    (answered : ∀ c ∈ h.calls, ∀ key, h.target? c.request ≠ some (m, key)) (key : ObjectKey) :
    h.monitor? m key = none := by
  cases found : h.monitor? m key with
  | none => rfl
  | some e =>
    obtain ⟨f, face, rfl, issuer⟩ := indexed.entry found
    have belongs : h.Belongs m e.stream := fun f' face' => by
      cases face.symm.trans face'
      exact issuer
    have waiters : h.waiters e.stream = 0 := by
      refine List.countP_eq_zero.mpr fun c mem waits => ?_
      obtain ⟨f', m', face', issuer', target⟩ := indexed.waiting mem (of_decide_eq_true waits)
      cases face.symm.trans face'
      cases issuer.symm.trans issuer'
      exact answered c mem f.key target
    have counted := tally.counted found
    have some := indexed.counted found
    have none := spent belongs
    unfold claims at counted
    rw [waiters, List.count_nil] at counted
    omega

/-! ## The shutdown -/

theorem clears_loopStep (h : Hub) (id : Nat) : h.Clears (h.loopStep id) := by
  unfold loopStep
  split
  · exact .refl h
  · rename_i l st _
    cases stepped : h.stepLoop l st with
    | none => exact .refl h
    | some h' => exact Pieces.clears (stepLoop_cases stepped).pieces

theorem clears_loopEnd (h : Hub) (id : Nat) : h.Clears (h.loopEnd id) := by
  cases found : h.loop? id with
  | none =>
    unfold loopEnd
    rw [found]
    exact .refl h
  | some x =>
    have within := within_loopEnd found
    exact clears_of_same within.multiplexers within.fired

/-- Whoever takes a reference shuts nothing down. -/
theorem isShut_acquire {i : Nat} (shut : (h.acquire i mux key).2.IsShut m) : h.IsShut m := by
  have put {g : Hub} {e : Monitor} (shut : (g.updateMultiplexer i (·.put key e)).IsShut m) :
      g.IsShut m := by
    obtain ⟨mux', known', flag⟩ := shut
    rw [multiplexers_updateMultiplexer, Option.map_eq_some_iff] at known'
    obtain ⟨mux₀, known, rfl⟩ := known'
    refine ⟨mux₀, known, ?_⟩
    split at flag <;> exact flag
  have opened : (h.openStream i mux key).2.multiplexers = h.multiplexers :=
    (apart_openStream h i mux key).multiplexers
  have retired (g : Hub) (e : Monitor) : (g.retire e).multiplexers = g.multiplexers :=
    (apart_retire g e).multiplexers.trans (multiplexers_haltStream g e.stream)
  unfold acquire at shut
  split at shut
  · split at shut
    · exact put shut
    · exact isShut_of_same opened (put (isShut_of_same (retired _ _) shut))
  · exact isShut_of_same opened (put shut)

/-- A call that goes on shuts a multiplexer down at most by what its handler does. -/
theorem Turned.clears (turned : Turned h c h') : h.Clears h' := by
  have told {g g' : Hub} (multiplexers : g'.multiplexers = g.multiplexers)
      (fired : g'.fired = g.fired) : g.Clears g' := clears_of_same multiplexers fired
  have enrolled (g : Hub) (r : Registration) (reply : Reply) :
      g.Clears ((g.enroll c.bind r).answer c.id reply) := by
    cases c.bind <;> exact told rfl rfl
  cases turned with
  | waits gentle _ _ => exact gentle.clears
  | answers gentle _ _ => exact gentle.clears.trans (told rfl rfl)
  | attaches _ rouses _ _ _ _ => exact (Rouses.clears rouses).trans (enrolled _ _ _)
  | @subscribes g _ _ _ _ _ r _ rouses more _ _ _ _ =>
    have granted : g.Clears (g.deal (.granted r)) := told rfl rfl
    exact (((Rouses.clears rouses).trans granted).trans more.clears).trans (enrolled _ _ _)
  | @registers g _ k _ owner _ _ r _ _ _ _ rouses more _ _ _ _ =>
    have inserted : g.Clears ((g.deal (.granted r)).updateManager k (·.insert owner r)) := told rfl rfl
    exact (((Rouses.clears rouses).trans inserted).trans more.clears).trans (told rfl rfl)
  | @unregisters g _ k _ owner _ _ _ _ _ left more _ =>
    obtain ⟨h₁, same, after⟩ := gentle_of_unsubscribe left
    have given : h.Clears h₁ := by rcases same with rfl | ⟨late, rfl⟩ <;> exact told rfl rfl
    have erased : g.Clears (g.updateManager k (·.erase owner)) := told rfl rfl
    exact (((given.trans after.clears).trans erased).trans more.clears).trans (told rfl rfl)

/-- A multiplexer that is shut down in an event has no entries in the end, and its token has fired. -/
theorem Course.shut {e : Event} (course : h.Course e h') (shut : h'.IsShut m) :
    h.IsShut m ∨ h'.IsCleared m := by
  cases course with
  | gentle gentle _ => exact gentle.shut shut
  | @starts _ g n parent gentle =>
    have started : g.Clears (g.startStream n parent).2 :=
      clears_of_same (multiplexers_startStream g n parent) (fired_startStream g n parent)
    exact (gentle.clears.trans started).shut shut
  | steps id => exact (clears_loopStep h id).shut shut
  | ends id => exact (clears_loopEnd h id).shut shut
  | waits ms => exact .inl shut
  | @drops _ _ n _ g _ _ _ before after _ =>
    have lost : g.Clears (g.deal (.lost n)) := clears_of_same rfl rfl
    exact ((before.clears.trans lost).trans after.clears).shut shut
  | turns _ asked takes turned =>
    refine (turned.clears.shut shut).imp_left fun before => ?_
    refine isShut_of_same asked.aside.multiplexers ?_
    cases takes with
    | idle => exact before
    | takes => exact isShut_acquire before

theorem Turned.stays (turned : Turned h c h') (shut : h.IsShut m) : h'.IsShut m := by
  have enrolled {g : Hub} {r : Registration} (shut : g.IsShut m) : (g.enroll c.bind r).IsShut m := by
    cases c.bind <;> exact shut
  cases turned with
  | waits gentle _ _ => exact gentle.stays shut
  | answers gentle _ _ => exact (gentle.stays shut :)
  | attaches _ rouses _ _ _ _ => exact enrolled ((Rouses.modest rouses).stays shut)
  | subscribes _ rouses more _ _ _ _ => exact enrolled (more.stays ((Rouses.modest rouses).stays shut :))
  | registers _ _ _ _ rouses more _ _ _ _ => exact more.stays ((Rouses.modest rouses).stays shut :)
  | unregisters _ _ _ _ left more _ =>
    obtain ⟨h₁, same, after⟩ := gentle_of_unsubscribe left
    have given : h₁.IsShut m := by rcases same with rfl | ⟨late, rfl⟩ <;> exact shut
    exact more.stays (after.stays given :)

/-- Whatever happens, a multiplexer that has been shut down stays so. -/
theorem Course.stays {e : Event} (course : h.Course e h') (shut : h.IsShut m) : h'.IsShut m := by
  cases course with
  | gentle gentle _ => exact gentle.stays shut
  | starts n parent gentle => exact (modest_startStream _ n parent).stays (gentle.stays shut)
  | steps id => exact (modest_loopStep h id).stays shut
  | ends id => exact (modest_loopEnd h id).stays shut
  | waits ms => exact shut
  | drops _ _ before after _ => exact after.stays (before.stays shut :)
  | turns _ asked takes turned => exact turned.stays (takes.modest.stays (asked.gentle.stays shut))

theorem isShut_shutdown (known : h.multiplexers[m]? = some mux) : (h.shutdown m).IsShut m := by
  have marked : (h.updateMultiplexer m fun mux => { mux with monitors := [], isShut := true }).IsShut m :=
    ⟨_, by rw [multiplexers_updateMultiplexer, known, Option.map_some, if_pos rfl], rfl⟩
  unfold shutdown
  rw [known]
  exact (gentle_stopAll _ _ fun _ => rfl).stays marked

section

variable (cleared : h.IsCleared m) (indexed : h.Indexed)
include cleared indexed

theorem quenched_of_cleared (known : h.multiplexers[m]? = some mux) :
    h.Quenched m mux.root mux.settings where
  fired := by
    obtain ⟨_, mux', known', fired⟩ := cleared
    cases known.symm.trans known'
    exact fired
  known := by rw [known]; rfl
  begun found issuer created := by
    have stopped := stopped_of_empty cleared.1 indexed found issuer
    rw [Stream.isStopped, created] at stopped
    cases stopped
  idle found issuer running := by
    cases running.symm.trans (stopped_of_empty cleared.1 indexed found issuer)
  fresh _ _ _ found issuer running := by
    cases running.symm.trans (stopped_of_empty cleared.1 indexed found issuer)

theorem spent_of_cleared (tally : h.Tally []) : h.Spent m := by
  intro n belongs
  have vacant : h.Vacant n := by
    rintro m' key e found rfl
    obtain ⟨f, face, _, issuer⟩ := indexed.entry found
    cases issuer.symm.trans (belongs f face)
    cases (cleared.1 key).symm.trans found
  have out := tally.vacant vacant
  unfold claims at out
  omega

end

/-! ## Runs -/

/-- No call that subscribes to a multiplexer, or registers an owner with it, is dropped. -/
def Undropped (m : Nat) (h : Hub) (ps : List Poll) : Prop :=
  ∀ qs e, qs ++ [.other e] <+: ps → (h.runPolls qs).dropsSubscriber m e = false

variable {limit : Nat} {draws : Draws}

theorem concluded_run {es : List Event} (found : ((start limit draws).run es).streams[n]? = some st) :
    st.Concluded :=
  (run_stirs es (regular_start limit draws)).concluded (fun found => nomatch found) found

/-- A multiplexer that has been shut down stays as it is, however tasks are polled. -/
theorem quenched_runPolls {es : List Event} (ran : h = (start limit draws).run es)
    (quenched : h.Quenched m root settings)
    (accepted : settings.listWatch.validate "list_watch" = .ok ()) (ps : List Poll) :
    (h.runPolls ps).Quenched m root settings ∧
      (h.Spent m → Undropped m h ps → (h.runPolls ps).Spent m) := by
  induction ps using List.reverseRecOn with
  | nil => exact ⟨quenched, fun spent _ => spent⟩
  | append_singleton ps p ih =>
    obtain ⟨quenched', spent⟩ := ih
    obtain ⟨fs, eq⟩ := runPolls_eq_run h ps
    rw [ran, ← run_append] at eq
    have books := (moment_run limit draws (es ++ fs)).books
    have regular := regular_run limit draws (es ++ fs)
    have course := step_course books (holds_run limit draws (es ++ fs))
    have concluded {n : Nat} {st : Stream}
        (found : ((start limit draws).run (es ++ fs)).streams[n]? = some st) := concluded_run found
    rw [← eq, ← ran] at books regular course
    simp only [← eq, ← ran] at concluded
    rw [runPolls_append]
    refine ⟨quenched'.runPoll regular concluded accepted course p, fun before kept => ?_⟩
    have earlier : ps <+: ps ++ [p] := List.prefix_append ps [p]
    have spent := spent before fun qs e within => kept qs e (within.trans earlier)
    refine spent.runPoll quenched' regular books.toIndexed course fun e own => ?_
    exact kept ps e (own ▸ List.prefix_rfl)

/-- What an event shuts down in a run has no entries in the end. -/
theorem shut_of_run {es : List Event} (ran : h = (start limit draws).run es) (e : Event)
    (shut : (h.step e).IsShut m) : h.IsShut m ∨ (h.step e).IsCleared m := by
  subst ran
  exact (step_course (moment_run limit draws es).books (holds_run limit draws es) e).shut shut

/-- So it is when tasks are polled: a loop goes on for the rest of the poll in which one of its handlers
shuts a multiplexer down, and touches that no more. -/
theorem shut_of_runPoll {es : List Event} (ran : h = (start limit draws).run es) (p : Poll)
    (shut : (h.runPoll p).IsShut m) : h.IsShut m ∨ (h.runPoll p).IsCleared m := by
  cases p with
  | other e =>
    cases plain : e.isLoop with
    | false =>
      rw [runPoll_other h plain] at shut ⊢
      exact shut_of_run ran e shut
    | true =>
      unfold runPoll pollEvents at shut
      simp only [plain] at shut
      exact .inl shut
  | task id k ends =>
    have steps (k : Nat) (h : Hub) : h.Clears (h.run (List.replicate k (.loop id))) := by
      induction k generalizing h with
      | zero => exact .refl h
      | succ k ih => exact (clears_loopStep h id).trans (ih _)
    refine Clears.shut ?_ shut
    rw [runPoll_task]
    split
    · exact (steps k h).trans (clears_loopEnd _ id)
    · exact steps k h

/-- Once it has been shut down, a multiplexer stays so in a run. -/
theorem isShut_run {es : List Event} (shut : ((start limit draws).run es).IsShut m) (fs : List Event) :
    ((start limit draws).run (es ++ fs)).IsShut m := by
  induction fs using List.reverseRecOn with
  | nil => rwa [List.append_nil]
  | append_singleton fs e ih =>
    rw [← List.append_assoc]
    exact (run_course limit draws (es ++ fs) e).stays ih

/-- Nobody is answered in a poll but the call that is polled, and whoever wants to subscribe to a
multiplexer that has been shut down before fails. -/
theorem answers_runPoll {es : List Event} (ran : h = (start limit draws).run es) (p : Poll)
    (m root : Nat) (settings : Settings) :
    h.Answers (h.runPoll p) fun c reply => p = .other (.call c.id) ∧
      (h.Quenched m root settings → ∀ key, h.target? c.request = some (m, key) →
        ∃ e, reply = .failed e) := by
  cases p with
  | task id k ends => exact answers_none (modest_task h id k ends).returned
  | other e =>
    cases plain : e.isLoop with
    | true =>
      unfold runPoll pollEvents
      simp only [plain]
      exact answers_none rfl
    | false =>
      rw [runPoll_other _ plain]
      have regular : h.Regular := ran ▸ regular_run limit draws es
      have course := step_course (ran ▸ (moment_run limit draws es).books)
        (ran ▸ holds_run limit draws es) e
      obtain ⟨as, returned, given⟩ := course.answers
      refine ⟨as, returned, fun a mem => ?_⟩
      obtain ⟨c, found, rfl, fails⟩ := given a mem
      exact ⟨c, found, rfl, fun quenched => fails quenched regular⟩

/-- Two wait for the first sync of one stream.  The handler of the first one shuts the multiplexer down
when it is told of the object. -/
def subscribedTwice : List Event :=
  [.command 0 (.apply ⟨"ns", "a"⟩ "1"), .command 1 (.newMultiplexer "m" {} none),
    .command 2 (.subscribe "m" ⟨"ns", "a"⟩ { name := "h", reactions := [(.add, .shutdown "m")] } "first"
      none), .call 2,
    .command 3 (.subscribe "m" ⟨"ns", "a"⟩ { name := "g" } "second" none), .call 3,
    .loop 0, .loop 0, .loop 0]

/-- The second one goes on, and somebody else subscribes.  The loop of the new stream has read the object
when it ends. -/
def subscribedAgain : List Poll :=
  [.other (.call 3), .other (.command 4 (.subscribe "m" ⟨"ns", "a"⟩ { name := "f" } "third" none)),
    .other (.call 4), .task 1 3 false, .other (.call 4)]

/-- The first one has been told of the object, in the poll in which it is answered. -/
def shutDownInside : Hub := ((start 4 {}).run subscribedTwice).runPoll (.other (.call 2))

/-- It is not pending at the shutdown: the registration it gets in this very poll is void. -/
example : shutDownInside.returned = [(2, .registration ⟨⟨"ns", "a"⟩, 1, 0, some 0⟩)] ∧
    shutDownInside.streams.map (·.handlers) = [[]] := by decide

theorem undropped_subscribedAgain : Undropped 0 shutDownInside subscribedAgain := by
  intro qs e before
  have mem : Poll.other e ∈ subscribedAgain := before.subset (by simp)
  simp only [subscribedAgain, List.mem_cons, List.not_mem_nil, or_false, Poll.other.injEq,
    reduceCtorEq, false_or] at mem
  rcases mem with rfl | rfl | rfl | rfl <;> rfl

end Hub

end SharedWatch
