import Mathlib.Data.List.Perm.Subperm
import SharedWatch.Proofs.StreamIntake
import SharedWatch.Proofs.ShutMultiplexers

/-!
# The gauge of running loops, in every run

The gauge goes up when a stream is started and down when it is stopped.  A loop that has used up its
retries ends as well, and the gauge does not go down.

* `Stream.isRunning`: the stream has been started, and neither been stopped nor given up.
* `Hub.runningLoops`, `Hub.deserted`: the loops of such streams, and the streams that have been given up
  but not stopped.
* `Hub.Staffed`: a running stream has a loop, and no stream that has been given up has one.
* `running_loops_counted`: by how much the gauge is off.
-/

namespace SharedWatch

namespace Stream

/-- Whether the stream has been started, and has neither been stopped nor given up. -/
def isRunning (st : Stream) : Bool := st.isActive && !st.isAbandoned

theorem isRunning_iff {st : Stream} :
    st.isRunning = true ↔ st.isActive = true ∧ st.abandoned = none := by
  unfold isRunning isAbandoned
  cases st.abandoned <;> simp

end Stream

namespace Hub

variable {h h' g : Hub} {n id : Nat} {l : Loop} {st st' : Stream} {at? of? : Option Nat}

/-! ## The gauge under one step of a loop -/

theorem imbalance_deliver (h : Hub) (n : Nat) (callback : Option Callback) :
    (callback.elim h (h.deliver n)).imbalance = h.imbalance := by
  cases callback with
  | none => rfl
  | some c => exact Rouses.balance (rouses_deliver h n c)

theorem imbalance_foldl_say {α : Type} (items : List α) (h : Hub) (level : SharedWatch.Level)
    (message : String) :
    (items.foldl (fun h _ => h.say level message) h).imbalance = h.imbalance := by
  induction items generalizing h with
  | nil => rfl
  | cons item items ih => exact ih _

theorem streams_foldl_say {α : Type} (items : List α) (h : Hub) (level : SharedWatch.Level)
    (message : String) :
    (items.foldl (fun h _ => h.say level message) h).streams = h.streams :=
  Beside.streams ( aside_says items h level message).toBeside

theorem imbalance_replace (found : h.streams[n]? = some st) (begun : st.state ≠ .created)
    (items : List Object) (version : String) :
    (h.replace n items version).imbalance = h.imbalance := by
  unfold replace
  rw [found]
  simp only
  rw [imbalance_deliver]
  have noted (g : Hub) (b : Bool) (level : SharedWatch.Level) (message : String) :
      (if b then g.say level message else g).imbalance = g.imbalance := by
    cases b <;> rfl
  rw [noted, imbalance_of_same, imbalance_foldl_say]
  intro st₀ found₀
  rw [streams_foldl_say, found] at found₀
  cases found₀
  exact Stream.isActive_replace begun items version

theorem imbalance_receive (found : h.streams[n]? = some st) (e : Change) :
    (h.receive n e).imbalance = h.imbalance := by
  unfold receive
  rw [found]
  simp only
  rw [imbalance_deliver, imbalance_of_same]
  · split <;> rfl
  · intro st₀ found₀
    have found₀ : h.streams[n]? = some st₀ := by
      rw [← found₀]
      split <;> rfl
    cases found.symm.trans found₀
    obtain ⟨cache, eq⟩ := st.receive_fst e
    rw [eq]
    rfl

theorem imbalance_beginCycle (found : h.streams[l.stream]? = some st) (begun : st.state ≠ .created) :
    (h.beginCycle l st).imbalance = h.imbalance := by
  have moved : (h.updateStream l.stream (·.move .syncing)).imbalance = h.imbalance :=
    imbalance_of_same fun st₀ found₀ => by
      cases found.symm.trans found₀
      exact Stream.isActive_move begun
  exact moved

theorem imbalance_endLoop (h : Hub) (l : Loop) : (h.endLoop l).imbalance = h.imbalance := by
  unfold endLoop
  simp only
  split <;> rfl

theorem imbalance_reportEnd (h : Hub) (n : Nat) (ending : CycleEnd) :
    (h.reportEnd n ending).imbalance = h.imbalance := by
  cases ending with
  | closed => rfl
  | failed f =>
    have noted (level : SharedWatch.Level) (message : String) :
        ((h.say level message).updateStream n (·.noteFailure f)).imbalance = h.imbalance :=
      imbalance_of_same fun _ _ => rfl
    cases f with
    | expired version => rfl
    | unavailable reason => exact noted _ _
    | timeout limit => exact noted _ _

theorem imbalance_abandon (h : Hub) (l : Loop) (key : ObjectKey) (lastError : Option String) :
    (h.abandon l key lastError).imbalance = h.imbalance := by
  have given (g : Hub) (reason : String) :
      (g.updateStream l.stream (·.abandon reason)).imbalance = g.imbalance :=
    imbalance_of_same fun _ _ => rfl
  unfold abandon
  exact (imbalance_endLoop _ l).trans (given _ _)

/-- A loop that gives up does not count as one running loop less. -/
theorem imbalance_endCycle (h : Hub) (l : Loop) (ending : CycleEnd) :
    (h.endCycle l ending).imbalance = h.imbalance := by
  obtain ⟨backend, eq⟩ := endCycle_eq h l ending
  have told : ((({ h with backend } : Hub).reportEnd l.stream ending).countRestart
      ending.reason).imbalance = h.imbalance := imbalance_reportEnd _ _ _
  rw [eq]
  generalize (({ h with backend } : Hub).reportEnd l.stream ending).countRestart ending.reason = g at *
  rw [← told]
  unfold restOrGiveUp
  simp only
  split
  · rfl
  · split
    · exact imbalance_endLoop _ l
    · exact imbalance_abandon _ _ _ _

theorem Plods.imbalance (plods : h.Plods l h') : h'.imbalance = h.imbalance := by
  unfold Hub.imbalance
  rw [plods.metrics, plods.streams]

/-- No step of a loop takes the gauge further off. -/
theorem Stride.imbalance {x : Option Intake} (stride : h.Stride l st x h')
    (found : h.streams[l.stream]? = some st) (begun : st.state ≠ .created) :
    h'.imbalance = h.imbalance := by
  cases stride with
  | works plods => exact plods.imbalance
  | begins plods =>
    exact (imbalance_beginCycle (plods.streams ▸ found) begun).trans plods.imbalance
  | reads items version => exact imbalance_replace found begun items version
  | hears e plods => exact (imbalance_receive (plods.streams ▸ found) e).trans plods.imbalance
  | ends backend trace ending => exact imbalance_endCycle _ l ending

theorem imbalance_loopEnd (h : Hub) (id : Nat) : (h.loopEnd id).imbalance = h.imbalance := by
  unfold loopEnd
  split
  · rfl
  · split
    · exact imbalance_endLoop h _
    · split
      · exact (imbalance_endLoop _ _).trans (gentle_haltStream h _).balance
      · rfl

/-! ## Loops and running streams -/

/-- A running stream has a loop, and a stream that has been given up has none. -/
structure Staffs (h : Hub) (n : Nat) (st : Stream) : Prop where
  fresh : st.state = .created → st.abandoned = none
  staffed : st.isActive = true → st.abandoned = none → ∃ l ∈ h.loops, l.stream = n
  alive : ∀ l ∈ h.loops, l.stream = n → st.abandoned = none

/-- So it is with all streams, and the gauge shows how many are active. -/
structure Staffed (h : Hub) : Prop where
  balance : h.imbalance = 0
  streams : ∀ {n : Nat} {st : Stream}, h.streams[n]? = some st → h.Staffs n st

theorem staffed_start (limit : Nat) (draws : Draws) : (start limit draws).Staffed :=
  ⟨rfl, fun found => nomatch found⟩

/-- A loop more is nothing to streams of others. -/
theorem Staffs.joined (staffs : h.Staffs n st) (loops : h'.loops = h.loops ++ [l])
    (alive : l.stream = n → st.abandoned = none) : h'.Staffs n st where
  fresh := staffs.fresh
  staffed active alive := by
    obtain ⟨k, mem, stream⟩ := staffs.staffed active alive
    exact ⟨k, loops ▸ List.mem_append_left _ mem, stream⟩
  alive k mem stream := by
    rw [loops] at mem
    rcases List.mem_append.mp mem with old | new
    · exact staffs.alive k old stream
    · obtain rfl := List.mem_singleton.mp new
      exact alive stream

/-- A stream that has just been started has its loop. -/
theorem staffs_started (loops : h'.loops = h.loops ++ [l]) (stream : l.stream = n)
    (alive : st.abandoned = none) : h'.Staffs n st where
  fresh _ := alive
  staffed _ _ := ⟨l, loops ▸ List.mem_append_right _ (List.mem_singleton_self l), stream⟩
  alive _ _ _ := alive

theorem staffs_of_stopped (stopped : st.state = .stopped) (alive : st.abandoned = none) :
    h.Staffs n st where
  fresh _ := alive
  staffed active _ := by
    unfold Stream.isActive at active
    simp [stopped] at active
  alive _ _ _ := alive

/-- What spares all but one loop and its stream leaves the others staffed. -/
theorem Staffs.spares {i : Nat} (staffs : ∀ st, h.streams[i]? = some st → h.Staffs i st)
    (spares : h.Spares at? of? h') (minds : h.Minds at? of?) (other : at? ≠ some i)
    (found' : h'.streams[i]? = some st') : h'.Staffs i st' := by
  have same (l : Loop) (stream : l.stream = i) : l ∈ h'.loops ↔ l ∈ h.loops :=
    spares.loops_of minds other stream
  cases found : h.streams[i]? with
  | none =>
    obtain ⟨key, policy, born⟩ := spares.born other found found'
    have idle : st'.isActive = false := by
      rcases born.state with created | stopped
      · simp [Stream.isActive, created]
      · simp [Stream.isActive, stopped]
    exact ⟨fun _ => born.abandoned, fun active => absurd (idle.symm.trans active) Bool.false_ne_true,
      fun _ _ _ => born.abandoned⟩
  | some st =>
    obtain ⟨_, found₁, _, bides⟩ := spares.old found
    cases found₁.symm.trans found'
    have bides := bides other
    have before := staffs st found
    refine ⟨fun created => ?_, fun active alive => ?_, fun l mem stream => ?_⟩
    · have created' : st.state = .created := by
        rcases bides.state with same | stopped
        · exact same.symm.trans created
        · cases created.symm.trans stopped
      exact bides.abandoned.trans (before.fresh created')
    · obtain ⟨begun, running⟩ := Stream.isActive_iff.mp active
      have same' := bides.running running
      have active' : st.isActive = true := (Stream.isActive_of_state same') ▸ active
      obtain ⟨l, mem, stream⟩ := before.staffed active' (bides.abandoned ▸ alive)
      exact ⟨l, (same l stream).mpr mem, stream⟩
    · exact bides.abandoned.trans (before.alive l ((same l stream).mp mem) stream)

/-- So does the start of a stream. -/
theorem Staffs.starts {i : Nat} (staffs : ∀ st, h.streams[i]? = some st → h.Staffs i st)
    (n parent : Nat) (found' : (h.startStream n parent).2.streams[i]? = some st') :
    (h.startStream n parent).2.Staffs i st' := by
  rcases startStream_cases h n parent with same | ⟨st, l, here, created, _, stream, _, loops, _⟩
  · rw [same] at found' ⊢
    exact staffs st' found'
  · rcases streams_started_cases here created found' with ⟨rfl, rfl⟩ | old
    · exact staffs_started loops stream ((staffs st here).fresh created)
    · refine (staffs st' old).joined loops fun own => ?_
      obtain rfl : n = i := stream.symm.trans own
      cases here.symm.trans old
      exact (staffs _ old).fresh created

namespace Staffed

/-- What spares all but one loop and its stream leaves it so, if it does so there. -/
theorem sparing (staffed : h.Staffed) (steps : SparingSteps at? of? h h') (minds : h.Minds at? of?)
    (balance : h'.imbalance = h.imbalance)
    (own : ∀ n st', at? = some n → h'.streams[n]? = some st' → h'.Staffs n st') : h'.Staffed where
  balance := balance.trans staffed.balance
  streams {i st'} found' := by
    by_cases here : at? = some i
    · exact own i st' here found'
    clear balance own
    induction steps generalizing st' with
    | refl => exact staffed.streams found'
    | tail before step ih =>
      cases step with
      | spares spares =>
        exact Staffs.spares (fun _ => ih) spares (SparingSteps.minds before minds) here found'
      | starts n parent => exact Staffs.starts (fun _ => ih) n parent found'

/-- Nothing but a loop touches it. -/
theorem lasting : Lasting Staffed where
  spares staffed spares :=
    staffed.sparing spares.steps (minds_none _ _) (spares.balance rfl) nofun
  starts {h n st} staffed _ _ parent :=
    ⟨(imbalance_startStream h n parent).trans staffed.balance, fun found' =>
      Staffs.starts (fun _ => staffed.streams) n parent found'⟩
  opens {h m mux} staffed tended known key := by
    have balance : (h.openStream m mux key).2.imbalance = 0 := by
      have made : (h.createStream key mux.settings.listWatch (some m)).2.imbalance = h.imbalance :=
        imbalance_append rfl
      have started := imbalance_startStream
        (h.createStream key mux.settings.listWatch (some m)).2 h.streams.length mux.root
      exact (started.trans made).trans staffed.balance
    rw [openStream_eq] at balance ⊢
    refine ⟨balance, fun {i st'} found' => ?_⟩
    rcases streams_append_cases found' with old | ⟨rfl, rfl⟩
    · refine (staffed.streams old).joined rfl fun here => ?_
      have bound := (List.getElem?_eq_some_iff.mp old).1
      exact absurd here (Nat.ne_of_gt bound)
    · exact staffs_started rfl rfl rfl

/-- One step of a loop leaves it so. -/
theorem loopStep (staffed : h.Staffed) (regular : h.Regular) (id : Nat) : (h.loopStep id).Staffed := by
  have later : (h.loopStep id).Regular := regular.stirs (step_stirs (.loop id) regular)
  cases found : h.loop? id with
  | none =>
    unfold Hub.loopStep
    rwa [found]
  | some x =>
    obtain ⟨l, st⟩ := x
    obtain rfl := id_of_loop? found
    have mem := mem_of_loop? found
    have here := stream_of_loop? found
    have minds := regular.tended.minds mem
    have spared := minds.loopStep
    have eq := loopStep_eq found
    cases stepped : h.stepLoop l st with
    | none =>
      rw [eq, stepped]
      exact staffed
    | some h' =>
      rw [eq, stepped, Option.getD_some] at later spared ⊢
      have stride := stepLoop_stride stepped
      obtain ⟨st₀, found₀, begun⟩ := regular.tended.begun l mem
      cases here.symm.trans found₀
      have alive := (staffed.streams here).alive l mem rfl
      refine staffed.sparing spared minds (stride.imbalance here begun) fun n st' own found' => ?_
      obtain rfl := Option.some.inj own
      cases left : h.backoffAfter? l (h.offer? l st) with
      | some b =>
        obtain ⟨⟨l', mem', stream, _⟩, st₁, found₁, kept⟩ := stride.goesOn mem here left
        cases found'.symm.trans found₁
        have alive' := kept.trans alive
        exact ⟨fun _ => alive', fun _ _ => ⟨l', mem', stream⟩, fun _ _ _ => alive'⟩
      | none =>
        obtain ⟨loops, st₁, found₁, gone⟩ := stride.givesUp here left
        cases found'.symm.trans found₁
        have stopped := (Stirs.started ((stepLoop_cases stepped).stirs regular found) here begun)
        obtain ⟨st₂, found₂, begun'⟩ := stopped
        cases found'.symm.trans found₂
        refine ⟨fun created => absurd created begun', fun _ alive => ?_, fun k old stream => ?_⟩
        · cases alive.symm.trans gone
        · rw [loops, List.mem_filter] at old
          have same := regular.tended.sole k old.1 l mem stream
          simp [same] at old

/-- So does the end of a loop: its stream has been stopped, then or before. -/
theorem loopEnd (staffed : h.Staffed) (regular : h.Regular)
    (concluded : ∀ {n : Nat} {st : Stream}, h.streams[n]? = some st → st.Concluded) (id : Nat) :
    (h.loopEnd id).Staffed := by
  cases found : h.loop? id with
  | none =>
    unfold Hub.loopEnd
    rwa [found]
  | some x =>
    obtain ⟨l, st⟩ := x
    obtain rfl := id_of_loop? found
    have mem := mem_of_loop? found
    have here := stream_of_loop? found
    have minds := regular.tended.minds mem
    rcases loopEnd_ended found with same | ⟨_, st₁, found₁, bides, cause⟩
    · rwa [same]
    refine staffed.sparing minds.loopEnd.steps minds (imbalance_loopEnd h l.id)
      fun n st' own found' => ?_
    obtain rfl := Option.some.inj own
    cases found'.symm.trans found₁
    have alive := (staffed.streams here).alive l mem rfl
    rcases cause with ⟨rfl, cancelled⟩ | stopped
    · have dead := concluded here cancelled
      unfold Stream.isDead Stream.isAbandoned at dead
      rw [alive] at dead
      exact staffs_of_stopped (by simpa [Stream.isStopped] using dead) alive
    · exact staffs_of_stopped (of_decide_eq_true stopped) (bides.abandoned.trans alive)

/-- So it stays, whatever happens. -/
theorem course {e : Event} (staffed : h.Staffed) (regular : h.Regular)
    (concluded : ∀ {n : Nat} {st : Stream}, h.streams[n]? = some st → st.Concluded)
    (course : h.Course e h') : h'.Staffed :=
  lasting.course staffed regular (fun id _ => staffed.loopStep regular id)
    (fun id _ => staffed.loopEnd regular concluded id) course

end Staffed

theorem staffed_run (limit : Nat) (draws : Draws) (es : List Event) :
    ((start limit draws).run es).Staffed := by
  induction es using List.reverseRecOn with
  | nil => exact staffed_start limit draws
  | append_singleton es e ih =>
    have regular := regular_run limit draws es
    have stirs := run_stirs es (regular_start limit draws)
    exact ih.course regular (fun found => stirs.concluded (fun found => nomatch found) found)
      (run_course limit draws es e)

/-! ## The gauge -/

/-- The loops of streams that have not been stopped. -/
def runningLoops (h : Hub) : List Loop :=
  h.loops.filter fun l => (h.streams[l.stream]?).any fun st => !st.isStopped

/-- The streams that have been given up and not been stopped since. -/
def deserted (h : Hub) : List Stream := h.streams.filter fun st => st.isActive && st.isAbandoned

/-- As many elements of a list have a property as there are places at which one has it. -/
theorem length_filter_range {α : Type} (p : α → Bool) (xs : List α) :
    ((List.range xs.length).filter fun n => xs[n]?.any p).length = xs.countP p := by
  induction xs using List.reverseRecOn with
  | nil => rfl
  | append_singleton xs x ih =>
    have earlier : (List.range xs.length).filter (fun n => (xs ++ [x])[n]?.any p) =
        (List.range xs.length).filter fun n => xs[n]?.any p :=
      List.filter_congr fun n mem => by
        rw [List.getElem?_append_left (List.mem_range.mp mem)]
    rw [List.length_append, List.length_singleton, List.range_succ, List.filter_append, earlier,
      List.length_append, ih, List.countP_append]
    congr 1
    cases holds : p x <;> simp [holds]

/-- Who runs, and who has a loop that has not been stopped, is the same. -/
theorem Staffed.isRunning_iff (staffed : h.Staffed) (regular : h.Regular)
    (found : h.streams[n]? = some st) :
    st.isRunning = true ↔ ∃ l ∈ h.runningLoops, l.stream = n := by
  have staffs := staffed.streams found
  have looped (l : Loop) (stream : l.stream = n) :
      l ∈ h.runningLoops ↔ l ∈ h.loops ∧ st.isStopped = false := by
    unfold runningLoops
    rw [List.mem_filter, stream, found]
    simp
  rw [Stream.isRunning_iff, Stream.isActive_iff]
  constructor
  · rintro ⟨⟨begun, running⟩, alive⟩
    obtain ⟨l, mem, stream⟩ := staffs.staffed (Stream.isActive_iff.mpr ⟨begun, running⟩) alive
    exact ⟨l, (looped l stream).mpr ⟨mem, running⟩, stream⟩
  · rintro ⟨l, mem, stream⟩
    obtain ⟨mem, running⟩ := (looped l stream).mp mem
    obtain ⟨st₀, found₀, begun⟩ := regular.tended.begun l mem
    rw [stream, found] at found₀
    cases found₀
    exact ⟨⟨begun, running⟩, staffs.alive l mem stream⟩

/-- No two running loops are of one stream. -/
theorem Regular.runningLoops_nodup (regular : h.Regular) :
    (h.runningLoops.map (·.stream)).Nodup := by
  have distinct : h.loops.Nodup := List.Nodup.of_map _ regular.tended.ids
  refine (distinct.filter _).map_on fun l mem l' mem' same => ?_
  have old := List.mem_of_mem_filter mem
  have old' := List.mem_of_mem_filter mem'
  exact regular.tended.same old old' (regular.tended.sole l old l' old' same)

theorem Staffed.length_runningLoops (staffed : h.Staffed) (regular : h.Regular) :
    h.runningLoops.length = h.streams.countP (·.isRunning) := by
  rw [← length_filter_range, ← List.length_map (·.stream)]
  refine ((List.perm_ext_iff_of_nodup regular.runningLoops_nodup
    (List.nodup_range.filter _)).mpr fun n => ?_).length_eq
  rw [List.mem_map, List.mem_filter, List.mem_range, Option.any_eq_true]
  constructor
  · rintro ⟨l, mem, stream⟩
    obtain ⟨st, found, _⟩ := regular.tended.begun l (List.mem_of_mem_filter mem)
    rw [stream] at found
    exact ⟨(List.getElem?_eq_some_iff.mp found).1, st, found,
      (staffed.isRunning_iff regular found).mpr ⟨l, mem, stream⟩⟩
  · rintro ⟨_, st, found, running⟩
    exact (staffed.isRunning_iff regular found).mp running

/-- An active stream runs, or is deserted. -/
theorem countP_isActive (h : Hub) : h.streams.countP (·.isActive) =
    h.streams.countP (·.isRunning) + h.deserted.length := by
  have split := List.length_eq_length_filter_add (l := h.streams.filter (·.isActive))
    (·.isAbandoned)
  have running : (h.streams.filter (·.isActive)).filter (fun st => !st.isAbandoned) =
      h.streams.filter (·.isRunning) := by
    rw [List.filter_filter]
    exact List.filter_congr fun st _ => Bool.and_comm _ _
  have left : (h.streams.filter (·.isActive)).filter (·.isAbandoned) = h.deserted := by
    rw [List.filter_filter]
    exact List.filter_congr fun st _ => Bool.and_comm _ _
  rw [running, left] at split
  rw [List.countP_eq_length_filter, List.countP_eq_length_filter]
  omega

/-- After every run, the loops that have not been stopped are those of the streams that have been started
and neither stopped nor given up, one each.  The gauge shows their number, and counts those streams, too,
that have been given up and not been stopped since. -/
theorem running_loops_counted {limit : Nat} {draws : Draws} {es : List Event} {h : Hub}
    (ran : h = (start limit draws).run es) :
    (∀ (n : Nat) (st : Stream), h.streams[n]? = some st →
      (st.isRunning = true ↔ ∃ l ∈ h.runningLoops, l.stream = n)) ∧
    (h.runningLoops.map (·.stream)).Nodup ∧
    h.metrics.activeStreams = h.runningLoops.length + h.deserted.length ∧
    (h.metrics.activeStreams = h.runningLoops.length ↔ h.deserted = []) := by
  have staffed : h.Staffed := ran ▸ staffed_run limit draws es
  have regular : h.Regular := ran ▸ regular_run limit draws es
  have balance := staffed.balance
  have active := h.countP_isActive
  have running := staffed.length_runningLoops regular
  unfold imbalance at balance
  have gauge : h.metrics.activeStreams = h.runningLoops.length + h.deserted.length := by omega
  refine ⟨fun n st found => staffed.isRunning_iff regular found, regular.runningLoops_nodup, gauge, ?_⟩
  rw [gauge, ← List.length_eq_zero_iff]
  omega

/-- One stream runs, one has been stopped, and one has not been started. -/
def oneOfThree : List Event :=
  [.command 0 (.newStream "s" ⟨"ns", "a"⟩ {}), .command 1 (.newStream "t" ⟨"ns", "b"⟩ {}),
    .command 2 (.newStream "u" ⟨"ns", "c"⟩ {}), .command 3 (.startStream "s" none),
    .command 4 (.startStream "t" none), .loop 0, .loop 1, .command 5 (.stopStream "t"), .loop 0]

/-- The gauge shows the one that runs. -/
theorem running_loops_counted_one : ((start 4 {}).run oneOfThree).runningLoops.length = 1 ∧
    ((start 4 {}).run oneOfThree).metrics.activeStreams =
      ((start 4 {}).run oneOfThree).runningLoops.length :=
  ⟨by decide, (running_loops_counted rfl).2.2.2.mpr (by decide)⟩

/-- A stream that may retry once fails twice. -/
def givenUp : List Event :=
  [.command 0 (.failLists 2), .command 1 (.newStream "s" ⟨"ns", "a"⟩ { maxRetries := 1 }),
    .command 2 (.startStream "s" none), .loop 0, .loop 0, .wait 100, .loop 0, .loop 0]

/-- The gauge goes on to count a loop that has given up. -/
theorem abandoned_loop_counted : ((start 4 {}).run givenUp).loops = [] ∧
    ((start 4 {}).run givenUp).streams.map (·.isAbandoned) = [true] ∧
    ((start 4 {}).run givenUp).metrics.activeStreams = 1 := by
  decide

end Hub

end SharedWatch
