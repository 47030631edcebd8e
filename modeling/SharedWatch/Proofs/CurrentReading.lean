import SharedWatch.Proofs.RegistrationsGauge
import SharedWatch.Proofs.UndisturbedStreams

/-!
# Reading the current object

Whoever reads the current object of a registration may have to wait for the first sync of its
stream.  A registration is handed out only once the stream has synced, and a stream that has synced
has done so for ever.  So nobody ever waits.

* `Hub.Vouched`: the stream of a registration has synced; `vouched_run`: so it is with all
  registrations that multiplexers hand out.
* `Hub.reading`: what a registration is told of its object.
* `runCurrent_at_once`: a reader whose registration is vouched for is answered at once.
* `reads_at_once`: so it is in every run.
-/

namespace SharedWatch

namespace Hub

variable {h h' : Hub} {c : PendingCall} {m : Nat} {r : Registration} {st : Stream} {e : Event}

/-! ## Registrations of streams that have synced -/

/-- A multiplexer has handed out the registration, and its stream has synced. -/
def Vouched (h : Hub) (r : Registration) : Prop :=
  r.issuer.isSome = true ∧ ∃ st, h.streams[r.stream]? = some st ∧ st.hasSynced = true

theorem Vouched.stirs (vouched : h.Vouched r) (stirs : Stirs h h') : h'.Vouched r := by
  obtain ⟨issued, st, found, synced⟩ := vouched
  exact ⟨issued, stirs.synced found synced⟩

theorem granted_enroll (h : Hub) (bind : Option String) (r : Registration) :
    (h.enroll bind r).granted = h.granted := by
  cases bind <;> rfl

/-- When a call goes on, a registration is handed out at most if its stream has synced. -/
theorem Turned.granted (turned : Turned h c h') :
    h'.granted = h.granted ∨ ∃ r, h'.granted = r :: h.granted ∧ h.Vouched r := by
  have vouched {r : Registration} {m : Nat} (issues : h.Issues r) (issuer : r.issuer = some m) :
      h.Vouched r := by
    obtain ⟨st, found, _, _, synced, _⟩ := issues
    exact ⟨by rw [issuer]; rfl, st, found, synced⟩
  cases turned with
  | waits gentle _ _ => exact .inl gentle.granted
  | @answers g _ gentle _ _ => exact .inl (gentle.granted : g.granted = _)
  | attaches _ rouses _ _ _ _ =>
    exact .inl ((granted_enroll _ _ _).trans (Rouses.modest rouses).granted)
  | @subscribes g g' _ _ _ _ r _ rouses more _ issues _ issuer =>
    refine .inr ⟨r, ?_, vouched issues issuer⟩
    have dealt : (g.deal (.granted r)).granted = r :: g.granted := rfl
    exact (granted_enroll _ _ _).trans
      (more.granted.trans (dealt.trans (congrArg (r :: ·) (Rouses.modest rouses).granted)))
  | @registers g g' k m owner _ _ r _ _ _ _ rouses more _ issues _ issuer =>
    refine .inr ⟨r, ?_, vouched issues issuer⟩
    have dealt : ((g.deal (.granted r)).updateManager k (·.insert owner r)).granted =
      r :: g.granted := rfl
    have granted : g'.granted = _ := more.granted.trans dealt
    exact granted.trans (congrArg (r :: ·) (Rouses.modest rouses).granted)
  | @unregisters g g' k _ owner _ _ _ _ _ left more _ =>
    obtain ⟨h₁, same, after⟩ := gentle_of_unsubscribe left
    have given : h₁.granted = h.granted := by
      rcases same with rfl | ⟨late, rfl⟩ <;> rfl
    have erased : (g.updateManager k (·.erase owner)).granted = g.granted := rfl
    have granted : g'.granted = _ := more.granted.trans erased
    exact .inl (granted.trans (after.granted.trans given))

/-- Whatever happens, a registration is handed out at most if its stream has synced. -/
theorem Course.granted (course : h.Course e h') :
    h'.granted = h.granted ∨ ∃ r, h'.granted = r :: h.granted ∧ h'.Vouched r := by
  cases course with
  | gentle gentle _ => exact .inl gentle.granted
  | starts n parent gentle =>
    exact .inl ((modest_startStream _ n parent).granted.trans gentle.granted)
  | steps id => exact .inl (modest_loopStep h id).granted
  | ends id => exact .inl (modest_loopEnd h id).granted
  | waits ms => exact .inl rfl
  | @drops _ _ n _ g _ _ _ before after _ =>
    have lost : (g.deal (.lost n)).granted = g.granted := rfl
    exact .inl (after.granted.trans (lost.trans before.granted))
  | @turns c h₁ h₂ _ _ asked takes turned =>
    have before : h₂.granted = h.granted := takes.modest.granted.trans asked.gentle.granted
    rcases turned.granted with same | ⟨r, granted, issued, st, found, synced⟩
    · exact .inl (same.trans before)
    · obtain ⟨st', found', _, endures⟩ := SparingSteps.old turned.sparing found
      exact .inr ⟨r, granted.trans (congrArg (r :: ·) before), issued, st', found',
        (endures nofun).hasSynced.trans synced⟩

/-- All registrations that multiplexers hand out are those of streams that have synced. -/
theorem vouched_run (limit : Nat) (draws : Draws) (es : List Event) :
    ∀ r ∈ ((start limit draws).run es).granted, ((start limit draws).run es).Vouched r := by
  induction es using List.reverseRecOn with
  | nil => exact nofun
  | append_singleton es e ih =>
    have stirs : Stirs ((start limit draws).run es) ((start limit draws).run (es ++ [e])) := by
      rw [run_snoc]
      exact step_stirs e (regular_run limit draws es)
    intro r mem
    rcases (run_course limit draws es e).granted with same | ⟨r', granted, vouched⟩
    · exact (ih r (same ▸ mem)).stirs stirs
    · rw [granted] at mem
      rcases List.mem_cons.mp mem with rfl | old
      · exact vouched
      · exact (ih r old).stirs stirs

/-! ## What a reader is told -/

/-- What a registration is told of the object of its stream.  The first reason counts. -/
def reading (h : Hub) (r : Registration) (st : Stream) : Reply :=
  if h.isCurrent r = false then .failed (.noMonitor r.key)
  else if st.isStopped then .failed (.streamStopped r.key)
  else if r.handler ∉ st.handlers.map (·.1) then .failed (.noHandler r.key r.handler)
  else match st.abandoned with
    | some reason => .failed (.abandoned r.key reason)
    | none => match st.cache.item with
      | some o => .object (some o)
      | none => .failed (.noObject r.key)

/-- Nobody is told what only those are told who have waited, or who find the object of another
key. -/
theorem reading_ne (h : Hub) (r : Registration) (st : Stream) :
    (∀ key, h.reading r st ≠ .failed (.cancelled key)) ∧
      (∀ key limit, h.reading r st ≠ .failed (.syncTimeout key limit)) ∧
        ∀ key other, h.reading r st ≠ .failed (.keyMismatch key other) := by
  unfold reading
  split
  · exact ⟨nofun, nofun, nofun⟩
  split
  · exact ⟨nofun, nofun, nofun⟩
  split
  · exact ⟨nofun, nofun, nofun⟩
  split
  · exact ⟨nofun, nofun, nofun⟩
  · split <;> exact ⟨nofun, nofun, nofun⟩

/-- The entry of its key is not one of a registration that is not current. -/
theorem entry_of_stale {mux : Multiplexer} (known : h.multiplexers[m]? = some mux)
    (issuer : r.issuer = some m) (stale : h.isCurrent r = false) :
    (mux.monitor? r.key).filter (·.stream = r.stream) = none := by
  unfold isCurrent at stale
  rw [issuer, Option.bind_some, monitor?_eq known] at stale
  cases entry : mux.monitor? r.key with
  | none => rfl
  | some e =>
    rw [entry] at stale
    rw [Option.filter_some, if_neg (by simpa using stale)]

/-- Nothing is read on behalf of a registration whose stream is not that of its key any more. -/
theorem beginCurrent_of_stale (issuer : r.issuer = some m) (stale : h.isCurrent r = false) :
    h.beginCurrent m r = .error (.noMonitor r.key) := by
  unfold beginCurrent
  rw [if_neg fun other => other issuer]
  cases known : h.multiplexers[m]? with
  | none => rfl
  | some mux => simp only [entry_of_stale known issuer stale]

/-- What a reader of a current registration runs into before it waits. -/
theorem beginCurrent_of_current (issuer : r.issuer = some m) (current : h.isCurrent r = true)
    (found : h.streams[r.stream]? = some st) : ∃ w, w.stream = r.stream ∧ h.beginCurrent m r =
      if st.isStopped then .error (.streamStopped r.key)
      else if r.handler ∉ st.handlers.map (·.1) then .error (.noHandler r.key r.handler)
      else .ok w := by
  obtain ⟨m', e, issuer', entry, own⟩ := stream_of_isCurrent current
  cases issuer.symm.trans issuer'
  obtain ⟨mux, known, _, here⟩ := entry_with_stream entry own
  have registered : st.isRegistered r.stream r = true ↔ r.handler ∈ st.handlers.map (·.1) := by
    simp [Stream.isRegistered]
  refine ⟨h.boundedWait mux r.stream mux.root, rfl, ?_⟩
  unfold beginCurrent
  rw [if_neg fun other => other issuer, known]
  simp only [here, own, found]
  split
  · rfl
  · by_cases there : r.handler ∈ st.handlers.map (·.1)
    · rw [if_pos (registered.mpr there), if_neg (not_not_intro there)]
    · rw [if_neg (registered.not.mpr there), if_pos there]

/-- A reader whose registration is refused is told so, and that is all. -/
theorem runCurrent_refused {failure : WatchError} (begun : h.beginCurrent m r = .error failure) :
    h.runCurrent c m r = (h.dropCall c.id).answer c.id (.failed failure) := by
  unfold runCurrent
  rw [begun]
  exact finish_plain (plain_failed failure) h c

theorem step_current (found : h.call? c.id = some c) (fresh : c.phase = .fresh)
    (asked : c.request = .current m r) : h.step (.call c.id) = h.runCurrent c m r := by
  show h.callTurn c.id = _
  unfold callTurn
  simp only [found, fresh]
  unfold startCall
  simp only [asked]

/-- A call that has begun to wait and goes away has left nothing but a number. -/
theorem dropCall_beginWait (h : Hub) (c : PendingCall) (w : SyncWait) :
    (h.beginWait c w).dropCall c.id = { h.dropCall c.id with tickets := h.tickets + 1 } := by
  have others : (h.beginWait c w).calls.filter (fun c' => c'.id != c.id) =
      h.calls.filter fun c' => c'.id != c.id := by
    show (h.calls.map fun c' => if c'.id = c.id then
      { c' with phase := .syncing w, ticket := h.tickets } else c').filter _ = _
    induction h.calls with
    | nil => rfl
    | cons c' calls ih =>
      by_cases own : c'.id = c.id
      · simpa [own] using ih
      · simpa [own] using ih
  show ({ h with tickets := h.tickets + 1, calls := _ } : Hub) = _
  rw [others]
  rfl

/-- The wait for a stream that has synced is over at once. -/
theorem waitOutcome?_of_synced {w : SyncWait} (found : h.streams[w.stream]? = some st)
    (synced : st.hasSynced = true) : h.waitOutcome? w = some (.ok ()) := by
  unfold waitOutcome? Stream.syncOutcome?
  simp only [found, synced, if_true]

/-- A stream that runs and has synced shows its object, unless it has been abandoned. -/
theorem concludeCurrent_of_running {n : Nat} (found : h.streams[n]? = some st) (own : st.CachesOwn)
    (running : st.isStopped = false) : h.concludeCurrent n (.ok ()) =
      match st.abandoned with
      | some reason => .failed (.abandoned st.key reason)
      | none => match st.cache.item with
        | some o => .object (some o)
        | none => .failed (.noObject st.key) := by
  unfold concludeCurrent
  simp only [found]
  cases gaveUp : st.abandoned with
  | some reason =>
    have shown : st.item? = .error (.abandoned st.key reason) := by
      unfold Stream.item?
      simp only [running, gaveUp, Bool.false_eq_true, if_false]
    simp only [shown]
  | none =>
    simp only [own.item? running gaveUp]
    cases st.cache.item <;> rfl

/-- A reader whose wait is over is answered. -/
theorem conclude_reader {w : SyncWait}
    (asked : c.request = .current m r ∨ ∃ k owner, c.request = .currentOf k owner)
    (outcome : Except WatchError Unit) : h.conclude c w outcome =
      (h.dropCall c.id).answer c.id (h.concludeCurrent w.stream outcome) := by
  have answered := finish_plain (concludeCurrent_plain (h.dropCall c.id) w.stream outcome)
    (h.dropCall c.id) c
  rw [dropCall_of_free (call?_dropCall h c.id)] at answered
  unfold conclude
  rcases asked with asked | ⟨k, owner, asked⟩
  · simp only [asked]
    exact answered
  · simp only [asked]
    exact answered

/-- A reader whose registration is one of a stream that has synced is answered at once, and nothing
else happens. -/
theorem runCurrent_at_once
    (asked : c.request = .current m r ∨ ∃ k owner, c.request = .currentOf k owner)
    (issuer : r.issuer = some m) (found : h.streams[r.stream]? = some st) (hkey : st.key = r.key)
    (synced : st.hasSynced = true) (own : st.CachesOwn) : ∃ tickets, h.runCurrent c m r =
      { (h.dropCall c.id).answer c.id (h.reading r st) with tickets } := by
  unfold reading
  cases current : h.isCurrent r with
  | false => exact ⟨h.tickets, runCurrent_refused (beginCurrent_of_stale issuer current)⟩
  | true =>
    obtain ⟨w, awaited, begun⟩ := beginCurrent_of_current issuer current found
    rw [if_neg nofun]
    split
    · rename_i stopped
      rw [if_pos stopped] at begun
      exact ⟨h.tickets, runCurrent_refused begun⟩
    rename_i running
    rw [if_neg running] at begun
    split
    · rename_i absent
      rw [if_pos absent] at begun
      exact ⟨h.tickets, runCurrent_refused begun⟩
    rename_i present
    rw [if_neg present] at begun
    -- The stream has synced, and so the wait is over as soon as it begins.
    have here : (h.beginWait c w).streams[w.stream]? = some st := awaited ▸ found
    have shown := concludeCurrent_of_running here own (by simpa using running)
    refine ⟨h.tickets + 1, ?_⟩
    unfold runCurrent waitOrConclude
    simp only [begun, waitOutcome?_of_synced here synced]
    rw [conclude_reader asked, dropCall_beginWait, shown, hkey]
    rfl

/-- Whatever the store answers, however long a wait for the first sync may be, and whether the root
token has fired or not: whoever reads the current object of a registration that a multiplexer has
handed out is answered in the first turn, and nothing else happens.  The reader is told that the
stream is no longer that of its key, or else that it has been stopped, that the handler has left, that
the stream has been abandoned, or what is cached; and never that the wait was given up or took too
long, nor that the object is another one. -/
theorem reads_at_once {limit : Nat} {draws : Draws} {es : List Event} {h : Hub}
    (ran : h = (start limit draws).run es) {r : Registration} (granted : r ∈ h.granted) :
    ∃ m st, r.issuer = some m ∧ h.streams[r.stream]? = some st ∧ st.key = r.key ∧
      st.issuer = some m ∧
      (∀ c, h.call? c.id = some c → c.phase = .fresh → c.request = .current m r →
        ∃ tickets, h.step (.call c.id) =
          { (h.dropCall c.id).answer c.id (h.reading r st) with tickets }) ∧
      (∀ key, h.reading r st ≠ .failed (.cancelled key)) ∧
      (∀ key limit, h.reading r st ≠ .failed (.syncTimeout key limit)) ∧
      ∀ key other, h.reading r st ≠ .failed (.keyMismatch key other) := by
  subst ran
  obtain ⟨issued, st, found, synced⟩ := vouched_run limit draws es r granted
  obtain ⟨m, issuer⟩ := Option.isSome_iff_exists.mp issued
  obtain ⟨f, face, hkey, issuer'⟩ :=
    (roll_run limit draws es).faced ((mem_personal rfl).mpr (mem_granted.mp granted))
  cases face.symm.trans (face?_eq_some.mpr ⟨st, found, rfl⟩)
  have own : st.CachesOwn :=
    Stirs.all (run_stirs es (regular_start limit draws)) (fun _ _ _ => nofun) Stream.Turn.cachesOwn
      (fun found => nomatch found) found
  refine ⟨m, st, issuer, found, hkey, issuer'.trans issuer, fun c here fresh asked => ?_,
    reading_ne _ r st⟩
  obtain ⟨tickets, eq⟩ := runCurrent_at_once (.inl asked) issuer found hkey synced own
  exact ⟨tickets, (step_current here fresh asked).trans eq⟩

/-- The stream of a registration is stopped, and then the registration is read. -/
def stoppedAndRead : List Event :=
  [.command 0 (.newMultiplexer "m" {} none),
    .command 1 (.subscribe "m" ⟨"ns", "a"⟩ ⟨"first", []⟩ "r" none),
    .call 1, .loop 0, .loop 0, .loop 0, .call 1,
    .command 2 (.nameStream "m" ⟨"ns", "a"⟩ "x"), .command 3 (.stopStream "x"),
    .command 4 (.current "m" "r")]

/-- Its reader is told so at once. -/
theorem reads_at_once_stopped :
    ⟨⟨"ns", "a"⟩, 1, 0, some 0⟩ ∈ ((start 4 {}).run stoppedAndRead).granted ∧
    ∃ st tickets, ((start 4 {}).run stoppedAndRead).streams[0]? = some st ∧
      ((start 4 {}).run stoppedAndRead).step (.call 4) =
        { (((start 4 {}).run stoppedAndRead).dropCall 4).answer 4
            (((start 4 {}).run stoppedAndRead).reading ⟨⟨"ns", "a"⟩, 1, 0, some 0⟩ st) with
          tickets } ∧
      ((start 4 {}).run stoppedAndRead).reading ⟨⟨"ns", "a"⟩, 1, 0, some 0⟩ st =
        .failed (.streamStopped ⟨"ns", "a"⟩) := by
  have granted : (⟨⟨"ns", "a"⟩, 1, 0, some 0⟩ : Registration) ∈
      ((start 4 {}).run stoppedAndRead).granted := by
    decide
  obtain ⟨m, st, issuer, found, _, _, returns, _⟩ :=
    @reads_at_once 4 {} stoppedAndRead _ rfl _ granted
  cases issuer
  obtain ⟨tickets, eq⟩ :=
    returns ⟨4, .current 0 ⟨⟨"ns", "a"⟩, 1, 0, some 0⟩, .fresh, 6, none⟩ rfl rfl rfl
  have shown : (((start 4 {}).run stoppedAndRead).streams[0]?).map
      (((start 4 {}).run stoppedAndRead).reading ⟨⟨"ns", "a"⟩, 1, 0, some 0⟩) =
        some (.failed (.streamStopped ⟨"ns", "a"⟩)) := by
    decide
  rw [found] at shown
  exact ⟨granted, st, tickets, found, eq, Option.some.inj shown⟩

end Hub

end SharedWatch
