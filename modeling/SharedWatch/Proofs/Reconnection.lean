import SharedWatch.Proofs.StoreOutputsTaken

/-!
# Interruptions of a watch

A connection ends or fails, reading the object fails any number of times, and then it succeeds: as long as
the object is the same, no handler is told anything of this, and the stream shows the object all the time.
What the store puts out afterwards reaches the handlers as if nothing had happened.

* `Output.interruption`: what the store puts out in the course of an interruption.
* `alike_interruption`: what a stream takes in of an interruption shows nowhere.
* `hasSynced_takes`: who waits for arrivals has synced.
* `reconnect_unnoticed`: two runs in which the store puts out the same for a stream, but for an
  interruption in one of them.
-/

namespace SharedWatch

namespace Stream

variable {st : Stream}

/-! ## Interruptions -/

/-- A read that finds what is cached makes no callback. -/
theorem difference_self (o : Option Object) : difference o o = none := by
  cases o with
  | none => rfl
  | some o => exact if_pos rfl

/-- Reading the object as it is cached shows nowhere. -/
theorem alike_replace (synced : st.hasSynced = true) {items : List Object}
    (same : st.pick items = st.cache.item) (version : String) :
    st.Alike (st.replace items version).1 ∧ (st.replace items version).2 = none := by
  unfold replace
  split
  · exact ⟨.refl st, rfl⟩
  · rename_i running
    rw [same]
    refine ⟨⟨rfl, rfl, rfl, ?_, rfl, synced.symm⟩, difference_self _⟩
    simpa [isStopped] using running

end Stream

/-- What a stream takes in when its connection ends, when reading its object fails any number of times, and
when the object is read at last. -/
def Intake.interruption (ending : CycleEnd) (failures : List StoreFailure) (items : List Object)
    (version : String) : List Intake :=
  .ended ending :: (failures.map fun f => .ended (.failed f)) ++ [.read items version]

namespace Stream

variable {st : Stream}

/-- An interruption shows nowhere, and neither does the beginning of one. -/
theorem alike_interruption (synced : st.hasSynced = true) {items : List Object}
    (same : st.pick items = st.cache.item) {ending : CycleEnd} {failures : List StoreFailure}
    {version : String} {cut : List Intake}
    (part : cut <+: Intake.interruption ending failures items version) :
    st.Alike (st.takes cut) ∧ st.told cut = [] := by
  -- What an interruption is made of: ends of cycles, and the read.
  have parts (x : Intake) (mem : x ∈ cut) : (∃ ending, x = .ended ending) ∨ x = .read items version := by
    have mem := part.subset mem
    unfold Intake.interruption at mem
    simp only [List.cons_append, List.mem_cons, List.mem_append, List.mem_map,
      List.not_mem_nil, or_false] at mem
    rcases mem with rfl | ⟨f, _, rfl⟩ | rfl
    · exact .inl ⟨_, rfl⟩
    · exact .inl ⟨_, rfl⟩
    · exact .inr rfl
  clear part
  induction cut generalizing st with
  | nil => exact ⟨.refl st, rfl⟩
  | cons x cut ih =>
    have step : st.Alike (st.take x).1 ∧ (st.take x).2 = none := by
      rcases parts x (List.mem_cons_self) with ⟨ending, rfl⟩ | rfl
      · exact ⟨st.alike_note ending, rfl⟩
      · exact alike_replace synced same version
    obtain ⟨alike, silent⟩ := step
    have same' : (st.take x).1.pick items = (st.take x).1.cache.item := by
      unfold pick at same ⊢
      rw [alike.key, alike.item]
      exact same
    obtain ⟨more, told⟩ := ih (alike.hasSynced.trans synced) same'
      fun y mem => parts y (List.mem_cons_of_mem x mem)
    refine ⟨alike.trans more, ?_⟩
    unfold Stream.told
    rw [silent, told]
    rfl

end Stream

/-- What a store puts out when a cycle ends, on the connection. -/
def CycleEnd.output : CycleEnd → Output
  | closed => .closed
  | failed f => .sent (.error f)

/-- What a store puts out in the course of an interruption: the connection ends or fails, and what is `late`
may still come on it; then reading the object fails any number of times, until it succeeds and a watch is
opened. -/
def Output.interruption (ending : CycleEnd) (late : List Output) (failures : List StoreFailure)
    (items : List Object) (version : String) : List Output :=
  ending.output :: late ++ ((failures.map fun f => .listed (.error f)) ++
    [.listed (.ok (items, version)), .opened])

namespace Output

/-- Fails any number of times, and the loop goes on to wait for a full read. -/
theorem intakes_failures (failures : List StoreFailure) (ys : List Output) :
    intakes .read ((failures.map fun f => listed (.error f)) ++ ys) =
        (failures.map fun f => .ended (.failed f)) ++ intakes .read ys ∧
      after .read ((failures.map fun f => listed (.error f)) ++ ys) = after .read ys := by
  induction failures with
  | nil => exact ⟨rfl, rfl⟩
  | cons f failures ih => exact ⟨congrArg (_ :: ·) ih.1, ih.2⟩

/-- What a stream takes in of an interruption, and that it waits for arrivals again. -/
theorem intakes_interruption (ending : CycleEnd) {late : List Output}
    (arrivals : ∀ x ∈ late, x.isArrival = true) (failures : List StoreFailure) (items : List Object)
    (version : String) :
    intakes .arrival (interruption ending late failures items version) =
        Intake.interruption ending failures items version ∧
      after .arrival (interruption ending late failures items version) = .arrival := by
  have cuts : meet .arrival ending.output = (.read, some (.ended ending)) := by
    cases ending <;> rfl
  obtain ⟨taken, waits⟩ := intakes_failures failures [.listed (.ok (items, version)), .opened]
  obtain ⟨_, passed⟩ := intakes_late arrivals
  unfold interruption
  refine ⟨?_, ?_⟩
  · rw [intakes_cut cuts arrivals, taken]
    rfl
  · rw [after_append]
    show after (after (meet .arrival ending.output).1 late) _ = _
    rw [cuts, passed, waits]
    rfl

end Output

namespace Stream

variable {st : Stream}

theorem hasSynced_take (synced : st.hasSynced = true) (x : Intake) : (st.take x).1.hasSynced = true := by
  cases x with
  | read items version =>
    rcases st.replace_cases items version with ⟨_, eq⟩ | ⟨_, eq⟩
    · exact (congrArg (·.1.hasSynced) eq).trans synced
    · exact congrArg Stream.hasSynced eq
  | heard e =>
    obtain ⟨_, eq⟩ := st.receive_fst e
    exact (congrArg Stream.hasSynced eq).trans synced
  | ended ending =>
    obtain ⟨_, eq⟩ := st.note_eq ending
    exact (congrArg Stream.hasSynced eq).trans synced

/-- A loop that waits for a full read and comes to wait for something else has read. -/
theorem hasSynced_meet (running : st.isStopped = false) {awaits : Awaits} {x : Output}
    (synced : awaits ≠ .read → st.hasSynced = true) (beyond : (Output.meet awaits x).1 ≠ .read) :
    (st.after (Output.meet awaits x).2).hasSynced = true := by
  have kept (beyond : awaits ≠ .read) : (st.after (Output.meet awaits x).2).hasSynced = true := by
    cases (Output.meet awaits x).2 with
    | none => exact synced beyond
    | some y => exact hasSynced_take (synced beyond) y
  cases awaits with
  | watch | arrival => exact kept nofun
  | read =>
    cases x with
    | listed r =>
      cases r with
      | error f => exact absurd rfl beyond
      | ok read =>
        rcases st.replace_cases read.1 read.2 with ⟨stopped, _⟩ | ⟨_, eq⟩
        · cases running.symm.trans stopped
        · exact congrArg Stream.hasSynced eq
    | opened | refused _ | sent _ | closed => exact absurd rfl beyond

/-- A stream whose loop has come to wait for something else than a full read has synced. -/
theorem hasSynced_takes (running : st.isStopped = false) {awaits : Awaits} {xs : List Output}
    (synced : awaits ≠ .read → st.hasSynced = true) (beyond : Output.after awaits xs ≠ .read) :
    (st.takes (Output.intakes awaits xs)).hasSynced = true := by
  induction xs generalizing st awaits with
  | nil => exact synced beyond
  | cons x xs ih =>
    rw [Output.intakes, takes_after]
    have running' := (congrArg Face.isStopped (st.face_after (Output.meet awaits x).2)).trans running
    exact ih running' (hasSynced_meet running synced) beyond

end Stream

namespace Hub

variable {h : Hub} {n : Nat} {st : Stream}

/-- So it is with a stream in a run. -/
theorem Regular.hasSynced (regular : h.Regular) (found : h.streams[n]? = some st)
    (running : st.isStopped = false) (beyond : h.awaits n ≠ .read) : st.hasSynced = true := by
  unfold awaits stage? at beyond
  cases loop : h.loops.find? (·.stream = n) with
  | none =>
    rw [loop] at beyond
    exact absurd rfl beyond
  | some l =>
    rw [loop] at beyond
    obtain rfl : l.stream = n := by simpa using List.find?_some loop
    have reads : l.stage.hasRead = true := by
      cases stage : l.stage with
      | opening _ _ _ | consuming _ _ => rfl
      | _ => exact absurd (congrArg Stage.awaits stage) beyond
    rcases regular.read l (List.mem_of_find?_eq_some loop) reads st found with synced | stopped
    · exact synced
    · cases running.symm.trans stopped

/-- Two runs of a stream that may retry for ever and that is left alone; the store puts out the same for it
in both, but for an interruption in one of them, which comes while the stream waits for arrivals; at the end
nothing is left that the stream has not taken in.  Its handlers are told the same, and at the end it has the
same object, the same handlers and the same sync flag.  All through the interruption it shows the object
that it had. -/
theorem reconnect_unnoticed {limit : Nat} {draws : Draws} {es₀ : List Event} {h : Hub} {n : Nat}
    {st seen : Stream} {es fs : List Event} {pre post late : List Output} {ending : CycleEnd}
    {failures : List StoreFailure} {items : List Object} {version : String}
    (reached : h = (start limit draws).run es₀) (found : h.streams[n]? = some st)
    (running : st.isStopped = false) (unlimited : st.policy.maxRetries = 0)
    (alone : h.Undisturbed n es) (alone' : h.Undisturbed n fs)
    (straight : h.stock n ++ h.outputs n es = pre ++ post)
    (broken : h.stock n ++ h.outputs n fs =
      pre ++ Output.interruption ending late failures items version ++ post)
    (drained : (h.run es).stock n = []) (drained' : (h.run fs).stock n = [])
    (watches : Output.after (h.awaits n) pre = .arrival)
    (arrivals : ∀ x ∈ late, x.isArrival = true)
    (before : seen = st.takes (Output.intakes (h.awaits n) pre))
    (same : seen.pick items = seen.cache.item) :
    (∀ k ∈ st.handlers, (h.run fs).toldTo k.1 = (h.run es).toldTo k.1) ∧
    (∃ st₁ st₂, (h.run es).streams[n]? = some st₁ ∧ (h.run fs).streams[n]? = some st₂ ∧
      st₂.cache.item = st₁.cache.item ∧ st₂.handlers = st₁.handlers ∧
      st₂.hasSynced = st₁.hasSynced) ∧
    ∀ fs₁, fs₁ <+: fs → Output.intakes (h.awaits n) pre <+: h.intakes n fs₁ →
      h.intakes n fs₁ <+: Output.intakes (h.awaits n)
        (pre ++ Output.interruption ending late failures items version) →
      ∃ st', (h.run fs₁).streams[n]? = some st' ∧ st'.item? = .ok seen.cache.item := by
  subst reached before
  obtain ⟨taken, again⟩ := Output.intakes_interruption ending arrivals failures items version
  have synced : (st.takes (Output.intakes _ pre)).hasSynced = true :=
    Stream.hasSynced_takes running ((regular_run limit draws es₀).hasSynced found running)
      (by rw [watches]; nofun)
  obtain ⟨whole, silent⟩ := Stream.alike_interruption synced same
    (List.prefix_refl (Intake.interruption ending failures items version))
  obtain ⟨later, told⟩ := whole.takes (Output.intakes .arrival post)
  obtain ⟨st₁, found₁, alike₁, told₁⟩ := alone.run found
  obtain ⟨st₂, found₂, alike₂, told₂⟩ := alone'.run found
  rw [alone.intakes_eq found running unlimited drained, straight, Output.intakes_append, watches]
    at alike₁ told₁
  rw [alone'.intakes_eq found running unlimited drained', broken, Output.intakes_append,
    Output.after_append, Output.intakes_append, watches, taken, again] at alike₂ told₂
  rw [Stream.takes_append] at alike₁
  rw [Stream.takes_append, Stream.takes_append] at alike₂
  refine ⟨fun k mem => ?_, ?_, fun fs₁ part begun within => ?_⟩
  · have attached : k.1 ∈ st.handlers.map (·.1) := List.mem_map_of_mem mem
    rw [told₁ k.1 attached, told₂ k.1 attached, Stream.told_append,
      Stream.told_append, Stream.told_append, Stream.takes_append, silent, told, List.append_nil]
  · have alike := (alike₁.symm.trans later).trans alike₂
    exact ⟨st₁, st₂, found₁, found₂, alike.item, alike.handlers, alike.hasSynced⟩
  · obtain ⟨rest, rfl⟩ := part
    obtain ⟨cut, eq⟩ := begun
    rw [Output.intakes_append, watches, taken, ← eq] at within
    obtain ⟨st', found', alike, _⟩ := (undisturbed_append alone').run found
    obtain ⟨hidden, _⟩ := Stream.alike_interruption synced same
      ((List.prefix_append_right_inj _).mp within)
    rw [← eq, Stream.takes_append] at alike
    have shown := hidden.trans alike
    refine ⟨st', found', ?_⟩
    rw [← shown.item]
    rw [← run_append] at found'
    refine item?_run limit draws _ found' ?_ ?_
    · exact shown.isStopped.trans ((congrArg Face.isStopped (st.face_takes _)).trans running)
    · rw [shown.policy, Stream.policy_takes]
      exact unlimited

/-- A stream has been started, and one handler is attached. -/
def oneAttached : List Event :=
  [.command 0 (.apply ⟨"ns", "a"⟩ "x"), .command 1 (.newStream "s" ⟨"ns", "a"⟩ {}),
    .command 2 (.attach "s" ⟨"first", []⟩ "r"), .call 2, .command 3 (.startStream "s" none)]

/-- It reads the object, watches, and hears of a change. -/
def watched : List Event :=
  [.loop 0, .loop 0, .loop 0, .loop 0, .command 4 (.apply ⟨"ns", "a"⟩ "y"), .loop 0]

/-- In between, its connection ends, and it fails to read once. -/
def watchedAgain : List Event :=
  [.loop 0, .loop 0, .loop 0, .loop 0, .command 4 .disconnect, .loop 0, .command 5 (.failLists 1),
    .wait 100, .loop 0, .loop 0, .wait 200, .loop 0, .loop 0, .loop 0, .loop 0,
    .command 6 (.apply ⟨"ns", "a"⟩ "y"), .loop 0]

/-- The handler is told of the object and of the change, as it is in the run without an interruption; while
reading fails, the stream shows the object. -/
theorem reconnect_unnoticed_once :
    (((start 4 {}).run oneAttached).run watchedAgain).toldTo 1 =
      (((start 4 {}).run oneAttached).run watched).toldTo 1 ∧
    (((start 4 {}).run oneAttached).run watched).toldTo 1 =
      [.add ⟨⟨"ns", "a"⟩, "1", "x"⟩, .update ⟨⟨"ns", "a"⟩, "1", "x"⟩ ⟨⟨"ns", "a"⟩, "2", "y"⟩] ∧
    ∃ st, (((start 4 {}).run oneAttached).run (watchedAgain.take 10)).streams[0]? = some st ∧
      st.item? = .ok (some ⟨⟨"ns", "a"⟩, "1", "x"⟩) := by
  let o : Object := ⟨⟨"ns", "a"⟩, "1", "x"⟩
  let f : StoreFailure := .unavailable "injected list failure"
  obtain ⟨told, _, shows⟩ := @reconnect_unnoticed 4 {} oneAttached _ 0
    { key := ⟨"ns", "a"⟩, policy := {}, issuer := none, state := .syncing,
      handlers := [(1, .recorder 0)] }
    _ watched watchedAgain [.listed (.ok ([o], "1")), .opened]
    [.sent (.ok (.modified ⟨⟨"ns", "a"⟩, "2", "y"⟩))] [] .closed [f] [o] "1"
    rfl (by decide) rfl rfl (by decide) (by decide) (by decide) (by decide) (by decide) (by decide)
    (by decide) (by decide) rfl (by decide)
  exact ⟨told (1, .recorder 0) (by decide), by decide,
    shows (watchedAgain.take 10) (List.take_prefix _ _) (by decide) (by decide)⟩

end Hub

end SharedWatch
