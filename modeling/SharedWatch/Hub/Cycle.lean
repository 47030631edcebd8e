import SharedWatch.Hub.Delivery

/-!
# Turns of a loop

`stepLoop` is one step of a list and watch loop, from one place at which it could wait to the next;
there is none while the loop has to wait.  `turn` makes steps until the loop has to wait, or until
the work of one turn is done: a loop that still can go on then gives way to others first.

A cancelled loop ends when its next turn begins.  A turn that has begun is not cut short.
-/

namespace SharedWatch.Hub

/-- Reconciles the stream of number `n` with a full read. -/
def replace (h : Hub) (n : Nat) (items : List Object) (version : String) : Hub :=
  match h.streams[n]? with
  | none => h
  | some st =>
    let foreign := items.filter fun o => !st.key.owns o
    let h := foreign.foldl
      (fun h _ => h.say .warn "list returned a foreign object, ignoring") h
    let (st', callback) := st.replace items version
    let h := h.updateStream n fun _ => st'
    let h := if st'.hasSynced && !st.hasSynced then h.say .info "watch stream synced" else h
    callback.elim h (h.deliver n)

/-- Applies one change to the stream of number `n`. -/
def receive (h : Hub) (n : Nat) (e : Change) : Hub :=
  match h.streams[n]? with
  | none => h
  | some st =>
    let h := if st.key.owns e.object then h
      else h.say .warn "watch delivered a foreign object, ignoring"
    let (st', callback) := st.receive e
    let h := h.updateStream n fun _ => st'
    callback.elim h (h.deliver n)

/-- The loop heeds cancellation from now on. -/
def heed (h : Hub) (l : Loop) : Hub :=
  let (since, h) := h.takeTicket
  h.updateLoop l.id fun l => { l with since }

/-- Begins a cycle: a full read is asked for. -/
def beginCycle (h : Hub) (l : Loop) (st : Stream) : Hub :=
  let h := h.updateStream l.stream (·.move .syncing)
  let (call, backend) := h.backend.beginList h.now st.key.selector
  { h with backend }.enter l.id (.listing call h.now)

/-- Tells of the end of a cycle. -/
def reportEnd (h : Hub) (n : Nat) : CycleEnd → Hub
  | .closed => h
  | .failed (.expired _) => h.say .info "resource version expired, relisting"
  | .failed f =>
    (h.say .warn ("list/watch failed: " ++ f.message)).updateStream n (·.noteFailure f)

/-- The loop gives up on its stream. -/
def abandon (h : Hub) (l : Loop) (key : ObjectKey) (lastError : Option String) : Hub :=
  let reason := lastError.getD "retries exhausted"
  let h := h.say .error ("giving up on watch: " ++ reason)
  let h := (h.updateStream l.stream (·.abandon reason)).endLoop l
  h.say .error ("spawned task: watch_stream stopped with error: WatchAbandoned \x7b key: "
    ++ key.debug ++ ", reason: " ++ Text.quoted reason ++ " \x7d")

/-- Ends a cycle: the loop rests until the next attempt, or gives up. -/
def endCycle (h : Hub) (l : Loop) (ending : CycleEnd) : Hub :=
  let h := match l.stage with
    | .consuming feed _ => { h with backend := h.backend.release feed }
    | _ => h
  let h := (h.reportEnd l.stream ending).countRestart ending.reason
  let (delay, backoff, draws) := l.backoff.next h.draws
  let h := { h with draws }
  match delay with
  | some d => (h.updateLoop l.id fun l => { l with backoff }).enter l.id (.resting (h.now + d.millis))
  | none => match h.streams[l.stream]? with
    | none => h.endLoop l
    | some st => h.abandon { l with stage := .fresh } st.key st.cache.lastError

/-- A call of the loop took too long. -/
def callTimedOut (h : Hub) (l : Loop) : Hub :=
  let limit := l.backoff.policy.timeout
  (h.say .warn ("store call timed out after " ++ limit.text)).endCycle l (.failed (.timeout limit))

/-- A full read has been answered: it is to be delivered. -/
def listAnswered (h : Hub) (l : Loop) (st : Stream)
    (answer : Scripted (List Object × String)) : Hub :=
  let (result, backend) := h.backend.finishList st.key.selector answer
  let h := { h with backend }
  match result with
  | .error f => h.endCycle l (.failed f)
  | .ok (items, version) => h.updateLoop l.id fun l => { l with stage := .listed items version }

/-- A full read is delivered: the cache is reconciled, and a watch is asked for. -/
def reconcile (h : Hub) (l : Loop) (st : Stream) (items : List Object) (version : String) : Hub :=
  let h := h.replace l.stream items version
  let h := h.updateLoop l.id fun l => { l with backoff := l.backoff.reset }
  let (call, backend) := h.backend.beginWatch h.now st.key.selector version
  { h with backend }.enter l.id (.opening version call h.now)

/-- A watch has been answered: its feed is read from now on. -/
def watchAnswered (h : Hub) (l : Loop) (st : Stream) (version : String)
    (answer : Scripted (List FeedItem × Bool)) : Hub :=
  let (result, backend) := h.backend.finishWatch st.key.selector version answer
  let h := { h with backend }
  match result with
  | .error f => h.endCycle l (.failed f)
  | .ok feed => h.enter l.id (.consuming feed none)

/-- Reads a feed: nothing while there is nothing to read. -/
def consume (h : Hub) (l : Loop) : Feed → Option Hub
  | .live connection =>
    let (reading, store) := h.backend.store.read connection
    let h := h.updateStore fun _ => store
    match reading with
    | .arrived (.ok e) => some (h.receive l.stream e)
    | .arrived (.error f) => some (h.endCycle l (.failed f))
    | .ended => some (h.endCycle l .closed)
    | .idle => none
  | .scripted (.arrives (.ok e) :: rest) ends =>
    let h := h.updateLoop l.id fun l => { l with stage := .consuming (.scripted rest ends) none }
    some (h.receive l.stream e)
  | .scripted (.arrives (.error f) :: _) _ => some (h.endCycle l (.failed f))
  | .scripted (.pauses ms :: rest) ends =>
    some (h.enter l.id (.consuming (.scripted rest ends) (some (h.now + ms))))
  | .scripted [] ends => if ends then some (h.endCycle l .closed) else none

/-- One step of a loop, unless it has to wait. -/
def stepLoop (h : Hub) (l : Loop) (st : Stream) : Option Hub :=
  let limit := l.backoff.policy.timeoutMs.toNat
  match l.stage with
  | .fresh => some ((h.heed l).beginCycle l st)
  | .listing call began => match call.progress began h.now limit with
    | .waiting => none
    | .timedOut => some (h.callTimedOut l)
    | .answered answer => some (h.listAnswered l st answer)
  | .listed items version => some (h.reconcile l st items version)
  | .opening version call began => match call.progress began h.now limit with
    | .waiting => none
    | .timedOut => some (h.callTimedOut l)
    | .answered answer => some (h.watchAnswered l st version answer)
  | .consuming feed silentUntil =>
    if silentUntil.all (· ≤ h.now) then h.consume l feed else none
  | .resting t => if t ≤ h.now then some (h.beginCycle l st) else none

/-- The loop of a number with its stream. -/
def loop? (h : Hub) (id : Nat) : Option (Loop × Stream) := do
  let l ← h.loops.find? (·.id = id)
  let st ← h.streams[l.stream]?
  return (l, st)

/-- The work of one step: an arrival on a connection counts twice. -/
def stepWork (l : Loop) : Nat :=
  match l.stage with
  | .consuming (.live _) _ => 2
  | _ => 1

/-- The work that a loop does in one turn. -/
def turnLength : Nat := 128

/-- Delivers a full read that the loop of a number has been answered: nobody else is delivering. -/
def deliverRead (h : Hub) (id : Nat) : Hub :=
  match h.loop? id with
  | none => h
  | some (l, st) => match l.stage with
    | .listed items version => h.reconcile l st items version
    | _ => h

/-- Makes steps until the loop has to wait or `work` is done. -/
def steps (id : Nat) : Nat → Hub → Hub
  | 0, h => h
  | work + 1, h => match h.loop? id with
    | none => h
    | some (l, st) =>
      if stepWork l ≤ work + 1 then
        match h.stepLoop l st with
        | none => h
        | some h' => steps id (work + 1 - stepWork l) (h'.deliverRead id)
      else h
termination_by work => work
decreasing_by
  simp only [stepWork]
  split <;> omega

/-- One turn of a loop. -/
def turn (h : Hub) (id : Nat) : Hub :=
  match h.loop? id with
  | none => h
  | some (l, st) =>
    if st.cancelled then h.endLoop l
    else if h.hasFired l.parent then (h.haltStream l.stream).2.endLoop l
    else steps id turnLength h

/-- Whether a loop can go on. -/
def canTurn (h : Hub) (l : Loop) : Bool :=
  match h.streams[l.stream]? with
  | none => false
  | some st => st.cancelled || h.hasFired l.parent || (h.stepLoop l st).isSome

end SharedWatch.Hub
