import SharedWatch.Scenario.Perform

/-!
# Sessions

A `Session` carries out commands one after the other.  A command begins, then everybody goes on
until all have to wait, and then its `Report` is made: what it answers, which earlier calls have
returned, what handlers and messages have recorded meanwhile, and what is seen of the things that
are looked at after every command.

A call that can return before time passes answers for its command; any other is reported when it
returns, under the number of its command.
-/

namespace SharedWatch

/-- What is looked at after every command. -/
inductive Probe
  | stream (name : String)
  | sharing (multiplexer : String) (key : ObjectKey)

/-- What a look finds. -/
inductive Finding
  /-- The name stands for nothing. -/
  | nothing
  | stream (i : StreamInfo)
  | sharing (i : SharingInfo)

/-- One record of a handler, with its name. -/
structure LogLine where
  handler : String
  /-- The name of what it is attached through. -/
  via : String
  /-- The key of the object that the call was about. -/
  about : ObjectKey
  event : LogEvent

/-- The report on one command. -/
structure Report where
  /-- What the command answers. -/
  outcome : Outcome
  /-- The calls of earlier commands that have returned, by number. -/
  returned : List (Nat × Reply)
  /-- What handlers have recorded. -/
  log : List LogLine
  trace : List TraceLine
  /-- What is seen of the things looked at. -/
  findings : List Finding

namespace Hub

/-- The record of a handler with its name; handlers that do nothing are not told of. -/
def logLine? (h : Hub) (e : LogEntry) : Option LogLine :=
  match e.ref with
  | .silent => none
  | .recorder number => (h.recorders[number]?).map fun r =>
    { handler := r.name, via := r.via, about := e.about, event := e.event }

/-- What a probe finds. -/
def find (h : Hub) : Probe → Finding
  | .stream name => match (h.names.streams.lookup name).bind (h.streams[·]?) with
    | some st => .stream st.info
    | none => .nothing
  | .sharing name key => match (h.names.multiplexers.lookup name).bind (h.multiplexers[·]?) with
    | some mux => .sharing (h.sharing mux key)
    | none => .nothing

end Hub

/-- The order in which records are told: by the object they are about and by what the handler is
attached through; by the handler as well if the order of calls that wake together is left open. -/
def LogLine.before (byHandler : Bool) (a b : LogLine) : Bool :=
  (((ObjectKey.order a.about b.about).then (compare a.via b.via)).then
    (if byHandler then compare a.handler b.handler else .eq)).isLE

/-- Commands carried out one after the other. -/
structure Session where
  hub : Hub
  /-- What is looked at after every command. -/
  probes : List Probe := []
  /-- The order of calls that wake together is left open. -/
  isUnordered : Bool := false
  /-- The number of the next command. -/
  next : Nat := 0

namespace Session

/-- Carries out a command. -/
def step (s : Session) (c : Command) : Report × Session :=
  let (outcome, h) := s.hub.perform s.next c
  let h := h.settle
  let own := h.returned.lookup s.next
  let report : Report :=
    { outcome := match outcome with
        | .pending => own.elim .pending .reply
        | outcome => outcome
      returned := (h.returned.filter (·.1 != s.next)).mergeSort fun a b => a.1 ≤ b.1
      log := (h.log.filterMap h.logLine?).mergeSort (LogLine.before s.isUnordered)
      trace := h.trace.reverse
      findings := s.probes.map h.find }
  (report, { s with
    hub := { h with returned := [], log := [], trace := [] }
    next := s.next + 1 })

/-- Carries out a list of commands. -/
def run (s : Session) : List Command → List Report
  | [] => []
  | c :: rest =>
    let (report, s) := s.step c
    report :: s.run rest

end Session

end SharedWatch
