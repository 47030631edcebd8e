/-!
# Metrics

Two gauges and two labelled counters, and their text exposition.

* `activeStreams`: running list and watch loops.
* `liveRegistrations`: registrations handed out by multiplexers.
* `restarts`, by reason, and `delivered`, by the kind of callback.

The exposition lists families by name and samples by label; a labelled counter without samples is
left out.  `Registry` is a set of collectors with a common name prefix, which takes the four
metrics once.
-/

namespace SharedWatch

/-- A counter with one sample for each label seen. -/
abbrev LabelledCounter := List (String × Nat)

/-- Counts one more for a label. -/
def LabelledCounter.count (c : LabelledCounter) (label : String) : LabelledCounter :=
  match c with
  | [] => [(label, 1)]
  | (l, n) :: rest =>
    if l = label then (l, n + 1) :: rest else (l, n) :: LabelledCounter.count rest label

/-- The metrics of the library. -/
structure Metrics where
  /-- Running list and watch loops. -/
  activeStreams : Int := 0
  /-- Registrations handed out by multiplexers. -/
  liveRegistrations : Int := 0
  /-- Restarts of loops, by reason. -/
  restarts : LabelledCounter := []
  /-- Callbacks invoked, by kind. -/
  delivered : LabelledCounter := []

/-- One metric as it is exposed: a gauge has one sample without a label. -/
structure MetricFamily where
  name : String
  /-- What the metric tells. -/
  help : String
  kind : String
  /-- The name of the label and the samples, each with its label's value. -/
  samples : List (Option (String × String) × Int)

namespace Metrics

/-- The samples of a labelled counter, by label. -/
def labelled (label : String) (c : LabelledCounter) : List (Option (String × String) × Int) :=
  (c.mergeSort fun a b => a.1 ≤ b.1).map fun (value, n) => (some (label, value), n)

/-- The metrics with a sample, by name. -/
def families (m : Metrics) : List MetricFamily :=
  [ ⟨"active_watch_streams", "Number of running list/watch loops", "gauge",
      [(none, m.activeStreams)]⟩,
    ⟨"delivered_events", "Handler callbacks invoked by event type", "counter",
      labelled "event_type" m.delivered⟩,
    ⟨"live_handler_registrations", "Number of handler registrations handed out by multiplexers",
      "gauge", [(none, m.liveRegistrations)]⟩,
    ⟨"watch_restarts", "List/watch loop restarts by reason", "counter",
      labelled "reason" m.restarts⟩ ].filter (!·.samples.isEmpty)

end Metrics

namespace MetricFamily

/-- A name under a prefix. -/
def withPrefix (pre : Option String) (name : String) : String :=
  pre.elim name fun p => p ++ "_" ++ name

/-- A label's value as it is exposed. -/
def escape (value : String) : String :=
  value.foldl (fun acc c => acc ++
    (if c = '\\' then "\\\\" else if c = '\n' then "\\n" else if c = '"' then "\\\""
      else c.toString)) ""

/-- The text of one sample. -/
def sampleText (name : String) : Option (String × String) × Int → String
  | (none, n) => name ++ " " ++ toString n ++ "\n"
  | (some (label, value), n) =>
    name ++ "\x7b" ++ label ++ "=\"" ++ escape value ++ "\"\x7d " ++ toString n ++ "\n"

/-- The text of a metric under a prefix. -/
def text (pre : Option String) (f : MetricFamily) : String :=
  let name := withPrefix pre f.name
  "# HELP " ++ name ++ " " ++ f.help ++ "\n# TYPE " ++ name ++ " " ++ f.kind ++ "\n"
    ++ String.join (f.samples.map (sampleText name))

end MetricFamily

/-- The text exposition of the metrics under a prefix. -/
def Metrics.text (m : Metrics) (pre : String) : String :=
  String.join (m.families.map (·.text (some pre)))

/-- Why a registry refuses. -/
inductive RegistryError
  | emptyPrefix
  | alreadyRegistered
deriving DecidableEq

/-- The wording of a refusal. -/
def RegistryError.message : RegistryError → String
  | emptyPrefix => "Error: empty prefix namespace"
  | alreadyRegistered => "Duplicate metrics collector registration attempted"

/-- A set of collectors with a common name prefix. -/
structure Registry where
  /-- The prefix of all names. -/
  namePrefix : Option String
  /-- Whether the metrics of the library are among the collectors. -/
  holdsMetrics : Bool := false

namespace Registry

/-- A registry without collectors; a prefix must not be empty. -/
def create (namePrefix : Option String) : Except RegistryError Registry :=
  if namePrefix = some "" then .error .emptyPrefix else .ok { namePrefix }

/-- Adds the metrics of the library, unless they are there already. -/
def register (r : Registry) : Except RegistryError Registry :=
  if r.holdsMetrics then .error .alreadyRegistered else .ok { r with holdsMetrics := true }

/-- The names of the metrics with a sample. -/
def names (r : Registry) (m : Metrics) : List String :=
  if r.holdsMetrics then m.families.map fun f => MetricFamily.withPrefix r.namePrefix f.name
  else []

end Registry

end SharedWatch
