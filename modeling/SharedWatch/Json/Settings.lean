import SharedWatch.Json.Value
import SharedWatch.Policy

/-!
# Settings as structured values

Settings and policies are records of their parts.  A part that is missing keeps its default, and
a key that names no part is passed over.  A list of the parts in their order is accepted too.

* `readParts`: reads a structure from a record or from a list.
* `Mismatch`: what was found in place of what was expected.
-/

namespace SharedWatch.Json

/-- Why a value is refused. -/
inductive Mismatch
  /-- It is of the wrong kind. -/
  | wrongKind (found : Value) (expected : String)
  /-- It is an integer that does not fit. -/
  | outOfRange (found : Int) (expected : String)
  /-- It is a list with too many items. -/
  | tooLong (items : Nat)

/-- A value as it is told in messages. -/
def Value.told : Value → String
  | .null => "null"
  | .flag b => "boolean `" ++ (if b then "true" else "false") ++ "`"
  | .number (.whole n) => "integer `" ++ toString n ++ "`"
  | .number (.real x) => "floating point `" ++ Decimal.compact x ++ "`"
  | .text s => "string " ++ Text.quoted s
  | .list _ => "sequence"
  | .record _ => "map"

/-- The wording of a refusal. -/
def Mismatch.message : Mismatch → String
  | wrongKind found expected => "invalid type: " ++ found.told ++ ", expected " ++ expected
  | outOfRange found expected =>
    "invalid value: integer `" ++ toString found ++ "`, expected " ++ expected
  | tooLong items =>
    "invalid length " ++ toString items ++ ", expected fewer elements in array"

/-- A part of a structure: its key, and how its value is taken in. -/
structure Part (α : Type) where
  /-- The key. -/
  key : String
  /-- Takes in the value. -/
  read : Value → α → Except Mismatch α

/-- A part that is a 64 bit number; `expected` names what is expected. -/
def Part.word {α : Type} (key expected : String) (set : UInt64 → α → α) : Part α where
  key := key
  read
    | .number (.whole n), a =>
      if 0 ≤ n then .ok (set (UInt64.ofNat n.toNat) a) else .error (.outOfRange n expected)
    | v, _ => .error (.wrongKind v expected)

/-- Takes in the fields of a record in their order. -/
def readRecord {α : Type} (parts : List (Part α)) (a : α) (fields : List (String × Value)) :
    Except Mismatch α :=
  fields.foldlM (fun a (key, v) => match parts.find? (·.key == key) with
    | some part => part.read v a
    | none => .ok a) a

/-- Takes in the parts of a structure called `expected`; `a` holds what is missing. -/
def readParts {α : Type} (expected : String) (parts : List (Part α)) (a : α) :
    Value → Except Mismatch α
  | .record fields => readRecord parts a fields
  | .list items => do
    let a ← (parts.zip items).foldlM (fun a (part, v) => part.read v a) a
    if parts.length < items.length then .error (.tooLong items.length) else return a
  | v => .error (.wrongKind v expected)

/-- A policy. -/
def policy : Value → Except Mismatch RetryPolicy :=
  readParts "struct BackoffPolicy"
    [ .word "max_retries" "usize" fun n p => { p with maxRetries := n },
      .word "timeout_ms" "u64" fun n p => { p with timeoutMs := n },
      .word "base_delay_ms" "u64" fun n p => { p with baseDelayMs := n },
      .word "max_delay_ms" "u64" fun n p => { p with maxDelayMs := n } ] {}

/-- Settings. -/
def settings : Value → Except Mismatch Settings :=
  readParts "struct WatchConfig"
    [ .word "sync_timeout_ms" "u64" fun n s => { s with syncTimeoutMs := n },
      { key := "list_watch", read := fun v s => (policy v).map fun p => { s with listWatch := p } } ]
    {}

end SharedWatch.Json
