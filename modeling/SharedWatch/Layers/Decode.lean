import SharedWatch.Decimal.Shortest
import SharedWatch.Layers.Tree
import SharedWatch.Policy
import SharedWatch.Text.Natural

/-!
# From layers to settings

Every setting is a 64 bit number that is not negative.  A value of another kind counts as the
number it stands for: yes is one and no is zero, a float is rounded, a text is read.  What stands
for no number is refused, with the name of the setting and the layer it comes from.

A policy may also be a list of its settings in their order.
-/

namespace SharedWatch

/-- The number of a text: a number, or a word for yes or no. -/
def wordOfText (s : String) : Option UInt64 :=
  match s.map Char.toLower with
  | "true" | "on" | "yes" => some 1
  | "false" | "off" | "no" => some 0
  | _ => (Text.readWord s).map UInt64.ofNat

/-- The number that a value stands for; `property` is the name of the setting. -/
def Tree.word (property : String) : Tree → Except SettingsError UInt64
  | .leaf (.whole n) origin =>
    if 0 ≤ n then .ok (UInt64.ofNat n.toNat)
    else .error (.wrongKind ("64-bit integer `" ++ toString n ++ "`")
      "an unsigned 64 bit or less integer" (some property) origin)
  | .leaf (.flag b) _ => .ok (if b then 1 else 0)
  | .leaf (.real x) _ => .ok (Decimal.roundedWord x)
  | .leaf (.text s) origin => match wordOfText s with
    | some n => .ok n
    | none => .error (.wrongKind ("string " ++ Text.quoted s) "an integer" (some property) origin)
  | .list _ origin => .error (.wrongKind "sequence" "an integer" (some property) origin)
  | .table _ origin => .error (.wrongKind "map" "an integer" (some property) origin)
  | .nothing => .error (.wrongKind "unit value" "an integer" (some property) none)

/-- A value as it is told where a policy is expected. -/
def Scalar.told : Scalar → String
  | flag b => "boolean `" ++ (if b then "true" else "false") ++ "`"
  | whole n => "integer `" ++ toString n ++ "`"
  | real x => "floating point `" ++ Decimal.plain x ++ "`"
  | text s => "string " ++ Text.quoted s

/-- The settings of a policy, in their order. -/
def RetryPolicy.properties : List (String × (UInt64 → RetryPolicy → RetryPolicy)) :=
  [ ("max_retries", fun n p => { p with maxRetries := n }),
    ("timeout_ms", fun n p => { p with timeoutMs := n }),
    ("base_delay_ms", fun n p => { p with baseDelayMs := n }),
    ("max_delay_ms", fun n p => { p with maxDelayMs := n }) ]

/-- The refusal of a value in the place of a policy. -/
def policyRefusal (found : String) : SettingsError :=
  .refused ("invalid type: " ++ found ++ ", expected struct BackoffPolicy")

/-- The policy of a tree; what is missing has its default. -/
def Tree.policy (property : String) : Tree → Except SettingsError RetryPolicy
  | .table fields _ => RetryPolicy.properties.foldlM
      (fun p (key, set) => match fields.lookup key with
        | some t => (t.word (property ++ "." ++ key)).map (set · p)
        | none => .ok p) {}
  | .list items _ => (RetryPolicy.properties.zip items.zipIdx).foldlM
      (fun p ((_, set), (t, i)) =>
        (t.word (property ++ "[" ++ toString i ++ "]")).map (set · p)) {}
  | .leaf v _ => .error (policyRefusal v.told)
  | .nothing => .error (policyRefusal "unit value")

/-- The settings of a tree; what is missing has its default. -/
def Tree.settings (t : Tree) : Except SettingsError Settings := do
  let syncTimeoutMs ← ((t.field? "sync_timeout_ms").map (·.word "sync_timeout_ms")).getD (.ok 0)
  let listWatch ← ((t.field? "list_watch").map (·.policy "list_watch")).getD (.ok {})
  return { syncTimeoutMs, listWatch }

end SharedWatch
