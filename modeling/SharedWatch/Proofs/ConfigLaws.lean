import Mathlib.Data.List.Forall2
import SharedWatch.Layers.Load

/-!
# What is relied on of a library

The settings one by one, what a source may have to say about each of them, and what a library that puts
settings together is relied on for.

* `Setting`, `Choice`: the settings, and what somebody has to say about each of them.
* `Text.Denotes`: the texts that are numbers.
* `Environment.Sets`, `Toml.Sets`: what an environment and a document say about the settings.
* `ConfigLibrary.Laws`: a library reads sources for what they say, lays them on top of each other number by
  number, and reads off what has come of it.
-/

namespace SharedWatch

/-! ## Settings one by one -/

/-- The settings of a policy. -/
inductive Property
  | maxRetries
  | timeout
  | baseDelay
  | maxDelay
deriving DecidableEq

/-- The key of a setting in the table of its policy. -/
def Property.key : Property → String
  | maxRetries => "max_retries"
  | timeout => "timeout_ms"
  | baseDelay => "base_delay_ms"
  | maxDelay => "max_delay_ms"

/-- The value of a setting of a policy. -/
def RetryPolicy.get (p : RetryPolicy) : Property → UInt64
  | .maxRetries => p.maxRetries
  | .timeout => p.timeoutMs
  | .baseDelay => p.baseDelayMs
  | .maxDelay => p.maxDelayMs

/-- The settings. -/
inductive Setting
  | syncTimeout
  | listWatch (p : Property)
deriving DecidableEq

/-- The keys that lead to a setting. -/
def Setting.path : Setting → List String
  | syncTimeout => ["sync_timeout_ms"]
  | listWatch p => ["list_watch", p.key]

/-- The value of a setting. -/
def Settings.get (s : Settings) : Setting → UInt64
  | .syncTimeout => s.syncTimeoutMs
  | .listWatch p => s.listWatch.get p

/-- Settings are the same if each of them is. -/
theorem Settings.ext_get {a b : Settings} (same : ∀ s, a.get s = b.get s) : a = b := by
  obtain ⟨aSync, ⟨aRetries, aTimeout, aBase, aMax⟩⟩ := a
  obtain ⟨bSync, ⟨bRetries, bTimeout, bBase, bMax⟩⟩ := b
  have sync : aSync = bSync := same .syncTimeout
  have retries : aRetries = bRetries := same (.listWatch .maxRetries)
  have timeout : aTimeout = bTimeout := same (.listWatch .timeout)
  have low : aBase = bBase := same (.listWatch .baseDelay)
  have high : aMax = bMax := same (.listWatch .maxDelay)
  rw [sync, retries, timeout, low, high]

/-- What somebody says about each of the settings: a value, or nothing. -/
abbrev Choice := Setting → Option UInt64

namespace Choice

/-- All chosen values are signed numbers of 64 bits, too. -/
def Fits (c : Choice) : Prop := ∀ s n, c s = some n → n.toNat < signedCount

/-- What is said at last about a setting, if anything is. -/
def last (cs : List Choice) (s : Setting) : Option UInt64 :=
  cs.foldl (fun said c => (c s).or said) none

end Choice

/-- What settings say about themselves. -/
def Settings.chosen (s : Settings) : Choice := fun setting => some (s.get setting)

/-! ## The environment -/

/-- A text is a number: its digits, behind any zeros and a plus that may be missing. -/
def Text.Denotes (s : String) (n : Nat) : Prop :=
  ∃ sign zeros, (sign = [] ∨ sign = ['+']) ∧
    s.toList = sign ++ (List.replicate zeros '0' ++ (toString n).toList)

/-- The key of a setting, with a point between a table and a key in it. -/
def Setting.key (s : Setting) : String := ".".intercalate s.path

/-- A key has to do with the settings: it is that of one or goes on behind it, or it is that of the policy
as a whole or of an item of it. -/
def Setting.Meddles (key : String) : Prop :=
  (∃ s : Setting, ∃ rest, key.toList = s.key.toList ++ rest ∧ ∀ c ∈ rest.head?, c = '.' ∨ c = '[') ∨
    ∃ rest, key.toList = "list_watch".toList ++ rest ∧ ∀ c ∈ rest.head?, c = '['

namespace Environment

/-- What the names of variables begin with, in lower case. -/
def front : String := "dwatch__"

/-- The name of the variable for a setting, in lower case. -/
def nameOf (s : Setting) : String := front ++ "__".intercalate s.path

/-- A text with a point for every two underscores. -/
def split : List Char → List Char
  | '_' :: '_' :: rest => '.' :: split rest
  | c :: rest => c :: split rest
  | [] => []

/-- What an environment has to say about the settings: each has a variable, whose name is in any
case.  One without a value says nothing, and any other is a number.  All other variables have nothing to do
with the settings, and no name counts items from the end of a list, since there is none yet. -/
structure Sets (environment : List (String × String)) (c : Choice) : Prop where
  numbers : ∀ e ∈ environment, ∀ s : Setting, e.1.map Char.toLower = nameOf s → e.2 ≠ "" →
    ∃ n, c s = some n ∧ Text.Denotes e.2 n.toNat
  given : ∀ s n, c s = some n → ∃ e ∈ environment, e.1.map Char.toLower = nameOf s ∧ e.2 ≠ ""
  others : ∀ e ∈ environment, e.2 ≠ "" → (∀ s : Setting, e.1.map Char.toLower ≠ nameOf s) →
    ∀ rest, (e.1.map Char.toLower).toList = front.toList ++ rest →
      ¬ Setting.Meddles (String.ofList (split rest)) ∧ ¬ ['[', '-'] <:+: rest

end Environment

/-! ## Documents -/

namespace Toml

/-- Keys, in any case, lead from a value to one in it. -/
inductive Value.Has : Value → List String → Value → Prop
  | here (v : Value) : Has v [] v
  | there {fields : List (String × Value)} {e : String × Value} {k : String} {path : List String}
    {v : Value} : e ∈ fields → e.1.map Char.toLower = k → Has e.2 path v →
    Has (.table fields) (k :: path) v

/-- A key that is written as a path leads from one that has nothing to do with the settings, and counts no
items from the end of a list. -/
def Apart (key : String) : Prop :=
  (∃ c ∈ key.toList, c = '.' ∨ c = '[') →
    (∀ s : Setting, s.path.head? ≠
      some ((String.ofList (key.toList.takeWhile fun c => c != '.' && c != '[')).map Char.toLower)) ∧
    ¬ ['[', '-'] <:+: key.toList

/-- What a document has to say about the settings: for each a number or nothing.  Beside them it may
have what it likes. -/
structure Sets (doc : List (String × Value)) (c : Choice) : Prop where
  numbers : ∀ (s : Setting) v, (Value.table doc).Has s.path v → ∃ n, c s = some n ∧ v = .whole n.toNat
  given : ∀ s n, c s = some n → ∃ v, (Value.table doc).Has s.path v
  tables : ∀ v, (Value.table doc).Has ["list_watch"] v → ∃ fields, v = .table fields
  apart : ∀ e ∈ doc, Apart e.1

end Toml

/-! ## What a library does -/

/-- What is relied on of a library.  Of a source of its own `Sets` tells what it says about the settings. -/
structure ConfigLibrary.Laws (lib : ConfigLibrary) (Sets : lib.Layer → Choice → Prop) : Prop where
  /-- Settings that are signed numbers can be written as a source, under their keys. -/
  encode : ∀ base : Settings, base.chosen.Fits →
    ∃ layer, lib.encode base = .ok layer ∧ Sets layer base.chosen
  /-- A document is read for the numbers that it has. -/
  ofDocument : ∀ (name : String) doc c, Toml.Sets doc c → c.Fits → Sets (lib.ofDocument name doc) c
  /-- An environment is read for the variables that it has: names are split at separators, values without a
  text are ignored, and numbers are numbers. -/
  ofEnvironment : ∀ environment c, Environment.Sets environment c → c.Fits →
    Sets (lib.ofEnvironment .settings environment) c
  /-- A later source overrides an earlier one number by number. -/
  build : ∀ layers cs, List.Forall₂ Sets layers cs →
    ∀ s : Setting, lib.number? (lib.build layers) s.path = Choice.last cs s
  /-- Where all the numbers are there, they are the settings. -/
  decode : ∀ tree (s : Settings), (∀ x : Setting, lib.number? tree x.path = some (s.get x)) →
    lib.decode tree = .ok s

/-- A name leads to a file with a document that sets what a choice chooses. -/
def ConfigLibrary.Gives (lib : ConfigLibrary) (w : Surroundings) (name : String) (c : Choice) : Prop :=
  ∃ file doc, lib.find w name = .ok file ∧ lib.parse file.text = some doc ∧ Toml.Sets doc c

end SharedWatch
