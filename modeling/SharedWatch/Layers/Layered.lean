import SharedWatch.Layers.Decode
import SharedWatch.Layers.Document
import SharedWatch.Layers.Environment
import SharedWatch.Layers.Files
import SharedWatch.Toml.Reader
import SharedWatch.Word

/-!
# Layers of trees

A library whose sources are fields by path, and in which sources come to a tree.  Settings are carried as
signed numbers, so one of `2 ^ 63` or more cannot be a source.
-/

namespace SharedWatch

/-- A setting as a layer carries it. -/
def carried (n : UInt64) : Except SettingsError Tree :=
  if n.toNat < signedCount then .ok (.leaf (.whole n.toNat) none)
  else .error (.refused ("value " ++ toString n.toNat ++ " is greater than the max "
    ++ toString (signedCount - 1)))

/-- Settings as a layer. -/
def Settings.layer (s : Settings) : Except SettingsError (List (String × Tree)) := do
  let syncTimeout ← carried s.syncTimeoutMs
  let maxRetries ← carried s.listWatch.maxRetries
  let timeout ← carried s.listWatch.timeoutMs
  let baseDelay ← carried s.listWatch.baseDelayMs
  let maxDelay ← carried s.listWatch.maxDelayMs
  return [ ("sync_timeout_ms", syncTimeout), ("list_watch.max_retries", maxRetries),
    ("list_watch.timeout_ms", timeout), ("list_watch.base_delay_ms", baseDelay),
    ("list_watch.max_delay_ms", maxDelay) ]

/-- The library. -/
def ConfigLibrary.layered : ConfigLibrary where
  Layer := List (String × SharedWatch.Tree)
  Tree := SharedWatch.Tree
  encode := Settings.layer
  find := Surroundings.find
  parse := Toml.read?
  ofDocument := Tree.ofFields
  ofEnvironment := Environment.layer
  build := List.foldl Tree.lay Tree.empty
  number? := fun t path => (t.at? path).bind fun v => (v.word (".".intercalate path)).toOption
  decode := Tree.settings

end SharedWatch
