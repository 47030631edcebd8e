import SharedWatch.Layers.Layered

/-!
# Loading settings

* `Settings.loadBy`: the defaults, then the file that the variable `CONFIG_PATH` names, then the
  environment.
* `Settings.overrideBy`: settings, then a file, then the environment.

Later sources win.  Both are put together by a library; `load` and `override` are by that of layered trees.
-/

namespace SharedWatch

/-- The variables of settings. -/
def EnvironmentSource.settings : EnvironmentSource where
  front := "DWATCH"
  separator := "__"
  ignoresEmpty := true
  parses := true

namespace Settings

/-- Settings, then a file if one is named, then the environment. -/
def under (s : Settings) (w : Surroundings) (file : Option String) (lib : ConfigLibrary) :
    Except SettingsError Settings := do
  let base ← lib.encode s
  let named ← (file.map (lib.ofFile w)).elim (.ok []) (Except.map ([·]))
  lib.decode (lib.build (base :: named ++ [lib.ofEnvironment .settings w.environment]))

/-- The settings that surroundings give, by a library. -/
def loadBy (lib : ConfigLibrary) (w : Surroundings) : Except SettingsError Settings :=
  ({} : Settings).under w (w.environment.lookup "CONFIG_PATH") lib

/-- The settings that surroundings give on top of others, with a file, by a library. -/
def overrideBy (lib : ConfigLibrary) (s : Settings) (w : Surroundings) (file : String) :
    Except SettingsError Settings :=
  s.under w (some file) lib

/-- The settings that surroundings give. -/
def load (w : Surroundings) : Except SettingsError Settings := loadBy .layered w

/-- The settings that surroundings give on top of others, with a file. -/
def override (s : Settings) (w : Surroundings) (file : String) : Except SettingsError Settings :=
  s.overrideBy .layered w file

end Settings

end SharedWatch
