import SharedWatch.Policy
import SharedWatch.Toml.Table

/-!
# What settings are put together with

Settings are loaded from sources: settings that there are already, a file, and the environment.  How a
source is read, how sources are laid on top of each other, and how settings are read off what comes of them
is up to a library.

* `Surroundings`: where sources are looked for.
* `EnvironmentSource`: how the variables of an environment are to be read.
* `ConfigLibrary`: what a library has to offer.
-/

namespace SharedWatch

/-- Where settings are loaded from. -/
structure Surroundings where
  /-- The files, by name. -/
  files : List (String × String) := []
  /-- The variables of the environment. -/
  environment : List (String × String) := []

/-- A file: the name under which it is found, and its text. -/
structure SourceFile where
  /-- The name. -/
  name : String
  /-- The text. -/
  text : String
deriving DecidableEq

/-- How the variables of an environment are to be read. -/
structure EnvironmentSource where
  /-- What the names of variables begin with, in any case. -/
  front : String
  /-- What stands behind that, and in a name between a table and a key in it. -/
  separator : String
  /-- A variable without a value is none. -/
  ignoresEmpty : Bool
  /-- A value that reads as something else than a text is that. -/
  parses : Bool

/-- A library that puts settings together. -/
structure ConfigLibrary where
  /-- What a source has to say. -/
  Layer : Type
  /-- What sources come to, one on top of the other. -/
  Tree : Type
  /-- Settings as a source. -/
  encode : Settings → Except SettingsError Layer
  /-- The file that is meant by a name. -/
  find : Surroundings → String → Except SettingsError SourceFile
  /-- The document that a text is, if it is one. -/
  parse : String → Option (List (String × Toml.Value))
  /-- A document from a file of a name as a source. -/
  ofDocument : String → List (String × Toml.Value) → Layer
  /-- An environment as a source. -/
  ofEnvironment : EnvironmentSource → List (String × String) → Layer
  /-- Lays sources on top of each other, the first one first. -/
  build : List Layer → Tree
  /-- The number that keys lead to. -/
  number? : Tree → List String → Option UInt64
  /-- Reads settings off. -/
  decode : Tree → Except SettingsError Settings

/-- A file as a source: it is needed, and it must be a document. -/
def ConfigLibrary.ofFile (lib : ConfigLibrary) (w : Surroundings) (name : String) :
    Except SettingsError lib.Layer := do
  let file ← lib.find w name
  match lib.parse file.text with
  | some doc => return lib.ofDocument file.name doc
  | none => .error .malformedFile

end SharedWatch
