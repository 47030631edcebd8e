import SharedWatch.Layers.Library

/-!
# Files by name

A file is known by its name or by its name without `.toml`.
-/

namespace SharedWatch

namespace Surroundings

/-- A text cut at every place of a mark. -/
def pieces (mark : Char) (s : String) : List String := (s.toList.splitOn mark).map String.ofList

/-- The last part of a file's name. -/
def lastPart (name : String) : String := ((pieces '/' name).getLast?).getD name

/-- What follows the last point in a file's name, unless the name begins with it. -/
def extension (name : String) : String :=
  match pieces '.' (lastPart name) with
  | first :: second :: rest =>
    if first = "" && rest = [] then "" else ((second :: rest).getLast?).getD ""
  | _ => ""

/-- The parts of a file's name that lead somewhere. -/
def parts (name : String) : List String :=
  (pieces '/' name).filter fun part => part != "" && part != "."

/-- The file at the end of a path. -/
def file? (w : Surroundings) (path : List String) (suffix : String) : Option SourceFile :=
  let name := "/".intercalate path ++ suffix
  if path = [] then none else (w.files.lookup name).map fun text => ⟨name, text⟩

/-- Finds a file by its name, or by its name without its extension.  A name that ends with a slash
or with a point for the directory itself is no name of a file. -/
def find (w : Surroundings) (name : String) : Except SettingsError SourceFile :=
  let path := if name.startsWith "/" then [] else parts name
  let exact := if lastPart name = "" || lastPart name = "." then none else w.file? path ""
  match exact with
  | some file =>
    if extension name = "toml" then .ok file
    else .error (.unusableFile
      ("configuration file \"" ++ name ++ "\" is not of a registered file format"))
  | none => match w.file? path ".toml" with
    | some file => .ok file
    | none => .error (.unusableFile ("configuration file \"" ++ name ++ "\" not found"))

end Surroundings

end SharedWatch
