import SharedWatch.Layers.Tree
import SharedWatch.Toml.Table

/-!
# Documents as layers

The values of a TOML document, as a layer that remembers which file it comes from.  Dates and times
are texts.
-/

namespace SharedWatch

mutual

/-- A value of a document from a file. -/
def Tree.ofValue (origin : String) : Toml.Value → Tree
  | .flag b => .leaf (.flag b) (some origin)
  | .whole n => .leaf (.whole n) (some origin)
  | .real x => .leaf (.real x) (some origin)
  | .text s | .moment s => .leaf (.text s) (some origin)
  | .list items => .list (Tree.ofItems origin items) (some origin)
  | .table fields => .table (Tree.ofFields origin fields) (some origin)

/-- Items of a document from a file. -/
def Tree.ofItems (origin : String) : List Toml.Value → List Tree
  | [] => []
  | v :: rest => Tree.ofValue origin v :: Tree.ofItems origin rest

/-- Fields of a document from a file. -/
def Tree.ofFields (origin : String) : List (String × Toml.Value) → List (String × Tree)
  | [] => []
  | (k, v) :: rest => (k, Tree.ofValue origin v) :: Tree.ofFields origin rest

end

end SharedWatch
