import SharedWatch.Handler

/-!
# Names

A `Directory` gives names to streams, multiplexers, managers, registrations, tokens and watch
connections.  A name may be given anew; `findName` tells what a name stands for, or that it stands
for nothing.
-/

namespace SharedWatch

/-- A name that stands for nothing. -/
structure Unbound where
  /-- What was looked for. -/
  noun : String
  /-- The name. -/
  name : String
deriving DecidableEq

/-- The wording of a failed look-up. -/
def Unbound.message (u : Unbound) : String := "no " ++ u.noun ++ " " ++ u.name

/-- The names by which things are known. -/
structure Directory where
  /-- Streams. -/
  streams : List (String × Nat) := []
  /-- Multiplexers. -/
  multiplexers : List (String × Nat) := []
  /-- Managers. -/
  managers : List (String × Nat) := []
  /-- Registrations. -/
  registrations : List (String × Registration) := []
  /-- Tokens. -/
  tokens : List (String × Nat) := []
  /-- Watch connections that nobody but their name holds. -/
  watches : List (String × Nat) := []

/-- Gives a name to something, whatever the name stood for. -/
def bindName {α : Type} (names : List (String × α)) (name : String) (a : α) :
    List (String × α) :=
  (name, a) :: names.filter fun e => e.1 != name

/-- Forgets a name. -/
def dropName {α : Type} (names : List (String × α)) (name : String) : List (String × α) :=
  names.filter fun e => e.1 != name

/-- What a name stands for. -/
def findName {α : Type} (noun : String) (names : List (String × α)) (name : String) :
    Except Unbound α :=
  match names.lookup name with
  | some a => .ok a
  | none => .error ⟨noun, name⟩

end SharedWatch
