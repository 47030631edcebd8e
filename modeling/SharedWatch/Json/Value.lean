import SharedWatch.Decimal.Shortest

/-!
# Structured values

The values in which settings and scenarios are written.  A record has each key once, and its
fields are in the order of their keys.
-/

namespace SharedWatch.Json

/-- A number: an integer of 64 bits, or a float. -/
inductive Number
  /-- An integer between `-2 ^ 63` and `2 ^ 64 - 1`. -/
  | whole (n : Int)
  /-- A number with a point or an exponent, or outside the range of integers. -/
  | real (x : Float)

/-- A structured value. -/
inductive Value
  /-- Nothing. -/
  | null
  /-- Yes or no. -/
  | flag (b : Bool)
  /-- A number. -/
  | number (n : Number)
  /-- A text. -/
  | text (s : String)
  /-- A sequence of values. -/
  | list (items : List Value)
  /-- Values by key, in the order of the keys. -/
  | record (fields : List (String × Value))

/-- Sets a field, in the order of the keys; an earlier field of the key is replaced. -/
def setField {α : Type} (key : String) (v : α) : List (String × α) → List (String × α)
  | [] => [(key, v)]
  | (k, w) :: rest =>
    if key < k then (key, v) :: (k, w) :: rest
    else if key = k then (key, v) :: rest
    else (k, w) :: setField key v rest

namespace Value

/-- A natural number. -/
def nat (n : Nat) : Value := .number (.whole n)

/-- A record of fields; of two fields with the same key the later one counts. -/
def ofFields (fields : List (String × Value)) : Value :=
  .record (fields.foldl (fun acc (k, v) => setField k v acc) [])

/-- The field of a key, if the value is a record with such a field. -/
def field? (v : Value) (key : String) : Option Value :=
  match v with
  | .record fields => fields.lookup key
  | _ => none

/-- The text, if the value is one. -/
def text? : Value → Option String
  | .text s => some s
  | _ => none

/-- The 64 bit number, if the value is one. -/
def word? : Value → Option UInt64
  | .number (.whole n) => if 0 ≤ n then some (UInt64.ofNat n.toNat) else none
  | _ => none

/-- The items, if the value is a sequence. -/
def items? : Value → Option (List Value)
  | .list items => some items
  | _ => none

end Value

end SharedWatch.Json
