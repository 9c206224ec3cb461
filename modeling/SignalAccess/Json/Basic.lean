import SignalAccess.Text.Basic
/-!
# JSON values

A document is read into a value before anything is asked of it. Three things are kept apart that a
reader of typed fields has to tell apart: an integer that fits a word of 64 bits and any other
number; a text and a string literal with an unpaired surrogate, which stands for no text; and the
members of an object in their order, repetitions included.
-/
namespace SignalAccess

/-- A JSON value. -/
inductive Json where
  | null
  | bool (value : Bool)
  /-- An integer that a signed or unsigned word of 64 bits holds. -/
  | integer (value : Int)
  /-- Any other number. -/
  | real
  /-- A string; without a text when a surrogate in it has no partner. -/
  | string (value : Option Text)
  | array (items : List Json)
  | object (members : List (Option Text × Json))

namespace Json

/-- The text of a string. -/
def text? : Json → Option Text
  | .string value => value
  | _ => none

/-- A truth value. -/
def bool? : Json → Option Bool
  | .bool value => some value
  | _ => none

/-- An integer between two bounds, both included. -/
def integer? (low high : Int) : Json → Option Int
  | .integer value => if low ≤ value ∧ value ≤ high then some value else none
  | _ => none

/-- A natural number of at most `bits` bits. -/
def natural? (bits : Nat) (json : Json) : Option Nat :=
  (json.integer? 0 ((1 <<< bits : Nat) - 1)).map Int.toNat

/-- A value that may be left out by writing `null`. -/
def optional? {α : Type} (read : Json → Option α) : Json → Option (Option α)
  | .null => some none
  | json => (read json).map some

/-- The values of an array, each read in the same way. -/
def list? {α : Type} (read : Json → Option α) : Json → Option (List α)
  | .array items => items.mapM read
  | _ => none

/-- A choice among named alternatives: a bare name, or an object whose only member is the name with
the contents of the alternative. -/
def choice? : Json → Option (Text × Option Json)
  | .string value => value.map fun name => (name, none)
  | .object [(key, contents)] => key.map fun name => (name, some contents)
  | _ => none

/-- The named fields of a record that are present. An object gives them by name; a name given twice
is refused and names that the record does not have are passed over. An array gives the fields in
their order, from the first. -/
def record? (names : List String) : Json → Option (List (String × Json))
  | .object members => do
    let keyed ← members.mapM fun (key, value) => key.map fun name => (String.ofList name, value)
    let known := keyed.filter fun (name, _) => names.contains name
    if (known.map (·.1)).Nodup then some known else none
  | .array items => if items.length ≤ names.length then some (names.zip items) else none
  | _ => none

/-- A field of a record that has a value when it is absent. -/
def fieldOr {α : Type} (fields : List (String × Json)) (name : String) (absent : α)
    (read : Json → Option α) : Option α :=
  match fields.lookup name with
  | none => some absent
  | some json => read json

/-- A field of a record that must be present. -/
def field {α : Type} (fields : List (String × Json)) (name : String)
    (read : Json → Option α) : Option α :=
  (fields.lookup name).bind read

end Json

end SignalAccess
