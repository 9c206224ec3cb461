import SignalAccess.MessagePack.Document
/-!
# Reading typed values from documents

A record is a map from the names of its fields, or an array of their values in order. Fields that
nobody asked for are passed over. A choice among names is the name, its number, or a map whose one
key is the name and whose value goes with it. The number of a name carries no sign, while any other
number may. Collections are counted on the way down: a value is read where `levels` further ones may
lie within each other.
-/
namespace SignalAccess.MessagePack

namespace Document

/-- The most collections that lie within each other on the way to a value. -/
def maxLevels : Nat := 1023

/-- The number of the name that a document refers to. -/
def choose? (names : List String) : Document → Option Nat
  | .text bytes | .binary bytes => names.findIdx? fun name => Text.utf8 name.toList == bytes
  | .natural n => if n < names.length then some n else none
  | _ => none

/-- Whether a document can be the key of a field, known or not. -/
def isKey : Document → Bool
  | .text _ | .binary _ | .natural _ => true
  | _ => false

/-- The name that a document chooses, and the value that goes with it if there is one. -/
def variant? (names : List String) : Document → Option (Nat × Option Document)
  | .map [(key, content)] => (choose? names key).map (·, some content)
  | .map _ => none
  | document => (choose? names document).map (·, none)

/-- The values of the named fields of a record. Each field is there exactly once; fields with other
names may be there, too. -/
def fields? (names : List String) : (levels : Nat) → Document → Option (List Document)
  | 0, _ => none
  | levels + 1, .map entries => do
    guard (entries.all fun (key, value) =>
      key.isKey && ((choose? names key).isSome || value.depth ≤ levels))
    (List.range names.length).mapM fun field =>
      match entries.filter fun (key, _) => choose? names key == some field with
      | [(_, value)] => some value
      | _ => none
  | _ + 1, .array items => if items.length = names.length then some items else none
  | _, _ => none

/-- The values of a list. Bytes can stand for an empty list. -/
def list? {α : Type} (item? : (levels : Nat) → Document → Option α) :
    (levels : Nat) → Document → Option (List α)
  | levels + 1, .array items => items.mapM (item? levels)
  | _, .binary [] => some []
  | _, _ => none

/-- The values of a list of numbers. Bytes are a list of the numbers that they are. -/
def numbers? {α : Type} (item? : (levels : Nat) → Document → Option α) :
    (levels : Nat) → Document → Option (List α)
  | levels + 1, .array items => items.mapM (item? levels)
  | levels, .binary bytes => bytes.mapM fun byte => item? levels (.natural byte.toNat)
  | _, _ => none

/-- The text of a document. -/
def text? : Document → Option Text
  | .text bytes | .binary bytes => Text.ofUtf8? bytes
  | _ => none

/-- The number of a document that is a size. -/
def size? (document : Document) : Option Nat :=
  document.integer?.bind fun i => if 0 ≤ i ∧ i < UInt64.size then some i.toNat else none

/-- The number of a document as a narrow floating point number. -/
def single? : Document → Option Binary32
  | .single x => some x
  | .double x => some x.toSingle
  | document => document.integer?.map fun i => ⟨UInt32.ofNat (BinaryFormat.single.round false i)⟩

/-- The number of a document as a wide floating point number. -/
def double? : Document → Option Binary64
  | .single x => some (.ofSingle x)
  | .double x => some x
  | document => document.integer?.map .ofInt

end Document

end SignalAccess.MessagePack
