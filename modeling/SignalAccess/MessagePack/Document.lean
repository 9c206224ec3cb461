import SignalAccess.MessagePack.Head
/-!
# MessagePack documents

A document is one value; collections hold values in turn. Texts are kept as their bytes, because a
document may hold texts that are not UTF-8 in places that nobody reads. Bytes behind the document
are left alone.
-/
namespace SignalAccess.MessagePack

/-- A MessagePack value. -/
inductive Document where
  | nil
  | boolean (b : Bool)
  /-- An integer that is written without a sign. -/
  | natural (n : Nat)
  /-- An integer that is written with a sign. -/
  | signed (i : Int)
  | single (x : Binary32)
  | double (x : Binary64)
  | text (bytes : Bytes)
  | binary (bytes : Bytes)
  | array (items : List Document)
  /-- Keys with their values. -/
  | map (entries : List (Document × Document))
  | extension (type : UInt8) (bytes : Bytes)

namespace Document

/-- The value of an integer, which has a sign only where it needs one. -/
def ofInt (i : Int) : Document := if 0 ≤ i then .natural i.toNat else .signed i

/-- The integer of a document, with or without a sign. -/
def integer? : Document → Option Int
  | .natural n => some n
  | .signed i => some i
  | _ => none

/-- An integer is read back from its value. -/
theorem integer?_ofInt (i : Int) : (ofInt i).integer? = some i := by
  unfold ofInt
  split
  · next nonneg => simp [integer?, Int.toNat_of_nonneg nonneg]
  · rfl

/-- The value of a text. -/
def ofText (t : Text) : Document := .text t.utf8

/-- A map whose keys are names. -/
def record (entries : List (String × Document)) : Document :=
  .map (entries.map fun (name, value) => (ofText name.toList, value))

mutual

/-- The bytes of a document. -/
def encode : Document → Bytes
  | .nil => Head.nil.encode
  | .boolean b => (Head.boolean b).encode
  | .natural n => (Head.natural n).encode
  | .signed i => (Head.signed i).encode
  | .single x => (Head.single x).encode
  | .double x => (Head.double x).encode
  | .text bytes => (Head.text bytes.length).encode ++ bytes
  | .binary bytes => (Head.binary bytes.length).encode ++ bytes
  | .array items => (Head.array items.length).encode ++ encodeItems items
  | .map entries => (Head.map entries.length).encode ++ encodeEntries entries
  | .extension type bytes => (Head.extension type bytes.length).encode ++ bytes

/-- The bytes of values one behind the other. -/
def encodeItems : List Document → Bytes
  | [] => []
  | item :: items => encode item ++ encodeItems items

/-- The bytes of keys with their values. -/
def encodeEntries : List (Document × Document) → Bytes
  | [] => []
  | (key, value) :: entries => encode key ++ encode value ++ encodeEntries entries

end

mutual

/-- How deep collections and extensions lie within each other in a document. -/
def depth : Document → Nat
  | .array items => 1 + itemsDepth items
  | .map entries => 1 + entriesDepth entries
  | .extension .. => 1
  | _ => 0

/-- The depth of the deepest value. -/
def itemsDepth : List Document → Nat
  | [] => 0
  | item :: items => max (depth item) (itemsDepth items)

/-- The depth of the deepest key or value. -/
def entriesDepth : List (Document × Document) → Nat
  | [] => 0
  | (key, value) :: entries => max (max (depth key) (depth value)) (entriesDepth entries)

end

/-- Reads a number of things one behind the other. -/
def readMany {α : Type} (read : Bytes → Option (α × Bytes)) :
    (size : Nat) → Bytes → Option (List α × Bytes)
  | 0, bytes => some ([], bytes)
  | size + 1, bytes => do
    let (first, rest) ← read bytes
    let (others, rest) ← readMany read size rest
    return (first :: others, rest)

/-- Reads a key and its value. -/
def readEntry {α : Type} (read : Bytes → Option (α × Bytes)) (bytes : Bytes) :
    Option ((α × α) × Bytes) := do
  let (key, rest) ← read bytes
  let (value, rest) ← read rest
  return ((key, value), rest)

/-- Reads the value at the front of some bytes, in which collections lie within each other at most
`levels` deep. -/
def read : (levels : Nat) → Bytes → Option (Document × Bytes)
  | 0, _ => none
  | levels + 1, bytes => do
    let (head, rest) ← Head.read bytes
    match head with
    | .nil => return (.nil, rest)
    | .boolean b => return (.boolean b, rest)
    | .natural n => return (.natural n, rest)
    | .signed i => return (.signed i, rest)
    | .single x => return (.single x, rest)
    | .double x => return (.double x, rest)
    | .text size => return (← Head.split? size rest).map .text id
    | .binary size => return (← Head.split? size rest).map .binary id
    | .array size => return (← readMany (read levels) size rest).map .array id
    | .map size => return (← readMany (readEntry (read levels)) size rest).map .map id
    | .extension type size => return (← Head.split? size rest).map (.extension type) id

/-- The document at the front of some bytes. Collections cannot lie within each other deeper than
there are bytes. -/
def ofBytes? (bytes : Bytes) : Option Document := (read (bytes.length + 1) bytes).map (·.1)

end Document

end SignalAccess.MessagePack
