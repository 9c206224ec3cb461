import SignalAccess.Proofs.Data.Nesting
import SignalAccess.Proofs.MessagePack.Heads
import SignalAccess.Proofs.Wire.Written

/-!
# Reading back objects

A graph that travels as an object is read back from its document. Every part of a graph is read back
from its own document: each name is that of one type or kind only, each number of an element is that
of its word, whatever the type. What a part needs is levels: the reader counts the collections on the
way down, and a graph that has more of them than the reader admits is refused. No other graph is.

What goes into the bytes is read out of them if the numbers of the document fit. Elements always do;
the counts that a table declares do if they are counts of a machine; and sizes do in any object that
can be put into a block.
-/

namespace SignalAccess

open MessagePack

/-- Members that are read under a condition each are all read under all conditions. -/
theorem mapM_cons_ite {α β : Type} {f : α → Option β} {a : α} {as : List α} {b : β} {bs : List β}
    {p q : Prop} [Decidable p] [Decidable q] (first : f a = if p then some b else none)
    (others : as.mapM f = if q then some bs else none) :
    (a :: as).mapM f = if p ∧ q then some (b :: bs) else none := by
  rw [List.mapM_cons, first, others]
  by_cases holds : p <;> by_cases alsoHolds : q <;> simp [holds, alsoHolds]

namespace FlatType

/-- The value of a word is read back from its document. A complex number is a record and needs a
level. -/
theorem valueOf?_toDocument (type : FlatType) (word : BitVec (8 * type.width)) (levels : Nat) :
    type.valueOf? levels (type.value word).toDocument =
      if type.reading = .complex → 0 < levels then some (type.value word) else none := by
  cases type
  case float => rfl
  case double => rfl
  case complex => cases levels <;> rfl
  case doubleComplex => cases levels <;> rfl
  all_goals simp [valueOf?, value, ElementValue.toDocument, Document.integer?_ofInt, reading]

/-- A word is read back from the document of its value. -/
theorem word?_of_toDocument (type : FlatType) (word : BitVec (8 * type.width)) (levels : Nat) :
    (type.valueOf? levels (type.value word).toDocument >>= type.word?) =
      if type.reading = .complex → 0 < levels then some word else none := by
  rw [valueOf?_toDocument]
  split
  · exact type.word?_value word
  · rfl

end FlatType

namespace Elements

/-- The levels that elements take: one for their list, and one for the records of complex numbers. -/
def levels (elements : Elements) : Nat :=
  if elements.type.reading = .complex ∧ elements.words ≠ [] then 2 else 1

/-- Words are read back from the documents of their values. -/
theorem words_of_toDocuments (type : FlatType) (words : List (BitVec (8 * type.width)))
    (levels : Nat) :
    (words.map fun word => (type.value word).toDocument).mapM
        (fun item => type.valueOf? levels item >>= type.word?) =
      if type.reading = .complex ∧ words ≠ [] → 0 < levels then some words else none := by
  induction words with
  | nil => simp
  | cons word words inductionHypothesis =>
    have first := type.word?_of_toDocument word levels
    have same : ((type.reading = .complex → 0 < levels) ∧
        (type.reading = .complex ∧ words ≠ [] → 0 < levels)) ↔
          (type.reading = .complex ∧ word :: words ≠ [] → 0 < levels) := by
      simp +contextual
    rw [List.map_cons, mapM_cons_ite (f := fun item => type.valueOf? levels item >>= type.word?)
      first inductionHypothesis]
    simp only [same]

/-- Elements are read back from their document, whatever their type. -/
theorem ofDocument?_toDocument (elements : Elements) (n : Nat) :
    ofDocument? n elements.toDocument = if elements.levels ≤ n then some elements else none := by
  obtain ⟨type, words⟩ := elements
  have chosen (content : Document) :
      ∃ number, (Document.record [((ElementType.flat type).name, content)]).variant?
        FlatType.names = some (number, some content) ∧ FlatType.all[number]? = some type := by
    cases type <;> exact ⟨_, rfl, rfl⟩
  obtain ⟨number, named, listed⟩ :=
    chosen (.array (words.map fun word => (type.value word).toDocument))
  have opened : ofDocument? n (toDocument ⟨type, words⟩) =
      Document.numbers? (fun levels item => type.valueOf? levels item >>= type.word?) n
        (.array (words.map fun word => (type.value word).toDocument)) >>= fun words =>
          some ⟨type, words⟩ := by
    simp only [ofDocument?, toDocument, elementType, named, listed, Option.bind_eq_bind,
      Option.bind_some]
    rfl
  rw [opened, levels]
  cases n with
  | zero => split <;> rfl
  | succ n =>
    have enough : (if type.reading = .complex ∧ words ≠ [] then 2 else 1) ≤ n + 1 ↔
        (type.reading = .complex ∧ words ≠ [] → 0 < n) := by
      split
      · next paired =>
        exact ⟨fun more _ => by omega, fun given => Nat.succ_le_succ (given paired)⟩
      · next flat => exact ⟨fun _ paired => absurd paired flat, fun _ => by omega⟩
    rw [Document.numbers?, words_of_toDocuments]
    simp only [enough]
    split <;> rfl

end Elements

/-! ## Items -/

namespace FieldValue

mutual

/-- The levels that the contents of a field take: structures take one for their list. -/
def levels : FieldValue → Nat
  | .array elements => elements.levels
  | .text _ => 0
  | .structures items => 1 + levelsAll items

/-- The levels that the contents of some fields take. -/
def levelsWithin : Item → Nat
  | [] => 0
  | value :: values => max (levels value) (levelsWithin values)

/-- The levels that some structures take: each has one for its record and one for its fields. -/
def levelsAll : List Item → Nat
  | [] => 0
  | item :: items => max (2 + levelsWithin item) (levelsAll items)

end

/-- Contents of a field are read back by their kind. -/
theorem ofDocument?_structures (items? : Document → Option (List Item)) (n : Nat)
    (items : List Item) :
    ofDocument? items? n (toDocument (.structures items)) =
      (items? (.array (itemDocuments items))).map .structures := by
  rw [toDocument]
  have chosen (content : Document) : (Document.record [("Structures", content)]).variant?
      FieldKind.names = some (2, some content) := rfl
  simp only [ofDocument?, chosen, Option.bind_eq_bind, Option.bind_some, Option.map_eq_bind]
  rfl

/-- The document of an array is read as one of elements. -/
theorem ofDocument?_array (items? : Document → Option (List Item)) (n : Nat) (elements : Elements) :
    ofDocument? items? n (toDocument (.array elements)) =
      (Elements.ofDocument? n elements.toDocument).map .array := by
  rw [toDocument]
  have chosen (content : Document) : (Document.record [("Array", content)]).variant?
      FieldKind.names = some (0, some content) := rfl
  simp only [ofDocument?, chosen, Option.bind_eq_bind, Option.bind_some, Option.map_eq_bind]
  rfl

/-- The document of a text is read back. -/
theorem ofDocument?_text (items? : Document → Option (List Item)) (n : Nat) (t : Text) :
    ofDocument? items? n (toDocument (.text t)) = some (.text t) := by
  rw [toDocument]
  have chosen (content : Document) : (Document.record [("Text", content)]).variant?
      FieldKind.names = some (1, some content) := rfl
  simp only [ofDocument?, chosen, Option.bind_eq_bind, Option.bind_some]
  simp [Document.ofText, Document.text?, Text.ofUtf8?_utf8]

mutual

/-- Contents of a field are read back from their document, if they have no more levels than there
are. -/
theorem ofDocument?_toDocument : (value : FieldValue) → (n : Nat) →
    ofDocument? (itemsOf? n) n (toDocument value) = if levels value ≤ n then some value else none
  | .array elements, n => by
    rw [ofDocument?_array, Elements.ofDocument?_toDocument, levels]
    split <;> rfl
  | .text t, n => by
    rw [ofDocument?_text, levels, if_pos (Nat.zero_le n)]
  | .structures items, n => by
    rw [ofDocument?_structures, itemsOf?_itemDocuments items n, levels]
    split <;> rfl

/-- Contents of fields are read back. -/
theorem mapM_toDocuments : (item : Item) → (n : Nat) →
    (toDocuments item).mapM (ofDocument? (itemsOf? n) n) =
      if levelsWithin item ≤ n then some item else none
  | [], n => by
    rw [levelsWithin, if_pos (Nat.zero_le n)]
    rfl
  | value :: values, n => by
    rw [toDocuments, mapM_cons_ite (ofDocument?_toDocument value n) (mapM_toDocuments values n),
      levelsWithin]
    simp only [Nat.max_le]

/-- Structures are read back. -/
theorem mapM_itemDocuments : (items : List Item) → (n : Nat) →
    (itemDocuments items).mapM (itemOf? n) = if levelsAll items ≤ n then some items else none
  | [], n => by
    rw [levelsAll, if_pos (Nat.zero_le n)]
    rfl
  | item :: items, n => by
    have first : itemOf? n (.record [("fields", .array (toDocuments item))]) =
        if 2 + levelsWithin item ≤ n then some item else none := by
      match n with
      | 0 => rw [itemOf?, if_neg (by omega)]
      | 1 => rw [itemOf?, Document.fields?_record, if_neg (by omega)]; rfl
      | n + 2 =>
        rw [itemOf?, Document.fields?_record]
        simp only [valuesOf?]
        rw [mapM_toDocuments item n]
        simp only [Nat.add_comm 2, Nat.add_le_add_iff_right]
    rw [itemDocuments, mapM_cons_ite first (mapM_itemDocuments items n), levelsAll]
    simp only [Nat.max_le]

/-- A list of structures is read back. -/
theorem itemsOf?_itemDocuments : (items : List Item) → (n : Nat) →
    itemsOf? n (.array (itemDocuments items)) =
      if 1 + levelsAll items ≤ n then some items else none
  | items, 0 => by
    rw [if_neg (by omega)]
    rfl
  | items, n + 1 => by
    rw [itemsOf?, mapM_itemDocuments items n]
    simp only [Nat.add_comm 1, Nat.add_le_add_iff_right]

end

end FieldValue

/-! ## Type tables -/

/-- A document that is made of a text has that text. -/
theorem MessagePack.Document.text?_ofText (t : Text) : (ofText t).text? = some t :=
  Text.ofUtf8?_utf8 t

/-- A type is read back by its name. -/
theorem ElementType.ofDocument?_toDocument (type : ElementType) :
    ofDocument? type.toDocument = some type := by
  rcases type with _ | flat | _ | _ | _ | _ | _ | _
  case flat => cases flat <;> rfl
  all_goals rfl

/-- The number that a field declares is one of a machine. -/
def FieldKind.CountFits : FieldKind → Prop
  | .array _ count => count < UInt64.size
  | _ => True

/-- A kind of field is read back. -/
theorem FieldKind.ofDocument?_toDocument {kind : FieldKind} (fits : kind.CountFits) (n : Nat) :
    ofDocument? (n + 1) kind.toDocument = some kind := by
  cases kind with
  | array type count =>
    have chosen (content : Document) : (Document.record [("Array", content)]).variant? names =
        some (0, some content) := rfl
    have fields (type count : Document) : (Document.record [("data_type", type),
        ("count", count)]).fields? ["data_type", "count"] (n + 1) = some [type, count] := rfl
    have inRange : 0 ≤ (count : Int) ∧ (count : Int) < UInt64.size :=
      ⟨Int.natCast_nonneg count, Int.ofNat_lt.mpr fits⟩
    have counted : (Document.natural count).size? = some count := by
      rw [Document.size?, Document.integer?, Option.bind_some, if_pos inRange, Int.toNat_natCast]
    simp [ofDocument?, toDocument, chosen, fields, ElementType.ofDocument?_toDocument, counted]
  | text => rfl
  | structures type =>
    have chosen (content : Document) : (Document.record [("Structures", content)]).variant? names =
        some (2, some content) := rfl
    simp [ofDocument?, toDocument, chosen, Document.text?_ofText]

/-- A field of a type is read back. -/
theorem FieldDefinition.ofDocument?_toDocument {field : FieldDefinition}
    (fits : field.kind.CountFits) (n : Nat) :
    ofDocument? (n + 2) field.toDocument = some field := by
  have fields (name kind : Document) : (Document.record [("name", name), ("kind", kind)]).fields?
      ["name", "kind"] (n + 2) = some [name, kind] := rfl
  simp [ofDocument?, toDocument, fields, Document.text?_ofText,
    FieldKind.ofDocument?_toDocument fits]

/-- Members of a list are read back if each of them is. -/
theorem MessagePack.Document.list?_map {α : Type} {item? : Nat → Document → Option α}
    {toDocument : α → Document} {n : Nat} {members : List α}
    (each : ∀ a ∈ members, item? n (toDocument a) = some a) :
    list? item? (n + 1) (.array (members.map toDocument)) = some members := by
  rw [list?]
  induction members with
  | nil => rfl
  | cons a members inductionHypothesis =>
    obtain ⟨first, others⟩ := List.forall_mem_cons.mp each
    rw [List.map_cons, List.mapM_cons, first, inductionHypothesis others]
    rfl

/-- A type is read back with its fields in their order. -/
theorem StructureType.ofDocument?_toDocument {type : StructureType}
    (fits : ∀ field ∈ type.fields, field.kind.CountFits) (n : Nat) :
    ofDocument? (n + 4) type.toDocument = some type := by
  have fields (name values : Document) : (Document.record [("name", name),
      ("fields", values)]).fields? ["name", "fields"] (n + 4) = some [name, values] := rfl
  have each (field : FieldDefinition) (member : field ∈ type.fields) :
      FieldDefinition.ofDocument? (n + 2) field.toDocument = some field :=
    FieldDefinition.ofDocument?_toDocument (fits field member) n
  have listed := Document.list?_map each
  simp [ofDocument?, toDocument, fields, Document.text?_ofText, listed]

namespace StructureGraph

/-- The numbers that the table of a graph declares are those of a machine. -/
def CountsFit (graph : StructureGraph) : Prop :=
  ∀ type ∈ graph.types, ∀ field ∈ type.fields, field.kind.CountFits

/-- The levels that the items of a graph take, with its record and their list. Its table never takes
more than six. -/
def levels (graph : StructureGraph) : Nat := 2 + FieldValue.levelsAll graph.items

/-- A graph is read back from its document exactly if it has no more levels than there are. -/
theorem ofDocument?_toDocument {graph : StructureGraph} (counts : graph.CountsFit) (n : Nat) :
    ofDocument? (n + 6) graph.toDocument = if graph.levels ≤ n + 6 then some graph else none := by
  have fields (types itemType items : Document) :
      (Document.record [("types", types), ("item_type", itemType), ("items", items)]).fields?
        ["types", "item_type", "items"] (n + 6) = some [types, itemType, items] := rfl
  have each (type : StructureType) (member : type ∈ graph.types) :
      StructureType.ofDocument? (n + 4) type.toDocument = some type :=
    StructureType.ofDocument?_toDocument (counts type member) n
  have table := Document.list?_map each
  have enough : 1 + FieldValue.levelsAll graph.items ≤ n + 5 ↔ graph.levels ≤ n + 6 := by
    unfold levels
    omega
  simp only [ofDocument?, toDocument, fields, table, Document.text?_ofText,
    FieldValue.itemsOf?_itemDocuments, enough, Option.bind_eq_bind, Option.bind_some]
  split <;> rfl

end StructureGraph

/-! ## Integers -/

/-- An integer of at most 64 bits fits, with or without a sign. -/
theorem MessagePack.Document.integersFit_ofInt {i : Int} (low : Int64.minValue.toInt ≤ i)
    (high : i < UInt64.size) : (ofInt i).Heads Head.IntegerFits := by
  have least : Int64.minValue.toInt = -0x8000000000000000 := rfl
  have greatest : Int64.maxValue.toInt = 0x7fffffffffffffff := rfl
  unfold ofInt
  split
  · next nonneg => exact (Int.toNat_lt nonneg).mpr high
  · exact ⟨low, by omega⟩

namespace FlatType

/-- The integer of a word of at most 64 bits fits, read with a sign or without. -/
theorem integersFit_ofWord {n : Nat} (narrow : n ≤ 64) (word : BitVec n) (p : Prop) [Decidable p] :
    (Document.ofInt (if p then word.toInt else word.toNat)).Heads Head.IntegerFits := by
  have naturals : 2 ^ n ≤ 2 ^ 64 := Nat.pow_le_pow_right (by decide) narrow
  have power : (2 : Int) ^ n ≤ 2 ^ 64 := by exact_mod_cast naturals
  have least : Int64.minValue.toInt = -0x8000000000000000 := rfl
  have words : (UInt64.size : Int) = 0x10000000000000000 := rfl
  have low := BitVec.le_two_mul_toInt (x := word)
  have high := BitVec.two_mul_toInt_lt (x := word)
  have below : (word.toNat : Int) < 2 ^ n := by exact_mod_cast word.isLt
  split
  · exact Document.integersFit_ofInt (by omega) (by omega)
  · exact Document.integersFit_ofInt (by omega) (by omega)

/-- The integers in the document of a value fit, whatever the word. -/
theorem integersFit_toDocument (type : FlatType) (word : BitVec (8 * type.width)) :
    (type.value word).toDocument.Heads Head.IntegerFits := by
  cases type
  case float => trivial
  case double => trivial
  case complex => exact Document.integersFit_record (by simp [Document.Heads, Head.IntegerFits])
  case doubleComplex =>
    exact Document.integersFit_record (by simp [Document.Heads, Head.IntegerFits])
  all_goals exact integersFit_ofWord (by decide) word _

end FlatType

/-- The integers of any elements fit. -/
theorem Elements.integersFit_toDocument (elements : Elements) :
    elements.toDocument.Heads Head.IntegerFits := by
  refine Document.integersFit_record_singleton (Document.integersFit_array fun item member => ?_)
  obtain ⟨word, -, rfl⟩ := List.mem_map.mp member
  exact elements.type.integersFit_toDocument word

namespace FieldValue

mutual

/-- The integers in the contents of any field fit. -/
theorem integersFit_toDocument : (value : FieldValue) →
    (toDocument value).Heads Head.IntegerFits
  | .array elements => by
    rw [toDocument]
    exact Document.integersFit_record_singleton elements.integersFit_toDocument
  | .text t => by
    rw [toDocument]
    exact Document.integersFit_record_singleton trivial
  | .structures items => by
    rw [toDocument]
    exact Document.integersFit_record_singleton ⟨trivial, integersFit_itemDocuments items⟩

/-- The integers in the documents of a structure are those of a machine. -/
theorem integersFit_toDocuments : (item : Item) →
    Document.ItemsHeads Head.IntegerFits (toDocuments item)
  | [] => trivial
  | value :: values => ⟨integersFit_toDocument value, integersFit_toDocuments values⟩

/-- The integers in the documents of some structures are those of a machine. -/
theorem integersFit_itemDocuments : (items : List Item) →
    Document.ItemsHeads Head.IntegerFits (itemDocuments items)
  | [] => trivial
  | item :: items =>
    ⟨Document.integersFit_record_singleton ⟨trivial, integersFit_toDocuments item⟩,
      integersFit_itemDocuments items⟩

end

end FieldValue

/-- The integers of a kind of field fit if its count does. -/
theorem FieldKind.integersFit_toDocument {kind : FieldKind} (fits : kind.CountFits) :
    kind.toDocument.Heads Head.IntegerFits := by
  cases kind with
  | array type count =>
    refine Document.integersFit_record_singleton (Document.integersFit_record fun entry member => ?_)
    simp only [List.mem_cons, List.not_mem_nil, or_false] at member
    rcases member with rfl | rfl
    · trivial
    · exact fits
  | text => trivial
  | structures type => exact Document.integersFit_record_singleton trivial

/-- The integers of a type fit if the counts of its fields do. -/
theorem StructureType.integersFit_toDocument {type : StructureType}
    (fits : ∀ field ∈ type.fields, field.kind.CountFits) :
    type.toDocument.Heads Head.IntegerFits := by
  refine Document.integersFit_record fun entry member => ?_
  simp only [List.mem_cons, List.not_mem_nil, or_false] at member
  rcases member with rfl | rfl
  · trivial
  · refine Document.integersFit_array fun item listed => ?_
    obtain ⟨field, inFields, rfl⟩ := List.mem_map.mp listed
    refine Document.integersFit_record fun entry member => ?_
    simp only [List.mem_cons, List.not_mem_nil, or_false] at member
    rcases member with rfl | rfl
    · trivial
    · exact FieldKind.integersFit_toDocument (fits field inFields)

namespace StructureGraph

/-- The integers of a graph fit if the counts of its table do. -/
theorem integersFit_toDocument {graph : StructureGraph} (counts : graph.CountsFit) :
    graph.toDocument.Heads Head.IntegerFits := by
  refine Document.integersFit_record fun entry member => ?_
  simp only [List.mem_cons, List.not_mem_nil, or_false] at member
  rcases member with rfl | rfl | rfl
  · refine Document.integersFit_array fun item listed => ?_
    obtain ⟨type, inTable, rfl⟩ := List.mem_map.mp listed
    exact StructureType.integersFit_toDocument (counts type inTable)
  · trivial
  · exact ⟨trivial, FieldValue.integersFit_itemDocuments graph.items⟩

/-- A graph is read back from its object exactly if it has no more levels than the reader of documents
admits. -/
theorem ofObject_toObject_iff {graph : StructureGraph} (counts : graph.CountsFit)
    (sizes : graph.toDocument.Heads Head.SizeFits) :
    ofObject graph.toObject = .ok graph ↔ graph.levels ≤ Document.maxLevels := by
  have fits := Document.fits_of_heads _ (integersFit_toDocument counts) sizes
  have read : ofDocument? Document.maxLevels graph.toDocument =
      if graph.levels ≤ Document.maxLevels then some graph else none :=
    ofDocument?_toDocument counts 1017
  unfold ofObject
  rw [toObject, Document.ofBytes?_encode fits, Option.bind_eq_bind, Option.bind_some, read]
  by_cases within : graph.levels ≤ Document.maxLevels
  · simp [within]
  · simp [within]

end StructureGraph

/-- A package can be written as an object exactly if the number of its bytes fits a word. -/
theorem Package.isWritten_object_iff (part : Section) (graph : StructureGraph) :
    ((Package.object graph).encode part).IsWritten ↔ graph.toObject.length < UInt32.size := by
  constructor
  · rintro ⟨bytes, written⟩
    obtain ⟨front, -, counted, -⟩ := Encoding.joined_cons_eq_ok written
    unfold Encoding.count at counted
    split at counted
    · next fits => exact fits
    · cases counted
  · exact Encoding.isWritten_blob

/-- Objects round-trip. A graph is read back from its MessagePack document, whatever its table of types
and its elements, exactly if its collections lie no deeper than the reader admits; MessagePack has no
heads for sizes wider than a word, so a graph with a longer text or list has no document. Inside a
package a graph is read back from the bytes behind their number, which can be written exactly if that
number fits a word. Elements are compared by their words, so floating point values keep every bit. -/
theorem StructureGraph.object_round_trip (graph : StructureGraph) (counts : graph.CountsFit) :
    (graph.toDocument.Heads Head.SizeFits →
      (ofObject graph.toObject = .ok graph ↔ graph.levels ≤ Document.maxLevels)) ∧
    (graph.levels ≤ Document.maxLevels → ∀ part : Section,
      (((Package.object graph).encode part).IsWritten ↔ graph.toObject.length < UInt32.size) ∧
      ((Package.object graph).encode part).ReadBack
        (Package.decode (Package.object graph).code (Package.object graph).count)
        (.object graph)) := by
  refine ⟨ofObject_toObject_iff counts, fun within part =>
    ⟨Package.isWritten_object_iff part graph, ?_⟩⟩
  refine Encoding.ReadBack.of_written fun bytes written => ?_
  have short := (Package.isWritten_object_iff part graph).mp ⟨bytes, written⟩
  have sizes := Document.sizesFit_of_length _ (integersFit_toDocument counts) short
  exact (Package.object graph).readBack part ((ofObject_toObject_iff counts sizes).mpr within)

/-- A cell in a cell. The outer one holds the least integer of 64 bits and a complex number made of a
NaN and a negative zero; the inner one holds the greatest integer and no number. -/
def StructureGraph.cells : StructureGraph where
  types := [⟨"Cell".toList, [⟨"extreme".toList, .array (.flat .long64) 1⟩,
    ⟨"impedance".toList, .array (.flat .complex) 1⟩, ⟨"inner".toList, .structures "Cell".toList⟩]⟩]
  itemType := "Cell".toList
  items := [[.array ⟨.long64, [0x8000000000000000]⟩, .array ⟨.complex, [0x7fc0000180000000]⟩,
    .structures [[.array ⟨.long64, [0x7fffffffffffffff]⟩, .array ⟨.complex, []⟩, .structures []]]]]

set_option maxRecDepth 4000 in
/-- The cells take eight levels, and come back. -/
theorem StructureGraph.object_round_trip_cells :
    cells.levels = 8 ∧ ofObject cells.toObject = .ok cells ∧
      ((Package.object cells).encode .package).IsWritten := by
  have counts : cells.CountsFit := by
    intro type member field inType
    obtain rfl := List.mem_singleton.mp member
    simp only [List.mem_cons, List.not_mem_nil, or_false] at inType
    rcases inType with rfl | rfl | rfl
    · exact (by decide : 1 < UInt64.size)
    · exact (by decide : 1 < UInt64.size)
    · trivial
  have depth : cells.levels = 8 := rfl
  have within : cells.levels ≤ Document.maxLevels := by decide
  have short : cells.toObject.length < UInt32.size := by decide
  have sizes := Document.sizesFit_of_length _ (integersFit_toDocument counts) short
  obtain ⟨document, package⟩ := object_round_trip cells counts
  exact ⟨depth, (document sizes).mpr within, ((package within .package).1).mpr short⟩

end SignalAccess
