import SignalAccess.Data.Package
import SignalAccess.Proofs.Data.Axis

/-!
# Reading back structures and packages

The type table of a graph is read back whatever it declares. Items are read back by the types of the
table: an item without fault has the fields of its type in their order, and each field holds what
the type says, nested structures included. Writer and reader count the levels of nesting alike.

A package is read back under the code and the number of items that the header of its block carries.
A graph that travels as an object is read back if its document is.
-/

namespace SignalAccess

open Encoding

/-- The kind of a field is read back by its tag. -/
theorem FieldKind.readBack (part : Section) (kind : FieldKind) :
    ReadBack (kind.encode part) FieldKind.decode kind := by
  cases kind with
  | array type count =>
    exact (readBack_int32 0).cons <| (readBack_elementType type).cons <|
      ((readBack_count part count).map (FieldKind.array type)).single
  | text => exact (readBack_int32 1).bind (Decoder.reads_pure FieldKind.text)
  | structures type =>
    exact (readBack_int32 2).cons <| ((readBack_text part Limit.field type).map FieldKind.structures).single

/-- A field of a type is read back. -/
theorem FieldDefinition.readBack (part : Section) (field : FieldDefinition) :
    ReadBack (field.encode part) FieldDefinition.decode field :=
  (readBack_text part Limit.field field.name).cons
    ((field.kind.readBack part).map (FieldDefinition.mk field.name)).single

/-- A type is read back with its fields in their order. -/
theorem StructureType.readBack (part : Section) (type : StructureType) :
    ReadBack (type.encode part) StructureType.decode type := by
  have fields := readBack_repeated (FieldDefinition.encode part) FieldDefinition.decode id type.fields
    fun field _ => field.readBack part
  rw [List.map_id] at fields
  exact (readBack_text part Limit.field type.name).cons <|
    (readBack_count part type.fields.length).cons (fields.map (StructureType.mk type.name)).single

namespace FieldValue

variable (part : Section) {item : Text → Decoder Item}
  {itemFault? : Text → Item → Option ProtocolFault}

/-- Structures of one type are read back by their number, if each of them is. -/
theorem readBack_items {decoder : Decoder Item} (items : List Item)
    (each : ∀ inner ∈ items, ReadBack (encodeItem part inner) decoder inner) :
    ReadBack (encodeItems part items) (Decoder.repeated decoder items.length) items := by
  induction items with
  | nil => exact readBack_nil []
  | cons first others inductionHypothesis =>
    have rest := inductionHypothesis fun inner member =>
      each inner (List.mem_cons_of_mem first member)
    exact (each first List.mem_cons_self).cons (rest.map (first :: ·)).single

/-- The contents of a field are read back by the kind that they fit. Nested structures are read back
by the reader of their type, which is assumed of structures without fault only. -/
theorem readBack {kind : FieldKind} {mismatch : ProtocolFault} (value : FieldValue)
    (nested : ∀ type inner, itemFault? type inner = none →
      ReadBack (encodeItem part inner) (item type) inner)
    (sound : kind.fault? itemFault? mismatch value = none) :
    ReadBack (encode part value) (decode item kind) value := by
  cases value with
  | array elements =>
    cases kind with
    | array type count =>
      have announced : elements.areOf type count = true := by
        simpa [FieldKind.fault?] using sound
      obtain ⟨typed, counted⟩ := Elements.eq_of_areOf announced
      exact (Elements.readBack part typed counted).map FieldValue.array
    | text => cases sound
    | structures type => cases sound
  | text t =>
    have textual : kind = .text := by simpa [FieldKind.fault?] using sound
    subst textual
    exact (readBack_text part Limit.long t).map FieldValue.text
  | structures items =>
    cases kind with
    | array type count => cases sound
    | text => cases sound
    | structures type =>
      have each : ∀ inner ∈ items, ReadBack (encodeItem part inner) (item type) inner :=
        fun inner member => nested type inner (List.findSome?_eq_none_iff.mp sound inner member)
      exact (readBack_count part items.length).cons
        ((readBack_items part items each).map FieldValue.structures).single

/-- The contents of all fields are read back by the fields of their type, pair by pair. -/
theorem readBack_fields (mismatch : FieldDefinition → ProtocolFault)
    (fields : List FieldDefinition) (values : Item) (width : fields.length = values.length)
    (nested : ∀ type inner, itemFault? type inner = none →
      ReadBack (encodeItem part inner) (item type) inner)
    (sound : ∀ pair ∈ fields.zip values,
      pair.1.kind.fault? itemFault? (mismatch pair.1) pair.2 = none) :
    ReadBack (encodeItem part values)
      (Decoder.forEach (fun field => decode item field.kind) fields) values := by
  induction fields generalizing values with
  | nil =>
    cases values with
    | nil => exact readBack_nil []
    | cons value others => simp at width
  | cons field fields inductionHypothesis =>
    cases values with
    | nil => simp at width
    | cons value values =>
      have otherWidth : fields.length = values.length := Nat.succ.inj width
      have first := sound (field, value) List.mem_cons_self
      have rest := inductionHypothesis values otherWidth fun pair member =>
        sound pair (List.mem_cons_of_mem (field, value) member)
      exact (readBack part value nested first).cons (rest.map (value :: ·)).single

end FieldValue

namespace StructureGraph

/-- An item without fault is read back by its type. Induction is on the levels of structures that
are left, which writer and reader count down together. -/
theorem readBack_item (part : Section) (types : List StructureType) (levels : Nat) (name : Text)
    (item : Item) (sound : itemFault? types levels name item = none) :
    ReadBack (FieldValue.encodeItem part item) (decodeItem types levels name) item := by
  induction levels generalizing name item with
  | zero => cases sound
  | succ levels inductionHypothesis =>
    unfold itemFault? at sound
    unfold decodeItem
    cases found : findType? types name with
    | none => simp [found] at sound
    | some type =>
      by_cases width : type.fields.length = item.length
      · simp only [found, width, ne_eq, not_true_eq_false, ↓reduceIte] at sound
        exact FieldValue.readBack_fields part (fun field => .fieldMismatch type.name field.name)
          type.fields item width inductionHypothesis (List.findSome?_eq_none_iff.mp sound)
      · simp [found, width] at sound

/-- A graph that can be written is read back under the number of its items. -/
theorem readBack (part : Section) (graph : StructureGraph) :
    ReadBack (graph.encode part) (decode graph.items.length) graph := by
  apply readBack_checked
  intro faultless
  have types := readBack_repeated (StructureType.encode part) StructureType.decode id graph.types
    fun type _ => type.readBack part
  rw [List.map_id] at types
  have items := FieldValue.readBack_items part graph.items fun item member =>
    readBack_item part graph.types (maxDepth + 1) graph.itemType item
      (List.findSome?_eq_none_iff.mp faultless item member)
  refine (readBack_count part graph.types.length).cons <| types.cons <|
    (readBack_text part Limit.field carrier).cons ?_
  rw [if_neg (not_not_intro rfl)]
  refine (readBack_count part graph.items.length).cons ?_
  rw [if_neg (not_not_intro rfl)]
  exact (readBack_text part Limit.field graph.itemType).cons
    (items.map (StructureGraph.mk graph.types graph.itemType)).single

end StructureGraph

namespace Package

/-- Whether a graph that travels as an object is read back from its document. Other packages travel
in forms of their own. -/
def ObjectReadBack : Package → Prop
  | .object graph => StructureGraph.ofObject graph.toObject = .ok graph
  | _ => True

/-- A package is read back under its code and its number of items. -/
theorem readBack (part : Section) (package : Package) (object : package.ObjectReadBack) :
    ReadBack (package.encode part) (decode package.code package.count) package := by
  have contents : ReadBack (package.encode part) (decodeContents package.code package.count)
      package := by
    cases package with
    | file bytes => exact (readBack_blob part bytes).map Package.file
    | structures graph => exact (graph.readBack part).map Package.structures
    | object graph =>
      have known : StructureGraph.ofObject graph.toObject = .ok graph := object
      refine (readBack_blob part graph.toObject).bind ?_
      simpa only [known] using Decoder.reads_pure (Package.object graph)
  refine contents.bind ?_
  simpa using Decoder.reads_pure package

end Package

end SignalAccess
