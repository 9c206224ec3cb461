import SignalAccess.Data.ElementValue
import SignalAccess.Data.Structure.Basic
import SignalAccess.MessagePack.Reading
/-!
# Structures as documents

A graph as one MessagePack document, for peers that exchange it as an object. Records are written
as maps from the names of their fields, and kinds and contents of fields as a name with what goes
with it.
-/
namespace SignalAccess

open MessagePack

/-- A pair of numbers as a document. -/
def ElementValue.pair (real imaginary : Document) : Document :=
  .record [("real", real), ("imaginary", imaginary)]

/-- A value as a document. -/
def ElementValue.toDocument : ElementValue → Document
  | .integer i => .ofInt i
  | .single x => .single x
  | .double x => .double x
  | .singlePair x y => pair (.single x) (.single y)
  | .doublePair x y => pair (.double x) (.double y)

/-- The parts of a pair of numbers. Of bytes that stand for a pair, the first two are its parts. -/
def ElementValue.pair? {α : Type} (part? : Document → Option α) (levels : Nat) :
    Document → Option (α × α)
  | .binary (real :: imaginary :: _) => do
    return (← part? (.natural real.toNat), ← part? (.natural imaginary.toNat))
  | document =>
    match document.fields? ["real", "imaginary"] levels with
    | some [real, imaginary] => do return (← part? real, ← part? imaginary)
    | _ => none

namespace FlatType

/-- The value of a type that a document stands for. -/
def valueOf? (type : FlatType) (levels : Nat) (document : Document) : Option ElementValue :=
  match type with
  | .float => document.single?.map .single
  | .double => document.double?.map .double
  | .complex => (ElementValue.pair? Document.single? levels document).map fun (x, y) => .singlePair x y
  | .doubleComplex =>
    (ElementValue.pair? Document.double? levels document).map fun (x, y) => .doublePair x y
  | _ => document.integer?.map .integer

/-- The names of the flat types. -/
def names : List String := all.map fun type => (ElementType.flat type).name

end FlatType

namespace Elements

/-- Elements as a document: the name of their type with the list of their values. -/
def toDocument (elements : Elements) : Document :=
  .record [(elements.elementType.name,
    .array (elements.words.map fun word => (elements.type.value word).toDocument))]

/-- The elements that a document stands for. -/
def ofDocument? (levels : Nat) (document : Document) : Option Elements := do
  let (number, content) ← document.variant? FlatType.names
  let type ← FlatType.all[number]?
  let words ← Document.numbers? (fun levels item => type.valueOf? levels item >>= type.word?)
    levels (← content)
  return ⟨type, words⟩

end Elements

/-- A type as a document. -/
def ElementType.toDocument (type : ElementType) : Document := .ofText type.name.toList

/-- The type that a document names. -/
def ElementType.ofDocument? (document : Document) : Option ElementType := do
  let (number, content) ← document.variant? (all.map (·.name))
  match content with
  | none | some .nil => all[number]?
  | _ => none

namespace FieldKind

/-- The names of what a field can hold. -/
def names : List String := ["Array", "Text", "Structures"]

/-- A kind of field as a document. -/
def toDocument : FieldKind → Document
  | .array type count =>
    .record [("Array", .record [("data_type", type.toDocument), ("count", .natural count)])]
  | .text => .ofText "Text".toList
  | .structures type => .record [("Structures", .ofText type)]

/-- The kind of field that a document stands for. -/
def ofDocument? (levels : Nat) (document : Document) : Option FieldKind := do
  match ← document.variant? names with
  | (0, some content) =>
    match ← content.fields? ["data_type", "count"] levels with
    | [type, count] => return .array (← ElementType.ofDocument? type) (← count.size?)
    | _ => none
  | (1, none) | (1, some .nil) => return .text
  | (2, some content) => return .structures (← content.text?)
  | _ => none

end FieldKind

namespace FieldDefinition

/-- A field of a type as a document. -/
def toDocument (field : FieldDefinition) : Document :=
  .record [("name", .ofText field.name), ("kind", field.kind.toDocument)]

/-- The field of a type that a document stands for. -/
def ofDocument? : (levels : Nat) → Document → Option FieldDefinition
  | 0, _ => none
  | levels + 1, document => do
    match ← document.fields? ["name", "kind"] (levels + 1) with
    | [name, kind] => return ⟨← name.text?, ← FieldKind.ofDocument? levels kind⟩
    | _ => none

end FieldDefinition

namespace StructureType

/-- A type as a document. -/
def toDocument (type : StructureType) : Document :=
  .record [("name", .ofText type.name), ("fields", .array (type.fields.map (·.toDocument)))]

/-- The type that a document stands for. -/
def ofDocument? : (levels : Nat) → Document → Option StructureType
  | 0, _ => none
  | levels + 1, document => do
    match ← document.fields? ["name", "fields"] (levels + 1) with
    | [name, fields] =>
      return ⟨← name.text?, ← Document.list? FieldDefinition.ofDocument? levels fields⟩
    | _ => none

end StructureType

namespace FieldValue

mutual

/-- The contents of a field as a document. -/
def toDocument : FieldValue → Document
  | .array elements => .record [("Array", elements.toDocument)]
  | .text t => .record [("Text", .ofText t)]
  | .structures items => .record [("Structures", .array (itemDocuments items))]

/-- The contents of fields as documents. -/
def toDocuments : Item → List Document
  | [] => []
  | value :: values => toDocument value :: toDocuments values

/-- Structures as documents: each a record of its one list of fields. -/
def itemDocuments : List Item → List Document
  | [] => []
  | item :: items => .record [("fields", .array (toDocuments item))] :: itemDocuments items

end

/-- The contents of a field that a document stands for. -/
def ofDocument? (items? : Document → Option (List Item)) (levels : Nat) (document : Document) :
    Option FieldValue := do
  match ← document.variant? FieldKind.names with
  | (0, some content) => return .array (← Elements.ofDocument? levels content)
  | (1, some content) => return .text (← content.text?)
  | (2, some content) => return .structures (← items? content)
  | _ => none

mutual

/-- The structures that a document stands for. -/
def itemsOf? : (levels : Nat) → Document → Option (List Item)
  | levels + 1, .array items => items.mapM (itemOf? levels)
  | _, .binary [] => some []
  | _, _ => none

/-- The structure that a document stands for. -/
def itemOf? : (levels : Nat) → Document → Option Item
  | 0, _ => none
  | levels + 1, document =>
    match document.fields? ["fields"] (levels + 1) with
    | some [values] => valuesOf? levels values
    | _ => none

/-- The contents of fields that a document stands for. -/
def valuesOf? : (levels : Nat) → Document → Option Item
  | levels + 1, .array values => values.mapM (ofDocument? (itemsOf? levels) levels)
  | _, .binary [] => some []
  | _, _ => none

end

end FieldValue

namespace StructureGraph

/-- A graph as a document. -/
def toDocument (graph : StructureGraph) : Document :=
  .record [("types", .array (graph.types.map (·.toDocument))),
    ("item_type", .ofText graph.itemType),
    ("items", .array (FieldValue.itemDocuments graph.items))]

/-- The graph that a document stands for. -/
def ofDocument? : (levels : Nat) → Document → Option StructureGraph
  | 0, _ => none
  | levels + 1, document => do
    match ← document.fields? ["types", "item_type", "items"] (levels + 1) with
    | [types, itemType, items] =>
      return {
        types := ← Document.list? StructureType.ofDocument? levels types
        itemType := ← itemType.text?
        items := ← FieldValue.itemsOf? levels items }
    | _ => none

/-- The bytes of a graph as an object. -/
def toObject (graph : StructureGraph) : Bytes := graph.toDocument.encode

/-- The graph whose object is given. -/
def ofObject (bytes : Bytes) : Except Failure StructureGraph :=
  match Document.ofBytes? bytes >>= ofDocument? Document.maxLevels with
  | some graph => .ok graph
  | none => .error (.messagePackDecoding "the document is no structure graph".toList)

end StructureGraph

end SignalAccess
