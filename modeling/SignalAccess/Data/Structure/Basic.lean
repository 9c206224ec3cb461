import SignalAccess.Data.Elements
/-!
# Structures

Data that are no row of elements are structures of user-defined types. A graph carries the table of
its types, so that a receiver needs to know none of them beforehand, and items of one of the types.
The fields of a structure are arrays of a fixed number of elements, texts, or any number of
structures of another type; how deep structures lie within each other is limited.
-/
namespace SignalAccess

/-- What a field holds. -/
inductive FieldKind where
  /-- A number of elements. -/
  | array (type : ElementType) (count : Nat)
  | text
  /-- Any number of structures of a type. -/
  | structures (type : Text)
  deriving DecidableEq, Repr

/-- A field of a type. -/
structure FieldDefinition where
  name : Text
  kind : FieldKind
  deriving DecidableEq, Repr

/-- A user-defined type. -/
structure StructureType where
  name : Text
  fields : List FieldDefinition
  deriving DecidableEq, Repr

/-- The contents of a field. A structure is the list of its fields' contents. -/
inductive FieldValue where
  | array (elements : Elements)
  | text (text : Text)
  | structures (items : List (List FieldValue))

/-- The contents of the fields of a structure, in the order of its type. -/
abbrev Item := List FieldValue

/-- A table of types, and items of one of them. -/
structure StructureGraph where
  types : List StructureType
  itemType : Text
  items : List Item

namespace StructureGraph

/-- The most levels that structures lie below an item of the graph. -/
def maxDepth : Nat := 64

/-- The type that a table lists first under a name. -/
def findType? (types : List StructureType) (name : Text) : Option StructureType :=
  types.find? (·.name == name)

end StructureGraph

namespace FieldKind

/-- What is wrong with the contents of a field, if anything is. The contents are of the wrong kind,
or there is a fault in one of the structures that they hold. -/
def fault? (kind : FieldKind) (itemFault? : Text → Item → Option ProtocolFault)
    (mismatch : ProtocolFault) : FieldValue → Option ProtocolFault
  | .array elements =>
    match kind with
    | .array type count => if elements.areOf type count then none else some mismatch
    | _ => some mismatch
  | .text _ => if kind = .text then none else some mismatch
  | .structures items =>
    match kind with
    | .structures type => items.findSome? (itemFault? type)
    | _ => some mismatch

end FieldKind

namespace StructureGraph

/-- What is wrong with an item of a type, if anything is, when `levels` levels of structures are
left. -/
def itemFault? (types : List StructureType) :
    (levels : Nat) → (type : Text) → Item → Option ProtocolFault
  | 0, _, _ => some .structureTooDeep
  | levels + 1, name, item =>
    match findType? types name with
    | none => some (.unknownStructureType name)
    | some type =>
      if type.fields.length ≠ item.length then
        some (.fieldCountMismatch type.name type.fields.length item.length)
      else
        (type.fields.zip item).findSome? fun (field, value) =>
          field.kind.fault? (itemFault? types levels) (.fieldMismatch type.name field.name) value

/-- What is wrong with a graph, if anything is. -/
def fault? (graph : StructureGraph) : Option ProtocolFault :=
  graph.items.findSome? (itemFault? graph.types (maxDepth + 1) graph.itemType)

end StructureGraph

end SignalAccess
