import SignalAccess.Data.Structure.Basic
/-!
# Structures on the wire

The type table comes first, then the carrier of the items with their number and type, then the items,
field by field. The items are read by the types of the table, and what is read has the shape that
the table declares.
-/
namespace SignalAccess

/-- What a field holds, on the wire: a tag and what belongs to it. -/
def FieldKind.encode (part : Section) : FieldKind → Encoding
  | .array type count => .joined [.int32 0, .int32 type.code, .count part count]
  | .text => .int32 1
  | .structures type => .joined [.int32 2, .text part Limit.field type]

/-- Reads what a field holds. -/
def FieldKind.decode : Decoder FieldKind := do
  let tag ← Decoder.int32
  if tag = 0 then
    let type ← Decoder.elementType
    let count ← Decoder.count
    return .array type count
  else if tag = 1 then return .text
  else if tag = 2 then return .structures (← Decoder.text Limit.field)
  else .refuse (.unknownFieldTag tag)

/-- A field of a type, on the wire. -/
def FieldDefinition.encode (part : Section) (field : FieldDefinition) : Encoding :=
  .joined [.text part Limit.field field.name, field.kind.encode part]

/-- Reads a field of a type. -/
def FieldDefinition.decode : Decoder FieldDefinition := do
  let name ← Decoder.text Limit.field
  let kind ← FieldKind.decode
  return ⟨name, kind⟩

/-- A type, on the wire. -/
def StructureType.encode (part : Section) (type : StructureType) : Encoding :=
  .joined [.text part Limit.field type.name, .count part type.fields.length,
    .joined (type.fields.map (·.encode part))]

/-- Reads a type. -/
def StructureType.decode : Decoder StructureType := do
  let name ← Decoder.text Limit.field
  let count ← Decoder.count
  let fields ← Decoder.repeated FieldDefinition.decode count
  return ⟨name, fields⟩

namespace FieldValue

mutual

/-- The contents of a field, on the wire. -/
def encode (part : Section) : FieldValue → Encoding
  | .array elements => elements.encode part
  | .text t => .text part Limit.long t
  | .structures items => .joined [.count part items.length, encodeItems part items]

/-- A structure, on the wire: the contents of its fields. -/
def encodeItem (part : Section) : Item → Encoding
  | [] => .ok []
  | value :: values => .joined [encode part value, encodeItem part values]

/-- Structures, on the wire. -/
def encodeItems (part : Section) : List Item → Encoding
  | [] => .ok []
  | item :: items => .joined [encodeItem part item, encodeItems part items]

end

/-- Reads the contents of a field. -/
def decode (item : Text → Decoder Item) : FieldKind → Decoder FieldValue
  | .array type count => do return .array (← Elements.decode type count)
  | .text => do return .text (← Decoder.text Limit.long)
  | .structures type => do return .structures (← Decoder.repeated (item type) (← Decoder.count))

end FieldValue

namespace StructureGraph

/-- The name of the carrier of the items. -/
def carrier : Text := "SArray".toList

/-- A graph on the wire. -/
def encode (part : Section) (graph : StructureGraph) : Encoding :=
  .checked part graph.fault? <|
    .joined [.count part graph.types.length, .joined (graph.types.map (·.encode part)),
      .text part Limit.field carrier, .count part graph.items.length,
      .text part Limit.field graph.itemType, FieldValue.encodeItems part graph.items]

/-- Reads an item of a type, when `levels` levels of structures are left. -/
def decodeItem (types : List StructureType) : (levels : Nat) → (type : Text) → Decoder Item
  | 0, _ => .refuse .structureTooDeep
  | levels + 1, name =>
    match findType? types name with
    | none => .refuse (.unknownStructureType name)
    | some type =>
      Decoder.forEach (fun field => FieldValue.decode (decodeItem types levels) field.kind)
        type.fields

/-- Reads a graph with a declared number of items. -/
def decode (declared : Nat) : Decoder StructureGraph := do
  let types ← Decoder.repeated StructureType.decode (← Decoder.count)
  let name ← Decoder.text Limit.field
  if name ≠ carrier then .refuse (.unexpectedCarrier name carrier)
  else
    let count ← Decoder.count
    if count ≠ declared then .refuse (.carrierCount count declared)
    else
      let itemType ← Decoder.text Limit.field
      let items ← Decoder.repeated (decodeItem types (maxDepth + 1) itemType) count
      return ⟨types, itemType, items⟩

end StructureGraph

end SignalAccess
