import SignalAccess.Proofs.Data.Block
import SignalAccess.Proofs.Wire.Written

/-!
# Types that a peer knows

The codes of types stand in five places of a block: for the elements, for their errors, for each axis
and its errors, and for the arrays of the fields in the type table of a package. The writer checks the
first four before anything else, and a block that announces a type which the peer does not know is
refused for this reason whatever else is wrong with it. The type table is written as it is: the types
in it are known to the peer exactly if they happen to be.
-/

namespace SignalAccess

/-! ## Places of codes -/

/-- The codes of some types stand in the bytes, in the order of the types and each in a place of its
own. -/
inductive Carries : List ElementType → Bytes → Prop where
  | none (bytes : Bytes) : Carries [] bytes
  | code (front : Bytes) (type : ElementType) {types : List ElementType} {back : Bytes}
      (others : Carries types back) : Carries (type :: types) (front ++ Word.int32 type.code ++ back)

namespace Carries

variable {types others : List ElementType} {front back : Bytes}

/-- Bytes in front do no harm. -/
theorem behind (front : Bytes) (carried : Carries types back) : Carries types (front ++ back) := by
  cases carried with
  | none => exact none _
  | code first type carried =>
    have moved := code (front ++ first) type carried
    simpa only [List.append_assoc] using moved

/-- What stands in two runs of bytes stands in both of them together. -/
theorem append (first : Carries types front) (second : Carries others back) :
    Carries (types ++ others) (front ++ back) := by
  induction first with
  | none bytes => exact second.behind bytes
  | code before type carried inductionHypothesis =>
    have joined := code before type inductionHypothesis
    simpa only [List.append_assoc, List.cons_append] using joined

end Carries

namespace Encoding

/-- The codes of some types stand in the piece, if it can be written. -/
def Puts (piece : Encoding) (types : List ElementType) : Prop :=
  ∀ bytes, piece = .ok bytes → Carries types bytes

variable {piece : Encoding} {pieces : List Encoding} {types others : List ElementType}

/-- Every piece has the codes of no types. -/
theorem puts_none (piece : Encoding) : piece.Puts [] := fun bytes _ => .none bytes

/-- The code of a type stands in the piece that is made of it. -/
theorem puts_code (type : ElementType) : Puts (int32 type.code) [type] := by
  rintro _ ⟨rfl⟩
  simpa using Carries.code [] type (.none [])

/-- Pieces put what each of them puts. -/
theorem Puts.cons (first : piece.Puts types) (rest : (joined pieces).Puts others) :
    (joined (piece :: pieces)).Puts (types ++ others) := by
  intro bytes done
  obtain ⟨front, back, frontWritten, backWritten, rfl⟩ := joined_cons_eq_ok done
  exact (first front frontWritten).append (rest back backWritten)

/-- A piece without codes in front. -/
theorem Puts.behind (rest : (joined pieces).Puts types) : (joined (piece :: pieces)).Puts types :=
  (puts_none piece).cons rest

/-- One piece alone. -/
theorem Puts.single (only : piece.Puts types) : (joined [piece]).Puts types := by
  simpa using only.cons (puts_none (joined []))

/-- The codes of each member of a list stand in the joined pieces, in the order of the members. -/
theorem puts_map {α : Type} {encode : α → Encoding} {placed : α → List ElementType}
    (each : ∀ a, (encode a).Puts (placed a)) (members : List α) :
    (joined (members.map encode)).Puts (members.flatMap placed) := by
  induction members with
  | nil => exact puts_none _
  | cons a others inductionHypothesis => exact (each a).cons inductionHypothesis

/-- A check in front of a piece takes no code from it. -/
theorem Puts.checked {part : Section} {fault : Option ProtocolFault} (puts : piece.Puts types) :
    (checked part fault piece).Puts types := by
  intro bytes done
  exact puts bytes (faultless_of_checked done).2

end Encoding

open Encoding

/-! ## Where the types of a block stand -/

/-- The type whose code the wire has for what a field holds. -/
def FieldKind.codedType? : FieldKind → Option ElementType
  | .array type _ => some type
  | _ => none

/-- The types whose codes stand in the type table, in their order. -/
def StructureGraph.tableTypes (graph : StructureGraph) : List ElementType :=
  graph.types.flatMap fun type => type.fields.flatMap fun field => field.kind.codedType?.toList

/-- The types in the table of a package. Only packages in the form of the wire have codes of types;
the document of an object names its types. -/
def Package.tableTypes : Package → List ElementType
  | .structures graph => graph.tableTypes
  | _ => []

namespace Block

/-- The types in the table of a block's package. -/
def tableTypes (block : Block) : List ElementType :=
  (block.package.map (·.tableTypes)).getD []

/-- The types whose codes go on the wire with a block: for the elements and their errors, for each
axis and its errors, and for the type table of the package. -/
def wireTypes (block : Block) : List ElementType := block.announcedTypes ++ block.tableTypes

end Block

section Places

variable {part : Section}

/-- The kind of a field puts the code of its type, if it has one. -/
theorem FieldKind.puts_encode (kind : FieldKind) :
    (kind.encode part).Puts kind.codedType?.toList := by
  cases kind with
  | array type count => exact Puts.behind ((puts_code type).cons (puts_none _))
  | text => exact puts_none _
  | structures type => exact puts_none _

/-- A type of structures puts the codes of its fields. -/
theorem StructureType.puts_encode (type : StructureType) :
    (type.encode part).Puts (type.fields.flatMap fun field => field.kind.codedType?.toList) := by
  refine Puts.behind (Puts.behind (puts_map (fun field => ?_) type.fields).single)
  exact Puts.behind field.kind.puts_encode.single

/-- A package puts the codes of its table. -/
theorem Package.puts_encode (package : Package) : (package.encode part).Puts package.tableTypes := by
  cases package with
  | file bytes => exact puts_none _
  | object graph => exact puts_none _
  | structures graph =>
    have table : (joined (graph.types.map (·.encode part))).Puts _ :=
      puts_map (fun type => type.puts_encode) graph.types
    have whole := table.cons (puts_none (joined [.text part Limit.field StructureGraph.carrier,
      .count part graph.items.length, .text part Limit.field graph.itemType,
      FieldValue.encodeItems part graph.items]))
    rw [List.append_nil] at whole
    exact whole.behind.checked

/-- The header of error bars puts the type of the errors. -/
theorem ErrorBars.puts_header (bars : ErrorBars) : (bars.header.encode part).Puts [bars.type] :=
  (puts_code bars.type).cons (puts_none _)

/-- The header of an axis puts the types of its coordinates and of their errors. -/
theorem Axis.puts_header (axis : Axis) :
    (axis.header.encode part).Puts [axis.type, axis.errors.type] :=
  (puts_code axis.type).cons (axis.errors.puts_header.cons (puts_none _))

/-- The axes put the code of each of them in front of that of its errors. -/
theorem Axis.puts_encodeAll (axes : List Axis) :
    (encodeAll part axes).Puts (axes.flatMap fun axis => [axis.type, axis.errors.type]) := by
  have headers : (joined (axes.map fun axis => checked part axis.fault? (axis.header.encode part))).Puts
      (axes.flatMap fun axis => [axis.type, axis.errors.type]) :=
    puts_map (fun axis => axis.puts_header.checked) axes
  have whole := headers.cons (puts_none (joined [joined (axes.map (·.coordinates.encode part)),
    joined (axes.map (·.errors.encode part))]))
  rwa [List.append_nil] at whole

/-- The header of a block puts the types of its elements and of their errors. -/
theorem Block.puts_header (version : Version) (block : Block) :
    (block.header.encode version).Puts [block.type, block.errors.type] :=
  Puts.behind <| Puts.behind <| Puts.behind <|
    (puts_code block.type).cons (block.errors.puts_header.cons (puts_none _))

/-- A block that is written carries the codes of all its types. -/
theorem Block.puts_encode (version : Version) (block : Block) :
    (block.encode version).Puts block.wireTypes := by
  intro bytes written
  unfold encode at written
  split at written
  · cases written
  · have package : Puts ((block.package.map fun package => package.encode .package).getD (.ok []))
        block.tableTypes := by
      unfold tableTypes
      cases block.package with
      | none => exact puts_none _
      | some package => exact package.puts_encode
    have contents : block.encodeContents.Puts _ :=
      ((Axis.puts_encodeAll block.axes).cons package.single).behind.behind
    have whole := ((block.puts_header version).cons contents.single).checked bytes written
    simpa [wireTypes, announcedTypes] using whole

end Places

/-! ## How a block is refused -/

section Refusals

variable {part : Section}

/-- The kind of a field is refused in the section that it is written in. -/
theorem FieldKind.refusedIn_encode (kind : FieldKind) : (kind.encode part).RefusedIn part := by
  cases kind with
  | array type count =>
    apply refusedIn_joined
    simp [refusedIn_int32, refusedIn_count]
  | text => exact refusedIn_int32 1
  | structures type =>
    apply refusedIn_joined
    simp [refusedIn_int32, refusedIn_text]

/-- A type of structures is refused in the section that it is written in. -/
theorem StructureType.refusedIn_encode (type : StructureType) :
    (type.encode part).RefusedIn part := by
  have fields : (joined (type.fields.map (·.encode part))).RefusedIn part := by
    refine refusedIn_map fun field _ => refusedIn_joined ?_
    simp [refusedIn_text, field.kind.refusedIn_encode]
  apply refusedIn_joined
  simp [refusedIn_text, refusedIn_count, fields]

namespace FieldValue

mutual

/-- The contents of a field are refused in the section to which they belong. Recursion follows the
structures among the contents. -/
theorem refusedIn_encode : (value : FieldValue) → (encode part value).RefusedIn part
  | .array elements => refusedIn_words elements.words
  | .text t => refusedIn_text Limit.long t
  | .structures items => by
    have rest := refusedIn_encodeItems items
    rw [encode]
    apply refusedIn_joined
    simp [refusedIn_count, rest]

/-- A structure is refused in the section to which it belongs, whatever its fields hold. -/
theorem refusedIn_encodeItem : (item : Item) → (encodeItem part item).RefusedIn part
  | [] => refusedIn_ok []
  | value :: values => by
    have first := refusedIn_encode value
    have rest := refusedIn_encodeItem values
    rw [encodeItem]
    apply refusedIn_joined
    simp [first, rest]

/-- Some structures are refused in the section to which they belong. -/
theorem refusedIn_encodeItems : (items : List Item) → (encodeItems part items).RefusedIn part
  | [] => refusedIn_ok []
  | item :: items => by
    have first := refusedIn_encodeItem item
    have rest := refusedIn_encodeItems items
    rw [encodeItems]
    apply refusedIn_joined
    simp [first, rest]

end

end FieldValue

/-- A package is refused in the section that it is written in. -/
theorem Package.refusedIn_encode (package : Package) : (package.encode part).RefusedIn part := by
  cases package with
  | file bytes => exact refusedIn_blob bytes
  | object graph => exact refusedIn_blob graph.toObject
  | structures graph =>
    have table : (joined (graph.types.map (·.encode part))).RefusedIn part :=
      refusedIn_map fun type _ => type.refusedIn_encode
    refine refusedIn_checked (refusedIn_joined ?_)
    simp [refusedIn_count, refusedIn_text, FieldValue.refusedIn_encodeItems, table]

/-- Elements are refused in the section that they are written in. -/
theorem Elements.refusedIn_encode (elements : Elements) : (elements.encode part).RefusedIn part :=
  refusedIn_words elements.words

/-- A row that may be absent. -/
theorem Elements.refusedIn_encode? (elements : Option Elements) :
    RefusedIn part ((elements.map (·.encode part)).getD (.ok [])) := by
  cases elements with
  | none => exact refusedIn_ok []
  | some elements => exact elements.refusedIn_encode

/-- The header of error bars is refused in the section that it is written in. -/
theorem ErrorBars.refusedIn_header (header : ErrorBars.Header) :
    (header.encode part).RefusedIn part := by
  apply refusedIn_joined
  simp [refusedIn_int32, refusedIn_truth, refusedIn_count]

/-- Error bars are refused in the section that they are written in. -/
theorem ErrorBars.refusedIn_encode (bars : ErrorBars) : (bars.encode part).RefusedIn part := by
  apply refusedIn_joined
  simp only [List.mem_cons, List.not_mem_nil, or_false, forall_eq_or_imp, forall_eq]
  exact ⟨refusedIn_ite (refusedIn_ok []) (refusedIn_words _), Elements.refusedIn_encode? bars.upper,
    Elements.refusedIn_encode? bars.lower⟩

/-- The coordinates of an axis are refused in the section that they are written in. -/
theorem Coordinates.refusedIn_encode (coordinates : Coordinates) :
    (coordinates.encode part).RefusedIn part := by
  cases coordinates with
  | literal values => exact values.refusedIn_encode
  | linear start step => exact refusedIn_ok []
  | runs lengths starts steps =>
    apply refusedIn_joined
    simp [refusedIn_words, Elements.refusedIn_encode]
  | offsets values => exact values.refusedIn_encode
  | sequence length start step =>
    apply refusedIn_joined
    simp [Elements.refusedIn_encode]

/-- The header of an axis is refused in the section that it is written in. -/
theorem Axis.refusedIn_header (axis : Axis) : (axis.header.encode part).RefusedIn part := by
  apply refusedIn_joined
  simp [refusedIn_int32, ErrorBars.refusedIn_header, refusedIn_count, refusedIn_truth,
    refusedIn_float64, refusedIn_text]

/-- The axes of a block are refused in the section that they are written in. -/
theorem Axis.refusedIn_encodeAll (axes : List Axis) : (encodeAll part axes).RefusedIn part := by
  have headers : (joined (axes.map fun axis =>
      checked part axis.fault? (axis.header.encode part))).RefusedIn part :=
    refusedIn_map fun axis _ => refusedIn_checked axis.refusedIn_header
  have coordinates : (joined (axes.map (·.coordinates.encode part))).RefusedIn part :=
    refusedIn_map fun axis _ => axis.coordinates.refusedIn_encode
  have errors : (joined (axes.map (·.errors.encode part))).RefusedIn part :=
    refusedIn_map fun axis _ => axis.errors.refusedIn_encode
  apply refusedIn_joined
  simp [headers, coordinates, errors]

end Refusals

namespace Block

/-- The header of a block is refused in the section of headers. -/
theorem refusedIn_header (version : Version) (block : Block) :
    (block.header.encode version).RefusedIn .header := by
  apply refusedIn_joined
  simp only [List.mem_cons, List.not_mem_nil, or_false, forall_eq_or_imp, forall_eq]
  refine ⟨refusedIn_count _, refusedIn_count _, refusedIn_int32 _, refusedIn_int32 _,
    ErrorBars.refusedIn_header _, refusedIn_int32 _, refusedIn_int32 _, refusedIn_int32 _,
    refusedIn_text _ _, refusedIn_text _ _, refusedIn_text _ _, refusedIn_text _ _, ?_⟩
  refine refusedIn_ite (refusedIn_joined ?_) (refusedIn_ok [])
  simp [refusedIn_int32, refusedIn_count]

/-- The sections that a block is made of. -/
def sections : List Section := [.header, .data, .axis, .package]

/-- A block with known types is refused, if at all, in one of its sections. -/
theorem refused_section {version : Version} {block : Block} {failure : Failure}
    (known : block.unknownType? version = none) (refused : block.encode version = .error failure) :
    ∃ part ∈ sections, ∃ fault, failure = .protocol part fault := by
  rw [encode, known] at refused
  have ofPiece {part : Section} {piece : Encoding} (listed : part ∈ sections)
      (within : piece.RefusedIn part) (failed : piece = .error failure) :
      ∃ part ∈ sections, ∃ fault, failure = .protocol part fault :=
    ⟨part, listed, within failure failed⟩
  cases faulty : block.fault? version with
  | some fault =>
    rw [faulty] at refused
    exact ofPiece List.mem_cons_self (refusedIn_refuse fault) refused
  | none =>
    rw [faulty] at refused
    obtain ⟨piece, member, failed⟩ := refused_of_joined refused
    simp only [List.mem_cons, List.not_mem_nil, or_false] at member
    rcases member with rfl | rfl
    · exact ofPiece (by decide) (block.refusedIn_header version) failed
    · obtain ⟨piece, member, failed⟩ := refused_of_joined failed
      simp only [List.mem_cons, List.not_mem_nil, or_false] at member
      rcases member with rfl | rfl | rfl | rfl
      · have elements : RefusedIn .data
            ((block.elements.map fun elements => elements.encode .data).getD (.ok [])) :=
          Elements.refusedIn_encode? block.elements
        exact ofPiece (by decide) (refusedIn_ite (refusedIn_ok []) elements) failed
      · have errors : (block.errors.encode .data).RefusedIn .data := block.errors.refusedIn_encode
        exact ofPiece (by decide) errors failed
      · have axes : (Axis.encodeAll .axis block.axes).RefusedIn .axis :=
          Axis.refusedIn_encodeAll block.axes
        exact ofPiece (by decide) axes failed
      · have package : RefusedIn .package
            ((block.package.map fun package => package.encode .package).getD (.ok [])) := by
          cases block.package with
          | none => exact refusedIn_ok []
          | some package => exact package.refusedIn_encode
        exact ofPiece (by decide) package failed

/-- A block is refused against the version of the peer exactly if it announces an unknown type, and
then for the first such type. -/
theorem encode_refused_version_iff {version : Version} {block : Block} :
    (∃ failure, block.encode version = .error failure ∧ failure.code = Section.version) ↔
      ∃ type ∈ block.announcedTypes, ¬ version.knows type := by
  constructor
  · rintro ⟨failure, refused, code⟩
    cases found : block.unknownType? version with
    | some type =>
      exact ⟨type, List.mem_of_find?_eq_some found, by simpa using List.find?_some found⟩
    | none =>
      obtain ⟨part, listed, fault, same⟩ := refused_section found refused
      rw [same] at code
      have other : part = Section.version := code
      rw [other] at listed
      exact absurd listed (by decide)
  · rintro ⟨type, announced, unknown⟩
    cases found : block.unknownType? version with
    | some first =>
      refine ⟨.protocol .version (.typeUnavailable first version), ?_, rfl⟩
      rw [encode, found]
      rfl
    | none =>
      have known := List.find?_eq_none.mp found type announced
      simp [unknown] at known

end Block

/-- What the writer knows of types. A block is refused with the code of the version exactly if the
peer does not know one of the types that the block announces for its elements, its axes and their
errors. A block that is written carries the codes of all its types, and the peer knows all of them
exactly if it knows those of the package's type table, which no check has seen. -/
theorem block_encode_availability (version : Version) (block : Block) :
    ((∃ failure, block.encode version = .error failure ∧ failure.code = Section.version) ↔
      ∃ type ∈ block.announcedTypes, ¬ version.knows type) ∧
    ∀ bytes, block.encode version = .ok bytes →
      Carries block.wireTypes bytes ∧
      ((∀ type ∈ block.wireTypes, version.knows type) ↔
        ∀ type ∈ block.tableTypes, version.knows type) := by
  refine ⟨Block.encode_refused_version_iff, fun bytes written => ⟨?_, ?_⟩⟩
  · exact block.puts_encode version bytes written
  · have announced : ∀ type ∈ block.announcedTypes, version.knows type := by
      intro type member
      refine Classical.byContradiction fun unknown => ?_
      obtain ⟨failure, refused, -⟩ := Block.encode_refused_version_iff.mpr ⟨type, member, unknown⟩
      rw [written] at refused
      cases refused
    rw [Block.wireTypes, List.forall_mem_append]
    exact ⟨fun all => all.2, fun table => ⟨announced, table⟩⟩

/-- A graph with a text as an array of characters. -/
def StructureGraph.worded : StructureGraph where
  types := [⟨"T".toList, [⟨"s".toList, .array (.flat .string) 1⟩]⟩]
  itemType := "T".toList
  items := [[.array ⟨.string, [65]⟩]]

/-- A peer of version 6 knows all types of the block with the graph. -/
theorem block_encode_availability_worded :
    ∃ bytes, (Block.ofPackage (.structures .worded)).encode 6 = .ok bytes ∧
      Carries [.compound, .unknown, .flat .string] bytes ∧
      ∀ type ∈ (Block.ofPackage (.structures .worded)).wireTypes, Version.knows 6 type := by
  obtain ⟨-, written⟩ := block_encode_availability 6 (.ofPackage (.structures .worded))
  have placed := written _ rfl
  exact ⟨_, rfl, placed.1, placed.2.mpr (by decide)⟩

/-- Not every type that goes on the wire is known: a peer of version 4 is sent the code of texts in
the type table of a package, though it would be refused a block of texts. -/
theorem not_forall_wireTypes_known :
    ¬ ∀ (version : Version) (block : Block) (bytes : Bytes), block.encode version = .ok bytes →
      ∀ type ∈ block.wireTypes, version.knows type := by
  intro claim
  have known := claim 4 (.ofPackage (.structures .worded)) _ rfl (.flat .string) (by decide)
  exact absurd known (by decide)

end SignalAccess
