import SignalAccess.Proofs.Data.Writable

/-!
# Structures, packages and blocks that were read

The items of a graph are read by the types of its table, so what is read has the shape that the
writer checks, nested structures included: reader and writer look types up alike and count levels
alike. Of a package that is an object nothing is known but that its document was one of a graph;
whether the graph is written and read again as itself is a matter of the documents.

A block that was read is sound at any version, since a version without packages reads none. From
version 6 on every type is known, so nothing else keeps the block from being written.
-/

namespace SignalAccess

open Encoding Decoder

/-! ## Structures -/

section Structures

variable (part : Section)

/-- The kind of a field that is read can be written. -/
theorem FieldKind.yields_decode :
    FieldKind.decode.Yields fun kind => (kind.encode part).IsWritten := by
  refine Yields.behind fun tag => Yields.ite (fun _ => ?_) fun _ =>
    Yields.ite (fun _ => yields_pure (isWritten_int32 1)) fun _ =>
      Yields.ite (fun _ => ?_) fun _ => yields_refuse _
  · refine Yields.behind fun type => yields_count.map fun count fits => ?_
    apply isWritten_joined_cons (isWritten_int32 0)
    apply isWritten_joined_cons (isWritten_int32 type.code)
    exact isWritten_joined_cons (isWritten_count fits) (isWritten_ok [])
  · refine (yields_text Limit.field).map fun type within => ?_
    apply isWritten_joined_cons (isWritten_int32 2)
    exact isWritten_joined_cons (isWritten_text within Limit.field_lt) (isWritten_ok [])

/-- The definition of a field that is read can be written. -/
theorem FieldDefinition.yields_decode :
    FieldDefinition.decode.Yields fun field => (field.encode part).IsWritten := by
  refine (yields_text Limit.field).bind fun name within => ?_
  refine (FieldKind.yields_decode part).map fun kind kindWritten => ?_
  apply isWritten_joined_cons (isWritten_text within Limit.field_lt)
  exact isWritten_joined_cons kindWritten (isWritten_ok [])

/-- A type of structures that is read can be written. -/
theorem StructureType.yields_decode :
    StructureType.decode.Yields fun type => (type.encode part).IsWritten := by
  refine (yields_text Limit.field).bind fun name within => yields_count.bind fun count fits => ?_
  refine (yields_repeated (FieldDefinition.yields_decode part) count).map fun fields all => ?_
  apply isWritten_joined_cons (isWritten_text within Limit.field_lt)
  apply isWritten_joined_cons (isWritten_count (all.1 ▸ fits))
  exact isWritten_joined_cons (isWritten_joined_map all.2) (isWritten_ok [])

namespace FieldValue

/-- A structure can be written if the contents of each of its fields can. -/
theorem isWritten_encodeItem {item : Item} (all : ∀ value ∈ item, (encode part value).IsWritten) :
    (encodeItem part item).IsWritten := by
  induction item with
  | nil => exact isWritten_ok []
  | cons value values inductionHypothesis =>
    have rest := inductionHypothesis fun other member => all other (List.mem_cons_of_mem value member)
    exact isWritten_joined_cons (all value List.mem_cons_self)
      (isWritten_joined_cons rest (isWritten_ok []))

/-- Some structures can be written if each of them can. -/
theorem isWritten_encodeItems {items : List Item}
    (all : ∀ item ∈ items, (encodeItem part item).IsWritten) :
    (encodeItems part items).IsWritten := by
  induction items with
  | nil => exact isWritten_ok []
  | cons item items inductionHypothesis =>
    have rest := inductionHypothesis fun other member => all other (List.mem_cons_of_mem item member)
    exact isWritten_joined_cons (all item List.mem_cons_self)
      (isWritten_joined_cons rest (isWritten_ok []))

/-- Contents of a field that are read fit the kind of the field, and can be written. The structures
among them are assumed to fit their type. -/
theorem yields_decode {item : Text → Decoder Item} {itemFault? : Text → Item → Option ProtocolFault}
    (nested : ∀ type, (item type).Yields fun inner =>
      itemFault? type inner = none ∧ (encodeItem part inner).IsWritten)
    (kind : FieldKind) (mismatch : ProtocolFault) :
    (decode item kind).Yields fun value =>
      kind.fault? itemFault? mismatch value = none ∧ (encode part value).IsWritten := by
  cases kind with
  | array type count =>
    have announced := (Elements.yields_decode type count).and (Elements.yields_fits type count)
    refine announced.map fun elements given => ⟨?_, Elements.isWritten given.2⟩
    simp [FieldKind.fault?, given.1]
  | text =>
    refine (yields_text Limit.long).map fun t within => ⟨rfl, ?_⟩
    exact isWritten_text within Limit.long_lt
  | structures type =>
    refine yields_count.bind fun count fits => ?_
    refine (yields_repeated (nested type) count).map fun items all => ⟨?_, ?_⟩
    · exact List.findSome?_eq_none_iff.mpr fun inner member => (all.2 inner member).1
    · apply isWritten_joined_cons (isWritten_count (all.1 ▸ fits))
      exact isWritten_joined_cons
        (isWritten_encodeItems part fun inner member => (all.2 inner member).2) (isWritten_ok [])

end FieldValue

namespace StructureGraph

/-- An item that is read fits its type and can be written. Induction is on the levels of structures
that are left, which reader and check count down together. -/
theorem yields_decodeItem (types : List StructureType) (levels : Nat) (name : Text) :
    (decodeItem types levels name).Yields fun item =>
      itemFault? types levels name item = none ∧ (FieldValue.encodeItem part item).IsWritten := by
  induction levels generalizing name with
  | zero => exact yields_refuse _
  | succ levels inductionHypothesis =>
    unfold decodeItem itemFault?
    cases findType? types name with
    | none => exact yields_refuse _
    | some type =>
      have each (field : FieldDefinition) := FieldValue.yields_decode part inductionHypothesis
        field.kind (.fieldMismatch type.name field.name)
      refine (yields_forEach fun field _ => each field).mono fun item fitting => ⟨?_, ?_⟩
      · have width : type.fields.length = item.length := fitting.length_eq
        simp only [width, ne_eq, not_true_eq_false, ↓reduceIte]
        apply List.findSome?_eq_none_iff.mpr
        rintro ⟨field, value⟩ member
        exact (List.forall₂_zip fitting member).1
      · apply FieldValue.isWritten_encodeItem
        have values := List.Forall₂.flip (fitting.imp fun field value given =>
          (⟨given.2, given.1⟩ : (FieldValue.encode part value).IsWritten ∧ _))
        exact ((List.forall₂_and_left item type.fields).mp values).1

/-- A graph that is read can be written, and has as many items as its block declares. -/
theorem yields_decode (declared : Nat) :
    (decode declared).Yields fun graph =>
      (graph.encode part).IsWritten ∧ graph.items.length = declared := by
  refine yields_count.bind fun typeCount typesFit => ?_
  refine (yields_repeated (StructureType.yields_decode part) typeCount).bind fun types listed => ?_
  refine Yields.behind fun name => Yields.ite (fun _ => yields_refuse _) fun _ => ?_
  refine yields_count.bind fun count countFits => Yields.ite (fun _ => yields_refuse _) fun same => ?_
  obtain rfl : count = declared := Classical.not_not.mp same
  refine (yields_text Limit.field).bind fun itemType itemTypeFits => ?_
  refine (yields_repeated (yields_decodeItem part types (maxDepth + 1) itemType) count).map
    fun items fitting => ⟨?_, fitting.1⟩
  apply isWritten_checked
  · exact List.findSome?_eq_none_iff.mpr fun item member => (fitting.2 item member).1
  apply isWritten_joined_cons (isWritten_count (listed.1 ▸ typesFit))
  apply isWritten_joined_cons (isWritten_joined_map listed.2)
  apply isWritten_joined_cons (isWritten_text (by decide) Limit.field_lt)
  apply isWritten_joined_cons (isWritten_count (fitting.1 ▸ countFits))
  apply isWritten_joined_cons (isWritten_text itemTypeFits Limit.field_lt)
  have itemsWritten := FieldValue.isWritten_encodeItems part fun item member =>
    (fitting.2 item member).2
  exact isWritten_joined_cons itemsWritten (isWritten_ok [])

end StructureGraph

end Structures

/-! ## Packages -/

namespace Package

/-- Whether a graph that travels as an object is written again, and read from its document as itself.
Other packages travel in forms of their own. -/
def ObjectRewritten : Package → Prop
  | .object graph =>
    graph.toObject.length < UInt32.size ∧ StructureGraph.ofObject graph.toObject = .ok graph
  | _ => True

/-- An object that is rewritten is read back. -/
theorem ObjectRewritten.objectReadBack {package : Package} (object : package.ObjectRewritten) :
    package.ObjectReadBack := by
  cases package with
  | file bytes => trivial
  | structures graph => trivial
  | object graph => exact object.2

variable (part : Section)

/-- A package that is read is the one that the header announces, with the announced number of items.
It can be written, if it is no object or an object that is written again. -/
theorem yields_decode (code : Int32) (declared : Nat) :
    (decode code declared).Yields fun package =>
      package.count = declared ∧ (package.ObjectRewritten → (package.encode part).IsWritten) := by
  have contents : (decodeContents code declared).Yields fun package =>
      package.ObjectRewritten → (package.encode part).IsWritten := by
    refine Yields.ite (fun _ => ?_) fun _ => Yields.ite (fun _ => ?_) fun _ =>
      Yields.ite (fun _ => ?_) fun _ => yields_refuse _
    · exact yields_blob.map fun bytes fits _ => isWritten_blob fits
    · exact (StructureGraph.yields_decode part declared).map fun graph given _ => given.1
    · refine Yields.behind fun bytes => ?_
      cases StructureGraph.ofObject bytes with
      | ok graph => exact yields_pure fun object => isWritten_blob object.1
      | error failure =>
        intro input rest package read
        cases read
  refine contents.bind fun package given => Yields.ite (fun _ => yields_refuse _) fun same => ?_
  exact yields_pure ⟨Classical.not_not.mp same, given⟩

end Package

/-! ## Blocks -/

namespace Block

/-- A header of a block as it can be read: its counts fit, its texts keep to their limits. -/
structure Header.Readable (header : Header) : Prop where
  count : header.count < UInt32.size
  rank : header.rank < UInt32.size
  units : header.units.byteLength ≤ Limit.field
  label : header.label.byteLength ≤ Limit.field
  description : header.description.byteLength ≤ Limit.field
  errorMessage : header.errorMessage.byteLength ≤ Limit.field
  packageCount : header.packageCount < UInt32.size

/-- A header that announces a package is one of a version that knows packages. -/
theorem Header.yields_decode (version : Version) :
    (Header.decode version).Yields fun header =>
      header.Readable ∧ (header.packageCode ≠ 0 → version.has .package = true) := by
  refine yields_count.bind fun count counted => yields_count.bind fun rank ranked => ?_
  refine Yields.behind fun order => Yields.behind fun type => Yields.behind fun errors => ?_
  refine Yields.behind fun errorCode => Yields.behind fun sourceStatus => ?_
  refine Yields.behind fun signalStatus => ?_
  refine (yields_text Limit.field).bind fun units unitsFit => ?_
  refine (yields_text Limit.field).bind fun label labelFits => ?_
  refine (yields_text Limit.field).bind fun description descriptionFits => ?_
  refine (yields_text Limit.field).bind fun errorMessage errorMessageFits => ?_
  refine Yields.ite (fun known => ?_) fun _ => yields_pure ?_
  · refine Yields.behind fun code => yields_count.map fun packageCount packageFits => ?_
    exact ⟨⟨counted, ranked, unitsFit, labelFits, descriptionFits, errorMessageFits, packageFits⟩,
      fun _ => known⟩
  · exact ⟨⟨counted, ranked, unitsFit, labelFits, descriptionFits, errorMessageFits,
      Nat.two_pow_pos 32⟩, fun announced => absurd rfl announced⟩

/-- Elements that are read are those that the header announces. -/
theorem Header.yields_elements (header : Header) :
    header.elements.Yields fun elements =>
      (match elements with
        | some elements => elements.areOf header.type header.count
        | none => !header.type.isFlat) = true := by
  refine Yields.ite (fun shapeless => yields_pure shapeless) fun flat => ?_
  obtain ⟨type, typed⟩ : ∃ type, header.type = .flat type := by
    cases declared : header.type
    case flat type => exact ⟨type, rfl⟩
    all_goals simp [declared, ElementType.isFlat] at flat
  refine Yields.ite (fun none => yields_pure ?_) fun _ => ?_
  · simp [typed, none, Elements.zeros, Elements.areOf, Elements.elementType, Elements.count]
  · exact (Elements.yields_decode header.type header.count).map fun elements announced => announced

/-- Packages are read where the header announces them. -/
theorem Header.yields_package {header : Header} (few : header.packageCount < UInt32.size) :
    header.package.Yields fun package => (package.isSome = true → header.packageCode ≠ 0) ∧
      ∀ contents ∈ package, contents.count < UInt32.size ∧
        (contents.ObjectRewritten → (contents.encode .package).IsWritten) := by
  refine Yields.ite (fun _ => yields_pure ⟨nofun, nofun⟩) fun announced => Yields.behind fun _ => ?_
  refine (Package.yields_decode .package header.packageCode header.packageCount).map
    fun package given => ⟨fun _ => announced, ?_⟩
  rintro _ ⟨rfl⟩
  exact ⟨given.1 ▸ few, given.2⟩

/-- A block that can be written, if its package is no object or an object that is written again. -/
structure Writable (version : Version) (block : Block) : Prop where
  sound : block.Sound version
  errors : block.errors.Writable block.count
  rank : block.axes.length < UInt32.size
  axes : ∀ axis ∈ block.axes, axis.Writable
  units : block.units.byteLength ≤ Limit.field
  label : block.label.byteLength ≤ Limit.field
  description : block.description.byteLength ≤ Limit.field
  errorMessage : block.errorMessage.byteLength ≤ Limit.field
  package : ∀ package ∈ block.package, package.count < UInt32.size ∧
    (package.ObjectRewritten → (package.encode .package).IsWritten)

/-- A block that is read can be written. -/
theorem yields_read (version : Version) : (read version).Yields (·.Writable version) := by
  refine Yields.behind fun _ => (Header.yields_decode version).bind fun header given => ?_
  obtain ⟨readable, known⟩ := given
  refine Yields.behind fun _ => header.yields_elements.bind fun elements announced => ?_
  refine (ErrorBars.yields_decode header.errors readable.count).bind fun errors writable => ?_
  refine Yields.behind fun _ => (Axis.yields_decodeAll header.rank).bind fun axes all => ?_
  refine (Header.yields_package readable.packageCount).map fun package packaged => ?_
  exact {
    sound := ⟨announced, fun present => known (packaged.1 present), writable.sound⟩
    errors := writable
    rank := all.1 ▸ readable.rank
    axes := all.2
    units := readable.units
    label := readable.label
    description := readable.description
    errorMessage := readable.errorMessage
    package := packaged.2 }

/-- Sound blocks pass the check of a block. -/
theorem Sound.fault?_eq_none {version : Version} {block : Block} (sound : block.Sound version) :
    block.fault? version = none := by
  have packaged : (block.package.isSome && !version.has .package) = false := by
    cases present : block.package.isSome with
    | false => rfl
    | true => simp [sound.packaged present]
  simp [fault?, sound.announced, packaged, sound.errors]

/-- No type is younger than version 6. -/
theorem since_le (type : ElementType) : type.since ≤ 6 := by
  cases type
  case flat type => cases type <;> decide
  all_goals decide

/-- From version 6 on a peer knows every type that a block can announce. -/
theorem unknownType?_eq_none {version : Version} (recent : 6 ≤ version) (block : Block) :
    block.unknownType? version = none := by
  apply List.find?_eq_none.mpr
  intro type _
  simpa [Version.knows] using Int32.le_trans (since_le type) recent

namespace Writable

variable {version : Version} {block : Block} (writable : block.Writable version)

include writable

/-- The header of a writable block can be written. -/
theorem isWritten_header : (block.header.encode version).IsWritten := by
  have texts {t : Text} (within : t.byteLength ≤ Limit.field) :
      (text .header Limit.field t).IsWritten := isWritten_text within Limit.field_lt
  have items : (block.package.map (·.count)).getD 0 < UInt32.size := by
    cases present : block.package with
    | none => exact Nat.two_pow_pos 32
    | some package => exact (writable.package package present).1
  have announced : IsWritten (if version.has .package then
      joined [int32 block.header.packageCode, Encoding.count .header block.header.packageCount]
      else .ok []) := by
    split
    · exact isWritten_joined_cons (isWritten_int32 _)
        (isWritten_joined_cons (isWritten_count items) (isWritten_ok []))
    · exact isWritten_ok []
  rw [Header.encode, isWritten_joined_iff]
  simp only [List.mem_cons, List.not_mem_nil, or_false, forall_eq_or_imp, forall_eq]
  exact ⟨isWritten_count writable.errors.counted, isWritten_count writable.rank, isWritten_int32 _,
    isWritten_int32 _, writable.errors.isWritten_header, isWritten_int32 _, isWritten_int32 _,
    isWritten_int32 _, texts writable.units, texts writable.label, texts writable.description,
    texts writable.errorMessage, announced⟩

/-- The elements are as many as the header says. -/
theorem isWritten_elements :
    IsWritten (if block.count = 0 then .ok []
      else (block.elements.map (·.encode .data)).getD (.ok [])) := by
  split
  · exact isWritten_ok []
  · cases present : block.elements with
    | none => exact isWritten_ok []
    | some elements =>
      have announced : elements.areOf block.type block.count = true := by
        simpa [hasAnnouncedElements, present] using writable.sound.announced
      have counted := (Elements.eq_of_areOf announced).2
      exact Elements.isWritten (counted ▸ writable.errors.counted)

/-- The contents of a writable block can be written if its package can. -/
theorem isWritten_contents (object : ∀ package ∈ block.package, (package.encode .package).IsWritten) :
    block.encodeContents.IsWritten := by
  have package : IsWritten ((block.package.map (·.encode .package)).getD (.ok [])) := by
    cases present : block.package with
    | none => exact isWritten_ok []
    | some package => exact object package present
  apply isWritten_joined_cons writable.isWritten_elements
  apply isWritten_joined_cons writable.errors.isWritten
  apply isWritten_joined_cons (Axis.isWritten_encodeAll writable.axes)
  exact isWritten_joined_cons package (isWritten_ok [])

/-- A writable block is written for a peer that knows its types if its package is, whatever a reader
makes of the package. -/
theorem isWritten_of_package (known : block.unknownType? version = none)
    (object : ∀ package ∈ block.package, (package.encode .package).IsWritten) :
    (block.encode version).IsWritten := by
  rw [encode, known]
  apply isWritten_checked writable.sound.fault?_eq_none
  apply isWritten_joined_cons writable.isWritten_header
  exact isWritten_joined_cons (writable.isWritten_contents object) (isWritten_ok [])

/-- A writable block is written for a peer that knows its types. -/
theorem isWritten (known : block.unknownType? version = none)
    (object : ∀ package ∈ block.package, package.ObjectRewritten) :
    (block.encode version).IsWritten :=
  writable.isWritten_of_package known fun package present =>
    (writable.package package present).2 (object package present)

end Writable

/-- The block passes every check that the writer makes: of its types, of itself, of its axes and of
the graph that it holds in the form of the wire. -/
structure Accepted (version : Version) (block : Block) : Prop where
  types : block.unknownType? version = none
  faultless : block.fault? version = none
  axes : ∀ axis ∈ block.axes, axis.fault? = none
  graph : ∀ graph, block.package = some (.structures graph) → graph.fault? = none

end Block

/-- What was read can be written again. From version 6 on, whatever bytes a block was read from, the
block passes every check of the writer, is written, and is read from the new bytes as itself. A graph
that travels as an object is assumed to be written again and read from its document as itself. -/
theorem block_encode_of_decode {version : Version} (recent : 6 ≤ version) {bytes : Bytes}
    {block : Block} (read : Block.decode version bytes = .ok block)
    (object : ∀ package ∈ block.package, package.ObjectRewritten) :
    block.Accepted version ∧
      ∃ again, block.encode version = .ok again ∧ Block.decode version again = .ok block := by
  have writable := (Block.yields_read version).of_whole read
  have known := Block.unknownType?_eq_none recent block
  constructor
  · have graph (graph : StructureGraph) (present : block.package = some (.structures graph)) :
        graph.fault? = none := by
      obtain ⟨bytes, written⟩ := (writable.package _ present).2 trivial
      exact (faultless_of_checked written).1
    exact ⟨known, writable.sound.fault?_eq_none,
      fun axis member => (writable.axes axis member).sound.fault?_eq_none, graph⟩
  · obtain ⟨again, written⟩ := writable.isWritten known object
    have readBack : block.ObjectReadBack := fun package present =>
      (object package present).objectReadBack
    exact ⟨again, written, (Block.takes_encode readBack written).whole _⟩

/-- One number, with an axis that has no coordinates and a graph that is an object. -/
def Block.stray : Block where
  type := .flat .int
  count := 1
  elements := some ⟨.int, [5]⟩
  order := -1
  errors := .absent
  errorCode := 0
  sourceStatus := 0
  signalStatus := 0
  units := []
  label := []
  description := []
  errorMessage := []
  axes := [⟨.flat .double, 0, .literal ⟨.double, []⟩, .absent, [], []⟩]
  package := some (.object ⟨[], [], []⟩)

/-- The header of the block with a flag for errors below. -/
def Block.strayHeader : Block.Header :=
  { Block.stray.header with errors := { Block.stray.header.errors with asymmetric := true } }

/-- A header of absent errors with a flag for errors below, which is written as 7. -/
def ErrorBars.strayBytes : Bytes :=
  [Word.int32 0, Word.int32 0, Word.int32 7, Word.uint32 0].flatten

/-- An axis whose header fills in the fields of a compressed form. -/
def Axis.strayBytes : Bytes :=
  [Word.int32 7, ErrorBars.strayBytes, Word.uint32 0, Word.int32 0, Word.float64 .one,
    Word.float64 .one, Word.int32 9, Word.uint32 3, Word.uint32 0, Word.uint32 0, Word.uint32 0].flatten

/-- The object of the block. -/
def Package.strayBytes : Bytes := ((Package.object ⟨[], [], []⟩).encode .package).written

/-- Bytes of the block that no writer gives. -/
def Block.strayBytes : Bytes :=
  [Word.uint32 1, Word.uint32 1, Word.int32 (-1), Word.int32 3, ErrorBars.strayBytes, Word.int32 0,
    Word.int32 0, Word.int32 0, Word.uint32 0, Word.uint32 0, Word.uint32 0, Word.uint32 0,
    Word.int32 3, Word.uint32 1].flatten ++
  (Word.uint32 1 ++ Word.int32 5) ++ Axis.strayBytes ++ Package.strayBytes

set_option maxRecDepth 4000 in
/-- The block is read from bytes that are not its own, and is written again. -/
theorem block_encode_of_decode_stray :
    Block.decode .current Block.strayBytes = .ok Block.stray ∧
      (Block.stray.encode .current).written ≠ Block.strayBytes ∧
      Block.stray.Accepted .current ∧
      ∃ again, Block.stray.encode .current = .ok again ∧
        Block.decode .current again = .ok Block.stray := by
  have read : Block.decode .current Block.strayBytes = .ok Block.stray := by
    have header : Block.Header.decode .current ⟨Block.strayBytes, .header⟩ =
        .ok Block.strayHeader
          ⟨(Word.uint32 1 ++ Word.int32 5) ++ Axis.strayBytes ++ Package.strayBytes, .header⟩ := rfl
    have elements : Block.strayHeader.elements
        ⟨(Word.uint32 1 ++ Word.int32 5) ++ Axis.strayBytes ++ Package.strayBytes, .data⟩ =
        .ok Block.stray.elements ⟨Axis.strayBytes ++ Package.strayBytes, .data⟩ := rfl
    have errors (input : Input) :
        ErrorBars.decode Block.strayHeader.errors Block.strayHeader.count input =
          .ok .absent input := rfl
    have axes : Axis.decodeAll Block.strayHeader.rank ⟨Axis.strayBytes ++ Package.strayBytes, .axis⟩ =
        .ok Block.stray.axes ⟨Package.strayBytes, .axis⟩ := rfl
    have package : Block.strayHeader.package ⟨Package.strayBytes, .axis⟩ =
        .ok Block.stray.package ⟨[], .package⟩ := rfl
    simp only [Block.decode, Decoder.whole, Block.read, bind, EStateM.bind, Decoder.enter,
      Input.ofBytes, header, elements, errors, axes, package]
    rfl
  refine ⟨read, by decide, block_encode_of_decode (by decide) read ?_⟩
  rintro _ ⟨rfl⟩
  exact ⟨by decide, rfl⟩

end SignalAccess
