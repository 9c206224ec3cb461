import Mathlib.Algebra.GroupWithZero.Nat
import SignalAccess.Data.Block
import SignalAccess.Proofs.Data.Structure
import SignalAccess.Proofs.MessagePack.ReadBack

/-!
# How deep structures lie in an object

A graph in the form of the wire is refused when its structures lie too deep within each other, by
writer and reader alike. As an object it is written however deep they lie. The reader of documents
counts collections instead: each structure takes three of them, so no graph that it reads has more
than a third of its levels.
-/

namespace SignalAccess

open MessagePack

/-- The bytes of a record with few fields: a byte in front, and for each field its name and value. -/
theorem MessagePack.Document.length_encode_record (entries : List (String × Document))
    (few : entries.length < 16) :
    (Document.record entries).encode.length =
      (entries.map fun (name, value) =>
        (Document.ofText name.toList).encode.length + value.encode.length).sum + 1 := by
  have all (entries : List (String × Document)) :
      (Document.encodeEntries
        (entries.map fun (name, value) => (Document.ofText name.toList, value))).length =
        (entries.map fun (name, value) =>
          (Document.ofText name.toList).encode.length + value.encode.length).sum := by
    induction entries with
    | nil => rfl
    | cons entry entries inductionHypothesis =>
      simp [Document.encodeEntries, inductionHypothesis, Nat.add_assoc]
  have head : (Head.map (entries.map fun (name, value) =>
      (Document.ofText name.toList, value)).length).encode.length = 1 := by
    simp [Head.encode, few]
  rw [Document.record, Document.encode, List.length_append, all, head, Nat.add_comm]

/-- The bytes of an array of one value. -/
theorem MessagePack.Document.length_encode_singleton (value : Document) :
    (Document.array [value]).encode.length = value.encode.length + 1 := by
  simp [Document.encode, Document.encodeItems, Head.encode]

/-- The one field of a record is found by its name. -/
theorem MessagePack.Document.fields?_record (name : String) (value : Document) (levels : Nat) :
    (Document.record [(name, value)]).fields? [name] (levels + 1) = some [value] := by
  have chosen : Document.choose? [name] (.text (Text.utf8 name.toList)) = some 0 := by
    simp [Document.choose?]
  have keyed : Document.record [(name, value)] =
      .map [(.text (Text.utf8 name.toList), value)] := rfl
  have named : ([(Document.text (Text.utf8 name.toList), value)].all fun entry => entry.1.isKey &&
      ((Document.choose? [name] entry.1).isSome || entry.2.depth ≤ levels)) = true := by
    simp [Document.isKey, chosen]
  have passed : (guard (true = true) : Option Unit) = some () := rfl
  rw [keyed, Document.fields?, named, passed]
  simp [chosen, List.range_succ]

namespace FieldValue

mutual

/-- How many levels of structures lie in the contents of a field. -/
def nesting : FieldValue → Nat
  | .array _ => 0
  | .text _ => 0
  | .structures items => 1 + nestingAll items

/-- How many levels of structures lie in a structure. -/
def nestingItem : Item → Nat
  | [] => 0
  | value :: values => max (nesting value) (nestingItem values)

/-- How many levels of structures lie in some structures. -/
def nestingAll : List Item → Nat
  | [] => 0
  | item :: items => max (nestingItem item) (nestingAll items)

end

/-- A structure keeps within some levels exactly if each of its fields does. -/
theorem nestingItem_le_iff {item : Item} {n : Nat} :
    nestingItem item ≤ n ↔ ∀ value ∈ item, nesting value ≤ n := by
  induction item with
  | nil => simp [nestingItem]
  | cons value values inductionHypothesis =>
    rw [nestingItem, Nat.max_le, inductionHypothesis, List.forall_mem_cons]

/-- Structures keep within some levels exactly if each of them does. -/
theorem nestingAll_le_iff {items : List Item} {n : Nat} :
    nestingAll items ≤ n ↔ ∀ item ∈ items, nestingItem item ≤ n := by
  induction items with
  | nil => simp [nestingAll]
  | cons item items inductionHypothesis =>
    rw [nestingAll, Nat.max_le, inductionHypothesis, List.forall_mem_cons]

/-- What a list is read as comes from its members. -/
theorem exists_of_mapM {α β : Type} {f : α → Option β} {members : List α} {values : List β}
    (read : members.mapM f = some values) : ∀ value ∈ values, ∃ a ∈ members, f a = some value := by
  induction members generalizing values with
  | nil =>
    cases read
    simp
  | cons a members inductionHypothesis =>
    simp only [List.mapM_cons, bind, Option.bind_eq_some_iff, pure, Option.some.injEq] at read
    obtain ⟨first, firstRead, others, othersRead, rfl⟩ := read
    intro value member
    rcases List.mem_cons.mp member with rfl | member
    · exact ⟨a, List.mem_cons_self, firstRead⟩
    · obtain ⟨b, inMembers, bRead⟩ := inductionHypothesis othersRead value member
      exact ⟨b, List.mem_cons_of_mem a inMembers, bRead⟩

/-- Contents of a field that are read have a level more than the structures read in them. -/
theorem nesting_le_of_ofDocument? {items? : Document → Option (List Item)} {n levels : Nat}
    (bounded : ∀ document items, items? document = some items → nestingAll items ≤ n)
    {document : Document} {value : FieldValue}
    (read : ofDocument? items? levels document = some value) : nesting value ≤ 1 + n := by
  cases value with
  | array elements => simp [nesting]
  | text t => simp [nesting]
  | structures items =>
    obtain ⟨content, contentRead⟩ : ∃ content, items? content = some items := by
      simp only [ofDocument?, bind, Option.bind_eq_some_iff] at read
      obtain ⟨⟨number, content⟩, -, read⟩ := read
      split at read <;> simp_all [Option.bind_eq_some_iff]
      exact ⟨_, read⟩
    have below := bounded content items contentRead
    simp only [nesting]
    omega

/-- A list takes one level. -/
theorem itemsOf?_eq_some {levels : Nat} {document : Document} {items : List Item}
    (read : itemsOf? levels document = some items) :
    items = [] ∨ ∃ (below : Nat) (documents : List Document), levels = below + 1 ∧
      documents.mapM (itemOf? below) = some items := by
  unfold itemsOf? at read
  split at read
  · next below documents => exact .inr ⟨below, documents, rfl, read⟩
  · exact .inl (Option.some.inj read).symm
  · cases read

/-- A record takes one level. -/
theorem itemOf?_eq_some {levels : Nat} {document : Document} {item : Item}
    (read : itemOf? levels document = some item) :
    ∃ below values, levels = below + 1 ∧ valuesOf? below values = some item := by
  unfold itemOf? at read
  split at read
  · cases read
  · next below =>
    split at read
    · next values _ => exact ⟨below, values, rfl, read⟩
    · cases read

/-- The fields of a record take one level. -/
theorem valuesOf?_eq_some {levels : Nat} {document : Document} {item : Item}
    (read : valuesOf? levels document = some item) :
    item = [] ∨ ∃ (below : Nat) (documents : List Document), levels = below + 1 ∧
      documents.mapM (ofDocument? (itemsOf? below) below) = some item := by
  unfold valuesOf? at read
  split at read
  · next below documents => exact .inr ⟨below, documents, rfl, read⟩
  · exact .inl (Option.some.inj read).symm
  · cases read

/-- Structures that are read have at most a third of the levels. Induction is on the levels, of which
each structure takes one for the list that it lies in, one for its record and one for its fields. -/
theorem nestingAll_le_of_itemsOf? (levels : Nat) (document : Document) (items : List Item)
    (read : itemsOf? levels document = some items) : nestingAll items ≤ levels / 3 := by
  induction levels using Nat.strongRecOn generalizing document items with
  | _ levels inductionHypothesis =>
    refine nestingAll_le_iff.mpr fun item member => ?_
    rcases itemsOf?_eq_some read with rfl | ⟨inList, documents, rfl, itemsRead⟩
    · cases member
    · obtain ⟨_, -, itemRead⟩ := exists_of_mapM itemsRead item member
      obtain ⟨inRecord, values, rfl, valuesRead⟩ := itemOf?_eq_some itemRead
      refine nestingItem_le_iff.mpr fun value inItem => ?_
      rcases valuesOf?_eq_some valuesRead with rfl | ⟨below, contents, rfl, contentsRead⟩
      · cases inItem
      · obtain ⟨_, -, valueRead⟩ := exists_of_mapM contentsRead value inItem
        have bounded := nesting_le_of_ofDocument?
          (inductionHypothesis below (by omega)) valueRead
        omega

end FieldValue

namespace StructureGraph

/-- A graph that is read from an object has at most a third of the levels of a document. -/
theorem nestingAll_le_of_ofObject {bytes : Bytes} {graph : StructureGraph}
    (read : ofObject bytes = .ok graph) :
    FieldValue.nestingAll graph.items ≤ Document.maxLevels / 3 := by
  unfold ofObject at read
  cases found : Document.ofBytes? bytes >>= ofDocument? Document.maxLevels with
  | none => simp [found] at read
  | some other =>
    simp only [found, Except.ok.injEq] at read
    subst read
    obtain ⟨document, -, graphRead⟩ := Option.bind_eq_some_iff.mp found
    rw [Document.maxLevels, ofDocument?] at graphRead
    simp only [bind, Option.bind_eq_some_iff] at graphRead
    obtain ⟨fields, -, graphRead⟩ := graphRead
    split at graphRead
    · simp only [Option.bind_eq_some_iff, pure, Option.some.injEq] at graphRead
      obtain ⟨types, -, itemType, -, items, itemsRead, rfl⟩ := graphRead
      have bounded := FieldValue.nestingAll_le_of_itemsOf? _ _ items itemsRead
      simp only [Document.maxLevels]
      omega
    · cases graphRead

/-- A structure in which structures lie at some depth, each with one field. -/
def nestedItem : (depth : Nat) → Item
  | 0 => []
  | depth + 1 => [.structures [nestedItem depth]]

/-- A graph of one such structure. -/
def nested (depth : Nat) : StructureGraph := ⟨[], [], [nestedItem depth]⟩

/-- The structure of some depth has that many levels within it. -/
theorem nestingItem_nestedItem (depth : Nat) :
    FieldValue.nestingItem (nestedItem depth) = depth := by
  induction depth with
  | zero => rfl
  | succ depth inductionHypothesis =>
    simp [nestedItem, FieldValue.nestingItem, FieldValue.nesting, FieldValue.nestingAll,
      inductionHypothesis]
    omega

/-- The graph of the structure of some depth has that many levels within its items. -/
theorem nestingAll_nested (depth : Nat) : FieldValue.nestingAll (nested depth).items = depth := by
  simp [nested, FieldValue.nestingAll, nestingItem_nestedItem]

/-- Each level takes 22 bytes. -/
theorem exists_nestedItem_document (depth : Nat) :
    ∃ document, FieldValue.itemDocuments [nestedItem depth] = [document] ∧
      document.encode.length = 22 * depth + 9 := by
  induction depth with
  | zero => exact ⟨_, rfl, rfl⟩
  | succ depth inductionHypothesis =>
    obtain ⟨document, same, length⟩ := inductionHypothesis
    have fields : (Document.ofText "fields".toList).encode.length = 7 := rfl
    have structures : (Document.ofText "Structures".toList).encode.length = 11 := rfl
    refine ⟨.record [("fields", .array [.record [("Structures", .array [document])]])], ?_, ?_⟩
    · simp only [nestedItem, FieldValue.itemDocuments, FieldValue.toDocuments,
        FieldValue.toDocument] at same ⊢
      rw [same]
    · rw [Document.length_encode_record _ (by simp)]
      simp only [List.map_cons, List.map_nil, List.sum_cons, List.sum_nil, fields,
        Document.length_encode_singleton]
      rw [Document.length_encode_record _ (by simp)]
      simp only [List.map_cons, List.map_nil, List.sum_cons, List.sum_nil, structures,
        Document.length_encode_singleton, length]
      omega

/-- The object of the graph of some depth takes 22 bytes for each level, and 35 more. -/
theorem length_toObject_nested (depth : Nat) : (nested depth).toObject.length = 22 * depth + 35 := by
  obtain ⟨document, same, length⟩ := exists_nestedItem_document depth
  have types : (Document.ofText "types".toList).encode.length = 6 := rfl
  have itemType : (Document.ofText "item_type".toList).encode.length = 10 := rfl
  have items : (Document.ofText "items".toList).encode.length = 6 := rfl
  have noTypes : (Document.array []).encode.length = 1 := rfl
  have noText : (Document.ofText []).encode.length = 1 := rfl
  rw [toObject, toDocument, Document.length_encode_record _ (by simp)]
  simp only [nested, same, List.map_cons, List.map_nil, List.sum_cons, List.sum_nil, types, itemType,
    items, noTypes, noText, Document.length_encode_singleton, length]
  omega

/-- The document of a structure with another structure in it. -/
theorem itemDocuments_nestedItem (depth : Nat) :
    FieldValue.itemDocuments [nestedItem (depth + 1)] =
      [.record [("fields", .array [.record [("Structures",
        .array (FieldValue.itemDocuments [nestedItem depth]))]])]] := by
  simp only [nestedItem, FieldValue.itemDocuments, FieldValue.toDocuments, FieldValue.toDocument]

/-- A structure that lies in another one is read with three levels less. -/
theorem itemsOf?_nestedItem_succ (levels depth : Nat) :
    FieldValue.itemsOf? (levels + 3) (.array (FieldValue.itemDocuments [nestedItem (depth + 1)])) =
      (FieldValue.itemsOf? levels (.array (FieldValue.itemDocuments [nestedItem depth]))).map
        fun items => [[.structures items]] := by
  have chosen (content : Document) :
      (Document.record [("Structures", content)]).variant? FieldKind.names =
        some (2, some content) := rfl
  rw [itemDocuments_nestedItem]
  simp only [FieldValue.itemsOf?, FieldValue.itemOf?, FieldValue.valuesOf?, List.mapM_cons,
    List.mapM_nil, Document.fields?_record, FieldValue.ofDocument?, chosen, bind, Option.bind]
  cases FieldValue.itemsOf? levels (.array (FieldValue.itemDocuments [nestedItem depth])) <;> rfl

/-- No structure is read with three levels or less for each level of structures in it. -/
theorem itemsOf?_nestedItem {levels depth : Nat} (few : levels ≤ 3 * depth) :
    FieldValue.itemsOf? levels (.array (FieldValue.itemDocuments [nestedItem depth])) = none := by
  induction depth generalizing levels with
  | zero =>
    obtain rfl : levels = 0 := by omega
    rfl
  | succ depth inductionHypothesis =>
    match levels with
    | 0 => rfl
    | 1 => rfl
    | 2 => rfl
    | levels + 3 =>
      rw [itemsOf?_nestedItem_succ, inductionHypothesis (by omega)]
      rfl

/-- The documents of the structure of some depth have sizes that the format has room for. -/
theorem fits_nestedItem (depth : Nat) :
    (Document.array (FieldValue.itemDocuments [nestedItem depth])).Fits := by
  have single (name : String) {value : Document}
      (short : (Text.utf8 name.toList).length < UInt32.size) (fits : value.Fits) :
      (Document.record [(name, value)]).Fits :=
    Document.fits_record (show 1 < UInt32.size by decide) fun entry member => by
      obtain rfl := List.mem_singleton.mp member
      exact ⟨short, fits⟩
  induction depth with
  | zero => exact Document.fits_singleton (single _ (by decide) ⟨by decide, trivial⟩)
  | succ depth inductionHypothesis =>
    rw [itemDocuments_nestedItem]
    have inner := single "Structures" (by decide) inductionHypothesis
    exact Document.fits_singleton (single _ (by decide) (Document.fits_singleton inner))

/-- The document of its graph has a size that the format has room for. -/
theorem fits_nested (depth : Nat) : (nested depth).toDocument.Fits := by
  have types : (Text.utf8 "types".toList).length < UInt32.size := by decide
  have itemType : (Text.utf8 "item_type".toList).length < UInt32.size := by decide
  have items : (Text.utf8 "items".toList).length < UInt32.size := by decide
  refine Document.fits_record (show 3 < UInt32.size by decide) fun entry member => ?_
  simp only [List.mem_cons, List.not_mem_nil, or_false] at member
  rcases member with rfl | rfl | rfl
  · exact ⟨types, Nat.two_pow_pos 32, trivial⟩
  · exact ⟨itemType, Nat.two_pow_pos 32⟩
  · exact ⟨items, fits_nestedItem depth⟩

/-- The object of a graph is not read if structures lie in it deeper than in any document. -/
theorem ofObject_nested {depth : Nat} (deep : Document.maxLevels / 3 < depth) :
    ∃ detail, ofObject (nested depth).toObject = .error (.messagePackDecoding detail) := by
  have fields (types itemType items : Document) (levels : Nat) :
      (Document.record [("types", types), ("item_type", itemType), ("items", items)]).fields?
        ["types", "item_type", "items"] (levels + 1) = some [types, itemType, items] := rfl
  have few : 1022 ≤ 3 * depth := by
    simp only [Document.maxLevels] at deep
    omega
  have refused : ofDocument? Document.maxLevels (nested depth).toDocument = none := by
    simp only [Document.maxLevels, ofDocument?, toDocument, fields, nested,
      itemsOf?_nestedItem few, bind, Option.bind]
    rfl
  unfold ofObject
  rw [toObject, Document.ofBytes?_encode (fits_nested depth)]
  simp only [bind, Option.bind, refused]
  exact ⟨_, rfl⟩

end StructureGraph

/-! ## Objects in blocks -/

/-- Whether the structures of a package that is an object lie as deep at most as the reader of
documents admits. -/
def Package.WithinLevels : Package → Prop
  | .object graph => FieldValue.nestingAll graph.items ≤ Document.maxLevels / 3
  | _ => True

/-- The objects that are read keep to the levels of a document. -/
theorem Package.withinLevels_of_decode {code : Int32} {declared : Nat} {input rest : Input}
    {package : Package} (read : decode code declared input = .ok package rest) :
    package.WithinLevels := by
  obtain ⟨contents, next, contentsRead, checked⟩ := bind_eq_ok read
  have same : contents = package := by
    split at checked
    · cases checked
    · cases checked
      rfl
  subst same
  unfold decodeContents at contentsRead
  split at contentsRead
  · obtain ⟨bytes, _, -, made⟩ := bind_eq_ok contentsRead
    cases made
    trivial
  · split at contentsRead
    · obtain ⟨graph, _, -, made⟩ := bind_eq_ok contentsRead
      cases made
      trivial
    · split at contentsRead
      · obtain ⟨bytes, _, -, made⟩ := bind_eq_ok contentsRead
        cases known : StructureGraph.ofObject bytes with
        | ok graph =>
          simp only [known] at made
          cases made
          exact StructureGraph.nestingAll_le_of_ofObject known
        | error failure =>
          simp only [known] at made
          cases made
      · cases contentsRead

/-- A package is read behind the header that announces it. -/
theorem Block.withinLevels_of_read {version : Version} {input rest : Input} {block : Block}
    (read : Block.read version input = .ok block rest) :
    ∀ package, block.package = some package → package.WithinLevels := by
  obtain ⟨_, _, -, read⟩ := bind_eq_ok read
  obtain ⟨header, _, -, read⟩ := bind_eq_ok read
  obtain ⟨_, _, -, read⟩ := bind_eq_ok read
  obtain ⟨_, _, -, read⟩ := bind_eq_ok read
  obtain ⟨_, _, -, read⟩ := bind_eq_ok read
  obtain ⟨_, _, -, read⟩ := bind_eq_ok read
  obtain ⟨_, _, -, read⟩ := bind_eq_ok read
  obtain ⟨found, _, packageRead, made⟩ := bind_eq_ok read
  cases made
  rintro package rfl
  unfold Header.package at packageRead
  split at packageRead
  · cases packageRead
  · obtain ⟨_, _, -, packageRead⟩ := bind_eq_ok packageRead
    obtain ⟨_, _, packageRead, made⟩ := bind_eq_ok packageRead
    cases made
    exact Package.withinLevels_of_decode packageRead

/-- What is read a number of times is read each time. -/
theorem Decoder.exists_of_repeated {α : Type} {decoder : Decoder α} {n : Nat} {input rest : Input}
    {values : List α} (read : repeated decoder n input = .ok values rest) :
    ∀ value ∈ values, ∃ input rest, decoder input = .ok value rest := by
  induction n generalizing input rest values with
  | zero =>
    cases read
    simp
  | succ n inductionHypothesis =>
    obtain ⟨first, next, firstRead, read⟩ := bind_eq_ok read
    obtain ⟨others, last, othersRead, made⟩ := bind_eq_ok read
    cases made
    intro value member
    rcases List.mem_cons.mp member with rfl | member
    · exact ⟨input, next, firstRead⟩
    · exact inductionHypothesis othersRead value member

/-- No list of blocks that is read holds an object whose structures lie deeper than the reader of
documents admits, whatever the bytes. -/
theorem BlockList.withinLevels_of_decode {version : Version} {bytes : Bytes} {list : BlockList}
    (read : decode version bytes = .ok list) :
    ∀ block ∈ list.blocks, ∀ package, block.package = some package → package.WithinLevels := by
  unfold decode Decoder.whole at read
  split at read
  · cases read
  · next value rest taken =>
    split at read
    · cases read
      obtain ⟨_, _, -, taken⟩ := bind_eq_ok taken
      have counted : ∃ count input rest,
          Decoder.repeated (Block.read version) count input = .ok list.blocks rest := by
        split at taken
        all_goals
          obtain ⟨count, input, -, taken⟩ := bind_eq_ok taken
          obtain ⟨blocks, rest, blocksRead, made⟩ := bind_eq_ok taken
          cases made
          exact ⟨count, input, rest, blocksRead⟩
      obtain ⟨count, input, rest, blocksRead⟩ := counted
      intro block member
      obtain ⟨_, _, blockRead⟩ := Decoder.exists_of_repeated blocksRead block member
      exact Block.withinLevels_of_read blockRead
    · cases read

/-- A block with an object is written behind its header, with the number of its bytes. -/
theorem BlockList.encode_object (graph : StructureGraph)
    (short : graph.toObject.length < UInt32.size) :
    ∃ bytes, (BlockList.mk [.ofPackage (.object graph)]).encode .current = .ok bytes ∧
      bytes.length = graph.toObject.length + 76 := by
  let block := Block.ofPackage (.object graph)
  have known : block.unknownType? .current = none := rfl
  have faultless : block.fault? .current = none := rfl
  obtain ⟨header, headerWritten, headerLength⟩ :
      ∃ bytes, block.header.encode .current = .ok bytes ∧ bytes.length = 68 := ⟨_, rfl, rfl⟩
  have counted : Encoding.count .package graph.toObject.length =
      .ok (Word.uint32 (UInt32.ofNat graph.toObject.length)) := if_pos short
  have object : block.encodeContents =
      .ok (Word.uint32 (UInt32.ofNat graph.toObject.length) ++ graph.toObject) := by
    simp [block, Block.encodeContents, Block.ofPackage, Block.empty, ErrorBars.encode,
      ErrorBars.absent, Axis.encodeAll, Package.encode, Encoding.blob, counted, Encoding.joined, bind,
      Except.bind, pure, Except.pure]
  have written : block.encode .current = .ok (header ++
      (Word.uint32 (UInt32.ofNat graph.toObject.length) ++ graph.toObject)) := by
    simp only [Block.encode, known, faultless, Encoding.checked, Encoding.joined, headerWritten,
      object, bind, Except.bind, pure, Except.pure, List.append_nil]
  refine ⟨Word.uint32 1 ++ (header ++
    (Word.uint32 (UInt32.ofNat graph.toObject.length) ++ graph.toObject)), ?_, ?_⟩
  · have gated : Version.has .current .blockCount = true := rfl
    have one : Encoding.count .header 1 = .ok (Word.uint32 1) := if_pos (by decide)
    simp only [encode, gated, if_true, List.map_cons, List.map_nil, Encoding.joined]
    rw [written]
    simp [one, bind, Except.bind, pure, Except.pure]
  · simp only [List.length_append, Word.length_uint32, headerLength]
    omega

end SignalAccess
