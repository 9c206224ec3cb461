import SignalAccess.Proofs.Data.Block
import SignalAccess.Proofs.Data.Nesting
import SignalAccess.Proofs.Request.Block
import SignalAccess.Proofs.State.Client
import SignalAccess.Proofs.State.Server
import SignalAccess.Proofs.Wire.Layout
import SignalAccess.Proofs.Wire.Written

/-!
# Blocks cut short, and blocks with something behind them

What is written is as long as it has to be: with bytes behind it, it is refused, and a part of it is
refused in the section of the first byte that is missing. States and requests lie in one section. A
data block has a section for each of its phases, and each block of a list starts with its header
again.

A reader of a list comes to a later block only if it has read those in front of it. An object whose
document is refused stops it there, so the parts of a list are refused as they should be if every
object but one in the last block is readable.
-/

namespace SignalAccess

open Encoding Decoder

/-- A piece that is read back in one section is a layout of that section. -/
theorem Encoding.ReadBack.follows {α : Type} {piece : Encoding} {decoder body : Decoder α} {value : α}
    {part : Section} {bytes : Bytes} (read : ReadBack piece body value)
    (entered : decoder = do Decoder.enter part; body) (written : piece = .ok bytes)
    (start : Section) :
    Follows start part decoder [(part, bytes)] (.ok value) := by
  rw [entered]
  exact ((read bytes written).follows part).enter start

/-- A piece of one section is refused with more bytes and with fewer. -/
theorem Encoding.ReadBack.delimited {α : Type} {piece : Encoding} {decoder body : Decoder α}
    {value : α} {part : Section} {bytes : Bytes} (read : ReadBack piece body value)
    (entered : decoder = do Decoder.enter part; body) (written : piece = .ok bytes)
    (leftOver : Nat → ProtocolFault) :
    RefusesMore (decoder.whole leftOver) bytes ∧
      RefusesLess (decoder.whole leftOver) [(part, bytes)] := by
  constructor
  · have delimits := Follows.delimits fun start => ⟨part, read.follows entered written start⟩
    rw [Layout.bytes_single] at delimits
    exact delimits.refusesMore leftOver
  · exact (read.follows entered written .state).refusesLess leftOver

namespace Package

/-- What a reader makes of a package. An object is the graph that its document stands for. -/
def received : Package → Except Failure Package
  | .object graph => (StructureGraph.ofObject graph.toObject).map .object
  | package => .ok package

/-- The document of a package that is an object is that of some graph. -/
def IsReadable : Package → Prop
  | .object graph => ∃ other, StructureGraph.ofObject graph.toObject = .ok other
  | _ => True

/-- What is received of a readable package is a package. -/
theorem IsReadable.received {package : Package} (readable : package.IsReadable) :
    ∃ other, package.received = .ok other := by
  cases package with
  | file bytes => exact ⟨_, rfl⟩
  | structures graph => exact ⟨_, rfl⟩
  | object graph =>
    obtain ⟨other, read⟩ := readable
    exact ⟨.object other, by rw [Package.received, read]; rfl⟩

/-- A package lies in its section. All of an object's bytes are taken before its document is read. -/
theorem follows_decode {package : Package} {bytes : Bytes}
    (written : package.encode .package = .ok bytes) :
    Follows .package .package (decode package.code package.count) [(.package, bytes)]
      package.received := by
  cases package with
  | file content => exact (readBack .package (.file content) trivial bytes written).follows .package
  | structures graph =>
    exact (readBack .package (.structures graph) trivial bytes written).follows .package
  | object graph =>
    have taken := (readBack_blob .package graph.toObject bytes written).follows .package
    cases read : StructureGraph.ofObject graph.toObject with
    | ok other =>
      have contents : Follows .package .package (decodeContents 3 1) [(.package, bytes)]
          (.ok (.object other)) := by
        refine taken.bind (follows_nil fun back => ?_)
        simp only [read]
        rfl
      rw [received, read]
      exact contents.bind (follows_nil fun back => rfl)
    | error failure =>
      have contents : Follows .package .package (decodeContents 3 1) [(.package, bytes)]
          (.error failure) := by
        refine taken.bind (follows_nil fun back => ?_)
        simp only [read]
        exact ⟨_, rfl⟩
      rw [received, read]
      exact contents.stop _

end Package

namespace Block

/-- What a reader makes of a block's package. -/
def receivedPackage (block : Block) : Except Failure (Option Package) :=
  match block.package with
  | none => .ok none
  | some package => package.received.map some

/-- What a reader makes of a block. -/
def received (block : Block) : Except Failure Block :=
  block.receivedPackage.map fun package => { block with package := package }

/-- The document of an object in the block is that of some graph. -/
def IsReadable (block : Block) : Prop := ∀ package ∈ block.package, package.IsReadable

/-- What is received of a readable block is a block. -/
theorem IsReadable.received {block : Block} (readable : block.IsReadable) :
    ∃ other, block.received = .ok other := by
  unfold Block.received receivedPackage
  cases present : block.package with
  | none => exact ⟨_, rfl⟩
  | some package =>
    obtain ⟨other, read⟩ := (readable package present).received
    exact ⟨{ block with package := some other }, by simp only [read, Except.map]⟩

/-- The elements of a block on the wire. -/
def encodeElements (block : Block) : Encoding :=
  if block.count = 0 then .ok [] else (block.elements.map (·.encode .data)).getD (.ok [])

/-- The bytes of a block by their sections: the header, the elements and their errors, the axes, and
the package if there is one. -/
def layout (version : Version) (block : Block) : Layout :=
  [(.header, (block.header.encode version).written), (.data, block.encodeElements.written),
    (.data, (block.errors.encode .data).written),
    (.axis, (Axis.encodeAll .axis block.axes).written)] ++
  (block.package.map fun package => (Section.package, (package.encode .package).written)).toList

/-- A block that is written, by its parts. -/
structure IsWrittenAs (version : Version) (block : Block) (bytes : Bytes) : Prop where
  sound : block.Sound version
  header : (block.header.encode version).IsWritten
  elements : block.encodeElements.IsWritten
  errors : (block.errors.encode .data).IsWritten
  axes : (Axis.encodeAll .axis block.axes).IsWritten
  package : ∀ package ∈ block.package, (package.encode .package).IsWritten
  layout : (block.layout version).bytes = bytes

/-- The bytes that encoding gives are those that the block is written as. -/
theorem isWrittenAs_of_encode {version : Version} {block : Block} {bytes : Bytes}
    (written : block.encode version = .ok bytes) : block.IsWrittenAs version bytes := by
  unfold encode at written
  split at written
  · cases written
  · obtain ⟨faultless, joinedParts⟩ := faultless_of_checked written
    obtain ⟨header, rest, headerWritten, restWritten, rfl⟩ := joined_cons_eq_ok joinedParts
    obtain ⟨contents, nothing, contentsWritten, nothingWritten, rfl⟩ := joined_cons_eq_ok restWritten
    cases nothingWritten
    have pieces := isWritten_joined_iff.mp ⟨contents, contentsWritten⟩
    have whole := written_joined contentsWritten
    simp only [List.mem_cons, List.not_mem_nil, or_false, forall_eq_or_imp, forall_eq] at pieces
    obtain ⟨elements, errors, axes, package⟩ := pieces
    refine ⟨sound_of_fault? faultless, ⟨header, headerWritten⟩, elements, errors, axes, ?_, ?_⟩
    · intro other present
      rw [present] at package
      exact package
    · rw [List.append_nil, whole, ← written_of_eq_ok headerWritten]
      cases present : block.package <;>
        simp [layout, Layout.bytes, encodeElements, present]

/-- The package of a block follows its header's code, which is zero only without one. -/
theorem follows_package {block : Block}
    (written : ∀ package ∈ block.package, (package.encode .package).IsWritten) :
    ∃ last, Follows .axis last block.header.package
      (block.package.map fun package => (Section.package, (package.encode .package).written)).toList
      block.receivedPackage := by
  unfold receivedPackage
  cases present : block.package with
  | none =>
    refine ⟨.axis, ?_⟩
    simp only [Header.package, Block.header, present, Option.map_none, Option.getD_none, ↓reduceIte]
    exact follows_nil fun _ => rfl
  | some package =>
    have nonzero : package.code ≠ 0 := by cases package <;> simp only [Package.code] <;> decide
    have taken := Package.follows_decode (written package present).eq_written
    refine ⟨.package, ?_⟩
    simp only [Header.package, Block.header, present, Option.map_some, Option.getD_some, nonzero,
      ↓reduceIte]
    exact (taken.map some).enter .axis

/-- A block that is written lies in the sections of its layout, in which the reader turns to them. -/
theorem follows_read {version : Version} {block : Block} {bytes : Bytes}
    (written : block.encode version = .ok bytes) (start : Section) :
    ∃ last, Follows start last (read version) (block.layout version) block.received := by
  obtain ⟨sound, header, elements, errors, axes, package, -⟩ := isWrittenAs_of_encode written
  have headerRead := (sound.readBack_header _ header.eq_written).follows .header
  have elementsRead := (sound.readBack_elements _ elements.eq_written).follows .data
  have errorsRead :=
    (ErrorBars.readBack .data block.errors sound.errors _ errors.eq_written).follows .data
  have axesRead := (Axis.readBack_all .axis block.axes _ axes.eq_written).follows .axis
  obtain ⟨last, packageRead⟩ := follows_package package
  have made := packageRead.map fun package => { block with package := package }
  refine ⟨last, Follows.enter ?_ start⟩
  refine headerRead.bind (Follows.enter ?_ .header)
  refine elementsRead.bind (errorsRead.bind (Follows.enter ?_ .data))
  exact axesRead.bind made

/-- The bytes of a block give what a reader makes of the block. -/
theorem decode_of_encode {version : Version} {block : Block} {bytes : Bytes}
    (written : block.encode version = .ok bytes) : Block.decode version bytes = block.received := by
  obtain ⟨last, whole⟩ := follows_read written .state
  have ended := whole.complete []
  rw [(isWrittenAs_of_encode written).layout, List.append_nil] at ended
  cases made : block.received with
  | ok value =>
    rw [made] at ended
    simp only [EndsWith] at ended
    simp [Block.decode, Decoder.whole, Input.ofBytes, ended]
  | error failure =>
    rw [made] at ended
    obtain ⟨_, ended⟩ := ended
    simp only [Block.decode, Decoder.whole, Input.ofBytes, ended]

end Block

namespace BlockList

/-- The bytes of a list by their sections. The number of blocks belongs to a header, and each block
starts again with its own. -/
def layout (version : Version) (list : BlockList) : Layout :=
  (if version.has .blockCount then
    [(.header, (Encoding.count .header list.blocks.length).written)] else []) ++
  list.blocks.flatMap (·.layout version)

/-- A list that is written, by its parts. -/
structure IsWrittenAs (version : Version) (list : BlockList) (bytes : Bytes) : Prop where
  counted : version.has .blockCount = true →
    (Encoding.count .header list.blocks.length).IsWritten
  alone : version.has .blockCount = false → list.blocks.length = 1
  blocks : ∀ block ∈ list.blocks, (block.encode version).IsWritten
  layout : (list.layout version).bytes = bytes

/-- The layouts of blocks are layouts of what is written. -/
theorem bytes_flatMap_layout {version : Version} {blocks : List Block}
    (all : ∀ block ∈ blocks, (block.encode version).IsWritten) :
    Layout.bytes (blocks.flatMap (·.layout version)) =
      (blocks.map (·.encode version)).flatMap written := by
  induction blocks with
  | nil => rfl
  | cons block others inductionHypothesis =>
    obtain ⟨bytes, done⟩ := all block List.mem_cons_self
    have first := (Block.isWrittenAs_of_encode done).layout
    have rest := inductionHypothesis fun other member => all other (List.mem_cons_of_mem block member)
    rw [List.flatMap_cons, List.map_cons, List.flatMap_cons, Layout.bytes_append, first, rest,
      written_of_eq_ok done]

/-- The bytes that encoding gives are those that the list of blocks is written as. -/
theorem isWrittenAs_of_encode {version : Version} {list : BlockList} {bytes : Bytes}
    (written : list.encode version = .ok bytes) : list.IsWrittenAs version bytes := by
  have parts {bytes : Bytes} (done : joined (list.blocks.map (·.encode version)) = .ok bytes) :
      (∀ block ∈ list.blocks, (block.encode version).IsWritten) ∧
        Layout.bytes (list.blocks.flatMap (·.layout version)) = bytes := by
    have each := isWritten_joined_iff.mp ⟨bytes, done⟩
    have all : ∀ block ∈ list.blocks, (block.encode version).IsWritten :=
      fun block member => each _ (List.mem_map_of_mem member)
    exact ⟨all, by rw [bytes_flatMap_layout all, written_joined done]⟩
  unfold encode at written
  by_cases gated : version.has .blockCount = true
  · simp only [gated, ↓reduceIte] at written
    obtain ⟨count, rest, countWritten, restWritten, rfl⟩ := joined_cons_eq_ok written
    obtain ⟨blocks, nothing, blocksWritten, nothingWritten, rfl⟩ := joined_cons_eq_ok restWritten
    cases nothingWritten
    obtain ⟨all, same⟩ := parts blocksWritten
    constructor
    · intro _
      exact ⟨count, countWritten⟩
    · intro other
      rw [gated] at other
      cases other
    · exact all
    · rw [layout, if_pos gated, Layout.bytes_append, Layout.bytes_single, same,
        written_of_eq_ok countWritten, List.append_nil]
  · have plain : version.has .blockCount = false := by simpa using gated
    simp only [plain, Bool.false_eq_true, ↓reduceIte] at written
    split at written
    · next single =>
      obtain ⟨all, same⟩ := parts written
      constructor
      · intro other
        exact absurd other gated
      · intro _
        exact single
      · exact all
      · simp [layout, plain, same]
    · cases written

/-- Blocks are followed one behind the other as long as each of them is readable. The last one need
not be: nothing comes behind it. Induction is on the blocks, whose readers start in whatever section
the one in front has left. -/
theorem follows_repeated {version : Version} {blocks : List Block}
    (all : ∀ block ∈ blocks, (block.encode version).IsWritten)
    (readable : ∀ block ∈ blocks.dropLast, block.IsReadable) (start : Section) :
    ∃ last result, Follows start last (repeated (Block.read version) blocks.length)
      (blocks.flatMap (·.layout version)) result := by
  induction blocks generalizing start with
  | nil => exact ⟨start, .ok [], follows_nil fun _ => rfl⟩
  | cons block others inductionHypothesis =>
    obtain ⟨bytes, written⟩ := all block List.mem_cons_self
    obtain ⟨middle, first⟩ := Block.follows_read written start
    have behind : ∀ other ∈ others, (other.encode version).IsWritten :=
      fun other member => all other (List.mem_cons_of_mem block member)
    cases others with
    | nil =>
      have single : repeated (Block.read version) 1 = do return [← Block.read version] := rfl
      refine ⟨middle, block.received.map fun value => [value], ?_⟩
      rw [List.length_singleton, single, List.flatMap_singleton]
      exact first.map fun value => [value]
    | cons second others =>
      rw [List.dropLast_cons_of_ne_nil (List.cons_ne_nil second others)] at readable
      obtain ⟨value, received⟩ := (readable block List.mem_cons_self).received
      obtain ⟨last, result, rest⟩ := inductionHypothesis behind
        (fun other member => readable other (List.mem_cons_of_mem block member)) middle
      rw [received] at first
      exact ⟨last, _, first.bind (rest.map fun values => value :: values)⟩

/-- A list lies in the sections of its layout, if the reader gets as far as the last block. -/
theorem follows_read {version : Version} {list : BlockList} {bytes : Bytes}
    (written : list.encode version = .ok bytes)
    (readable : ∀ block ∈ list.blocks.dropLast, block.IsReadable) (start : Section) :
    ∃ last result, Follows start last (read version) (list.layout version) result := by
  obtain ⟨counted, alone, all, -⟩ := isWrittenAs_of_encode written
  obtain ⟨last, result, blocks⟩ := follows_repeated all readable .header
  refine ⟨last, result.map BlockList.mk, Follows.enter ?_ start⟩
  unfold layout
  by_cases gated : version.has .blockCount = true
  · have number := (readBack_count .header list.blocks.length _ (counted gated).eq_written).follows
      .header
    simp only [gated, ↓reduceIte]
    exact number.bind (blocks.map BlockList.mk)
  · have plain : version.has .blockCount = false := by simpa using gated
    rw [alone plain] at blocks
    simp only [plain, Bool.false_eq_true, ↓reduceIte, List.nil_append]
    exact blocks.map BlockList.mk

/-- A list leaves what stands behind it, whether its blocks are readable or not. -/
theorem delimits_read {version : Version} {list : BlockList} {bytes : Bytes}
    (written : list.encode version = .ok bytes) : (read version).Delimits bytes := by
  obtain ⟨counted, alone, all, rfl⟩ := isWrittenAs_of_encode written
  have blocks : (repeated (Block.read version) list.blocks.length).Delimits
      (Layout.bytes (list.blocks.flatMap (·.layout version))) := by
    have each : ∀ bytes ∈ list.blocks.map fun block => (block.layout version).bytes,
        (Block.read version).Delimits bytes := by
      intro bytes member
      obtain ⟨block, inList, rfl⟩ := List.mem_map.mp member
      obtain ⟨_, blockWritten⟩ := all block inList
      apply Follows.delimits
      intro start
      exact Block.follows_read blockWritten start
    have repeated := delimits_repeated each
    rwa [List.length_map, ← List.flatMap_def, ← Layout.bytes_flatMap] at repeated
  have entered : Takes (Decoder.enter .header) [] () := fun _ _ => ⟨.header, rfl⟩
  unfold layout
  by_cases gated : version.has .blockCount = true
  · have number := (readBack_count .header list.blocks.length _ (counted gated).eq_written).takes
    rw [if_pos gated, Layout.bytes_append, Layout.bytes_single]
    refine entered.delimits ?_
    simp only [gated, ↓reduceIte]
    exact number.delimits (blocks.map BlockList.mk)
  · have plain : version.has .blockCount = false := by simpa using gated
    rw [alone plain] at blocks
    rw [if_neg gated, List.nil_append]
    refine entered.delimits ?_
    simp only [plain, Bool.false_eq_true, ↓reduceIte]
    exact blocks.map BlockList.mk

end BlockList

/-- What is written has an end that the reader knows. States, requests, blocks and lists of blocks
are refused, at every version, with any bytes behind them. A proper part of their bytes, from the
front, is refused as a breach of protocol against the section of the first missing byte: states and
requests lie in one section, blocks and lists in the sections of their layouts. For a list this holds
as long as the objects in its blocks, but for the last block, are readable. -/
theorem encodings_delimited (version : Version) :
    (∀ (client : ClientState) (bytes : Bytes), client.encode version = .ok bytes →
      RefusesMore (ClientState.decode version) bytes ∧
        RefusesLess (ClientState.decode version) [(.state, bytes)]) ∧
    (∀ (server : ServerState) (bytes : Bytes), server.encode version = .ok bytes →
      RefusesMore (ServerState.decode version) bytes ∧
        RefusesLess (ServerState.decode version) [(.state, bytes)]) ∧
    (∀ (block : RequestBlock) (bytes : Bytes), block.encode version = .ok bytes →
      RefusesMore (RequestBlock.decode version) bytes ∧
        RefusesLess (RequestBlock.decode version) [(.state, bytes)]) ∧
    (∀ (block : Block) (bytes : Bytes), block.encode version = .ok bytes →
      (block.layout version).bytes = bytes ∧ RefusesMore (Block.decode version) bytes ∧
        RefusesLess (Block.decode version) (block.layout version)) ∧
    ∀ (list : BlockList) (bytes : Bytes), list.encode version = .ok bytes →
      (list.layout version).bytes = bytes ∧ RefusesMore (BlockList.decode version) bytes ∧
        ((∀ block ∈ list.blocks.dropLast, block.IsReadable) →
          RefusesLess (BlockList.decode version) (list.layout version)) := by
  refine ⟨?_, ?_, ?_, ?_, ?_⟩
  · intro client bytes written
    obtain ⟨body, entered, read⟩ :=
      client.readBack_encode fun field => Eq.refl ((min _ version).has field)
    exact read.delimited entered written _
  · intro server bytes written
    obtain ⟨body, entered, read⟩ :=
      server.readBack_encode fun field => Eq.refl ((min _ version).has field)
    exact read.delimited entered written _
  · intro block bytes written
    obtain ⟨body, entered, read⟩ := block.readBack_encode version
    exact read.delimited entered written _
  · intro block bytes written
    obtain rfl := (Block.isWrittenAs_of_encode written).layout
    have follows := Block.follows_read written
    obtain ⟨last, whole⟩ := follows .state
    exact ⟨rfl, (Follows.delimits follows).refusesMore _, whole.refusesLess _⟩
  · intro list bytes written
    obtain rfl := (BlockList.isWrittenAs_of_encode written).layout
    refine ⟨rfl, (BlockList.delimits_read written).refusesMore _, fun readable => ?_⟩
    obtain ⟨last, result, whole⟩ := BlockList.follows_read written readable .state
    exact whole.refusesLess _

/-- A block with an object, and one without data behind it. -/
def BlockList.measured : BlockList := ⟨[.measured (.object .shot), .empty]⟩

set_option maxRecDepth 4000 in
/-- The list is refused with more bytes and with fewer. -/
theorem encodings_delimited_measured :
    ∃ bytes, BlockList.measured.encode .current = .ok bytes ∧
      RefusesMore (BlockList.decode .current) bytes ∧
      RefusesLess (BlockList.decode .current) (BlockList.measured.layout .current) := by
  obtain ⟨-, -, -, -, lists⟩ := encodings_delimited .current
  have written : BlockList.measured.encode .current =
      .ok (BlockList.measured.encode .current).written := rfl
  obtain ⟨-, more, less⟩ := lists .measured _ written
  refine ⟨_, written, more, less ?_⟩
  intro block member
  obtain rfl := List.mem_singleton.mp member
  rintro _ ⟨rfl⟩
  exact ⟨.shot, rfl⟩

/-- A list whose first block is not readable is refused for that, whatever follows the block. -/
theorem BlockList.refused_of_received {version : Version} {list : BlockList} {block : Block}
    {others : List Block} {bytes : Bytes} {failure : Failure}
    (written : list.encode version = .ok bytes) (blocks : list.blocks = block :: others)
    (refused : block.received = .error failure) (counted : version.has .blockCount = true)
    (back : Bytes) :
    BlockList.decode version ((Encoding.count .header list.blocks.length).written ++
      (block.layout version).bytes ++ back) = .error failure := by
  obtain ⟨number, -, all, -⟩ := isWrittenAs_of_encode written
  obtain ⟨first, firstWritten⟩ := all block (by rw [blocks]; exact List.mem_cons_self)
  have counting := (readBack_count .header list.blocks.length _ (number counted).eq_written).follows
    .header
  obtain ⟨last, reading⟩ := Block.follows_read firstWritten .header
  rw [refused] at reading
  rw [blocks] at counting
  have whole : Follows .state last (read version)
      ([(.header, (Encoding.count .header (block :: others).length).written)] ++
        block.layout version) (.error failure) := by
    refine (?_ : Follows .header last _ _ _).enter .state
    simp only [counted, ↓reduceIte]
    exact counting.bind ((reading.stop _).stop _)
  obtain ⟨_, ended⟩ := whole.complete back
  rw [Layout.bytes_append, Layout.bytes_single] at ended
  rw [blocks, BlockList.decode, Decoder.whole, Input.ofBytes, ended]

/-- With a block in front whose document is refused, a list is not refused in its sections. -/
theorem BlockList.exists_not_refusesLess {block : Block} {detail : Text}
    (written : (block.encode .current).IsWritten)
    (refused : block.received = .error (.messagePackDecoding detail)) :
    ∃ bytes, (BlockList.mk [block, .empty]).encode .current = .ok bytes ∧
      ¬ RefusesLess (BlockList.decode .current) ((BlockList.mk [block, .empty]).layout .current) := by
  have emptyWritten : (Block.empty.encode .current).IsWritten := ⟨_, rfl⟩
  obtain ⟨bytes, listWritten⟩ :
      ((BlockList.mk [block, .empty]).encode .current).IsWritten := by
    refine isWritten_joined_cons (isWritten_count (show 2 < UInt32.size by decide)) ?_
    refine isWritten_joined_cons (isWritten_joined_cons written ?_) (isWritten_ok [])
    exact isWritten_joined_cons emptyWritten (isWritten_ok [])
  refine ⟨bytes, listWritten, fun claim => ?_⟩
  have split : ((BlockList.mk [block, .empty]).layout .current).bytes =
      ((Encoding.count .header 2).written ++ (block.layout .current).bytes) ++
        (Block.empty.layout .current).bytes := by
    have counted : Version.has .current .blockCount = true := rfl
    simp only [BlockList.layout, counted, ↓reduceIte, List.flatMap_cons, List.flatMap_nil,
      Layout.bytes_append, Layout.bytes_single, List.append_nil, List.append_assoc]
    rfl
  have more : 0 < (Block.empty.layout .current).bytes.length := by decide
  obtain ⟨part, -, fault, failed⟩ := claim
    ((Encoding.count .header 2).written ++ (block.layout .current).bytes).length (by
      rw [split]
      simp only [List.length_append]
      omega)
  have stopped := BlockList.refused_of_received listWritten rfl refused rfl []
  rw [split, List.take_left] at failed
  rw [List.append_nil] at stopped
  have same := failed.symm.trans stopped
  cases same

/-- A block with an object is written if the object is not too long. -/
theorem Block.isWritten_object {graph : StructureGraph}
    (short : graph.toObject.length < UInt32.size) :
    ((Block.ofPackage (.object graph)).encode .current).IsWritten := by
  obtain ⟨_, written, -⟩ := BlockList.encode_object graph short
  exact (BlockList.isWrittenAs_of_encode written).blocks _ List.mem_cons_self

/-- A block with an object whose structures lie too deep is refused for the object's document,
whatever else is in the block. -/
theorem Block.received_of_nested {block : Block} {depth : Nat}
    (packaged : block.package = some (.object (.nested depth)))
    (deep : MessagePack.Document.maxLevels / 3 < depth) :
    ∃ detail, block.received = .error (.messagePackDecoding detail) := by
  obtain ⟨detail, read⟩ := StructureGraph.ofObject_nested deep
  refine ⟨detail, ?_⟩
  simp only [Block.received, Block.receivedPackage, packaged, Package.received, read, Except.map]

/-- An object with more levels than its format admits is refused where the block is read. -/
theorem Block.received_nested {depth : Nat} (deep : MessagePack.Document.maxLevels / 3 < depth) :
    ∃ detail, (Block.ofPackage (.object (.nested depth))).received =
      .error (.messagePackDecoding detail) :=
  Block.received_of_nested rfl deep

/-- Not every part of a list is refused as a breach of protocol: behind an object whose structures
lie 345 deep, the reader refuses the object's document instead. -/
theorem not_forall_refusesLess :
    ¬ ∀ (version : Version) (list : BlockList) (bytes : Bytes), list.encode version = .ok bytes →
      RefusesLess (BlockList.decode version) (list.layout version) := by
  intro claim
  have short : (StructureGraph.nested 345).toObject.length < UInt32.size := by
    rw [StructureGraph.length_toObject_nested]
    decide
  have deep : MessagePack.Document.maxLevels / 3 < 345 := by decide
  obtain ⟨detail, refused⟩ := Block.received_nested deep
  obtain ⟨bytes, written, violated⟩ :=
    BlockList.exists_not_refusesLess (Block.isWritten_object short) refused
  exact violated (claim .current _ bytes written)

end SignalAccess
