import SignalAccess.Data.Block
import SignalAccess.Proofs.Data.Structure

/-!
# Reading back data blocks

A block that can be written for a peer of some version is read back by that peer as it was, whatever
it holds. The header tells the reader which of the parts behind it there are; a part that the version
does not know is one that a written block does not have. A list of blocks is read back likewise.

The one part whose form is not this library's own is a graph that travels as an object: it is read
back whenever its document is.
-/

namespace SignalAccess

open Encoding

namespace Block

/-- A graph that travels as an object is read back from its document. -/
def ObjectReadBack (block : Block) : Prop := ∀ package ∈ block.package, package.ObjectReadBack

/-- What a block without fault for a peer of some version is: its elements are the announced ones,
its errors are without fault, and it has a package only where the version knows packages. -/
structure Sound (version : Version) (block : Block) : Prop where
  announced : block.hasAnnouncedElements = true
  packaged : block.package.isSome = true → version.has .package = true
  errors : block.errors.fault? block.count = none

/-- The check of a block finds no fault only in sound ones. -/
theorem sound_of_fault? {version : Version} {block : Block}
    (faultless : block.fault? version = none) : block.Sound version := by
  unfold fault? at faultless
  split at faultless
  · cases faultless
  · next announced =>
    split at faultless
    · cases faultless
    · next packaged =>
      refine ⟨by simpa using announced, ?_, faultless⟩
      intro present
      simpa [present] using packaged

/-- A header is read back at the version at which it was written. Where packages are unknown the
header has to announce none. -/
theorem Header.readBack (version : Version) (header : Header)
    (known : version.has .package = false → header.packageCode = 0 ∧ header.packageCount = 0) :
    ReadBack (header.encode version) (Header.decode version) header := by
  refine (readBack_count .header header.count).cons <|
    (readBack_count .header header.rank).cons <|
    (readBack_int32 header.order).cons <|
    (readBack_elementType header.type).cons <|
    (ErrorBars.Header.readBack .header header.errors).cons <|
    (readBack_int32 header.errorCode).cons <|
    (readBack_int32 header.sourceStatus).cons <|
    (readBack_int32 header.signalStatus).cons <|
    (readBack_text .header Limit.field header.units).cons <|
    (readBack_text .header Limit.field header.label).cons <|
    (readBack_text .header Limit.field header.description).cons <|
    (readBack_text .header Limit.field header.errorMessage).cons ?_
  cases gate : version.has .package with
  | true =>
    exact ((readBack_int32 header.packageCode).cons
      ((readBack_count .header header.packageCount).map fun count => { header with
        packageCount := count }).single).single
  | false =>
    obtain ⟨code, count⟩ := known gate
    obtain ⟨_, _, _, _, _, _, _, _, _, _, _, _, _, _⟩ := header
    subst code count
    exact readBack_nil _

/-- The header of a sound block announces a package only where the version knows packages. -/
theorem Sound.readBack_header {version : Version} {block : Block} (sound : block.Sound version) :
    ReadBack (block.header.encode version) (Header.decode version) block.header := by
  apply Header.readBack
  intro unknown
  cases present : block.package with
  | none => simp [Block.header, present]
  | some package =>
    have known := sound.packaged (by rw [present]; rfl)
    simp [known] at unknown

/-- The elements of a sound block are read back as its header announces them. No elements take no
bytes, and are still told from the absence of elements by their type. -/
theorem Sound.readBack_elements {version : Version} {block : Block} (sound : block.Sound version) :
    ReadBack
      (if block.count = 0 then .ok [] else (block.elements.map (·.encode .data)).getD (.ok []))
      block.header.elements block.elements := by
  have announced := sound.announced
  unfold hasAnnouncedElements at announced
  cases present : block.elements with
  | none =>
    have shapeless : block.type.isFlat = false := by simpa [present] using announced
    simp only [Header.elements, Block.header, shapeless, Option.map_none, Option.getD_none, ite_self,
      Bool.not_false, ↓reduceIte]
    exact readBack_nil none
  | some elements =>
    obtain ⟨typed, counted⟩ := Elements.eq_of_areOf (by simpa [present] using announced)
    have flat : block.type.isFlat = true := by rw [← typed]; rfl
    simp only [Header.elements, Block.header, flat, Bool.not_true, Bool.false_eq_true, ↓reduceIte]
    by_cases empty : block.count = 0
    · have zeros : Elements.zeros block.type 0 = some elements := by
        obtain ⟨type, words⟩ := elements
        have nothing : words = [] := List.length_eq_zero_iff.mp (counted.trans empty)
        rw [← typed, nothing]
        rfl
      simp only [empty, zeros, ↓reduceIte]
      exact readBack_nil (some elements)
    · simp only [empty, ↓reduceIte]
      exact (Elements.readBack .data typed counted).map some

/-- The package of a block is taken under the header's code, which is zero only without one. -/
theorem takes_package {block : Block} (object : block.ObjectReadBack) {bytes : Bytes}
    (written : (block.package.map (·.encode .package)).getD (.ok []) = .ok bytes) :
    block.header.package.Takes bytes block.package := by
  cases present : block.package with
  | none =>
    have none : bytes = [] := by simpa [present, eq_comm] using written
    simp only [Header.package, Block.header, present, Option.map_none, Option.getD_none, none,
      ↓reduceIte]
    exact (Decoder.reads_pure Option.none).takes
  | some package =>
    have nonzero : package.code ≠ 0 := by cases package <;> simp only [Package.code] <;> decide
    have encoded : package.encode .package = .ok bytes := by simpa [present] using written
    have read := Package.readBack .package package (object package present) bytes encoded
    simp only [Header.package, Block.header, present, Option.map_some, Option.getD_some, nonzero,
      ↓reduceIte]
    exact (read.takes.map some).enter .package

/-- A block that can be written is taken as it was: the parts of its contents come in the order in
which the reader turns to them, each in its own section. -/
theorem takes_encode {version : Version} {block : Block} (object : block.ObjectReadBack)
    {bytes : Bytes} (written : block.encode version = .ok bytes) :
    (read version).Takes bytes block := by
  unfold encode at written
  split at written
  · cases written
  · obtain ⟨faultless, joinedParts⟩ := faultless_of_checked written
    have sound := sound_of_fault? faultless
    obtain ⟨header, rest, headerWritten, restWritten, rfl⟩ := joined_cons_eq_ok joinedParts
    obtain ⟨contents, none, contentsWritten, noneWritten, rfl⟩ := joined_cons_eq_ok restWritten
    cases noneWritten
    obtain ⟨data, behindData, dataWritten, behindDataWritten, rfl⟩ :=
      joined_cons_eq_ok contentsWritten
    obtain ⟨errors, behindErrors, errorsWritten, behindErrorsWritten, rfl⟩ :=
      joined_cons_eq_ok behindDataWritten
    obtain ⟨axes, behindAxes, axesWritten, behindAxesWritten, rfl⟩ :=
      joined_cons_eq_ok behindErrorsWritten
    obtain ⟨package, nothing, packageWritten, nothingWritten, rfl⟩ :=
      joined_cons_eq_ok behindAxesWritten
    cases nothingWritten
    have headerTaken := (sound.readBack_header header headerWritten).takes
    have dataTaken := (sound.readBack_elements data dataWritten).takes
    have errorsTaken := (ErrorBars.readBack .data block.errors sound.errors errors errorsWritten).takes
    have axesTaken := (Axis.readBack_all .axis block.axes axes axesWritten).takes
    have packageTaken := takes_package object packageWritten
    simp only [List.append_nil]
    refine Decoder.Takes.enter .header (headerTaken.bind (Decoder.Takes.enter .data ?_))
    refine dataTaken.bind (errorsTaken.bind (Decoder.Takes.enter .axis (axesTaken.bind ?_)))
    have made := packageTaken.map fun package => { block with package := package }
    exact made

end Block

namespace BlockList

/-- A list of blocks that can be written is taken as it was. Where the version has no number of
blocks, there is one. -/
theorem takes_encode {version : Version} {list : BlockList}
    (object : ∀ block ∈ list.blocks, block.ObjectReadBack) {bytes : Bytes}
    (written : list.encode version = .ok bytes) : (read version).Takes bytes list := by
  have blocks : ∀ bytes, joined (list.blocks.map (·.encode version)) = .ok bytes →
      (Decoder.repeated (Block.read version) list.blocks.length).Takes bytes list.blocks := by
    intro bytes written
    have taken := takes_repeated (·.encode version) (Block.read version) id list.blocks
      (fun block member _ written => Block.takes_encode (object block member) written) written
    rwa [List.map_id] at taken
  apply Decoder.Takes.enter
  unfold encode at written
  cases gate : version.has .blockCount with
  | true =>
    simp only [gate, ↓reduceIte] at written ⊢
    obtain ⟨count, rest, countWritten, restWritten, rfl⟩ := joined_cons_eq_ok written
    obtain ⟨front, none, frontWritten, noneWritten, rfl⟩ := joined_cons_eq_ok restWritten
    cases noneWritten
    rw [List.append_nil]
    have counted := (readBack_count .header list.blocks.length count countWritten).takes
    exact counted.bind ((blocks front frontWritten).map BlockList.mk)
  | false =>
    simp only [gate, Bool.false_eq_true, ↓reduceIte] at written ⊢
    split at written
    · next single =>
      have taken := (blocks bytes written).map BlockList.mk
      rw [single] at taken
      exact taken
    · cases written

end BlockList

/-- Data blocks round-trip at every version. Whatever a block holds, if it can be written for a
version then its bytes are read at that version as the block itself, and the same holds of a list
of blocks. Elements are compared by their words, so floating point values keep every bit. -/
theorem block_decode_encode (version : Version) :
    (∀ (block : Block) (bytes : Bytes), block.ObjectReadBack →
      block.encode version = .ok bytes → Block.decode version bytes = .ok block) ∧
    (∀ (list : BlockList) (bytes : Bytes), (∀ block ∈ list.blocks, block.ObjectReadBack) →
      list.encode version = .ok bytes → BlockList.decode version bytes = .ok list) := by
  constructor
  · intro block bytes object written
    exact (Block.takes_encode object written).whole _
  · intro list bytes object written
    exact (BlockList.takes_encode object written).whole _

/-- A graph with a shot that holds two channels, one of them without a name. -/
def StructureGraph.shot : StructureGraph where
  types := [⟨"Shot".toList,
      [⟨"number".toList, .array (.flat .int) 1⟩, ⟨"channels".toList, .structures "Channel".toList⟩]⟩,
    ⟨"Channel".toList, [⟨"name".toList, .text⟩]⟩]
  itemType := "Shot".toList
  items := [[.array ⟨.int, [7]⟩, .structures [[.text "Ip".toList], [.text []]]]]

/-- A block with errors that differ on both sides of a NaN and a negative zero, an axis without
coordinates, an axis in runs, and a package. -/
def Block.measured (package : Package) : Block where
  type := .flat .float
  count := 2
  elements := some ⟨.float, [0x7fc00001, 0x80000000]⟩
  order := -1
  errors := ⟨1, [⟨0x3f800000⟩], some ⟨.float, [1, 2]⟩, some ⟨.float, [3, 4]⟩⟩
  errorCode := 0
  sourceStatus := 0
  signalStatus := 0
  units := "A".toList
  label := []
  description := []
  errorMessage := []
  axes := [⟨.flat .double, 0, .literal ⟨.double, []⟩, .absent, "s".toList, "time".toList⟩,
    ⟨.flat .short, 2, .runs [2] ⟨.short, [5]⟩ ⟨.short, [1]⟩, .absent, [], []⟩]
  package := some package

set_option maxRecDepth 4000 in
/-- At the latest version a block with a graph in the form of the wire comes back, and so does a list
of it and a block with the same graph as an object. -/
theorem block_decode_encode_measured :
    Block.decode .current ((Block.measured (.structures .shot)).encode .current).written =
        .ok (Block.measured (.structures .shot)) ∧
      BlockList.decode .current ((BlockList.mk [Block.measured (.structures .shot),
          Block.measured (.object .shot)]).encode .current).written =
        .ok ⟨[Block.measured (.structures .shot), Block.measured (.object .shot)]⟩ := by
  have plain : (Block.measured (.structures .shot)).ObjectReadBack := by
    rintro _ ⟨rfl⟩
    trivial
  have object : (Block.measured (.object .shot)).ObjectReadBack := by
    rintro _ ⟨rfl⟩
    rfl
  refine ⟨(block_decode_encode .current).1 _ _ plain rfl,
    (block_decode_encode .current).2 _ _ ?_ rfl⟩
  intro block member
  simp only [List.mem_cons, List.not_mem_nil, or_false] at member
  rcases member with rfl | rfl
  · exact plain
  · exact object

end SignalAccess
