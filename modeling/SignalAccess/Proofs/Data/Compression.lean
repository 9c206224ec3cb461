import SignalAccess.Proofs.Data.Reconstruction
import SignalAccess.Proofs.Data.Rewriting
import SignalAccess.Proofs.Data.Sections

/-!
# Compressed integer axes

An axis of short integers is compressed exactly if it has three coordinates or more and they go on
by one step. What its line brings back is the progression from the first coordinate, by the step as
far as the type holds it: all of the coordinates if the type is signed, since the step of three of
them is never beyond its bounds. The step of a descending unsigned axis is: it becomes zero, and the
first coordinate comes back over and over.

On the wire a compressed axis is only a header, which is read back bit for bit, in whatever block it
stands. A block is not read at all if it also holds an object whose document the reader refuses.
-/

namespace SignalAccess

open FlatType

/-! ## The line of an axis -/

namespace Elements

variable {values : Elements}

/-- The step between short integers is exact as a number. -/
theorem natAbs_step_lt (short : values.type.IsShortInteger) (enough : 3 ≤ values.count)
    {first step : Int} (same : values.integers = progression step values.count first) :
    step.natAbs ≤ 1 <<< 53 := by
  obtain ⟨start, next, -⟩ := mem_progression step first enough
  rw [← same] at start next
  have startSmall := natAbs_lt_of_mem_integers short start
  have nextSmall := natAbs_lt_of_mem_integers short next
  omega

/-- A signed type holds the step between three of its integers. -/
theorem clamp_step_of_signed (short : values.type.IsShortInteger)
    (signed : values.type.reading = .signed) (enough : 3 ≤ values.count) {first step : Int}
    (same : values.integers = progression step values.count first) :
    values.type.clamp step = step := by
  obtain ⟨start, -, last⟩ := mem_progression step first enough
  rw [← same] at start last
  obtain ⟨above, below⟩ := integer_bounds_of_mem short.integral start
  obtain ⟨lastAbove, lastBelow⟩ := integer_bounds_of_mem short.integral last
  exact clamp_of_signed signed above below lastAbove lastBelow

/-- An unsigned type holds the step between its integers, unless the step goes down. -/
theorem clamp_step_of_unsigned (short : values.type.IsShortInteger)
    (unsigned : values.type.reading = .unsigned) (enough : 3 ≤ values.count) {first step : Int}
    (same : values.integers = progression step values.count first) :
    values.type.clamp step = max 0 step := by
  obtain ⟨start, next, -⟩ := mem_progression step first enough
  rw [← same] at start next
  obtain ⟨above, -⟩ := integer_bounds_of_mem short.integral start
  obtain ⟨-, below⟩ := integer_bounds_of_mem short.integral next
  exact clamp_of_unsigned unsigned above below

/-- The line of values of an integer type is looked for among the numbers of their integers. -/
theorem line?_eq (integral : values.type.reading = .signed ∨ values.type.reading = .unsigned) :
    values.line? = Line.fit? .rounded values.type.lineRule (values.integers.map .ofInt) := by
  rw [line?, numbers?_eq integral]
  rfl

/-- The line of short integers starts at the first of them, and goes on by their step as far as the
type holds it. -/
theorem line?_iff (short : values.type.IsShortInteger) {line : Line Binary64} :
    values.line? = some line ↔
      3 ≤ values.count ∧ ∃ first step, values.integers = progression step values.count first ∧
        line = ⟨.ofInt first, .ofInt (values.type.clamp step)⟩ := by
  have small : Small values.integers := by
    intro i among
    have := natAbs_lt_of_mem_integers short among
    omega
  rw [line?_eq short.integral]
  refine (Line.fit?_ofInt_iff (lineRule_precision short.integral) short.lineRule_limit small).trans ?_
  rw [length_integers]
  refine and_congr_right fun enough => exists_congr fun first => exists_congr fun step => ?_
  refine and_congr_right fun same => ?_
  rw [short.settle_ofInt (natAbs_step_lt short enough same)]

end Elements

/-! ## What a line brings back -/

namespace Axis

variable {axis : Axis} {values : Elements}

/-- An axis that lists elements, under their type and their number. -/
structure Lists (axis : Axis) (values : Elements) : Prop where
  coordinates : axis.coordinates = .literal values
  type : axis.type = values.elementType
  count : axis.count = values.count

/-- The axis with a line in the place of its coordinates. -/
def along (axis : Axis) (first step : Int) : Axis :=
  { axis with coordinates := .linear (.ofInt first) (.ofInt step) }

/-- An axis that is not compressed is left as it is. -/
theorem compress_of_not (kept : axis.compress.1 = false) : axis.compress.2 = axis := by
  unfold compress at kept ⊢
  split at kept
  · split at kept
    · cases kept
    · rfl
  · rfl

/-- The axis that compressing makes is the one beside the answer that it is compressed. -/
theorem compressed?_eq_some_iff {compressed : Axis} :
    axis.compressed? = some compressed ↔ axis.compress = (true, compressed) := by
  unfold compressed?
  obtain ⟨answer, left⟩ := axis.compress
  cases answer <;> simp

/-- An axis of which the answer is that it is compressed is compressed to what stands beside the answer. -/
theorem compressed?_of_compress (found : axis.compress.1 = true) :
    axis.compressed? = some axis.compress.2 :=
  compressed?_eq_some_iff.mpr (Prod.ext found rfl)

/-- What is compressed are coordinates that are listed, if there is a line for them. -/
theorem compressed?_eq (coordinates : axis.coordinates = .literal values) :
    axis.compressed? =
      values.line?.map fun line => { axis with coordinates := .linear line.start line.step } := by
  rw [compressed?, compress, coordinates]
  dsimp only
  cases values.line? with
  | none => rfl
  | some line => rfl

/-- An axis of short integers is compressed to the line from its first coordinate, by the step as far
as the type holds it. -/
theorem compressed?_iff (short : values.type.IsShortInteger)
    (coordinates : axis.coordinates = .literal values) {compressed : Axis} :
    axis.compressed? = some compressed ↔
      3 ≤ values.count ∧ ∃ first step, values.integers = progression step values.count first ∧
        compressed = axis.along first (values.type.clamp step) := by
  rw [compressed?_eq coordinates, Option.map_eq_some_iff]
  constructor
  · rintro ⟨line, fitted, rfl⟩
    obtain ⟨enough, first, step, same, rfl⟩ := (Elements.line?_iff short).mp fitted
    exact ⟨enough, first, step, same, rfl⟩
  · rintro ⟨enough, first, step, same, rfl⟩
    exact ⟨_, (Elements.line?_iff short).mpr ⟨enough, first, step, same, rfl⟩, rfl⟩

/-- The coordinates on a line of integers are those of its progression. -/
theorem elements_along {type : FlatType}
    (integral : type.reading = .signed ∨ type.reading = .unsigned) (typed : axis.type = .flat type)
    {first step : Int} (startExact : first.natAbs ≤ 1 <<< 53) (stepExact : step.natAbs ≤ 1 <<< 53)
    (exact : ∀ i ∈ progression step axis.count first, i.natAbs ≤ 1 <<< 53)
    (inside : ∀ i ∈ progression step axis.count first, type.least ≤ i ∧ i ≤ type.greatest) :
    (axis.along first step).elements =
      .ok (.ofIntegers type (progression step axis.count first)) := by
  have denoted := Coordinates.denotes_accumulate (Binary64.denotes_ofInt startExact)
    (Binary64.denotes_ofInt stepExact) exact
  exact elements_of_inside integral typed rfl rfl denoted (length_progression _ _ _) inside

/-- A line whose step is that of the coordinates brings all of them back. -/
theorem elements_along_step (short : values.type.IsShortInteger) (lists : axis.Lists values)
    (enough : 3 ≤ values.count) {first step : Int}
    (same : values.integers = progression step values.count first) :
    (axis.along first step).elements = .ok values := by
  have small : ∀ i ∈ values.integers, i.natAbs ≤ 1 <<< 53 := by
    intro i among
    have := Elements.natAbs_lt_of_mem_integers short among
    omega
  have start : first ∈ values.integers := by
    rw [same]
    exact (mem_progression step first enough).1
  have stepExact := Elements.natAbs_step_lt short enough same
  rw [← lists.count] at same
  rw [elements_along short.integral lists.type (small first start) stepExact (same ▸ small)
    (same ▸ fun _ => Elements.integer_bounds_of_mem short.integral), ← same,
    Elements.ofIntegers_integers]

/-- A line without a step brings back the first coordinate over and over. -/
theorem elements_along_zero (short : values.type.IsShortInteger) (lists : axis.Lists values)
    {word : BitVec (8 * values.type.width)} :
    (axis.along (values.type.integer word) 0).elements =
      .ok { values with words := List.replicate values.count word } := by
  have small : (values.type.integer word).natAbs ≤ 1 <<< 53 := by
    have := short.natAbs_integer_lt word
    omega
  have only : ∀ i ∈ progression 0 axis.count (values.type.integer word),
      i = values.type.integer word := by
    rw [progression_zero]
    exact fun i => List.eq_of_mem_replicate
  rw [elements_along short.integral lists.type small (by decide)
    (fun i among => only i among ▸ small)
    (fun i among => only i among ▸ integer_bounds short.integral word), progression_zero,
    Elements.ofIntegers, List.map_replicate, ofInt_integer, lists.count]

/-- Short integers that go on by one step are compressed to the line from the first of them. -/
theorem compress_of_progression (short : values.type.IsShortInteger) (lists : axis.Lists values)
    (enough : 3 ≤ values.count) {first step : Int}
    (same : values.integers = progression step values.count first) :
    axis.compress = (true, axis.along first (values.type.clamp step)) :=
  compressed?_eq_some_iff.mp
    ((compressed?_iff short lists.coordinates).mpr ⟨enough, first, step, same, rfl⟩)

/-- An axis of short integers is compressed exactly if it has three coordinates or more and they go
on by one step. -/
theorem compress_iff (short : values.type.IsShortInteger) (lists : axis.Lists values) :
    axis.compress.1 = true ↔
      3 ≤ values.count ∧ ∃ step, values.integers.IsChain fun a b => b - a = step := by
  have length := Elements.length_integers values
  have regular (enough : 3 ≤ values.count) {step : Int} :
      values.integers.IsChain (fun a b => b - a = step) ↔
        ∃ first, values.integers = progression step values.count first := by
    have nonempty := List.ne_nil_of_length_pos (length.symm ▸ Nat.zero_lt_of_lt enough)
    rw [isChain_iff_exists_progression nonempty, length]
  constructor
  · intro found
    obtain ⟨enough, first, step, same, -⟩ :=
      (compressed?_iff short lists.coordinates).mp (compressed?_of_compress found)
    exact ⟨enough, step, (regular enough).mpr ⟨first, same⟩⟩
  · rintro ⟨enough, step, chain⟩
    obtain ⟨first, same⟩ := (regular enough).mp chain
    rw [compress_of_progression short lists enough same]

/-- Coordinates of a signed type come back from their line. -/
theorem elements_compress (short : values.type.IsShortInteger)
    (signed : values.type.reading = .signed) (lists : axis.Lists values)
    (found : axis.compress.1 = true) : axis.compress.2.elements = .ok values := by
  obtain ⟨enough, first, step, same, -⟩ :=
    (compressed?_iff short lists.coordinates).mp (compressed?_of_compress found)
  rw [compress_of_progression short lists enough same,
    Elements.clamp_step_of_signed short signed enough same]
  exact elements_along_step short lists enough same

end Axis

/-! ## Compressed axes in blocks -/

/-- A reader leaves the axes of a block as they are. -/
theorem Block.axes_of_received {block other : Block} (made : block.received = .ok other) :
    other.axes = block.axes := by
  unfold received at made
  cases packaged : block.receivedPackage with
  | ok package =>
    rw [packaged] at made
    cases made
    rfl
  | error failure =>
    rw [packaged] at made
    cases made

/-- An axis of a signed type of at most four bytes is compressed exactly if it has three coordinates
or more and they go on by one step; otherwise it is left as it is. A compressed one gives its
coordinates back at the other end, at every version and wherever it stands in whatever block, if the
document of an object in the block is read. -/
theorem elements_compress_decoded {axis : Axis} {values : Elements} (lists : axis.Lists values)
    (among : values.type ∈ [FlatType.char, .short, .int]) :
    (axis.compress.1 = true ↔
      3 ≤ values.count ∧ ∃ step, values.integers.IsChain fun a b => b - a = step) ∧
    (axis.compress.1 = false → axis.compress.2 = axis) ∧
    (axis.compress.1 = true →
      ∀ (version : Version) (block : Block) (bytes : Bytes) (position : Nat),
        block.axes[position]? = some axis.compress.2 → block.encode version = .ok bytes →
        block.IsReadable →
          ∃ decoded other, Block.decode version bytes = .ok decoded ∧
            decoded.axes[position]? = some other ∧ other.elements = .ok values) := by
  obtain ⟨short, signed⟩ := signed_of_mem among
  refine ⟨Axis.compress_iff short lists, Axis.compress_of_not, ?_⟩
  intro found version block bytes position placed written readable
  obtain ⟨decoded, received⟩ := readable.received
  refine ⟨decoded, axis.compress.2, ?_, ?_, Axis.elements_compress short signed lists found⟩
  · rw [Block.decode_of_encode written, received]
  · rw [Block.axes_of_received received, placed]

/-- The coordinates -128, -1 and 126, whose step is the greatest of their type. -/
def Elements.wide : Elements := ⟨.char, [0x80, 0xff, 0x7e]⟩

/-- A block with an object and with a single axis. -/
def Block.spanned (axis : Axis) (graph : StructureGraph) : Block :=
  { Block.ofPackage (.object graph) with axes := [axis] }

/-- A block with an object can be written if its axis can and if the object has a length. -/
theorem Block.isWritten_spanned {axis : Axis} {graph : StructureGraph} (writable : axis.Writable)
    (short : graph.toObject.length < UInt32.size) :
    ((Block.spanned axis graph).encode .current).IsWritten := by
  have one : 1 < UInt32.size := by decide
  have object : ∀ package ∈ (Block.spanned axis graph).package,
      (package.encode .package).IsWritten := by
    rintro _ ⟨rfl⟩
    exact Encoding.isWritten_blob short
  have block : (Block.spanned axis graph).Writable .current := {
    sound := ⟨rfl, fun _ => rfl, rfl⟩
    errors := ⟨rfl, show 0 < UInt32.size by decide, one⟩
    rank := one
    axes := fun other member => List.mem_singleton.mp member ▸ writable
    units := Nat.zero_le _
    label := Nat.zero_le _
    description := Nat.zero_le _
    errorMessage := Nat.zero_le _
    package := fun package present => ⟨by rcases present with ⟨rfl⟩; exact one,
      fun _ => object package present⟩ }
  exact block.isWritten_of_package (Block.unknownType?_eq_none (by decide) _) object

/-- The axis of the coordinates with the greatest step lists them. -/
theorem Axis.lists_wide : (Axis.literal .wide).Lists .wide := ⟨rfl, rfl, rfl⟩

/-- The coordinates with the greatest step are compressed to the line from -128 by 127. -/
theorem Axis.compress_wide :
    (Axis.literal .wide).compress = (true, (Axis.literal .wide).along (-128) 127) := by
  have short : Elements.wide.type.IsShortInteger := ⟨.inl rfl, by decide⟩
  have same : Elements.wide.integers = progression 127 Elements.wide.count (-128) := by decide
  exact compress_of_progression short lists_wide (by decide) same

/-- The axis of the coordinates with the greatest step can be written when it is compressed. -/
theorem Axis.writable_compress_wide : (Axis.literal .wide).compress.2.Writable := by
  rw [compress_wide]
  exact {
    sound := ⟨fun _ => rfl, nofun, rfl, rfl⟩
    errors := ⟨rfl, by decide, by decide⟩
    terms := by decide
    units := Nat.zero_le _
    label := Nat.zero_le _ }

/-- Coordinates with the greatest step of their type come back from a block in which an object stands
beside them. -/
theorem elements_compress_decoded_wide :
    (Axis.literal .wide).compress.1 = true ∧
      ∃ bytes, (Block.spanned (Axis.literal .wide).compress.2 (.nested 0)).encode .current = .ok bytes ∧
        ∃ decoded other, Block.decode .current bytes = .ok decoded ∧
          decoded.axes[0]? = some other ∧ other.elements = .ok .wide := by
  obtain ⟨regular, -, back⟩ := elements_compress_decoded Axis.lists_wide (by decide)
  have found := regular.mpr ⟨by decide, 127, by decide⟩
  have short : (StructureGraph.nested 0).toObject.length < UInt32.size := by decide
  obtain ⟨bytes, written⟩ := Block.isWritten_spanned Axis.writable_compress_wide short
  refine ⟨found, bytes, written, back found _ _ bytes 0 rfl written ?_⟩
  rintro _ ⟨rfl⟩
  exact ⟨.nested 0, rfl⟩

/-- An axis does not come back if it stands in a block with an object whose structures lie 345 deep:
the block is written, but the object's document is refused, and with it the block. -/
theorem not_forall_elements_compress_decoded :
    ¬ ∀ (axis : Axis) (values : Elements), axis.Lists values →
      values.type ∈ [FlatType.char, .short, .int] → axis.compress.1 = true →
      ∀ (version : Version) (block : Block) (bytes : Bytes) (position : Nat), 0 ≤ version →
        block.axes[position]? = some axis.compress.2 → block.encode version = .ok bytes →
          ∃ decoded other, Block.decode version bytes = .ok decoded ∧
            decoded.axes[position]? = some other ∧ other.elements = .ok values := by
  intro claim
  have short : (StructureGraph.nested 345).toObject.length < UInt32.size := by
    rw [StructureGraph.length_toObject_nested]
    decide
  have deep : MessagePack.Document.maxLevels / 3 < 345 := by decide
  have found : (Axis.literal .wide).compress.1 = true :=
    (Axis.compress_iff ⟨.inl rfl, by decide⟩ Axis.lists_wide).mpr ⟨by decide, 127, by decide⟩
  obtain ⟨bytes, written⟩ := Block.isWritten_spanned Axis.writable_compress_wide short
  obtain ⟨decoded, -, read, -⟩ := claim (.literal .wide) .wide Axis.lists_wide (by decide) found
    .current _ bytes 0 (by decide) rfl written
  obtain ⟨detail, refused⟩ : ∃ detail, (Block.spanned (Axis.literal .wide).compress.2
      (.nested 345)).received = .error (.messagePackDecoding detail) :=
    Block.received_of_nested rfl deep
  rw [Block.decode_of_encode written, refused] at read
  cases read

/-! ## Unsigned axes -/

namespace Axis

variable {axis : Axis} {values : Elements} {first step : Int}

/-- Unsigned values that go up by one step come back from their line. -/
theorem elements_along_of_ascending (short : values.type.IsShortInteger)
    (unsigned : values.type.reading = .unsigned) (lists : axis.Lists values)
    (enough : 3 ≤ values.count) (same : values.integers = progression step values.count first)
    (up : 0 ≤ step) : (axis.along first (values.type.clamp step)).elements = .ok values := by
  rw [Elements.clamp_step_of_unsigned short unsigned enough same, Int.max_eq_right up]
  exact elements_along_step short lists enough same

/-- Of a descending axis only the first coordinate is left. -/
theorem elements_along_of_descending (short : values.type.IsShortInteger)
    (unsigned : values.type.reading = .unsigned) (lists : axis.Lists values)
    (enough : 3 ≤ values.count) (same : values.integers = progression step values.count first)
    (down : step < 0) : ∃ word, values.words.head? = some word ∧
      (axis.along first (values.type.clamp step)).elements =
        .ok { values with words := List.replicate values.count word } := by
  have listed := same
  obtain ⟨count, counted⟩ : ∃ count, values.count = count + 1 := ⟨values.count - 1, by omega⟩
  obtain ⟨word, others, worded⟩ := List.exists_cons_of_length_pos (Nat.zero_lt_of_lt enough)
  rw [Elements.integers, worded, counted, List.map_cons, progression] at listed
  obtain ⟨rfl, -⟩ := List.cons.inj listed
  refine ⟨word, by rw [worded, List.head?_cons], ?_⟩
  rw [Elements.clamp_step_of_unsigned short unsigned enough same, Int.max_eq_left (Int.le_of_lt down)]
  exact elements_along_zero short lists

end Axis

/-- Values that are all the same do not fall. -/
theorem Elements.pairwise_integers_replicate (values : Elements)
    (word : BitVec (8 * values.type.width)) :
    (integers { values with words := List.replicate values.count word }).Pairwise (· ≤ ·) := by
  rw [integers, List.map_replicate]
  exact List.pairwise_replicate.mpr (.inr (Int.le_refl _))

/-- An axis of an unsigned type of at most four bytes comes back from its line exactly if its
coordinates do not descend. From the line of a descending one its first coordinate comes back over
and over. -/
theorem elements_compressed_unsigned {axis compressed : Axis} {values : Elements}
    (lists : axis.Lists values)
    (among : values.type ∈ [FlatType.unsignedChar, .unsignedShort, .unsignedInt])
    (found : axis.compressed? = some compressed) :
    (compressed.elements = .ok values ↔ values.integers.Pairwise (· ≤ ·)) ∧
    (¬ values.integers.Pairwise (· ≤ ·) → ∃ first, values.words.head? = some first ∧
      compressed.elements = .ok { values with words := List.replicate values.count first }) := by
  obtain ⟨short, unsigned⟩ := unsigned_of_mem among
  obtain ⟨enough, first, step, same, rfl⟩ := (Axis.compressed?_iff short lists.coordinates).mp found
  have ascends : values.integers.Pairwise (· ≤ ·) ↔ 0 ≤ step := by
    rw [same]
    exact pairwise_progression_iff (Nat.le_of_succ_le enough)
  rw [ascends]
  by_cases up : 0 ≤ step
  · have back := Axis.elements_along_of_ascending short unsigned lists enough same up
    exact ⟨iff_of_true back up, fun down => absurd up down⟩
  · obtain ⟨word, head, back⟩ := Axis.elements_along_of_descending short unsigned lists enough same
      (Int.lt_of_not_ge up)
    refine ⟨iff_of_false (fun unchanged => up (ascends.mp ?_)) up, fun _ => ⟨word, head, back⟩⟩
    -- If the first coordinate over and over were all of them, none of them would lie below it.
    have constant := Except.ok.inj (back.symm.trans unchanged)
    exact constant ▸ values.pairwise_integers_replicate word

/-- The coordinates 3, 2 and 1. -/
def Elements.falling : Elements := ⟨.unsignedChar, [3, 2, 1]⟩

/-- The axis of the falling coordinates lists them. -/
theorem Axis.lists_falling : (Axis.literal .falling).Lists .falling := ⟨rfl, rfl, rfl⟩

/-- The falling axis is compressed to a line that does not fall, as its type has no negative
step. -/
theorem Axis.compressed?_falling : (Axis.literal .falling).compressed? =
    some ((Axis.literal .falling).along 3 (FlatType.clamp .unsignedChar (-1))) := by
  have short : Elements.falling.type.IsShortInteger := ⟨.inr rfl, by decide⟩
  exact (compressed?_iff short rfl).mpr ⟨by decide, 3, -1, by decide, rfl⟩

/-- The coordinates 3, 2 and 1 come back as 3, 3 and 3. -/
theorem elements_compressed_unsigned_falling :
    ∃ compressed, (Axis.literal .falling).compressed? = some compressed ∧
      compressed.elements = .ok ⟨.unsignedChar, [3, 3, 3]⟩ := by
  refine ⟨_, Axis.compressed?_falling, ?_⟩
  obtain ⟨-, back⟩ :=
    elements_compressed_unsigned Axis.lists_falling (by decide) Axis.compressed?_falling
  obtain ⟨_, ⟨rfl⟩, back⟩ := back (by decide)
  exact back

/-- Not every unsigned axis comes back from its line. -/
theorem not_forall_elements_compressed_unsigned :
    ¬ ∀ (axis compressed : Axis) (values : Elements), axis.Lists values →
      values.type ∈ [FlatType.unsignedChar, .unsignedShort, .unsignedInt] →
      axis.compressed? = some compressed → compressed.elements = .ok values := by
  intro claim
  have unchanged := claim _ _ _ Axis.lists_falling (by decide) Axis.compressed?_falling
  have same : Elements.falling.integers = progression (-1) Elements.falling.count 3 := by decide
  obtain ⟨_, ⟨rfl⟩, back⟩ := Axis.elements_along_of_descending ⟨.inr rfl, by decide⟩ rfl
    Axis.lists_falling (by decide) same (by decide)
  have constant := congrArg Elements.integers (Except.ok.inj (back.symm.trans unchanged))
  revert constant
  decide

end SignalAccess
