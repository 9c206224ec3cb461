import SignalAccess.Text.Basic
/-!
# Slices

A slice selects indices of one dimension: from a start to a stop, both included, at a stride. A
negative stop stands for the last index, and so does the start of a single-index slice. The count
of an open slice is only known for a dimension of known length.
-/
namespace SignalAccess

/-- A selection of indices of one dimension. -/
structure Slice where
  start : Int
  stop : Int
  stride : Int
  count : Int
  /-- Whether a single index is selected. -/
  isIndex : Bool
  deriving DecidableEq, Repr

namespace Slice

/-- Every index. -/
def whole : Slice := ⟨0, -1, 1, -1, false⟩

/-- The last index. -/
def last : Slice := ⟨-1, -1, 1, 1, true⟩

/-- What a word of 64 bits holds of a sum of its numbers. One beyond its bounds wraps around. -/
def word (i : Int) : Int := i.bmod UInt64.size

/-- A sum within the bounds of a word is held as it is, whether or not the arithmetic is one that stops
at an overflow. -/
theorem word_of_fits {i : Int} (above : -0x8000000000000000 ≤ i) (below : i < 0x8000000000000000) :
    word i = i := by
  have size : UInt64.size = 0x10000000000000000 := rfl
  exact Int.bmod_eq_of_le (by omega) (by omega)

/-- A single index. -/
def index (i : Int) : Slice := ⟨i, word (i + 1), 1, 1, true⟩

/-- The stop behind a single index is the next one, unless the index is the greatest of a word. -/
theorem index_eq_of_fits {i : Int} (nonneg : 0 ≤ i) (next : i + 1 < 0x8000000000000000) :
    index i = ⟨i, i + 1, 1, 1, true⟩ := by
  rw [index, word_of_fits (by omega) next]

/-- A slice within a dimension: the first and last bound, and the number of indices. -/
structure Extent where
  start : Int
  stop : Int
  count : Int
  deriving DecidableEq, Repr

/-- The first bound of a slice in a dimension of `length` indices. -/
def firstIn (slice : Slice) (length : Int) : Int :=
  if slice.start < 0 then length - 1 else slice.start

/-- The last bound of a slice in a dimension of `length` indices. -/
def lastIn (slice : Slice) (length : Int) : Int :=
  if slice.isIndex then slice.firstIn length
  else if slice.stop < 0 then length - 1
  else slice.stop

/-- The extent of a slice in a dimension of `length` indices; none when a bound lies outside or the
slice is empty. -/
def resolve (slice : Slice) (length : Int) : Option Extent :=
  let start := slice.firstIn length
  let stop := slice.lastIn length
  if length ≤ 0 || length ≤ start || length ≤ stop || stop < start then none
  else some ⟨start, stop, (stop - start).tdiv slice.stride + 1⟩

end Slice

/-- The selection of a data object: one slice for each dimension that it addresses. -/
structure Subset where
  slices : List Slice
  deriving DecidableEq, Repr

namespace Subset

/-- The most dimensions that a selection addresses. -/
def maxRank : Nat := 10

/-- The selection of everything. -/
def empty : Subset := ⟨[]⟩

/-- The number of dimensions addressed. -/
def rank (subset : Subset) : Nat := subset.slices.length

/-- Whether everything is selected. -/
def isEmpty (subset : Subset) : Bool := subset.slices.isEmpty

end Subset

end SignalAccess
