import SignalAccess.Path.Rules
import SignalAccess.Proofs.Text.Elements

/-!
# Paths cut behind an element

A rule with wildcards takes a number of elements off the front of a path and leaves the rest as it
is written, with every slash in front of it. The elements are counted without regard to how many
slashes stand between them, and the rest is cut from the path as it stands. Both views agree: the
cut is right behind the last of the elements, and there is only one such place.
-/

namespace SignalAccess

namespace Text

variable {count : Nat} {path front rest slashes piece : Text}

/-- How a path is cut right behind the last of its first `count` elements. -/
structure IsCut (count : Nat) (path front rest : Text) : Prop where
  /-- Nothing of the path is lost. -/
  whole : path = front ++ rest
  /-- The first elements of the path stand in front of the cut. -/
  elements : front.elements = path.elements.take count
  /-- What stands in front ends with the last of them. -/
  ends : front.getLast? ≠ some '/'
  /-- And the path does not go on with that element. -/
  boundary : AtBoundary rest

/-- Of two cuts behind equally many elements none is behind the other. -/
theorem eq_nil_of_isCut {inner : Text} (cut : IsCut count path front (inner ++ rest))
    (other : IsCut count path (front ++ inner) rest) : inner = [] := by
  have same : front.elements ++ inner.elements = front.elements := by
    rw [← elements_append_of_atBoundary front cut.boundary.of_append, other.elements, cut.elements]
  have empty : inner.elements = [] := List.append_right_eq_self.mp same
  by_contra given
  have last := List.getLast?_eq_some_getLast given
  rw [eq_slash_of_elements_eq_nil empty (List.getLast_mem given)] at last
  exact other.ends (by rw [List.getLast?_append, last]; rfl)

/-- A path has one cut behind a number of its elements. -/
theorem IsCut.unique {otherFront otherRest : Text} (cut : IsCut count path front rest)
    (other : IsCut count path otherFront otherRest) : front = otherFront ∧ rest = otherRest := by
  rcases List.append_eq_append_iff.mp (cut.whole.symm.trans other.whole) with
    ⟨inner, rfl, rfl⟩ | ⟨inner, rfl, rfl⟩
  · rw [eq_nil_of_isCut cut other]
    simp
  · rw [eq_nil_of_isCut other cut]
    simp

/-! ## The cut that is made -/

/-- Slashes and an element in front of a cut make it a cut behind one element more. -/
theorem IsCut.cons (slash : ∀ c ∈ slashes, c = '/') (given : piece ≠ []) (free : '/' ∉ piece)
    (boundary : AtBoundary path) (cut : IsCut count path front rest) :
    IsCut (count + 1) (slashes ++ (piece ++ path)) (slashes ++ (piece ++ front)) rest := by
  have apart : AtBoundary front := by
    rw [cut.whole] at boundary
    exact boundary.of_append
  refine ⟨by simp [cut.whole], ?_, ?_, cut.boundary⟩
  · rw [elements_of_first slash given free apart, elements_of_first slash given free boundary,
      List.take_succ_cons, cut.elements]
  · rw [List.getLast?_append, List.getLast?_append]
    cases last : front.getLast? with
    | some c =>
      have ends := cut.ends
      rw [last] at ends
      exact ends
    | none =>
      have pieceLast := List.getLast?_eq_some_getLast given
      rw [pieceLast]
      intro same
      have slash : piece.getLast given = '/' := by simpa using same
      exact free (slash ▸ List.getLast_mem given)

end Text

namespace PathRule

open Text

variable {count : Nat} {path : Text}

/-- What stands behind one element more stands behind the others in the rest of the path. -/
theorem behindElements_succ {slashes piece rest : Text} (slash : ∀ c ∈ slashes, c = '/')
    (given : piece ≠ []) (free : '/' ∉ piece) (boundary : AtBoundary rest) (count : Nat) :
    behindElements (count + 1) (slashes ++ (piece ++ rest)) = behindElements count rest := by
  have started : (slashes ++ (piece ++ rest)).dropWhile (· == '/') = piece ++ rest := by
    rw [List.dropWhile_append_of_pos (by simpa using slash)]
    obtain ⟨c, inner, rfl⟩ := List.exists_cons_of_ne_nil given
    exact List.dropWhile_cons_of_neg (by simpa using fun same => free (by simp [same]))
  have ended : (piece ++ rest).dropWhile (· != '/') = rest := by
    have apart : ∀ c ∈ piece, (c != '/') = true := by
      rintro c among
      exact bne_iff_ne.mpr fun same => free (same ▸ among)
    rw [List.dropWhile_append_of_pos apart]
    rcases boundary with rfl | ⟨back, rfl⟩
    · rfl
    · exact List.dropWhile_cons_of_neg (by simp)
  rw [behindElements, started, ended]

/-- Behind some of its elements every path is cut as it should be, and behind none of them a path
that starts at a boundary is. -/
theorem exists_isCut (fit : count ≠ 0 ∨ AtBoundary path) (enough : count ≤ path.elements.length) :
    ∃ front, IsCut count path front (behindElements count path) := by
  induction count generalizing path with
  | zero => exact ⟨[], rfl, rfl, nofun, fit.resolve_left (absurd rfl)⟩
  | succ count inductionHypothesis =>
    obtain ⟨slashes, piece, rest, rfl, slash, given, free, boundary⟩ :=
      exists_first_element (List.length_pos_iff.mp (Nat.zero_lt_of_lt enough))
    rw [elements_of_first slash given free boundary, List.length_cons] at enough
    obtain ⟨front, cut⟩ := inductionHypothesis (.inr boundary) (Nat.le_of_succ_le_succ enough)
    rw [behindElements_succ slash given free boundary]
    exact ⟨_, cut.cons slash given free boundary⟩

end PathRule

end SignalAccess
