import Mathlib.Data.List.TakeWhile
import SignalAccess.Proofs.Text.Search
import SignalAccess.Proofs.Text.Pieces

/-!
# Elements of paths

A path reads as its elements, with every row of slashes as one. Two texts put together have the
elements of both exactly where the second one does not go on with the last element of the first, and
then the elements of the first stand in front. So a front part of a path is made of whole elements
at a slash or at the end of the path, and nowhere else.
-/

namespace SignalAccess

namespace Text

variable {c : Char} {t front back rest piece : Text}

/-- A text that is empty or starts with a slash: what stands in front of it ends there as an
element. -/
def AtBoundary (t : Text) : Prop := t = [] ∨ ∃ back, t = '/' :: back

/-- A front part of a text starts as the text does. -/
theorem AtBoundary.of_append (boundary : AtBoundary (front ++ back)) : AtBoundary front := by
  cases front with
  | nil => exact .inl rfl
  | cons c front =>
    rcases boundary with empty | ⟨more, slash⟩
    · cases empty
    · exact .inr ⟨front, by rw [(List.cons.inj slash).1]⟩

/-- A text at a boundary starts with nothing but a slash. -/
theorem AtBoundary.head? (boundary : AtBoundary t) (first : t.head? = some c) : c = '/' := by
  rcases boundary with rfl | ⟨back, rfl⟩
  · cases first
  · exact (Option.some.inj first).symm

/-! ## Texts put together -/

/-- A slash between two texts keeps their elements apart. -/
theorem elements_append_cons (front back : Text) :
    elements (front ++ '/' :: back) = elements front ++ elements back := by
  simp [elements, splitOn_append_cons]

/-- A slash in front adds no element. -/
@[simp] theorem elements_cons_slash (t : Text) : elements ('/' :: t) = elements t :=
  elements_append_cons [] t

/-- Slashes in front of a path are no elements. -/
theorem elements_append_of_slashes (slashes : ∀ c ∈ front, c = '/') (t : Text) :
    elements (front ++ t) = elements t := by
  induction front with
  | nil => rfl
  | cons c front inductionHypothesis =>
    obtain ⟨rfl, others⟩ := List.forall_mem_cons.mp slashes
    rw [List.cons_append, elements_cons_slash, inductionHypothesis others]

/-- Behind a boundary the elements go on with those of the rest. -/
theorem elements_append_of_atBoundary (front : Text) (boundary : AtBoundary rest) :
    elements (front ++ rest) = elements front ++ elements rest := by
  rcases boundary with rfl | ⟨back, rfl⟩
  · rw [List.append_nil]
    exact (List.append_nil _).symm
  · rw [elements_append_cons, elements_cons_slash]

/-- Only slashes have no elements. -/
theorem eq_slash_of_elements_eq_nil (empty : elements t = []) (among : c ∈ t) : c = '/' := by
  induction t with
  | nil => cases among
  | cons d t inductionHypothesis =>
    by_cases slash : d = '/'
    · subst slash
      rw [elements_cons_slash] at empty
      rcases List.mem_cons.mp among with rfl | later
      · rfl
      · exact inductionHypothesis empty later
    · have free : '/' ∉ [d] := by simpa using Ne.symm slash
      obtain ⟨piece, more, split⟩ := exists_elements_append (List.cons_ne_nil d []) free t
      rw [List.singleton_append, empty] at split
      cases split

/-- The characters of a text, its separators aside, are those of its pieces. -/
theorem mem_iff_exists_mem_splitOn {d : Char} (other : c ≠ d) :
    c ∈ t ↔ ∃ piece ∈ splitOn d t, c ∈ piece := by
  induction t with
  | nil => simp
  | cons x t inductionHypothesis =>
    by_cases separator : x = d
    · subst separator
      simp [other, inductionHypothesis]
    · obtain ⟨first, more, split⟩ := List.exists_cons_of_ne_nil (splitWhere_ne_nil (· == d) t)
      have whole : splitOn d t = first :: more := split
      rw [whole, List.exists_mem_cons_iff] at inductionHypothesis
      rw [splitOn_cons_of_ne separator, whole, List.modifyHead_cons, List.mem_cons,
        inductionHypothesis, List.exists_mem_cons_iff, List.mem_cons, or_assoc]

/-- The characters of a path, its slashes aside, are those of its elements. -/
theorem mem_iff_exists_mem_elements (other : c ≠ '/') :
    c ∈ t ↔ ∃ element ∈ elements t, c ∈ element := by
  rw [mem_iff_exists_mem_splitOn other]
  constructor
  · rintro ⟨piece, between, held⟩
    have some : piece ≠ [] := List.ne_nil_of_mem held
    exact ⟨piece, List.mem_filter.mpr ⟨between, by simpa using some⟩, held⟩
  · rintro ⟨element, among, held⟩
    exact ⟨element, (List.mem_filter.mp among).1, held⟩

/-! ## The first element and the last -/

/-- A path that has elements starts with slashes, if any, and the first of them. -/
theorem exists_first_element (given : elements t ≠ []) : ∃ slashes piece rest,
    t = slashes ++ (piece ++ rest) ∧ (∀ c ∈ slashes, c = '/') ∧ piece ≠ [] ∧ '/' ∉ piece ∧
      AtBoundary rest := by
  obtain ⟨piece, rest, body, free, apart⟩ := exists_append_apart (t.dropWhile (· == '/'))
  have whole := List.takeWhile_append_dropWhile (p := (· == '/')) (l := t)
  have slashes : ∀ c ∈ t.takeWhile (· == '/'), c = '/' :=
    fun c among => by simpa using List.mem_takeWhile_imp among
  have boundary : AtBoundary rest := by
    cases rest with
    | nil => exact .inl rfl
    | cons c back => exact .inr ⟨back, by rw [apart c rfl]⟩
  refine ⟨t.takeWhile (· == '/'), piece, rest, by rw [← body, whole], slashes, ?_, free, boundary⟩
  rintro rfl
  -- What stands behind the slashes in front starts with none, so that nothing stands there.
  have nothing : rest = [] := by
    rcases boundary with empty | ⟨back, rfl⟩
    · exact empty
    · have kept := List.head?_dropWhile_not (· == '/') t
      rw [body] at kept
      simp at kept
  rw [nothing, List.append_nil] at body
  rw [body] at whole
  rw [← whole, elements_append_of_slashes slashes] at given
  exact given rfl

/-- Then that element is the first, and the others are those of the rest. -/
theorem elements_of_first {slashes : Text} (slash : ∀ c ∈ slashes, c = '/') (given : piece ≠ [])
    (free : '/' ∉ piece) (boundary : AtBoundary rest) :
    elements (slashes ++ (piece ++ rest)) = piece :: elements rest := by
  rw [elements_append_of_slashes slash, elements_append_of_apart given free fun c => boundary.head?]

/-- A text that does not end with a slash ends with its last element. -/
theorem exists_last_element (given : t ≠ []) (ends : t.getLast? ≠ some '/') : ∃ front piece,
    t = front ++ piece ∧ piece ≠ [] ∧ '/' ∉ piece ∧
      ∀ more, elements (front ++ more) = elements front ++ elements more := by
  by_cases held : '/' ∈ t
  · obtain ⟨front, piece, rfl, free, -⟩ := exists_breakAtLast_of_mem held
    refine ⟨front ++ ['/'], piece, by simp, ?_, free, fun more => ?_⟩
    · rintro rfl
      exact ends (by simp)
    · rw [List.append_assoc, List.singleton_append, elements_append_cons, elements_append_cons]
      simp [elements]
  · exact ⟨[], t, rfl, given, held, fun more => rfl⟩

/-- The elements of a text stand in front of those of a longer one exactly if the longer one goes on
at a boundary. -/
theorem elements_prefix_append_iff (given : t ≠ []) (ends : t.getLast? ≠ some '/') (rest : Text) :
    elements t <+: elements (t ++ rest) ↔ AtBoundary rest := by
  constructor
  · intro inFront
    obtain ⟨front, piece, rfl, some, free, apart⟩ := exists_last_element given ends
    cases rest with
    | nil => exact .inl rfl
    | cons c more =>
      by_cases slash : c = '/'
      · exact .inr ⟨more, by rw [slash]⟩
      · have longFree : '/' ∉ piece ++ [c] := by
          rw [List.mem_append, List.mem_singleton, not_or]
          exact ⟨free, Ne.symm slash⟩
        have alone : elements piece = [piece] := by
          have single := elements_append_of_apart some free (t := []) nofun
          rwa [List.append_nil] at single
        obtain ⟨longer, others, split⟩ := exists_elements_append (by simp) longFree more
        have whole : piece ++ c :: more = piece ++ [c] ++ more := by simp
        rw [List.append_assoc, apart, apart, alone, whole, split, List.prefix_append_right_inj,
          List.cons_prefix_cons] at inFront
        have length := congrArg List.length inFront.1
        simp at length
  · intro boundary
    rw [elements_append_of_atBoundary t boundary]
    exact List.prefix_append _ _

end Text

end SignalAccess
