import Mathlib.Data.List.Forall2
import SignalAccess.Path.Variables
import SignalAccess.Proofs.Text.Elements

/-!
# Values in the place of variables

A path is expanded piece by piece, a piece being what stands between two slashes. One that names a known
variable makes way for the elements of its value, and every other piece stays what it is, between what
becomes of its neighbours.

A value may hold any number of slashes and may be empty, so the path that comes of it is cut into other
pieces than the one before. Each of them is a piece that was left, or belongs to a value. If no value
holds a dollar sign, no variable is named any more, and a second expansion changes nothing.
-/

namespace SignalAccess

namespace Path

variable {environment? : Text → Option Text} {piece value : Text} {row : List Text}

/-- The value of the variable that a piece of a path names, if the variable is known. -/
def value? (environment? : Text → Option Text) : Text → Option Text
  | '$' :: name => environment? name
  | _ => none

/-- What a piece of a path may become. A piece that names no known variable stays as it is, and one that
does makes way for the elements of the value, with empty pieces perhaps between them. -/
def Becomes (environment? : Text → Option Text) (piece : Text) (row : List Text) : Prop :=
  match value? environment? piece with
  | none => row = [piece]
  | some value => row.filter (!·.isEmpty) = value.elements

/-! ## One piece -/

/-- What a piece stands for, by the value that it names if it names any. -/
theorem expandElement_eq (environment? : Text → Option Text) (isFirst : Bool) (piece : Text) :
    expandElement environment? isFirst piece =
      match value? environment? piece with
      | none => piece
      | some value =>
        if isFirst then (if value.head? = some '/' then value else '/' :: value)
        else value.dropWhile (· == '/') := by
  cases piece with
  | nil => rfl
  | cons c name =>
    by_cases dollar : c = '$'
    · subst dollar
      rfl
    · simp [expandElement, value?, dollar]

/-- A piece that names no known variable stays as it is, in front and further on. -/
theorem expandElement_of_unknown (unknown : value? environment? piece = none) (isFirst : Bool) :
    expandElement environment? isFirst piece = piece := by
  rw [expandElement_eq, unknown]

/-- A known variable adds or takes away slashes in front of its value only. -/
theorem elements_expandElement (known : value? environment? piece = some value) (isFirst : Bool) :
    (expandElement environment? isFirst piece).elements = value.elements := by
  rw [expandElement_eq, known]
  cases isFirst with
  | true =>
    simp only [↓reduceIte]
    split
    · rfl
    · exact Text.elements_cons_slash value
  | false =>
    have slashes : ∀ c ∈ value.takeWhile (· == '/'), c = '/' :=
      fun c among => by simpa using List.mem_takeWhile_imp among
    have dropped := Text.elements_append_of_slashes slashes (value.dropWhile (· == '/'))
    rw [List.takeWhile_append_dropWhile] at dropped
    exact dropped.symm

/-- A known variable in front of a path starts it with a slash. -/
theorem head?_expandElement_true (known : value? environment? piece = some value) :
    (expandElement environment? true piece).head? = some '/' := by
  rw [expandElement_eq, known]
  simp only [↓reduceIte]
  split
  · next absolute => exact absolute
  · rfl

/-- The pieces of an expanded piece are what the piece becomes. -/
theorem becomes_expandElement (free : '/' ∉ piece) (isFirst : Bool) :
    Becomes environment? piece (Text.splitOn '/' (expandElement environment? isFirst piece)) := by
  unfold Becomes
  cases found : value? environment? piece with
  | none =>
    simp only
    rw [expandElement_of_unknown found, Text.splitOn_of_not_mem free]
  | some value => exact elements_expandElement found isFirst

/-! ## All pieces -/

/-- The first piece is expanded as such, and the others are expanded alike. -/
theorem exists_expandVariables_eq (environment? : Text → Option Text) (path : Text) :
    ∃ first others, Text.splitOn '/' path = first :: others ∧
      expandVariables environment? path = Text.joinBy ['/'] (expandElement environment? true first ::
        others.map (expandElement environment? false)) := by
  obtain ⟨first, others, split⟩ := List.exists_cons_of_ne_nil (Text.splitWhere_ne_nil (· == '/') path)
  have whole : Text.splitOn '/' path = first :: others := split
  refine ⟨first, others, whole, ?_⟩
  rw [expandVariables, whole]

/-- The pieces of an expanded path are what the pieces of the path become, one row behind the other. -/
theorem exists_rows (environment? : Text → Option Text) (path : Text) :
    ∃ rows, List.Forall₂ (Becomes environment?) (Text.splitOn '/' path) rows ∧
      Text.splitOn '/' (expandVariables environment? path) = rows.flatten := by
  obtain ⟨first, others, whole, expanded⟩ := exists_expandVariables_eq environment? path
  have free (piece : Text) (among : piece ∈ first :: others) : '/' ∉ piece :=
    Text.not_mem_of_mem_splitOn (whole ▸ among)
  refine ⟨Text.splitOn '/' (expandElement environment? true first) ::
    others.map fun piece => Text.splitOn '/' (expandElement environment? false piece), ?_, ?_⟩
  · rw [whole]
    apply List.Forall₂.cons
    · exact becomes_expandElement (free first List.mem_cons_self) true
    · rw [List.forall₂_map_right_iff, List.forall₂_same]
      intro piece among
      exact becomes_expandElement (free piece (List.mem_cons_of_mem first among)) false
  · rw [expanded, Text.splitOn_joinBy_singleton, List.flatMap_cons, List.flatMap_map,
      List.flatten_cons, List.flatMap_def]

/-- A path that names no known variable stays as it is. -/
theorem expandVariables_of_unknown {path : Text}
    (unknown : ∀ piece ∈ Text.splitOn '/' path, value? environment? piece = none) :
    expandVariables environment? path = path := by
  obtain ⟨first, others, whole, expanded⟩ := exists_expandVariables_eq environment? path
  rw [whole] at unknown
  obtain ⟨firstUnknown, othersUnknown⟩ := List.forall_mem_cons.mp unknown
  have kept : others.map (expandElement environment? false) = others :=
    (List.map_congr_left fun piece among =>
      expandElement_of_unknown (othersUnknown piece among) false).trans (List.map_id others)
  rw [expanded, expandElement_of_unknown firstUnknown, kept, ← whole, Text.joinBy_splitOn]

/-! ## Values without a dollar sign -/

/-- A piece without a dollar sign names no variable. -/
theorem value?_eq_none_of_not_mem (free : '$' ∉ piece) : value? environment? piece = none := by
  unfold value?
  split
  · exact absurd List.mem_cons_self free
  · rfl

/-- Of what a piece becomes, nothing names a known variable. -/
theorem Becomes.unknown (becomes : Becomes environment? piece row)
    (plain : ∀ name value, environment? name = some value → '$' ∉ value) :
    ∀ inner ∈ row, value? environment? inner = none := by
  intro inner among
  unfold Becomes at becomes
  split at becomes
  · next unknown =>
    rw [becomes, List.mem_singleton] at among
    rwa [among]
  · next value known =>
    apply value?_eq_none_of_not_mem
    intro dollar
    have element : inner ∈ value.elements := by
      rw [← becomes]
      exact List.mem_filter.mpr ⟨among, by simpa using List.ne_nil_of_mem dollar⟩
    have held : '$' ∈ value :=
      (Text.mem_iff_exists_mem_elements (by decide)).mpr ⟨inner, element, dollar⟩
    unfold value? at known
    split at known
    · exact plain _ value known held
    · cases known

/-- Where no value holds a dollar sign, a path is expanded once and for all. Each piece that names no
known variable stays as it is in its place, a known variable makes way for the elements of its value,
and a path in front of which one stands becomes absolute. -/
theorem expanded_of_plain_values (environment? : Text → Option Text) (path : Text)
    (plain : ∀ name value, environment? name = some value → '$' ∉ value) :
    expandVariables environment? (expandVariables environment? path) =
        expandVariables environment? path ∧
      (∃ rows, List.Forall₂ (Becomes environment?) (Text.splitOn '/' path) rows ∧
        Text.splitOn '/' (expandVariables environment? path) = rows.flatten) ∧
      ∀ first value, (Text.splitOn '/' path).head? = some first →
        value? environment? first = some value →
          (expandVariables environment? path).head? = some '/' := by
  obtain ⟨rows, becomes, pieces⟩ := exists_rows environment? path
  refine ⟨?_, ⟨rows, becomes, pieces⟩, ?_⟩
  · have settled : List.Forall₂ (fun row _ =>
        (∀ inner ∈ row, value? environment? inner = none) ∧ True) rows (Text.splitOn '/' path) :=
      (becomes.imp fun piece row given => ⟨given.unknown plain, trivial⟩).flip
    have unknown := ((List.forall₂_and_left rows _).mp settled).1
    apply expandVariables_of_unknown
    rw [pieces]
    intro inner among
    obtain ⟨row, listed, held⟩ := List.mem_flatten.mp among
    exact unknown row listed inner held
  · intro front value inFront known
    obtain ⟨first, others, whole, expanded⟩ := exists_expandVariables_eq environment? path
    rw [whole, List.head?_cons] at inFront
    obtain rfl := Option.some.inj inFront
    have absolute := head?_expandElement_true known
    have given : expandElement environment? true first ≠ [] := by
      intro nothing
      rw [nothing] at absolute
      cases absolute
    rw [expanded, Text.head?_joinBy given, absolute]

/-- Values of two variables: a relative path with a row of slashes, and nothing. -/
def settings (name : Text) : Option Text :=
  if name = "HOME".toList then some "home//user/".toList
  else if name = "NOTHING".toList then some []
  else none

/-- A relative value in front becomes absolute, an empty one leaves an empty piece, and the name of an
unknown variable stays. So does all of it when the path is expanded again. -/
theorem expanded_of_plain_values_settings :
    (∀ name value, settings name = some value → '$' ∉ value) ∧
      expandVariables settings "$HOME/$NOTHING/$OTHER/f.nc".toList =
        "/home//user///$OTHER/f.nc".toList ∧
      expandVariables settings "/home//user///$OTHER/f.nc".toList =
        "/home//user///$OTHER/f.nc".toList := by
  have plain : ∀ name value, settings name = some value → '$' ∉ value := by
    intro name value found
    unfold settings at found
    split at found
    · obtain rfl := Option.some.inj found
      decide
    · split at found
      · obtain rfl := Option.some.inj found
        exact List.not_mem_nil
      · cases found
  have expanded : expandVariables settings "$HOME/$NOTHING/$OTHER/f.nc".toList =
      "/home//user///$OTHER/f.nc".toList := by decide
  obtain ⟨again, -, -⟩ :=
    expanded_of_plain_values settings "$HOME/$NOTHING/$OTHER/f.nc".toList plain
  rw [expanded] at again
  exact ⟨plain, expanded, again⟩

end Path

end SignalAccess
