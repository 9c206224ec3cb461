import Mathlib.Algebra.GroupWithZero.Nat
import Mathlib.Data.List.Infix
import SignalAccess.Text.Basic

/-!
# Pieces of texts

A text is cut at every occurrence of a separator, and texts are joined by one. Texts without the
separator come back from what they were joined to; and no character but the separator is lost or
added by either, so that characters can be counted piece by piece.
-/

namespace SignalAccess

namespace Text

variable {c d : Char} {t piece front : Text}

/-- The empty text is one piece, which is empty. -/
@[simp] theorem splitOn_nil (d : Char) : splitOn d [] = [[]] := rfl

/-- A separator in front leaves an empty piece in front of it. -/
@[simp] theorem splitOn_cons_self (d : Char) (t : Text) : splitOn d (d :: t) = [] :: splitOn d t := by
  simp [splitOn, splitWhere]

/-- Any other character goes to the first piece. -/
theorem splitOn_cons_of_ne (other : c ≠ d) (t : Text) :
    splitOn d (c :: t) = (splitOn d t).modifyHead (c :: ·) := by
  obtain ⟨piece, more, split⟩ := List.exists_cons_of_ne_nil (splitWhere_ne_nil (· == d) t)
  simp [splitOn, splitWhere, split, other]

/-- No piece holds the separator. -/
theorem not_mem_of_mem_splitOn (among : piece ∈ splitOn d t) : d ∉ piece := by
  induction t generalizing piece with
  | nil =>
    rw [splitOn_nil, List.mem_singleton] at among
    rw [among]
    exact List.not_mem_nil
  | cons c t inductionHypothesis =>
    by_cases separator : c = d
    · subst separator
      rw [splitOn_cons_self, List.mem_cons] at among
      rcases among with rfl | among
      · exact List.not_mem_nil
      · exact inductionHypothesis among
    · rw [splitOn_cons_of_ne separator] at among
      obtain ⟨first, more, split⟩ := List.exists_cons_of_ne_nil (splitWhere_ne_nil (· == d) t)
      have whole : splitOn d t = first :: more := split
      rw [whole, List.modifyHead_cons, List.mem_cons] at among
      rw [whole] at inductionHypothesis
      rcases among with rfl | among
      · rw [List.mem_cons, not_or]
        exact ⟨fun same => separator same.symm, inductionHypothesis List.mem_cons_self⟩
      · exact inductionHypothesis (List.mem_cons_of_mem first among)

/-- A text without the separator is one piece. -/
theorem splitOn_of_not_mem (free : d ∉ t) : splitOn d t = [t] := by
  induction t with
  | nil => rfl
  | cons c t inductionHypothesis =>
    rw [List.mem_cons, not_or] at free
    rw [splitOn_cons_of_ne (Ne.symm free.1), inductionHypothesis free.2]
    rfl

/-- The pieces around a separator are those in front of it and those behind. -/
theorem splitOn_append_cons (d : Char) (front back : Text) :
    splitOn d (front ++ d :: back) = splitOn d front ++ splitOn d back := by
  induction front with
  | nil => exact splitOn_cons_self d back
  | cons c front inductionHypothesis =>
    by_cases separator : c = d
    · subst separator
      rw [List.cons_append, splitOn_cons_self, splitOn_cons_self, inductionHypothesis, List.cons_append]
    · obtain ⟨first, more, split⟩ := List.exists_cons_of_ne_nil (splitWhere_ne_nil (· == d) front)
      have whole : splitOn d front = first :: more := split
      rw [List.cons_append, splitOn_cons_of_ne separator, splitOn_cons_of_ne separator,
        inductionHypothesis, whole]
      rfl

/-- The pieces hold every other character as often as the text. -/
theorem sum_count_splitOn (other : c ≠ d) (t : Text) :
    ((splitOn d t).map (·.count c)).sum = t.count c := by
  induction t with
  | nil => rfl
  | cons x t inductionHypothesis =>
    by_cases separator : x = d
    · subst separator
      rw [splitOn_cons_self, List.map_cons, List.sum_cons, inductionHypothesis, List.count_nil,
        Nat.zero_add, List.count_cons_of_ne (Ne.symm other)]
    · obtain ⟨first, more, split⟩ := List.exists_cons_of_ne_nil (splitWhere_ne_nil (· == d) t)
      have whole : splitOn d t = first :: more := split
      rw [whole, List.map_cons, List.sum_cons] at inductionHypothesis
      rw [splitOn_cons_of_ne separator, whole, List.modifyHead_cons, List.map_cons, List.sum_cons,
        List.count_cons, List.count_cons, ← inductionHypothesis]
      omega

/-! ## Read backwards -/

/-- A text read backwards has the pieces from the last to the first, each of them read backwards. What
stands behind the first separator is shorter than the text. -/
theorem splitOn_reverse (d : Char) (t : Text) :
    splitOn d t.reverse = ((splitOn d t).map List.reverse).reverse := by
  by_cases held : d ∈ t
  · obtain ⟨front, back, whole, free⟩ := List.eq_append_cons_of_mem held
    have behind := splitOn_reverse d back
    have frontFree : d ∉ front.reverse := fun among => free (List.mem_reverse.mp among)
    have turned : t.reverse = back.reverse ++ d :: front.reverse := by simp [whole]
    rw [turned, splitOn_append_cons, behind, splitOn_of_not_mem frontFree, whole,
      splitOn_append_cons, splitOn_of_not_mem free, List.singleton_append, List.map_cons,
      List.reverse_cons]
  · have free : d ∉ t.reverse := fun among => held (List.mem_reverse.mp among)
    rw [splitOn_of_not_mem free, splitOn_of_not_mem held]
    rfl
termination_by t.length
decreasing_by
  have length := congrArg List.length whole
  rw [List.length_append, List.length_cons] at length
  omega

/-! ## Elements of a path -/

/-- No element of a path is empty. -/
theorem ne_nil_of_mem_elements (among : piece ∈ elements t) : piece ≠ [] := by
  have kept := (List.mem_filter.mp among).2
  simpa using kept

/-- What stands in front of the first slash is the first element, unless it is empty. -/
theorem elements_append_of_apart (given : front ≠ []) (free : '/' ∉ front)
    (apart : ∀ c, t.head? = some c → c = '/') : elements (front ++ t) = front :: elements t := by
  have kept : (!front.isEmpty) = true := by simpa using given
  cases t with
  | nil => simp [elements, splitOn_of_not_mem free, kept]
  | cons c t =>
    obtain rfl : c = '/' := apart c rfl
    simp [elements, splitOn_append_cons, splitOn_of_not_mem free, kept]

/-- A text goes up to its first slash, and on from there if it has one. -/
theorem exists_append_apart (t : Text) : ∃ front rest, t = front ++ rest ∧ '/' ∉ front ∧
    ∀ c, rest.head? = some c → c = '/' := by
  by_cases held : '/' ∈ t
  · obtain ⟨front, back, whole, free⟩ := List.eq_append_cons_of_mem held
    exact ⟨front, '/' :: back, whole, free, fun c first => (Option.some.inj first).symm⟩
  · exact ⟨t, [], (List.append_nil t).symm, held, nofun⟩

/-- The elements of a path read backwards. -/
theorem elements_reverse (t : Text) :
    elements t.reverse = ((elements t).map List.reverse).reverse := by
  have filtered (pieces : List Text) : (pieces.map List.reverse).filter (!·.isEmpty) =
      (pieces.filter (!·.isEmpty)).map List.reverse := by
    rw [List.filter_map]
    exact congrArg _ (List.filter_congr fun piece _ => by simp)
  rw [elements, splitOn_reverse, List.filter_reverse, filtered, elements]

/-! ## Joined texts -/

variable {gap : Text} {pieces : List Text}

/-- Between two pieces that are joined stands one separator. -/
theorem joinBy_cons_cons (separator first second : Text) (more : List Text) :
    joinBy separator (first :: second :: more) =
      first ++ separator ++ joinBy separator (second :: more) := rfl

/-- In joined texts the separator stands in front of each text but the first. -/
theorem joinBy_cons (separator first : Text) (pieces : List Text) :
    joinBy separator (first :: pieces) = first ++ pieces.flatMap (separator ++ ·) := by
  induction pieces generalizing first with
  | nil => exact (List.append_nil first).symm
  | cons second more inductionHypothesis =>
    rw [joinBy_cons_cons, inductionHypothesis, List.flatMap_cons, List.append_assoc,
      List.append_assoc]

/-- Joined pieces start as the first of them does, if that is not empty. -/
theorem head?_joinBy {first : Text} (some : first ≠ []) (separator : Text) (pieces : List Text) :
    (joinBy separator (first :: pieces)).head? = first.head? := by
  cases pieces with
  | nil => rfl
  | cons second more =>
    rw [joinBy_cons_cons, List.append_assoc, List.head?_append_of_ne_nil _ some]

/-- Joined texts end like the last of them. -/
theorem exists_getLast?_joinBy {property : Char → Prop} (separator first : Text)
    (each : ∀ piece ∈ first :: pieces, ∃ c, piece.getLast? = some c ∧ property c) :
    ∃ c, (joinBy separator (first :: pieces)).getLast? = some c ∧ property c := by
  induction pieces generalizing first with
  | nil => exact each first List.mem_cons_self
  | cons second more inductionHypothesis =>
    obtain ⟨c, last, held⟩ := inductionHypothesis second fun piece among =>
      each piece (List.mem_cons_of_mem first among)
    refine ⟨c, ?_, held⟩
    rw [joinBy_cons_cons, List.getLast?_append, last]
    rfl

/-- Texts without a separator are the pieces of what they are joined to. What the joint holds behind
the separator goes to the piece that follows. -/
theorem splitOn_joinBy (first : Text) (free : ∀ piece ∈ first :: pieces, d ∉ piece)
    (gapFree : d ∉ gap) :
    splitOn d (joinBy (d :: gap) (first :: pieces)) = first :: pieces.map (gap ++ ·) := by
  induction pieces generalizing first with
  | nil => exact splitOn_of_not_mem (free first List.mem_cons_self)
  | cons second more inductionHypothesis =>
    have firstFree : d ∉ first := free first List.mem_cons_self
    have secondFree : d ∉ gap ++ second := by
      rw [List.mem_append, not_or]
      exact ⟨gapFree, free second (by simp)⟩
    have later := inductionHypothesis (gap ++ second) (List.forall_mem_cons.mpr
      ⟨secondFree, fun piece among => free piece (by simp [among])⟩)
    have moved : gap ++ joinBy (d :: gap) (second :: more) =
        joinBy (d :: gap) ((gap ++ second) :: more) := by
      cases more with
      | nil => rfl
      | cons third others => simp [joinBy_cons_cons]
    rw [joinBy_cons_cons, List.append_assoc, List.cons_append, splitOn_append_cons,
      splitOn_of_not_mem firstFree, moved, later, List.singleton_append, List.map_cons]

/-- Joined texts are cut between the texts and within them. -/
theorem splitOn_joinBy_singleton (d : Char) (first : Text) (pieces : List Text) :
    splitOn d (joinBy [d] (first :: pieces)) = (first :: pieces).flatMap (splitOn d) := by
  induction pieces generalizing first with
  | nil => exact (List.append_nil _).symm
  | cons second more inductionHypothesis =>
    rw [joinBy_cons_cons, List.append_assoc, List.singleton_append, splitOn_append_cons,
      inductionHypothesis, ← List.flatMap_cons]

/-- A text is what its pieces are joined to. -/
theorem joinBy_splitOn (d : Char) (t : Text) : joinBy [d] (splitOn d t) = t := by
  induction t with
  | nil => rfl
  | cons c t inductionHypothesis =>
    obtain ⟨first, more, split⟩ := List.exists_cons_of_ne_nil (splitWhere_ne_nil (· == d) t)
    have whole : splitOn d t = first :: more := split
    rw [whole] at inductionHypothesis
    by_cases separator : c = d
    · subst separator
      rw [splitOn_cons_self, whole, joinBy_cons_cons, inductionHypothesis]
      rfl
    · rw [splitOn_cons_of_ne separator, whole, List.modifyHead_cons, joinBy_cons, List.cons_append,
        ← joinBy_cons, inductionHypothesis]

/-- What joined texts hold: their own characters, and those of the joints between them. -/
theorem count_joinBy (separator : Text) (pieces : List Text) :
    (joinBy separator pieces).count c =
      (pieces.map (·.count c)).sum + (pieces.length - 1) * separator.count c := by
  induction pieces with
  | nil => simp [joinBy]
  | cons first more inductionHypothesis =>
    cases more with
    | nil => simp [joinBy]
    | cons second more =>
      rw [joinBy_cons_cons, List.count_append, List.count_append, inductionHypothesis]
      simp only [List.map_cons, List.sum_cons, List.length_cons, Nat.add_sub_cancel]
      rw [Nat.add_mul, Nat.one_mul]
      omega

/-- A separator behind a text that does not hold it stands in what follows the text. -/
theorem exists_of_append_eq {first rest back : Text} (free : d ∉ first)
    (whole : first ++ rest = front ++ d :: back) :
    ∃ skipped, front = first ++ skipped ∧ rest = skipped ++ d :: back := by
  rcases List.append_eq_append_iff.mp whole with ⟨skipped, same, later⟩ | ⟨inner, same, later⟩
  · exact ⟨skipped, same, later⟩
  · cases inner with
    | nil => exact ⟨[], by simpa using same.symm, later.symm⟩
    | cons x inner =>
      rw [List.cons_append, List.cons.injEq] at later
      rw [same, ← later.1] at free
      exact absurd (by simp) free

/-- A separator in joined texts that do not hold it is the beginning of a joint. -/
theorem exists_of_joinBy_eq {back : Text} (free : ∀ piece ∈ pieces, d ∉ piece) (gapFree : d ∉ gap)
    (whole : joinBy (d :: gap) pieces = front ++ d :: back) : ∃ rest, back = gap ++ rest := by
  induction pieces generalizing front with
  | nil => simp [joinBy] at whole
  | cons first more inductionHypothesis =>
    have firstFree : d ∉ first := free first List.mem_cons_self
    cases more with
    | nil =>
      have same : first = front ++ d :: back := whole
      exact absurd (by simp [same]) firstFree
    | cons second more =>
      rw [joinBy_cons_cons, List.append_assoc] at whole
      obtain ⟨skipped, -, later⟩ := exists_of_append_eq firstFree whole
      cases skipped with
      | nil => exact ⟨_, (List.cons.inj later).2.symm⟩
      | cons x skipped =>
        -- The separator stands behind this joint.
        obtain ⟨deeper, -, last⟩ := exists_of_append_eq gapFree (List.cons.inj later).2
        exact inductionHypothesis (fun piece among => free piece (by simp [among])) last

/-! ## Occurrences -/

variable {needle : Text}

/-- What occurs around a character that it does not hold occurs in front of it or behind. -/
theorem infix_of_infix_append_cons {back : Text} (free : c ∉ needle)
    (inside : needle <:+: front ++ c :: back) : needle <:+: front ∨ needle <:+: back := by
  obtain ⟨start, rest, whole⟩ := inside
  rw [List.append_assoc] at whole
  rcases List.append_eq_append_iff.mp whole with ⟨inner, same, later⟩ | ⟨inner, same, later⟩
  · obtain ⟨skipped, rfl, -⟩ := exists_of_append_eq free later
    exact .inl ⟨start, skipped, by rw [same, List.append_assoc]⟩
  · cases inner with
    | nil =>
      cases needle with
      | nil => exact .inl (List.nil_infix)
      | cons x needle =>
        rw [List.nil_append, List.cons_append, List.cons.injEq] at later
        rw [← later.1] at free
        exact absurd List.mem_cons_self free
    | cons x inner =>
      rw [List.cons_append, List.cons.injEq] at later
      exact .inr ⟨inner, rest, by rw [later.2, List.append_assoc]⟩

end Text

end SignalAccess
