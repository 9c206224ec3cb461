import Mathlib.Data.List.DropRight
import SignalAccess.Text.Basic

/-!
# Trimmed texts

What trimming takes off a text is blank and stands at one of its ends. So what is left starts and
ends with no blank, and holds every other character as often as the text did. Characters may be
exchanged before or after trimming alike, as long as the first and the last one that is not blank do
not become blank, and no blank becomes anything else. A portable path holds no blanks, so that it is
trimmed as it stands.
-/

namespace SignalAccess

namespace Text

variable {t : Text} {c : Char} {f : Char → Char}

/-- What is trimmed off the front are blanks. -/
theorem exists_trimStart_eq (t : Text) :
    ∃ blanks, t = blanks ++ trimStart t ∧ ∀ c ∈ blanks, isBlank c = true :=
  ⟨t.takeWhile isBlank, List.takeWhile_append_dropWhile.symm,
    fun _ among => List.mem_takeWhile_imp among⟩

/-- What is trimmed off the end are blanks. -/
theorem exists_trimEnd_eq (t : Text) :
    ∃ blanks, t = trimEnd t ++ blanks ∧ ∀ c ∈ blanks, isBlank c = true :=
  ⟨t.rtakeWhile isBlank, List.rdropWhile_append_rtakeWhile.symm,
    fun _ among => List.mem_rtakeWhile_imp among⟩

/-- A text is what trimming leaves of it, between blanks. -/
theorem exists_trim_eq (t : Text) :
    ∃ front back, t = front ++ (trim t ++ back) ∧ (∀ c ∈ front, isBlank c = true) ∧
      ∀ c ∈ back, isBlank c = true := by
  obtain ⟨front, frontWhole, frontBlank⟩ := exists_trimStart_eq t
  obtain ⟨back, backWhole, backBlank⟩ := exists_trimEnd_eq (trimStart t)
  refine ⟨front, back, ?_, frontBlank, backBlank⟩
  rw [trim, ← backWhole]
  exact frontWhole

/-- Trimming brings no character into a text. -/
theorem mem_of_mem_trim (among : c ∈ trim t) : c ∈ t := by
  obtain ⟨front, back, whole, -, -⟩ := exists_trim_eq t
  rw [whole]
  exact List.mem_append_right front (List.mem_append_left back among)

/-- Only blanks are lost. -/
theorem count_trim (ink : isBlank c = false) : (trim t).count c = t.count c := by
  obtain ⟨front, back, whole, frontBlank, backBlank⟩ := exists_trim_eq t
  have absent {part : Text} (blank : ∀ d ∈ part, isBlank d = true) : part.count c = 0 := by
    refine List.count_eq_zero.mpr fun among => ?_
    rw [blank c among] at ink
    cases ink
  conv_rhs => rw [whole, List.count_append, List.count_append, absent frontBlank, absent backBlank]
  rw [Nat.zero_add, Nat.add_zero]

/-- Trimming takes no character out of a text that is not a blank. -/
theorem mem_trim_iff (ink : isBlank c = false) : c ∈ trim t ↔ c ∈ t := by
  rw [← List.count_pos_iff, ← List.count_pos_iff, count_trim ink]

/-- A blank in front makes no difference to a trimmed text. -/
theorem trim_cons_of_blank (blank : isBlank c = true) (t : Text) : trim (c :: t) = trim t :=
  congrArg trimEnd (List.dropWhile_cons_of_pos blank)

/-- Blanks behind a text are trimmed off. -/
theorem trim_append_of_blank (t : Text) {back : Text} (blank : ∀ c ∈ back, isBlank c = true) :
    trim (t ++ back) = trim t := by
  have nothing : back.dropWhile isBlank = [] := List.dropWhile_eq_nil_iff.mpr blank
  have reversed : back.reverse.dropWhile isBlank = [] :=
    List.dropWhile_eq_nil_iff.mpr fun c among => blank c (List.mem_reverse.mp among)
  unfold trim trimStart
  rw [List.dropWhile_append]
  split
  · next empty => rw [nothing, List.isEmpty_iff.mp empty]
  · rw [trimEnd, List.reverse_append, List.dropWhile_append, reversed, List.isEmpty_nil, if_pos rfl,
      trimEnd]

/-- Blanks that were taken off the front are not missed when both ends are trimmed. -/
theorem trim_trimStart (t : Text) : trim (trimStart t) = trim t := by
  unfold trim trimStart
  rw [List.dropWhile_idempotent]

/-- Blanks that were taken off the end are not missed when both ends are trimmed. -/
theorem trim_trimEnd (t : Text) : trim (trimEnd t) = trim t := by
  obtain ⟨blanks, whole, blank⟩ := exists_trimEnd_eq t
  conv_rhs => rw [whole, trim_append_of_blank _ blank]

/-- A character that is no blank keeps what stands behind it. -/
theorem trimStart_append_cons (front back : Text) (ink : isBlank c = false) :
    trimStart (front ++ c :: back) = trimStart front ++ c :: back := by
  unfold trimStart
  rw [List.dropWhile_append]
  split
  · next empty =>
    rw [List.dropWhile_cons_of_neg (by simp [ink]), List.isEmpty_iff.mp empty, List.nil_append]
  · rfl

/-- A character that is no blank keeps what stands in front of it. -/
theorem trimEnd_append_cons (front back : Text) (ink : isBlank c = false) :
    trimEnd (front ++ c :: back) = front ++ c :: trimEnd back := by
  have mirrored := trimStart_append_cons back.reverse front.reverse ink
  have turned : trimEnd (front ++ c :: back) =
      (trimStart (back.reverse ++ c :: front.reverse)).reverse := by
    simp [trimEnd, trimStart]
  rw [turned, mirrored]
  simp [trimEnd, trimStart]

/-- A character that is not a blank keeps the blanks on its inner sides: what stands in front of it
is trimmed at its front only, and what stands behind it at its end only. -/
theorem trim_append_cons (front back : Text) (ink : isBlank c = false) :
    trim (front ++ c :: back) = trimStart front ++ c :: trimEnd back := by
  rw [trim, trimStart_append_cons front back ink, trimEnd_append_cons _ back ink]

/-- A text that is trimmed at its front starts with no blank. -/
theorem head?_trimStart (t : Text) (first : (trimStart t).head? = some c) : isBlank c = false := by
  have edge := List.head?_dropWhile_not isBlank t
  unfold trimStart at first
  rw [first] at edge
  exact edge

/-- A text that is trimmed at its end ends with no blank. -/
theorem getLast?_trimEnd (t : Text) (last : (trimEnd t).getLast? = some c) : isBlank c = false := by
  rw [trimEnd, List.getLast?_reverse] at last
  exact head?_trimStart t.reverse last

/-- A trimmed text has no blank at either end. -/
theorem ends_of_trim_eq (trimmed : trim t = t) :
    (∀ c, t.head? = some c → isBlank c = false) ∧ ∀ c, t.getLast? = some c → isBlank c = false := by
  constructor
  · intro c first
    obtain ⟨rest, rfl⟩ := List.head?_eq_some_iff.mp first
    by_contra blank
    rw [Bool.not_eq_false] at blank
    -- Trimming would make the text shorter.
    rw [trim_cons_of_blank blank] at trimmed
    have shorter := length_trim_le rest
    rw [trimmed, List.length_cons] at shorter
    omega
  · intro c last
    rw [← trimmed] at last
    exact getLast?_trimEnd _ last

/-- A text without blanks at its ends is trimmed. -/
theorem trim_eq_self (first : ∀ c, t.head? = some c → isBlank c = false)
    (last : ∀ c, t.getLast? = some c → isBlank c = false) : trim t = t := by
  cases t with
  | nil => rfl
  | cons c rest =>
    have ends := List.getLast?_eq_some_getLast (List.cons_ne_nil c rest)
    exact trim_of_ends rfl ends (first c rfl) (last _ ends)

/-- Trimmed texts one behind the other are trimmed. -/
theorem trim_append {back : Text} (trimmed : trim t = t) (backTrimmed : trim back = back) :
    trim (t ++ back) = t ++ back := by
  obtain ⟨first, last⟩ := ends_of_trim_eq trimmed
  obtain ⟨backFirst, backLast⟩ := ends_of_trim_eq backTrimmed
  apply trim_eq_self
  · intro c starts
    rw [List.head?_append, Option.or_eq_some_iff] at starts
    exact starts.elim (first c) fun behind => backFirst c behind.2
  · intro c ends
    rw [List.getLast?_append, Option.or_eq_some_iff] at ends
    exact ends.elim (backLast c) fun front => last c front.2

/-- Trimming twice does what trimming once does. -/
theorem trim_trim (t : Text) : trim (trim t) = trim t := by
  apply trim_eq_self
  · intro c first
    obtain ⟨back, whole⟩ : trim t <+: trimStart t := List.rdropWhile_prefix isBlank _
    obtain ⟨rest, split⟩ := List.head?_eq_some_iff.mp first
    refine head?_trimStart (c := c) t ?_
    rw [← whole, split]
    rfl
  · exact fun c last => getLast?_trimEnd _ last

/-- A trimmed text has nothing to be taken off its front. -/
theorem trimStart_of_trim_eq (trimmed : trim t = t) : trimStart t = t := by
  have long := length_trim_le (trimStart t)
  rw [trim_trimStart, trimmed] at long
  exact (List.dropWhile_suffix isBlank).eq_of_length_le long

/-- A trimmed text has nothing to be taken off its end. -/
theorem trimEnd_of_trim_eq (trimmed : trim t = t) : trimEnd t = t := by
  have long := length_trim_le (trimEnd t)
  rw [trim_trimEnd, trimmed] at long
  exact (List.rdropWhile_prefix isBlank t).eq_of_length_le long

/-- What a trimmed text starts with has blanks only behind it. -/
theorem exists_eq_trim_append {front rest : Text} (whole : trim t = front ++ rest) :
    ∃ blanks, front = trim front ++ blanks ∧ ∀ c ∈ blanks, isBlank c = true := by
  have started : trimStart front = front := by
    cases front with
    | nil => rfl
    | cons c front =>
      have ink := (ends_of_trim_eq (trim_trim t)).1 c (by rw [whole]; rfl)
      exact List.dropWhile_cons_of_neg (by simp [ink])
  obtain ⟨blanks, behind, blank⟩ := exists_trimEnd_eq front
  refine ⟨blanks, ?_, blank⟩
  rw [trim, started]
  exact behind

/-! ## Exchanged characters -/

/-- The first character that is not blank. -/
def firstInk (t : Text) : Option Char := t.find? (!isBlank ·)

/-- The last character that is not blank. -/
def lastInk (t : Text) : Option Char := t.reverse.find? (!isBlank ·)

/-- The first character that is not a blank is the first one, or is looked for behind it. -/
theorem firstInk_cons (c : Char) (t : Text) :
    firstInk (c :: t) = if isBlank c then firstInk t else some c := by
  cases blank : isBlank c <;> simp [firstInk, blank]

/-- The last character that is not a blank is looked for behind the first one, which it is only if
all the others are blanks. -/
theorem lastInk_cons (c : Char) (t : Text) :
    lastInk (c :: t) = (lastInk t).or (if isBlank c then none else some c) := by
  cases blank : isBlank c <;> simp [lastInk, List.find?_append, blank]

/-- The last character that is not blank stays where blanks in front are dropped. -/
theorem lastInk_of_trimStart (last : lastInk (trimStart t) = some c) : lastInk t = some c := by
  have whole : t.takeWhile isBlank ++ trimStart t = t := List.takeWhile_append_dropWhile
  rw [lastInk] at last ⊢
  rw [← whole, List.reverse_append, List.find?_append, last]
  rfl

/-- Blanks in front are the same before and after an exchange that keeps the first other one. -/
theorem trimStart_map (blank : ∀ c, isBlank c = true → isBlank (f c) = true)
    (first : ∀ c, firstInk t = some c → isBlank (f c) = false) :
    trimStart (t.map f) = (trimStart t).map f := by
  rw [trimStart, trimStart, List.dropWhile_map]
  congr 1
  induction t with
  | nil => rfl
  | cons c t inductionHypothesis =>
    by_cases isBlank c = true
    case pos blankHere =>
      have after : (isBlank ∘ f) c = true := blank c blankHere
      rw [List.dropWhile_cons_of_pos blankHere, List.dropWhile_cons_of_pos after]
      refine inductionHypothesis fun d found => first d ?_
      rw [firstInk_cons, if_pos blankHere, found]
    case neg ink =>
      have after : ¬(isBlank ∘ f) c = true := by
        simp [first c (by rw [firstInk_cons, if_neg ink])]
      rw [List.dropWhile_cons_of_neg ink, List.dropWhile_cons_of_neg after]

/-- Characters may be exchanged before or after trimming. -/
theorem trim_map (blank : ∀ c, isBlank c = true → isBlank (f c) = true)
    (first : ∀ c, firstInk t = some c → isBlank (f c) = false)
    (last : ∀ c, lastInk t = some c → isBlank (f c) = false) : trim (t.map f) = (trim t).map f := by
  have backwards : trimStart ((trimStart t).reverse.map f) = (trimStart (trimStart t).reverse).map f :=
    trimStart_map blank fun c found => last c (lastInk_of_trimStart found)
  calc trim (t.map f)
      _ = trimEnd ((trimStart t).map f) := congrArg trimEnd (trimStart_map blank first)
      _ = (trimStart ((trimStart t).reverse.map f)).reverse := by rw [List.map_reverse]; rfl
      _ = (trim t).map f := by rw [backwards, ← List.map_reverse]; rfl

/-- A character that is no blank may be exchanged before or after trimming, if it becomes no blank
either, or if it does not stand at the ends. -/
theorem trim_replaceChar {d : Char} (ink : isBlank c = false)
    (ends : isBlank d = false ∨ (firstInk t ≠ some c ∧ lastInk t ≠ some c)) :
    trim (replaceChar c d t) = replaceChar c d (trim t) := by
  have kept (x : Char) (shown : isBlank x = false) (apart : isBlank d = false ∨ x ≠ c) :
      isBlank (if x = c then d else x) = false := by
    by_cases same : x = c
    · rw [if_pos same]
      exact apart.resolve_right (not_not_intro same)
    · rw [if_neg same]
      exact shown
  have shown {part : Text} {x : Char} (found : part.find? (!isBlank ·) = some x) :
      isBlank x = false := by
    simpa using List.find?_some found
  apply trim_map
  · intro x blank
    have other : x ≠ c := by
      rintro rfl
      rw [ink] at blank
      cases blank
    rw [if_neg other]
    exact blank
  · intro x found
    refine kept x (shown found) (ends.imp_right fun both same => both.1 ?_)
    rw [found, same]
  · intro x found
    refine kept x (shown found) (ends.imp_right fun both same => both.2 ?_)
    rw [found, same]

/-- There is nothing to exchange in a text that does not hold the character. -/
theorem replaceChar_of_not_mem (free : c ∉ t) (d : Char) : replaceChar c d t = t := by
  refine (List.map_congr_left fun x among => ?_).trans t.map_id
  exact if_neg fun (same : x = c) => free (same ▸ among)

/-- An exchange for a character that the text does not hold can be taken back. -/
theorem replaceChar_replaceChar {d : Char} (free : d ∉ t) :
    replaceChar d c (replaceChar c d t) = t := by
  rw [replaceChar, replaceChar, List.map_map]
  refine (List.map_congr_left fun x among => ?_).trans t.map_id
  rw [Function.comp_apply]
  by_cases covered : x = c
  · rw [if_pos covered, if_pos rfl, covered]
    rfl
  · have other : x ≠ d := fun same => free (same ▸ among)
    rw [if_neg covered, if_neg other]
    rfl

/-- A character that is replaced by another one is gone. -/
theorem not_mem_replaceChar {d : Char} (other : c ≠ d) (t : Text) : c ∉ replaceChar c d t := by
  intro among
  obtain ⟨x, -, same⟩ := List.mem_map.mp among
  split at same
  · exact other same.symm
  · next plain => exact plain same

/-- An exchange brings no character but its own. -/
theorem mem_of_mem_replaceChar {x d : Char} (among : c ∈ replaceChar x d t) : c ∈ t ∨ d = c := by
  obtain ⟨y, held, same⟩ := List.mem_map.mp among
  split at same
  · exact .inr same
  · exact .inl (same ▸ held)

/-! ## Portable paths -/

/-- The characters of a portable path are visible ASCII characters. -/
theorem toNat_of_isPathChar (legal : isPathChar c = true) : 33 ≤ c.toNat ∧ c.toNat ≤ 126 := by
  rw [isPathChar, Bool.or_eq_true] at legal
  rcases legal with letter | other
  · have ranges : ((decide (65 ≤ c.val ∧ c.val ≤ 90) || (97 ≤ c.val && c.val ≤ 122)) ||
        (48 ≤ c.val && c.val ≤ 57)) = true := letter
    simp only [Bool.or_eq_true, Bool.and_eq_true, decide_eq_true_eq, UInt32.le_iff_toNat_le] at ranges
    change (65 ≤ c.toNat ∧ c.toNat ≤ 90 ∨ 97 ≤ c.toNat ∧ c.toNat ≤ 122) ∨
      48 ≤ c.toNat ∧ c.toNat ≤ 57 at ranges
    omega
  · have all : "_-+./$:".toList.all (fun d => 33 ≤ d.toNat && d.toNat ≤ 126) = true := by decide
    simpa using List.all_eq_true.mp all c (List.contains_iff_mem.mp other)

/-- A portable path has no blanks. -/
theorem isBlank_of_isPathChar (legal : isPathChar c = true) : isBlank c = false := by
  have visible := toNat_of_isPathChar legal
  have apart : ∀ range ∈ blankRanges, range.2 < 33 ∨ 126 < range.1 := by decide
  rw [isBlank, List.any_eq_false]
  intro range among
  have outside := apart range among
  rw [Bool.and_eq_true, decide_eq_true_eq, decide_eq_true_eq]
  omega

/-- A legal path holds no blank that could be trimmed. -/
theorem trim_of_isLegalPath (legal : isLegalPath t = true) : trim t = t := by
  have ink : ∀ c ∈ t, isBlank c = false := fun c among =>
    isBlank_of_isPathChar (List.all_eq_true.mp legal c among)
  exact trim_eq_self (fun c first => ink c (List.mem_of_mem_head? first))
    fun c last => ink c (List.mem_of_mem_getLast? last)

/-- Characters of legal paths have one byte each. -/
theorem utf8Size_of_isPathChar (legal : isPathChar c = true) : c.utf8Size = 1 := by
  rw [Char.utf8Size_eq_one_iff, UInt32.le_iff_toNat_le]
  exact Nat.le_trans (toNat_of_isPathChar legal).2 (by decide)

/-- A text whose characters have one byte each has as many bytes as characters. -/
theorem byteLength_eq_length (single : ∀ c ∈ t, c.utf8Size = 1) : byteLength t = t.length := by
  induction t with
  | nil => rfl
  | cons c rest inductionHypothesis =>
    have behind := inductionHypothesis fun d among => single d (List.mem_cons_of_mem c among)
    rw [byteLength_cons, single c List.mem_cons_self, behind, List.length_cons, Nat.add_comm]

/-- A portable path has as many bytes as characters. -/
theorem byteLength_of_isLegalPath (legal : isLegalPath t = true) : byteLength t = t.length :=
  byteLength_eq_length fun c among => utf8Size_of_isPathChar (List.all_eq_true.mp legal c among)

end Text

end SignalAccess
