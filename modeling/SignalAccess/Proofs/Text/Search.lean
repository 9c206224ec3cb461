import Mathlib.Data.List.Infix
import SignalAccess.Text.Number

/-!
# Where texts are cut

A text is cut around the first match of another one, or around the last. What is said here of a cut
is what a reader of a request needs: a text that is not found lies nowhere in the text searched, the
part in front of the first match of a character is free of it, and so is the part behind the last
match. What is put behind a text that is cut leaves the cut where it was. An element of a path that
holds anything but a sign and digits is no number.
-/

namespace SignalAccess

namespace Text

variable {same : Char → Char → Bool} {t front back tail rest lead needle : Text} {c : Char}

/-- A text starts with its own front under a comparison in which every character is like itself. -/
theorem afterLead_append_of_refl (like : ∀ c, same c c = true) (lead rest : Text) :
    afterLead same lead (lead ++ rest) = some rest := by
  induction lead with
  | nil => rfl
  | cons p lead inductionHypothesis =>
    rw [List.cons_append, afterLead, if_pos (like p)]
    exact inductionHypothesis

/-- Behind a lead that stands in front, the rest is found. -/
theorem afterLead_append (lead rest : Text) : afterLead (· == ·) lead (lead ++ rest) = some rest :=
  afterLead_append_of_refl beq_self_eq_true lead rest

/-- Nothing stands behind a text that another one does not start with. -/
theorem afterLead_eq_none_iff :
    afterLead (· == ·) lead t = none ↔ ¬lead <+: t := by
  constructor
  · rintro absent ⟨rest, rfl⟩
    rw [afterLead_append] at absent
    cases absent
  · intro apart
    cases found : afterLead (· == ·) lead t with
    | none => rfl
    | some rest => exact absurd ⟨rest, (append_of_afterLead found).symm⟩ apart

/-- A rest is found behind a lead exactly if the text is the lead and the rest. -/
theorem after?_eq_some_iff : t.after? lead = some rest ↔ t = lead ++ rest := by
  constructor
  · exact append_of_afterLead
  · rintro rfl
    exact afterLead_append lead rest

/-- A text starts with a lead exactly if the lead is a front part of it. -/
theorem startsWith_iff : t.startsWith lead = true ↔ lead <+: t := by
  rw [startsWith, Option.isSome_iff_exists]
  constructor
  · rintro ⟨rest, found⟩
    exact ⟨rest, (after?_eq_some_iff.mp found).symm⟩
  · rintro ⟨rest, whole⟩
    exact ⟨rest, after?_eq_some_iff.mpr whole.symm⟩

/-! ## Texts that are not found -/

/-- A text is not cut at a needle exactly if the needle stands nowhere in it. -/
theorem breakOn_eq_none_iff : breakOn t needle = none ↔ ¬needle <:+: t := by
  unfold breakOn
  induction t with
  | nil => cases needle <;> simp [breakBy]
  | cons c rest inductionHypothesis =>
    rw [List.infix_cons_iff, not_or, breakBy]
    cases found : afterLead (· == ·) needle (c :: rest) with
    | none => simp [afterLead_eq_none_iff.mp found, inductionHypothesis]
    | some tail =>
      have starts : needle <+: c :: rest := ⟨tail, (append_of_afterLead found).symm⟩
      simp [starts]

/-- A text is not cut at the last needle exactly if the needle stands nowhere in it. -/
theorem breakOnLast_eq_none_iff : breakOnLast t needle = none ↔ ¬needle <:+: t := by
  induction t with
  | nil => cases needle <;> simp [breakOnLast]
  | cons c rest inductionHypothesis =>
    rw [List.infix_cons_iff, not_or, breakOnLast]
    cases later : breakOnLast rest needle with
    | none => simp [inductionHypothesis.mp later, afterLead_eq_none_iff]
    | some parts =>
      have inside : ¬¬needle <:+: rest := by simp [← inductionHypothesis, later]
      simp [inside]

/-- A text is put together again from its parts around the first occurrence of another one. -/
theorem append_of_breakOn (found : breakOn t needle = some (front, tail)) :
    t = front ++ (needle ++ tail) := by
  unfold breakOn at found
  induction t generalizing front with
  | nil =>
    rw [breakBy] at found
    split at found
    · next empty =>
      cases found
      rw [List.isEmpty_iff.mp empty]
      rfl
    · cases found
  | cons c t inductionHypothesis =>
    rw [breakBy] at found
    split at found
    · next behind started =>
      cases found
      rw [List.nil_append]
      exact append_of_afterLead started
    · obtain ⟨⟨inner, last⟩, later, whole⟩ := Option.map_eq_some_iff.mp found
      cases whole
      rw [List.cons_append, ← inductionHypothesis later]

/-- The empty text is found in front of every other one. -/
theorem breakOn_nil (t : Text) : breakOn t [] = some ([], t) := by
  cases t <;> rfl

/-- A text that lies nowhere in another one is not empty. -/
theorem ne_nil_of_not_infix (absent : ¬needle <:+: t) : needle ≠ [] := by
  rintro rfl
  exact absent List.nil_infix

/-! ## What is put behind a text -/

/-- A text that starts with another one starts with it whatever is put behind. -/
theorem afterLead_append_of_eq_some (found : afterLead same lead t = some rest) (more : Text) :
    afterLead same lead (t ++ more) = some (rest ++ more) := by
  induction lead generalizing t with
  | nil =>
    cases found
    rfl
  | cons p lead inductionHypothesis =>
    cases t with
    | nil => cases found
    | cons c t =>
      rw [List.cons_append]
      rw [afterLead] at found ⊢
      split at found
      · next letter =>
        rw [if_pos letter]
        exact inductionHypothesis found
      · cases found

/-- What is put behind a text that is long enough does not make it start with another one. -/
theorem afterLead_append_of_eq_none (absent : afterLead same lead t = none)
    (long : lead.length ≤ t.length) (more : Text) : afterLead same lead (t ++ more) = none := by
  induction lead generalizing t with
  | nil => cases absent
  | cons p lead inductionHypothesis =>
    cases t with
    | nil => simp at long
    | cons c t =>
      rw [List.cons_append]
      rw [afterLead] at absent ⊢
      split
      · next letter =>
        rw [if_pos letter] at absent
        exact inductionHypothesis absent (Nat.le_of_succ_le_succ long)
      · rfl

/-- The first match stays the first whatever is put behind. -/
theorem breakBy_append_of_eq_some (found : breakBy same needle t = some (front, tail)) (more : Text) :
    breakBy same needle (t ++ more) = some (front, tail ++ more) := by
  induction t generalizing front with
  | nil =>
    rw [breakBy] at found
    split at found
    · next empty =>
      cases found
      rw [List.isEmpty_iff.mp empty]
      cases more <;> rfl
    · cases found
  | cons c t inductionHypothesis =>
    rw [List.cons_append]
    rw [breakBy] at found ⊢
    cases started : afterLead same needle (c :: t) with
    | some behind =>
      rw [started] at found
      cases found
      rw [← List.cons_append, afterLead_append_of_eq_some started]
    | none =>
      rw [started] at found
      obtain ⟨⟨inner, last⟩, later, whole⟩ := Option.map_eq_some_iff.mp found
      cases whole
      have long : needle.length ≤ (c :: t).length := by
        have := length_of_breakBy later
        rw [List.length_cons]
        omega
      rw [← List.cons_append, afterLead_append_of_eq_none started long,
        inductionHypothesis later]
      rfl

/-- The empty text has nothing to be trimmed. -/
theorem trim_nil : trim [] = [] := rfl

/-- Only the empty text equals the empty one, letter case aside. -/
theorem equalIgnoringCase_nil (t : Text) : equalIgnoringCase t [] = t.isEmpty := by
  cases t with
  | nil => rfl
  | cons c rest => rfl

/-- A text that equals another one starts with it, and nothing follows. -/
theorem afterIgnoringCase?_of_equalIgnoringCase (equal : equalIgnoringCase t lead = true) :
    afterIgnoringCase? t lead = some [] := by
  rw [equalIgnoringCase, beq_iff_eq] at equal
  unfold afterIgnoringCase?
  induction t generalizing lead with
  | nil =>
    rw [List.map_nil, eq_comm, List.map_eq_nil_iff] at equal
    rw [equal]
    rfl
  | cons c t inductionHypothesis =>
    cases lead with
    | nil => cases equal
    | cons p lead =>
      rw [List.map_cons, List.map_cons, List.cons.injEq] at equal
      rw [afterLead, if_pos, inductionHypothesis equal.2]
      rw [sameLetter, equal.1, beq_self_eq_true]

/-! ## ASCII case aside -/

/-- Behind a lead that stands in front, the rest is found also if letter case does not count. -/
theorem afterIgnoringCase?_append (lead rest : Text) :
    afterIgnoringCase? (lead ++ rest) lead = some rest :=
  afterLead_append_of_refl (fun c => beq_self_eq_true c.toLower) lead rest

/-- A text does not equal a part of itself. -/
theorem equalIgnoringCase_append (lead : Text) (some : rest ≠ []) :
    equalIgnoringCase (lead ++ rest) lead = false := by
  by_contra equal
  rw [Bool.not_eq_false] at equal
  have nothing := afterIgnoringCase?_of_equalIgnoringCase equal
  rw [afterIgnoringCase?_append] at nothing
  exact some (Option.some.inj nothing)

/-- A text starts with another one, case aside, if the text in lower case starts with the other one in
lower case. -/
theorem isSome_afterLead_sameLetter (lead t : Text) :
    (afterLead sameLetter lead t).isSome =
      (afterLead (· == ·) (lead.map Char.toLower) (t.map Char.toLower)).isSome := by
  induction lead generalizing t with
  | nil => rfl
  | cons p lead inductionHypothesis =>
    cases t with
    | nil => rfl
    | cons c t =>
      rw [List.map_cons, List.map_cons, afterLead, afterLead, sameLetter]
      split
      · exact inductionHypothesis t
      · rfl

/-- Letter case aside, nothing is found behind a lead exactly if the text in small letters does not
start with the lead in small letters. -/
theorem afterIgnoringCase?_eq_none_iff : afterIgnoringCase? t lead = none ↔
    ¬lead.map Char.toLower <+: t.map Char.toLower := by
  rw [← afterLead_eq_none_iff, afterIgnoringCase?, ← Option.not_isSome_iff_eq_none,
    ← Option.not_isSome_iff_eq_none, isSome_afterLead_sameLetter]

/-- A text that is not found, case aside, lies nowhere in the text searched. -/
theorem breakIgnoringCase_eq_none_iff : breakIgnoringCase t needle = none ↔
    ¬needle.map Char.toLower <:+: t.map Char.toLower := by
  rw [← breakOn_eq_none_iff, ← Option.isNone_iff_eq_none, ← Option.isNone_iff_eq_none]
  unfold breakIgnoringCase breakOn
  induction t with
  | nil => cases needle <;> rfl
  | cons c rest inductionHypothesis =>
    have starts := isSome_afterLead_sameLetter needle (c :: rest)
    rw [List.map_cons] at starts ⊢
    rw [breakBy, breakBy]
    cases found : afterLead sameLetter needle (c :: rest) with
    | some tail =>
      rw [found] at starts
      obtain ⟨other, lower⟩ := Option.isSome_iff_exists.mp starts.symm
      simp [lower]
    | none =>
      rw [found, Option.isSome_none, eq_comm, Option.isSome_eq_false_iff,
        Option.isNone_iff_eq_none] at starts
      simpa [starts] using inductionHypothesis

/-- What a text starts with is found in front. -/
theorem breakIgnoringCase_append (some : needle ≠ []) (rest : Text) :
    breakIgnoringCase (needle ++ rest) needle = .some ([], rest) := by
  obtain ⟨c, more, rfl⟩ := List.exists_cons_of_ne_nil some
  have starts : afterLead sameLetter (c :: more) (c :: (more ++ rest)) = .some rest :=
    afterLead_append_of_refl (fun x => beq_self_eq_true x.toLower) (c :: more) rest
  rw [List.cons_append, breakIgnoringCase, breakBy, starts]

/-- What stands between the parts of a text around a match is the text searched for, case aside. -/
theorem exists_of_afterLead_sameLetter (found : afterLead sameLetter lead t = some rest) :
    ∃ written, t = written ++ rest ∧ written.map Char.toLower = lead.map Char.toLower := by
  induction lead generalizing t with
  | nil =>
    cases found
    exact ⟨[], rfl, rfl⟩
  | cons p lead inductionHypothesis =>
    cases t with
    | nil => cases found
    | cons c t =>
      rw [afterLead] at found
      split at found
      · next letter =>
        obtain ⟨written, rfl, lower⟩ := inductionHypothesis found
        have same : p.toLower = c.toLower := beq_iff_eq.mp letter
        exact ⟨c :: written, rfl, by rw [List.map_cons, List.map_cons, lower, same]⟩
      · cases found

/-- Between the parts of a text that is cut at a needle, letter case aside, stand as many characters
as the needle has, and in small letters they are the needle. -/
theorem exists_of_breakIgnoringCase (found : breakIgnoringCase t needle = some (front, tail)) :
    ∃ written, t = front ++ (written ++ tail) ∧
      written.map Char.toLower = needle.map Char.toLower := by
  unfold breakIgnoringCase at found
  induction t generalizing front with
  | nil =>
    rw [breakBy] at found
    split at found
    · next empty =>
      cases found
      exact ⟨[], rfl, by rw [List.isEmpty_iff.mp empty]⟩
    · cases found
  | cons c t inductionHypothesis =>
    rw [breakBy] at found
    split at found
    · next behind started =>
      cases found
      exact exists_of_afterLead_sameLetter started
    · obtain ⟨⟨inner, last⟩, later, whole⟩ := Option.map_eq_some_iff.mp found
      cases whole
      obtain ⟨written, rfl, lower⟩ := inductionHypothesis later
      exact ⟨written, rfl, lower⟩

/-! ## Single characters -/

/-- A text is not cut at a character exactly if it does not hold the character. -/
theorem breakAt_eq_none_iff : breakAt c t = none ↔ c ∉ t := by
  rw [breakAt, breakOn_eq_none_iff, List.singleton_infix_iff]

/-- A text is cut behind a front that does not hold the first character of what is searched for. -/
theorem breakOn_append_cons (free : c ∉ front) (lead back : Text) :
    breakOn (front ++ (c :: lead ++ back)) (c :: lead) = some (front, back) := by
  unfold breakOn
  induction front with
  | nil =>
    have started := afterLead_append (c :: lead) back
    rw [List.cons_append] at started
    rw [List.nil_append, List.cons_append, breakBy, started]
  | cons d front inductionHypothesis =>
    rw [List.mem_cons, not_or] at free
    have other : afterLead (· == ·) (c :: lead) (d :: (front ++ (c :: lead ++ back))) = none :=
      if_neg (by simp [free.1])
    rw [List.cons_append, breakBy, other, inductionHypothesis free.2]
    rfl

/-- A text is cut at the first place where the character stands. -/
theorem breakAt_append (free : c ∉ front) (back : Text) :
    breakAt c (front ++ c :: back) = some (front, back) := breakOn_append_cons free [] back

/-- A search from the end cuts a text at the last place where the character stands. -/
theorem breakAtLast_append (front : Text) (free : c ∉ back) :
    breakAtLast c (front ++ c :: back) = some (front, back) := by
  have behind : breakOnLast back [c] = none := by
    simpa [breakOnLast_eq_none_iff, List.singleton_infix_iff] using free
  unfold breakAtLast
  induction front with
  | nil => simp [breakOnLast, behind, afterLead]
  | cons d front inductionHypothesis => simp [breakOnLast, inductionHypothesis]

/-- A character that a text holds cuts it where it stands first. -/
theorem exists_breakAt_of_mem (held : c ∈ t) :
    ∃ front back, t = front ++ c :: back ∧ c ∉ front ∧ breakAt c t = some (front, back) := by
  obtain ⟨front, back, rfl, free⟩ := List.eq_append_cons_of_mem held
  exact ⟨front, back, rfl, free, breakAt_append free back⟩

/-- And it cuts it where it stands last. -/
theorem exists_breakAtLast_of_mem (held : c ∈ t) :
    ∃ front back, t = front ++ c :: back ∧ c ∉ back ∧ breakAtLast c t = some (front, back) := by
  obtain ⟨back, front, whole, free⟩ := List.eq_append_cons_of_mem (List.mem_reverse.mpr held)
  obtain rfl : t = front.reverse ++ c :: back.reverse := by
    rw [← List.reverse_reverse t, whole]
    simp
  have behind : c ∉ back.reverse := fun among => free (List.mem_reverse.mp among)
  exact ⟨front.reverse, back.reverse, rfl, behind, breakAtLast_append front.reverse behind⟩

/-- A search from the end finds no character exactly if the text does not hold it. -/
theorem breakAtLast_eq_none_iff : breakAtLast c t = none ↔ c ∉ t := by
  rw [breakAtLast, breakOnLast_eq_none_iff, List.singleton_infix_iff]

/-! ## Elements of a path -/

/-- The last element of a text stands at its end. -/
theorem exists_append_lastElement (t : Text) : ∃ front, t = front ++ lastElement t := by
  rw [lastElement]
  split
  · next front tail found => exact ⟨front ++ ['/'], append_of_breakOnLast found⟩
  · exact ⟨[], rfl⟩

/-- What holds no slash and stands at the end goes to the last element. -/
theorem exists_lastElement_append (front : Text) (free : '/' ∉ back) :
    ∃ piece, lastElement (front ++ back) = piece ++ back := by
  by_cases held : '/' ∈ front
  · obtain ⟨before, piece, rfl, behind, -⟩ := exists_breakAtLast_of_mem held
    have pieceFree : '/' ∉ piece ++ back := by
      rw [List.mem_append, not_or]
      exact ⟨behind, free⟩
    refine ⟨piece, ?_⟩
    rw [lastElement, List.append_assoc, List.cons_append, breakAtLast_append before pieceFree]
  · have absent : breakAtLast '/' (front ++ back) = none := by
      rw [breakAtLast_eq_none_iff, List.mem_append, not_or]
      exact ⟨held, free⟩
    exact ⟨front, by rw [lastElement, absent]⟩

/-- What holds no separator goes to the first piece. -/
theorem exists_splitWhere_append {isSeparator : Char → Bool}
    (free : ∀ c ∈ front, isSeparator c = false) (back : Text) :
    ∃ piece more, splitWhere isSeparator (front ++ back) = (front ++ piece) :: more := by
  induction front with
  | nil =>
    obtain ⟨piece, more, split⟩ := List.exists_cons_of_ne_nil (splitWhere_ne_nil isSeparator back)
    exact ⟨piece, more, split⟩
  | cons c front inductionHypothesis =>
    obtain ⟨piece, more, split⟩ := inductionHypothesis fun d among =>
      free d (List.mem_cons_of_mem c among)
    refine ⟨piece, more, ?_⟩
    simp [splitWhere, free c List.mem_cons_self, split]

/-- The first element of a path goes on from what stands in front of its slashes. -/
theorem exists_elements_append (some : front ≠ []) (free : '/' ∉ front) (back : Text) :
    ∃ piece more, elements (front ++ back) = (front ++ piece) :: more := by
  have apart : ∀ c ∈ front, (c == '/') = false := by
    rintro c among
    exact beq_eq_false_iff_ne.mpr fun same => free (same ▸ among)
  obtain ⟨piece, more, split⟩ := exists_splitWhere_append apart back
  refine ⟨piece, more.filter (!·.isEmpty), ?_⟩
  simp [elements, splitOn, split, some]

/-- A text that holds another character than a sign or a digit is no number. -/
theorem integerValue?_eq_none_of_mem (held : c ∈ t) (sign : c ≠ '-' ∧ c ≠ '+')
    (digit : c.isDigit = false) : integerValue? t = none := by
  have kept : c ∈ afterSign t := by
    unfold afterSign
    split
    · simpa [sign.1] using held
    · simpa [sign.2] using held
    · exact held
  have other : isInteger t = false := by
    simp only [isInteger, isDigits, Bool.and_eq_false_iff, List.all_eq_false]
    exact .inr ⟨c, kept, by simp [digit]⟩
  simp [integerValue?, other]

/-- Which integers a word of `bits` bits holds. -/
theorem wordValue?_eq_some_iff {bits : Nat} {value : Int} : wordValue? bits t = some value ↔
    integerValue? t = some value ∧ -((1 <<< (bits - 1) : Nat) : Int) ≤ value ∧
      value < (1 <<< (bits - 1) : Nat) := by
  unfold wordValue?
  dsimp only
  rw [Option.filter_eq_some_iff, Bool.and_eq_true, decide_eq_true_eq, decide_eq_true_eq]

/-- A field of 32 bits holds an integer if one of its values is that integer. -/
theorem int32?_eq_some_iff {word : Int32} :
    int32? t = some word ↔ integerValue? t = some word.toInt := by
  rw [int32?, Option.map_eq_some_iff]
  constructor
  · rintro ⟨value, held, rfl⟩
    obtain ⟨given, least, most⟩ := wordValue?_eq_some_iff.mp held
    rw [given, Int32.toInt_ofInt_of_le least most]
  · intro given
    have held : wordValue? 32 t = some word.toInt :=
      wordValue?_eq_some_iff.mpr ⟨given, word.le_toInt, word.toInt_lt⟩
    exact ⟨word.toInt, held, Int32.ofInt_toInt word⟩

/-- A text has no integer value exactly if it is not written as an integer. -/
theorem integerValue?_eq_none_iff : integerValue? t = none ↔ isInteger t = false := by
  simp [integerValue?]

/-- A text with an integer value is written as an integer. -/
theorem isInteger_of_integerValue? {value : Int} (given : integerValue? t = some value) :
    isInteger t = true := by
  by_contra other
  rw [Bool.not_eq_true, ← integerValue?_eq_none_iff, given] at other
  cases other

/-- A text that starts with a digit has no sign to be passed over. -/
theorem afterSign_of_digit (first : t.head? = some c) (digit : c.isDigit = true) :
    afterSign t = t := by
  unfold afterSign
  split
  · cases first
    simp at digit
  · cases first
    simp at digit
  · rfl

/-- A text that starts with a digit is an integer if it has digits only, and is their value. -/
theorem integerValue?_of_digit (first : t.head? = some c) (digit : c.isDigit = true) :
    integerValue? t = if isDigits t then some (digitsValue t : Int) else none := by
  have unsigned : t.head? ≠ some '-' := by
    rw [first]
    rintro ⟨⟩
    simp at digit
  rw [integerValue?, isInteger, afterSign_of_digit first digit]
  simp [unsigned]

/-- A run of digits starts with one. -/
theorem exists_head?_of_isDigits (digits : isDigits t = true) :
    ∃ c, t.head? = some c ∧ c.isDigit = true := by
  rw [isDigits, Bool.and_eq_true] at digits
  cases t with
  | nil => simp at digits
  | cons c t => exact ⟨c, rfl, List.all_eq_true.mp digits.2 c List.mem_cons_self⟩

/-- Nothing but digits stands among digits. -/
theorem not_mem_of_isDigits (digits : isDigits t = true) (other : c.isDigit = false) : c ∉ t := by
  intro among
  rw [isDigits, Bool.and_eq_true] at digits
  have digit := List.all_eq_true.mp digits.2 c among
  simp [other] at digit

/-- A field of 32 bits holds a run of digits if one of its values is theirs. -/
theorem int32?_eq_some_iff_of_isDigits (digits : isDigits t = true) {word : Int32} :
    int32? t = some word ↔ word.toInt = digitsValue t := by
  obtain ⟨c, first, digit⟩ := exists_head?_of_isDigits digits
  rw [int32?_eq_some_iff, integerValue?_of_digit first digit, if_pos digits, Option.some.injEq,
    eq_comm]

/-- A text that holds anything but digits and signs is no integer of 32 bits. -/
theorem int32?_eq_none_of_mem (held : c ∈ t) (sign : c ≠ '-' ∧ c ≠ '+')
    (digit : c.isDigit = false) : int32? t = none := by
  simp [int32?, wordValue?, integerValue?_eq_none_of_mem held sign digit]

end Text

end SignalAccess
