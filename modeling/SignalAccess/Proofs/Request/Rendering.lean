import SignalAccess.Proofs.Request.Quoting

/-!
# Lists of arguments that are written

A name or a value is written as it stands, or between quotes that it does not hold. Either way the
written form starts and ends outside of quotes, holds its commas inside of them, and is read as the
name or value again. So a list of such pairs, joined by commas, is cut where the pairs were joined.

What a written list may not do is propose a delimiter by accident. It does not if the name of the
proposal occurs in no name and no value, since the characters around them do not occur in it.
-/

namespace SignalAccess

namespace Arguments

variable {c d : Char} {t field name value written : Text} {argument : Argument}
  {arguments : List Argument}

/-- The names and values of arguments. -/
def named (arguments : List Argument) : List (Text × Text) :=
  arguments.map fun argument => (argument.name, argument.value)

/-! ## Covered texts -/

/-- A text without quotes is not covered. -/
theorem coverQuoted_of_plain (plain : ∀ c ∈ t, Text.isQuote c = false) :
    coverQuoted d none t = t := by
  induction t with
  | nil => exact coverQuoted_nil d none
  | cons c rest inductionHypothesis =>
    have first := plain c List.mem_cons_self
    have later := inductionHypothesis fun x among => plain x (List.mem_cons_of_mem c among)
    rw [coverQuoted_none_cons, quoteBehind, if_neg (by simp [first]), later]

/-- Inside an open quote every delimiter is covered. -/
theorem coverQuoted_of_not_mem {quote : Char} (free : quote ∉ t) :
    coverQuoted d (some quote) t = Text.replaceChar d cover t := by
  induction t with
  | nil => exact coverQuoted_nil d _
  | cons c rest inductionHypothesis =>
    rw [List.mem_cons, not_or] at free
    have inside : isInside (some quote) c = true := by simpa [isInside] using free.1
    have still : quoteBehind (some quote) c = some quote := if_neg (Ne.symm free.1)
    rw [coverQuoted_cons, still, inductionHypothesis free.2]
    simp [inside, Text.replaceChar]

/-- A quote stays open behind a text that does not hold it. -/
theorem openBehind_of_not_mem {quote : Char} (free : quote ∉ t) :
    openBehind (some quote) t = some quote := by
  induction t with
  | nil => rfl
  | cons c rest inductionHypothesis =>
    rw [List.mem_cons, not_or] at free
    have still : quoteBehind (some quote) c = some quote := if_neg (Ne.symm free.1)
    rw [openBehind, List.foldl_cons, still]
    exact inductionHypothesis free.2

/-! ## Names and values -/

/-- A text that starts and ends with characters that are neither blanks nor equals signs. -/
structure Solid (t : Text) : Prop where
  first : ∃ c, t.head? = some c ∧ Text.isBlank c = false ∧ c ≠ '='
  last : ∃ c, t.getLast? = some c ∧ Text.isBlank c = false ∧ c ≠ '='

namespace Solid

/-- A solid text is not empty. -/
theorem ne_nil (solid : Solid t) : t ≠ [] := by
  obtain ⟨c, first, -⟩ := solid.first
  rintro rfl
  cases first

/-- No blanks stand around a solid text. -/
theorem trim_eq (solid : Solid t) : Text.trim t = t := by
  obtain ⟨front, first, frontInk, -⟩ := solid.first
  obtain ⟨back, last, backInk, -⟩ := solid.last
  exact Text.trim_of_ends first last frontInk backInk

/-- Two solid texts are solid with any character between them. -/
theorem append_cons {left right : Text} (front : Solid left) (c : Char) (back : Solid right) :
    Solid (left ++ c :: right) := by
  constructor
  · rw [List.head?_append_of_ne_nil _ front.ne_nil]
    exact front.first
  · rw [List.getLast?_append_of_ne_nil _ (List.cons_ne_nil _ _),
      List.getLast?_cons_of_ne_nil back.ne_nil]
    exact back.last

/-- Solid pieces are solid when they are joined. -/
theorem joinBy {first : Text} {more : List Text} (separator : Text)
    (each : ∀ piece ∈ first :: more, Solid piece) : Solid (Text.joinBy separator (first :: more)) := by
  have front := each first List.mem_cons_self
  constructor
  · rw [Text.head?_joinBy front.ne_nil]
    exact front.first
  · exact Text.exists_getLast?_joinBy separator first fun piece among => (each piece among).last

end Solid

/-- How a name or a value is written: as it stands, or between quotes that it does not hold. -/
inductive Spells (t : Text) : Text → Prop
  | bare (plain : needsQuotes t = false) : Spells t t
  | quoted {quote : Char} (isQuote : Text.isQuote quote = true) (free : quote ∉ t) :
      Spells t (quote :: (t ++ [quote]))

/-- What a text is quoted to spells it. -/
theorem spells_of_quote (done : quote t = .ok field) : Spells t field := by
  unfold quote at done
  split at done
  · next plain =>
    cases done
    exact .bare (by simpa using plain)
  · split at done
    · next free =>
      cases done
      exact .quoted rfl (by simpa using free)
    · split at done
      · next free =>
        cases done
        exact .quoted rfl (by simpa using free)
      · cases done

/-- Only a text with both quotes cannot be written. -/
theorem exists_quote_eq_ok (quotable : '\'' ∉ t ∨ '"' ∉ t) : ∃ field, quote t = .ok field := by
  unfold quote
  split
  · exact ⟨_, rfl⟩
  · split
    · exact ⟨_, rfl⟩
    · next held =>
      have free : '"' ∉ t := quotable.resolve_left (by simpa using held)
      rw [if_pos (by simpa using free)]
      exact ⟨_, rfl⟩

/-- What a text that needs no quotes does not hold, and how it starts and ends. -/
theorem of_needsQuotes_eq_false (plain : needsQuotes t = false) :
    t ≠ [] ∧ (∀ c ∈ t, c ≠ ',' ∧ c ≠ '=' ∧ Text.isQuote c = false) ∧ t.getLast? ≠ some ')' ∧
      Text.trim t = t := by
  simp only [needsQuotes, defaultDelimiter, Bool.or_eq_false_iff, List.any_eq_false,
    List.isEmpty_eq_false_iff, beq_eq_false_iff_ne, bne_eq_false_iff_eq, beq_iff_eq, not_or,
    Bool.or_eq_true, Bool.not_eq_true] at plain
  obtain ⟨⟨⟨⟨some, each⟩, behind⟩, -⟩, trimmed⟩ := plain
  exact ⟨some, fun c among => ⟨(each c among).1.1, (each c among).1.2, (each c among).2⟩, behind,
    trimmed⟩

/-- Quotes around a text do not change how often it holds another character. -/
theorem count_quoted {quote : Char} (isQuote : Text.isQuote quote = true)
    (plain : Text.isQuote c = false) (t : Text) : (quote :: (t ++ [quote])).count c = t.count c := by
  have other := ne_of_isQuote isQuote plain
  rw [List.count_cons_of_ne other, List.count_append, List.count_cons_of_ne other, List.count_nil,
    Nat.add_zero]

namespace Spells

/-- The quotes aside, the written form holds the characters of the text. -/
theorem count_eq (spells : Spells t field) (plain : Text.isQuote c = false) :
    field.count c = t.count c := by
  cases spells with
  | bare _ => rfl
  | @quoted quote isQuote _ =>
    exact count_quoted isQuote plain t

/-- A character that is no quote stands in what is written exactly if it stands in the text. -/
theorem mem_iff (spells : Spells t field) (plain : Text.isQuote c = false) : c ∈ field ↔ c ∈ t := by
  rw [← List.count_pos_iff, ← List.count_pos_iff, spells.count_eq plain]

/-- What spells a text is solid. -/
theorem solid (spells : Spells t field) : Solid field := by
  cases spells with
  | bare plain =>
    obtain ⟨some, each, -, trimmed⟩ := of_needsQuotes_eq_false plain
    obtain ⟨first, last⟩ := Text.ends_of_trim_eq trimmed
    have front := List.head?_eq_some_head some
    have back := List.getLast?_eq_some_getLast some
    constructor
    · exact ⟨_, front, first _ front, (each _ (List.head_mem some)).2.1⟩
    · exact ⟨_, back, last _ back, (each _ (List.getLast_mem some)).2.1⟩
  | @quoted quote isQuote _ =>
    have ink := isBlank_of_isQuote isQuote
    have plain : quote ≠ '=' := ne_of_isQuote isQuote (by decide)
    have last : (quote :: t ++ [quote]).getLast? = some quote := List.getLast?_concat
    exact ⟨⟨quote, rfl, ink, plain⟩, quote, last, ink, plain⟩

/-- The written form ends with no parenthesis that would be taken for the end of a call. -/
theorem dropParenthesis_eq (spells : Spells t field) : dropParenthesis field = field := by
  rw [dropParenthesis, if_neg]
  cases spells with
  | bare plain => exact (of_needsQuotes_eq_false plain).2.2.1
  | @quoted quote isQuote _ =>
    have last : (quote :: t ++ [quote]).getLast? = some quote := List.getLast?_concat
    have other : quote ≠ ')' := ne_of_isQuote isQuote (by decide)
    rw [← List.cons_append, last, Option.some.injEq]
    exact other

/-- Without its quotes the written form is the text. -/
theorem unquote_eq (spells : Spells t field) : Text.unquote field = t := by
  cases spells with
  | bare plain =>
    obtain ⟨-, each, -, -⟩ := of_needsQuotes_eq_false plain
    cases t with
    | nil => rfl
    | cons c rest =>
      have apart := (each c List.mem_cons_self).2.2
      simp [Text.unquote, apart]
  | quoted isQuote _ => simp [Text.unquote, isQuote]

/-- The written form closes the quotes that it opens. -/
theorem openBehind_eq (spells : Spells t field) : openBehind none field = none := by
  cases spells with
  | bare plain =>
    obtain ⟨-, each, -, -⟩ := of_needsQuotes_eq_false plain
    exact openBehind_of_plain (by simp) fun c among => (each c among).2.2
  | @quoted quote isQuote free =>
    have inside : openBehind (some quote) t = some quote := openBehind_of_not_mem free
    have start : quoteBehind none quote = some quote := by simp [quoteBehind, isQuote]
    rw [openBehind, List.foldl_cons, start]
    show openBehind (some quote) (t ++ [quote]) = none
    rw [openBehind_append, inside]
    simp [openBehind, quoteBehind]

/-- The written form with its commas covered is a written form of the text with its commas covered. -/
theorem covered (spells : Spells t field) :
    Spells (Text.replaceChar ',' cover t) (coverQuoted ',' none field) := by
  cases spells with
  | bare plain =>
    obtain ⟨-, each, -, -⟩ := of_needsQuotes_eq_false plain
    have free : ',' ∉ t := fun among => (each _ among).1 rfl
    rw [Text.replaceChar_of_not_mem free, coverQuoted_of_plain fun c among => (each c among).2.2]
    exact .bare plain
  | @quoted quote isQuote free =>
    have uncovered : quote ≠ cover := ne_of_isQuote isQuote (by decide)
    have inside : quote ∉ Text.replaceChar ',' cover t := fun among =>
      (Text.mem_of_mem_replaceChar among).elim free (Ne.symm uncovered)
    have opens : quoteBehind none quote = some quote := by simp [quoteBehind, isQuote]
    have whole : coverQuoted ',' none (quote :: (t ++ [quote])) =
        quote :: (Text.replaceChar ',' cover t ++ [quote]) := by
      rw [coverQuoted_none_cons, opens, coverQuoted_append,
        coverQuoted_of_not_mem free, openBehind_of_not_mem free, coverQuoted_cons,
        if_neg (by simp [isInside]), coverQuoted_nil]
    rw [whole]
    exact .quoted isQuote inside

end Spells

/-! ## Pairs -/

/-- An argument that a list cut by commas can give: its name holds no equals sign, and no blanks are
around its name or its value. -/
structure Tidy (argument : Argument) : Prop where
  plain : '=' ∉ argument.name
  name : Text.trim argument.name = argument.name
  value : Text.trim argument.value = argument.value

/-- An argument whose name and value can be covered. -/
structure Uncovered (argument : Argument) : Prop where
  name : cover ∉ argument.name
  value : cover ∉ argument.value

/-- A pair is written as its name, an equals sign and its value. -/
theorem exists_of_renderOne (done : renderOne argument = .ok written) :
    ∃ left right, Spells argument.name left ∧ Spells argument.value right ∧
      written = left ++ '=' :: right := by
  unfold renderOne at done
  obtain ⟨left, leftDone, done⟩ := result_bind_eq_ok done
  obtain ⟨right, rightDone, done⟩ := result_bind_eq_ok done
  cases done
  exact ⟨left, right, spells_of_quote leftDone, spells_of_quote rightDone, rfl⟩

/-- An argument is written as a solid text. -/
theorem solid_of_renderOne (done : renderOne argument = .ok written) : Solid written := by
  obtain ⟨left, right, name, value, rfl⟩ := exists_of_renderOne done
  exact name.solid.append_cons '=' value.solid

/-- A written pair closes the quotes that it opens. -/
theorem openBehind_of_renderOne (done : renderOne argument = .ok written) :
    openBehind none written = none := by
  obtain ⟨left, right, name, value, rfl⟩ := exists_of_renderOne done
  rw [openBehind_append, name.openBehind_eq]
  exact value.openBehind_eq

/-- A written pair with its commas covered is a written pair of covered texts. -/
theorem coverQuoted_of_renderOne (done : renderOne argument = .ok written) :
    ∃ left right, Spells (Text.replaceChar ',' cover argument.name) left ∧
      Spells (Text.replaceChar ',' cover argument.value) right ∧
      coverQuoted ',' none written = left ++ '=' :: right := by
  obtain ⟨left, right, name, value, rfl⟩ := exists_of_renderOne done
  refine ⟨_, _, name.covered, value.covered, ?_⟩
  rw [coverQuoted_append, name.openBehind_eq, coverQuoted_none_cons]
  rfl

/-- A token of two parts around an equals sign is read as these, without quotes around them. -/
theorem ofToken_of_solid {left right : Text} (leftSolid : Solid left) (rightSolid : Solid right)
    (plain : '=' ∉ left) (dropped : dropParenthesis right = right) :
    ofToken true (left ++ '=' :: right) =
      ⟨left ++ '=' :: right, left.unquote.trim, right.unquote.trim⟩ := by
  have trimmed := (leftSolid.append_cons '=' rightSolid).trim_eq
  have apart : split (left ++ '=' :: right) = (left, right) := by
    unfold split
    rw [Text.breakAt_append plain]
    exact Prod.ext leftSolid.trim_eq rightSolid.trim_eq
  simp only [ofToken, trimmed, apart, dropped, if_true]

/-- A token that writes a pair is read as the name and the value. -/
theorem ofToken_of_spells {left right : Text} (spellsName : Spells name left)
    (spellsValue : Spells value right) (plain : '=' ∉ name) (nameTrimmed : Text.trim name = name)
    (valueTrimmed : Text.trim value = value) :
    ofToken true (left ++ '=' :: right) = ⟨left ++ '=' :: right, name, value⟩ := by
  have free : '=' ∉ left := fun among => plain ((spellsName.mem_iff (by decide)).mp among)
  rw [ofToken_of_solid spellsName.solid spellsValue.solid free spellsValue.dropParenthesis_eq,
    spellsName.unquote_eq, spellsValue.unquote_eq, nameTrimmed, valueTrimmed]

/-- A pair that is written and read again is the pair. -/
theorem read_of_renderOne (tidy : Tidy argument) (uncovered : Uncovered argument)
    (done : renderOne argument = .ok written) {again : Argument}
    (read : again = uncover ',' (ofToken true (coverQuoted ',' none written))) :
    again.name = argument.name ∧ again.value = argument.value := by
  obtain ⟨left, right, name, value, covered⟩ := coverQuoted_of_renderOne done
  have trimmed {t : Text} (tidy : Text.trim t = t) :
      Text.trim (Text.replaceChar ',' cover t) = Text.replaceChar ',' cover t := by
    rw [Text.trim_replaceChar (by decide) (.inl isBlank_cover), tidy]
  have plain : '=' ∉ Text.replaceChar ',' cover argument.name := fun among =>
    (Text.mem_of_mem_replaceChar among).elim tidy.plain (by decide)
  rw [covered, ofToken_of_spells name value plain (trimmed tidy.name) (trimmed tidy.value)] at read
  rw [read]
  exact ⟨Text.replaceChar_replaceChar uncovered.name, Text.replaceChar_replaceChar uncovered.value⟩

/-! ## Lists -/

variable {pieces : List Text}

/-- A list is written as its pairs, joined by commas. -/
theorem exists_of_render (done : render arguments = .ok written) :
    ∃ pieces, arguments.mapM renderOne = .ok pieces ∧ written = Text.joinBy ", ".toList pieces := by
  unfold render at done
  obtain ⟨pieces, each, done⟩ := result_bind_eq_ok done
  cases done
  exact ⟨pieces, each, rfl⟩

/-- Commas between pairs that close their quotes are not covered. -/
theorem coverQuoted_joinBy (closed : ∀ piece ∈ pieces, openBehind none piece = none) :
    coverQuoted ',' none (Text.joinBy ", ".toList pieces) =
      Text.joinBy ", ".toList (pieces.map (coverQuoted ',' none)) := by
  induction pieces with
  | nil => rfl
  | cons first more inductionHypothesis =>
    cases more with
    | nil => rfl
    | cons second more =>
      have firstClosed := closed first List.mem_cons_self
      have later := inductionHypothesis fun piece among =>
        closed piece (List.mem_cons_of_mem first among)
      have joint : coverQuoted ',' none ", ".toList = ", ".toList := rfl
      have behind : openBehind none ", ".toList = none := rfl
      rw [Text.joinBy_cons_cons, coverQuoted_append, coverQuoted_append, openBehind_append,
        firstClosed, behind, joint, later]
      rfl

/-- A blank in front of a token is no part of its argument. -/
theorem ofToken_cons_of_blank (blank : Text.isBlank c = true) (stripQuotes : Bool) (t : Text) :
    ofToken stripQuotes (c :: t) = ofToken stripQuotes t := by
  unfold ofToken
  rw [Text.trim_cons_of_blank blank]

/-- With its commas covered a written pair is a token that is not blank. -/
theorem token_of_renderOne (done : renderOne argument = .ok written) :
    ',' ∉ coverQuoted ',' none written ∧ Text.trim (coverQuoted ',' none written) ≠ [] := by
  obtain ⟨left, right, name, value, whole⟩ := coverQuoted_of_renderOne done
  rw [whole]
  constructor
  · have plain : Text.isQuote ',' = false := by decide
    have other : ',' ≠ cover := by decide
    rw [List.mem_append, List.mem_cons, name.mem_iff plain, value.mem_iff plain]
    simp [Text.not_mem_replaceChar other]
  · rw [(name.solid.append_cons '=' value.solid).trim_eq]
    simp

/-- Joined tokens are cut apart again, with the blank of each joint in front of what follows it. -/
theorem filter_splitOn_joinBy (first : Text)
    (tokens : ∀ token ∈ first :: pieces, ',' ∉ token ∧ Text.trim token ≠ []) :
    (Text.splitOn ',' (Text.joinBy ", ".toList (first :: pieces))).filter (!·.trim.isEmpty) =
      first :: pieces.map (' ' :: ·) := by
  have joint : ", ".toList = ',' :: [' '] := rfl
  rw [joint, Text.splitOn_joinBy first (fun token among => (tokens token among).1) (by decide)]
  apply List.filter_eq_self.mpr
  rw [List.forall_mem_cons, List.forall_mem_map]
  constructor
  · simpa using (tokens first List.mem_cons_self).2
  · intro token among
    have same : Text.trim (' ' :: token) = Text.trim token :=
      Text.trim_cons_of_blank (by decide) token
    simpa [same] using (tokens token (List.mem_cons_of_mem first among)).2

/-- A written list is cut where its pairs were joined. -/
theorem cut_of_render (done : render arguments = .ok written) (stripQuotes : Bool) :
    ∃ pieces, arguments.mapM renderOne = .ok pieces ∧
      cut stripQuotes ',' written =
        pieces.map fun piece => uncover ',' (ofToken stripQuotes (coverQuoted ',' none piece)) := by
  obtain ⟨pieces, each, rfl⟩ := exists_of_render done
  refine ⟨pieces, each, ?_⟩
  have closed := forall_of_mapM each fun _ _ => openBehind_of_renderOne
  have tokens : ∀ token ∈ pieces.map (coverQuoted ',' none), ',' ∉ token ∧ Text.trim token ≠ [] :=
    List.forall_mem_map.mpr (forall_of_mapM each fun _ _ => token_of_renderOne)
  unfold cut
  dsimp only
  rw [coverQuoted_joinBy closed]
  cases pieces with
  | nil => rfl
  | cons first more =>
    rw [List.map_cons, filter_splitOn_joinBy _ tokens, List.map_cons, List.map_map, List.map_map]
    refine congrArg (List.cons _) (List.map_congr_left fun piece _ => ?_)
    exact congrArg (uncover ',') (ofToken_cons_of_blank (by decide) stripQuotes _)

/-- The names and values of a list come back where the written list is cut by commas. -/
theorem named_cut_of_render (each : ∀ argument ∈ arguments, Tidy argument ∧ Uncovered argument)
    (done : render arguments = .ok written) : named (cut true ',' written) = named arguments := by
  obtain ⟨pieces, rendered, whole⟩ := cut_of_render done true
  rw [whole, named, named, List.map_map]
  clear done whole
  have related := forall₂_of_mapM rendered
  clear rendered
  induction related with
  | nil => rfl
  | cons first _ inductionHypothesis =>
    rw [List.forall_mem_cons] at each
    obtain ⟨name, value⟩ := read_of_renderOne each.1.1 each.1.2 first rfl
    rw [List.map_cons, List.map_cons, inductionHypothesis each.2]
    congr 1
    exact Prod.ext name value

/-! ## Reading what is written -/

/-- A written list can be read if its proposal can, and is read with its effective delimiter. -/
theorem parse_of_render (done : render arguments = .ok written) (stripQuotes : Bool) :
    Text.trim written = written ∧ parse written stripQuotes =
      (effective? written).map fun found => cut stripQuotes found.1 (coverAt found.2 written) := by
  obtain ⟨pieces, each, rfl⟩ := exists_of_render done
  cases pieces with
  | nil => exact ⟨rfl, rfl⟩
  | cons first more =>
    have solid := Solid.joinBy ", ".toList (forall_of_mapM each fun _ _ => solid_of_renderOne)
    obtain ⟨front, head, -, frontPlain⟩ := solid.first
    obtain ⟨back, last, -, backPlain⟩ := solid.last
    refine ⟨solid.trim_eq, ?_⟩
    rw [parse_eq, solid.trim_eq, if_neg]
    rw [head, last]
    simpa using ⟨frontPlain, backPlain⟩

/-- The name of the argument that proposes a delimiter occurs in a text, ASCII case aside. -/
def NamesDelimiter (t : Text) : Prop := proposalName <:+: t.map Char.toLower

instance : DecidablePred NamesDelimiter := fun t =>
  inferInstanceAs (Decidable (proposalName <:+: t.map Char.toLower))

/-- A list that does not name a delimiter proposes none. -/
theorem proposal?_of_not_namesDelimiter (absent : ¬NamesDelimiter t) : proposal? t = .ok none := by
  have lower : proposalName.map Char.toLower = proposalName := by decide
  have broken : Text.breakIgnoringCase t proposalName = none := by
    rw [Text.breakIgnoringCase_eq_none_iff, lower]
    exact absent
  rw [proposal?, broken]

/-- A list that does not name a delimiter is cut at commas. -/
theorem effective?_of_not_namesDelimiter (absent : ¬NamesDelimiter t) :
    effective? t = .ok (',', none) := by
  rw [effective?, proposal?_of_not_namesDelimiter absent]
  rfl

/-- A character that the name does not hold keeps the texts around it apart. -/
theorem namesDelimiter_of_append_cons (front back : Text) (other : c.toLower ∉ proposalName)
    (names : NamesDelimiter (front ++ c :: back)) : NamesDelimiter front ∨ NamesDelimiter back := by
  rw [NamesDelimiter, List.map_append, List.map_cons] at names
  exact Text.infix_of_infix_append_cons other names

/-- The empty list names no delimiter. -/
theorem not_namesDelimiter_nil : ¬NamesDelimiter [] := by decide

/-- Writing a name or value does not make it name the delimiter. -/
theorem Spells.namesDelimiter (spells : Spells t field) (names : NamesDelimiter field) :
    NamesDelimiter t := by
  cases spells with
  | bare _ => exact names
  | @quoted quote isQuote _ =>
    have other : quote.toLower ∉ proposalName := by
      rcases eq_quote_of_isQuote isQuote with rfl | rfl <;> decide
    have inside := (namesDelimiter_of_append_cons [] _ other names).resolve_left not_namesDelimiter_nil
    exact (namesDelimiter_of_append_cons t [] other inside).resolve_right not_namesDelimiter_nil

/-- A written list names the delimiter only where a name or a value of it does. -/
theorem not_namesDelimiter_of_render (done : render arguments = .ok written)
    (absent : ∀ argument ∈ arguments,
      ¬NamesDelimiter argument.name ∧ ¬NamesDelimiter argument.value) :
    ¬NamesDelimiter written := by
  obtain ⟨pieces, rendered, rfl⟩ := exists_of_render done
  have each : ∀ piece ∈ pieces, ¬NamesDelimiter piece := by
    intro piece among names
    obtain ⟨argument, member, done⟩ := exists_of_mem_of_mapM rendered among
    obtain ⟨left, right, name, value, rfl⟩ := exists_of_renderOne done
    rcases namesDelimiter_of_append_cons (c := '=') _ _ (by decide) names with names | names
    · exact (absent argument member).1 (name.namesDelimiter names)
    · exact (absent argument member).2 (value.namesDelimiter names)
  clear done rendered
  induction pieces with
  | nil => exact not_namesDelimiter_nil
  | cons first more inductionHypothesis =>
    cases more with
    | nil => exact each first List.mem_cons_self
    | cons second more =>
      intro names
      rw [Text.joinBy_cons_cons, List.append_assoc] at names
      rcases namesDelimiter_of_append_cons (c := ',') _ _ (by decide) names with names | names
      · exact each first List.mem_cons_self names
      · rcases namesDelimiter_of_append_cons (c := ' ') [] _ (by decide) names with names | names
        · exact not_namesDelimiter_nil names
        · exact inductionHypothesis (fun piece among =>
            each piece (List.mem_cons_of_mem first among)) names

/-! ## Round trips -/

/-- A text that can stand as a name or a value in any list. -/
structure Plain (t : Text) : Prop where
  trimmed : Text.trim t = t
  uncovered : cover ∉ t
  undelimited : ¬NamesDelimiter t
  quotable : '\'' ∉ t ∨ '"' ∉ t

instance : DecidablePred Plain := fun t =>
  decidable_of_iff
    (Text.trim t = t ∧ cover ∉ t ∧ ¬NamesDelimiter t ∧ ('\'' ∉ t ∨ '"' ∉ t))
    ⟨fun ⟨trimmed, uncovered, undelimited, quotable⟩ => ⟨trimmed, uncovered, undelimited, quotable⟩,
      fun plain => ⟨plain.trimmed, plain.uncovered, plain.undelimited, plain.quotable⟩⟩

/-- Names and values that are trimmed, hold no cover and not both quotes, and do not name the
delimiter can be written, and what is written is read as the same names and values. -/
theorem named_parse_render
    (names : ∀ argument ∈ arguments, Plain argument.name ∧ '=' ∉ argument.name)
    (values : ∀ argument ∈ arguments, Plain argument.value) :
    ∃ written again, render arguments = .ok written ∧ parse written true = .ok again ∧
      named again = named arguments := by
  obtain ⟨written, done⟩ : ∃ written, render arguments = .ok written := by
    obtain ⟨pieces, rendered⟩ : ∃ pieces, arguments.mapM renderOne = .ok pieces := by
      apply exists_mapM_eq_ok
      intro argument among
      obtain ⟨left, leftDone⟩ := exists_quote_eq_ok (names argument among).1.quotable
      obtain ⟨right, rightDone⟩ := exists_quote_eq_ok (values argument among).quotable
      exact ⟨left ++ '=' :: right, by rw [renderOne, leftDone, rightDone]; rfl⟩
    exact ⟨_, by rw [render, rendered]; rfl⟩
  have undelimited := not_namesDelimiter_of_render done fun argument among =>
    ⟨(names argument among).1.undelimited, (values argument among).undelimited⟩
  have read := (parse_of_render done true).2
  rw [effective?_of_not_namesDelimiter undelimited] at read
  refine ⟨written, _, done, read, named_cut_of_render (fun argument among => ?_) done⟩
  obtain ⟨name, plain⟩ := names argument among
  have value := values argument among
  exact ⟨⟨plain, name.trimmed, value.trimmed⟩, name.uncovered, value.uncovered⟩

/-- Arguments that would not come back without quotes around their names and values. -/
def awkward : List Argument :=
  [.ofParts "a".toList "1, 2".toList, .ofParts [] [], .ofParts "/flag".toList "x=(y)".toList,
    .ofParts "it's".toList "\"/\"".toList]

/-- Commas, quotes, slashes and an empty value come back from the list that is written. -/
theorem named_parse_render_awkward :
    render awkward = .ok "a='1, 2', ''='', '/flag'='x=(y)', \"it's\"='\"/\"'".toList ∧
    ∃ written again, render awkward = .ok written ∧ parse written true = .ok again ∧
      named again = named awkward := by
  constructor
  · decide +kernel
  · exact named_parse_render (by decide +kernel) (by decide +kernel)

end Arguments

end SignalAccess
