import SignalAccess.Proofs.Request.Rendering

/-!
# Lists that are read, written and read again

A list that was read is written with commas, whatever its own delimiter was. What is written is read
as the same names and values if it is cut by commas again, and if no name holds an equals sign and no
name or value ends in blanks; cutting a list gives no such arguments unless its delimiter is an equals
sign or a blank.

The written list is cut by another character if it proposes one, and a value that is a lone delimiter
does propose itself: it is written between quotes. Then the commas between the pairs separate nothing.
They have to be in the names and values that are read, of which there are as many commas fewer as the
list has joints.
-/

namespace SignalAccess

namespace Arguments

variable {c d : Char} {t token written : Text} {argument : Argument} {arguments : List Argument}
  {stripQuotes : Bool} {opened : Option Char}

/-! ## What a token is read to -/

/-- A token is split at its first equals sign; a token without one is a keyword or stands for
itself. -/
theorem cases_of_split (token : Text) :
    (∃ front back, token = front ++ '=' :: back ∧ '=' ∉ front ∧
      split token = (Text.trim front, Text.trim back)) ∨
    ('=' ∉ token ∧ ((∃ keyword, token = '/' :: keyword ∧
      split token = (Text.trim keyword, "true".toList)) ∨ split token = (token, token))) := by
  by_cases held : '=' ∈ token
  · obtain ⟨front, back, whole, free, broken⟩ := Text.exists_breakAt_of_mem held
    refine .inl ⟨front, back, whole, free, ?_⟩
    unfold split
    rw [broken]
  · refine .inr ⟨held, ?_⟩
    unfold split
    rw [Text.breakAt_eq_none_iff.mpr held]
    split
    · next impossible => cases impossible
    · split
      · exact .inl ⟨_, rfl, rfl⟩
      · exact .inr rfl

/-- A text has its quotes taken off, or is left alone. -/
theorem cases_of_unquote (t : Text) :
    Text.unquote t = t ∨
      ∃ quote, Text.isQuote quote = true ∧ t = quote :: (Text.unquote t ++ [quote]) := by
  cases t with
  | nil => exact .inl rfl
  | cons first rest =>
    rw [Text.unquote]
    split
    · next quoted =>
      rw [Bool.and_eq_true, beq_iff_eq] at quoted
      obtain ⟨inner, rfl⟩ := List.getLast?_eq_some_iff.mp quoted.2
      exact .inr ⟨first, quoted.1, by rw [List.dropLast_concat]⟩
    · exact .inl rfl

/-- A text loses one closing parenthesis at its end, or nothing. -/
theorem cases_of_dropParenthesis (value : Text) :
    dropParenthesis value = value ∨ value = dropParenthesis value ++ [')'] := by
  rw [dropParenthesis]
  split
  · next closed =>
    obtain ⟨inner, rfl⟩ := List.getLast?_eq_some_iff.mp closed
    exact .inr (by rw [List.dropLast_concat])
  · exact .inl rfl

/-- Taking off quotes adds no character. -/
theorem mem_of_mem_unquote (among : c ∈ Text.unquote t) : c ∈ t := by
  rcases cases_of_unquote t with same | ⟨quote, -, whole⟩
  · rwa [same] at among
  · rw [whole]
    simp [among]

/-- Dropping a parenthesis adds no character. -/
theorem mem_of_mem_dropParenthesis (among : c ∈ dropParenthesis t) : c ∈ t := by
  rcases cases_of_dropParenthesis t with same | whole
  · rwa [same] at among
  · rw [whole]
    exact List.mem_append_left _ among

/-- Name and value of a token: what is left of its parts without blanks and quotes. -/
theorem ofToken_true (token : Text) :
    ofToken true token =
      ⟨token.trim, (split token.trim).1.unquote.trim,
        (dropParenthesis (split token.trim).2).unquote.trim⟩ := rfl

/-- The name of a token has its characters from the token, and no equals sign. -/
theorem of_mem_name (among : c ∈ (ofToken true token).name) : c ∈ token ∧ c ≠ '=' := by
  rw [ofToken_true] at among
  have inside := mem_of_mem_unquote (Text.mem_of_mem_trim among)
  have whole : c ∈ Text.trim token → c ∈ token := Text.mem_of_mem_trim
  rcases cases_of_split (Text.trim token) with ⟨front, back, parts, free, same⟩ |
    ⟨free, ⟨keyword, parts, same⟩ | same⟩
  · rw [same] at inside
    have held := Text.mem_of_mem_trim inside
    refine ⟨whole (by rw [parts]; exact List.mem_append_left _ held), ?_⟩
    rintro rfl
    exact free held
  · rw [same] at inside
    have held : c ∈ Text.trim token := by
      rw [parts]
      exact List.mem_cons_of_mem _ (Text.mem_of_mem_trim inside)
    refine ⟨whole held, ?_⟩
    rintro rfl
    exact free held
  · rw [same] at inside
    refine ⟨whole inside, ?_⟩
    rintro rfl
    exact free inside

/-- The value of a token has its characters from the token, unless the token is a keyword. -/
theorem of_mem_value (among : c ∈ (ofToken true token).value) : c ∈ token ∨ c ∈ "true".toList := by
  rw [ofToken_true] at among
  have inside := mem_of_mem_dropParenthesis (mem_of_mem_unquote (Text.mem_of_mem_trim among))
  rcases cases_of_split (Text.trim token) with ⟨front, back, parts, -, same⟩ |
    ⟨-, ⟨keyword, -, same⟩ | same⟩
  · rw [same] at inside
    left
    apply Text.mem_of_mem_trim
    rw [parts]
    exact List.mem_append_right _ (List.mem_cons_of_mem _ (Text.mem_of_mem_trim inside))
  · rw [same] at inside
    exact .inr inside
  · rw [same] at inside
    exact .inl (Text.mem_of_mem_trim inside)

/-! ## What a list is cut to -/

/-- Each argument of a list comes of one of its tokens. -/
theorem exists_of_mem_cut (among : argument ∈ cut stripQuotes d t) :
    ∃ token ∈ Text.splitOn d (coverQuoted d none t),
      argument = uncover d (ofToken stripQuotes token) := by
  obtain ⟨token, kept, rfl⟩ := List.mem_map.mp among
  exact ⟨token, List.mem_of_mem_filter kept, rfl⟩

/-- No blanks and no equals signs come back in the place of covered delimiters, if the delimiter is
neither. -/
theorem tidy_of_mem_cut (ink : Text.isBlank d = false) (other : d ≠ '=')
    (among : argument ∈ cut true d t) : Tidy argument := by
  obtain ⟨token, -, rfl⟩ := exists_of_mem_cut among
  have trimmed (part : Text) :
      Text.trim (Text.replaceChar cover d (Text.trim part)) =
        Text.replaceChar cover d (Text.trim part) := by
    rw [Text.trim_replaceChar isBlank_cover (.inl ink), Text.trim_trim]
  constructor
  · intro held
    rcases Text.mem_of_mem_replaceChar held with inside | same
    · exact (of_mem_name inside).2 rfl
    · exact other same
  · exact trimmed _
  · exact trimmed _

/-- No cover is left in the arguments of a list. -/
theorem uncovered_of_mem_cut (among : argument ∈ cut true d t) : Uncovered argument := by
  obtain ⟨token, member, rfl⟩ := exists_of_mem_cut among
  by_cases same : d = cover
  · subst same
    -- The tokens hold no cover, since they were cut there.
    have free := Text.not_mem_of_mem_splitOn member
    have plain (part : Text) : Text.replaceChar cover cover part = part := by
      refine (List.map_congr_left fun c _ => ?_).trans part.map_id
      by_cases covered : c = cover <;> simp [covered]
    constructor
    · show cover ∉ Text.replaceChar cover cover (ofToken true token).name
      rw [plain]
      exact fun held => free (of_mem_name held).1
    · show cover ∉ Text.replaceChar cover cover (ofToken true token).value
      rw [plain]
      intro held
      exact (of_mem_value held).elim free (by decide)
  · exact ⟨Text.not_mem_replaceChar (Ne.symm same) _, Text.not_mem_replaceChar (Ne.symm same) _⟩

/-! ## Commas -/

/-- The commas in the names and values of arguments. -/
def commas (arguments : List Argument) : Nat :=
  (arguments.map fun argument => argument.name.count ',' + argument.value.count ',').sum

/-- The commas of arguments are those of their names and values. -/
theorem commas_eq_of_named {others : List Argument} (same : named others = named arguments) :
    commas others = commas arguments := by
  have counted (list : List Argument) :
      commas list = ((named list).map fun pair => pair.1.count ',' + pair.2.count ',').sum := by
    rw [commas, named, List.map_map]
    rfl
  rw [counted, counted, same]

/-- Taking off quotes leaves all other characters. -/
theorem count_unquote (plain : Text.isQuote c = false) : (Text.unquote t).count c = t.count c := by
  rcases cases_of_unquote t with same | ⟨quote, isQuote, whole⟩
  · rw [same]
  · conv_rhs => rw [whole]
    exact (count_quoted isQuote plain _).symm

/-- Dropping a parenthesis leaves all other characters. -/
theorem count_dropParenthesis (other : ')' ≠ c) : (dropParenthesis t).count c = t.count c := by
  rcases cases_of_dropParenthesis t with same | whole
  · rw [same]
  · conv_rhs => rw [whole]
    rw [List.count_append, List.count_cons_of_ne other, List.count_nil, Nat.add_zero]

/-- Reading a token loses no comma. -/
theorem count_le_ofToken (token : Text) :
    token.count ',' ≤
      (ofToken true token).name.count ',' + (ofToken true token).value.count ',' := by
  have trimmed (part : Text) : (Text.trim part).count ',' = part.count ',' :=
    Text.count_trim (by decide)
  have unquoted (part : Text) : (Text.unquote part).count ',' = part.count ',' :=
    count_unquote (by decide)
  have dropped (part : Text) : (dropParenthesis part).count ',' = part.count ',' :=
    count_dropParenthesis (by decide)
  rw [ofToken_true, ← trimmed token]
  simp only [trimmed, unquoted, dropped]
  rcases cases_of_split (Text.trim token) with ⟨front, back, parts, -, same⟩ |
    ⟨-, ⟨keyword, parts, same⟩ | same⟩
  · have equals : '=' ≠ ',' := by decide
    rw [same, ← trimmed token, parts, List.count_append, List.count_cons_of_ne equals, trimmed,
      trimmed]
  · have slash : '/' ≠ ',' := by decide
    rw [same, ← trimmed token, parts, List.count_cons_of_ne slash, trimmed]
    exact Nat.le_add_right _ _
  · rw [same, trimmed]
    exact Nat.le_add_right _ _

/-- Replacing a character by another one leaves all others. -/
theorem count_replaceChar {x y : Char} (left : x ≠ c) (right : y ≠ c) (t : Text) :
    (Text.replaceChar x y t).count c = t.count c := by
  induction t with
  | nil => rfl
  | cons first rest inductionHypothesis =>
    have here : Text.replaceChar x y (first :: rest) =
        (if first = x then y else first) :: Text.replaceChar x y rest := rfl
    rw [here, List.count_cons, List.count_cons, inductionHypothesis]
    by_cases same : first = x
    · simp [same, left, right]
    · rw [if_neg same]

/-- Covering the delimiter leaves all other characters. -/
theorem count_coverQuoted (delimiter : d ≠ c) (covered : cover ≠ c) (opened : Option Char)
    (t : Text) : (coverQuoted d opened t).count c = t.count c := by
  induction t generalizing opened with
  | nil => rw [coverQuoted_nil]
  | cons first rest inductionHypothesis =>
    rw [coverQuoted_cons, List.count_cons, List.count_cons, inductionHypothesis]
    split
    · next inside =>
      simp [inside.2, delimiter, covered]
    · rfl

/-- Cutting a list by another character loses no comma. -/
theorem count_le_cut (delimiter : d ≠ ',') (t : Text) : t.count ',' ≤ commas (cut true d t) := by
  have covered : cover ≠ ',' := by decide
  have read (token : Text) : token.count ',' ≤
      (uncover d (ofToken true token)).name.count ',' +
        (uncover d (ofToken true token)).value.count ',' := by
    rw [uncover, count_replaceChar covered delimiter, count_replaceChar covered delimiter]
    exact count_le_ofToken token
  rw [← count_coverQuoted delimiter covered none t, ← Text.sum_count_splitOn (Ne.symm delimiter),
    commas, cut, List.map_map]
  generalize Text.splitOn d (coverQuoted d none t) = tokens
  induction tokens with
  | nil => exact Nat.le_refl _
  | cons token tokens inductionHypothesis =>
    rw [List.map_cons, List.sum_cons, List.filter_cons]
    split
    · rw [List.map_cons, List.sum_cons]
      exact Nat.add_le_add (read token) inductionHypothesis
    · next blank =>
      have empty : Text.trim token = [] := by simpa using blank
      have none : token.count ',' = 0 := by
        rw [← Text.count_trim (by decide), empty]
        rfl
      rw [none, Nat.zero_add]
      exact inductionHypothesis

/-- A written pair holds the commas of its name and its value. -/
theorem count_of_renderOne (done : renderOne argument = .ok written) :
    written.count ',' = argument.name.count ',' + argument.value.count ',' := by
  have plain : Text.isQuote ',' = false := by decide
  have equals : '=' ≠ ',' := by decide
  obtain ⟨left, right, name, value, rfl⟩ := exists_of_renderOne done
  rw [List.count_append, List.count_cons_of_ne equals, name.count_eq plain, value.count_eq plain]

/-- A written list holds one comma more for each joint. -/
theorem count_of_render (done : render arguments = .ok written) :
    written.count ',' = commas arguments + (arguments.length - 1) := by
  obtain ⟨pieces, rendered, rfl⟩ := exists_of_render done
  have related := forall₂_of_mapM rendered
  have own : (pieces.map (·.count ',')).sum = commas arguments := by
    clear done rendered
    induction related with
    | nil => rfl
    | cons given _ inductionHypothesis =>
      rw [List.map_cons, List.sum_cons, inductionHypothesis, count_of_renderOne given]
      rfl
  have joint : ", ".toList.count ',' = 1 := by decide
  rw [Text.count_joinBy, own, joint, Nat.mul_one, related.length_eq]

/-! ## What a written list proposes -/

/-- Only a quote can be open behind a text. -/
theorem isQuote_of_openBehind (quotes : ∀ quote ∈ opened, Text.isQuote quote = true) :
    ∀ quote ∈ openBehind opened t, Text.isQuote quote = true := by
  induction t generalizing opened with
  | nil => exact quotes
  | cons c rest inductionHypothesis => exact inductionHypothesis (isQuote_of_quoteBehind quotes)

/-- A written list that proposes the comma does so inside a quote: a comma outside of quotes is
followed by a blank, the proposed one by a quote. -/
theorem coverQuoted_coverAt_of_render {place : Option Nat} (done : render arguments = .ok written)
    (effective : effective? written = .ok (',', place)) :
    coverQuoted ',' none (coverAt place written) = coverQuoted ',' none written := by
  rcases cases_of_effective? effective with ⟨-, -, rfl⟩ | ⟨found, proposed, comma, rfl⟩
  · rfl
  · have whole := (proposes_of_proposal? proposed).whole
    obtain ⟨quote, rest, after, isQuote⟩ := (proposes_of_proposal? proposed).after
    rw [coverAt_proposal proposed]
    conv_rhs => rw [whole]
    rw [← comma] at whole ⊢
    cases inside : openBehind none found.before with
    | some opening =>
      have opens : Text.isQuote opening = true := isQuote_of_openBehind (by simp) opening inside
      exact coverQuoted_of_openBehind inside opens (ne_of_isQuote opens (by decide)) found.after
    | none =>
      obtain ⟨pieces, rendered, joined⟩ := exists_of_render done
      have closed := forall_of_mapM rendered fun _ _ => openBehind_of_renderOne
      have free : ∀ token ∈ pieces.map (coverQuoted ',' none), ',' ∉ token :=
        List.forall_mem_map.mpr (forall_of_mapM rendered fun _ _ done => (token_of_renderOne done).1)
      have separated : coverQuoted ',' none written =
          coverQuoted ',' none found.before ++ ',' :: coverQuoted ',' none found.after := by
        rw [whole, coverQuoted_append, inside, coverQuoted_none_cons]
        rfl
      rw [joined, coverQuoted_joinBy closed] at separated
      have gapFree : ',' ∉ [' '] := by decide
      obtain ⟨behind, blank⟩ := Text.exists_of_joinBy_eq free gapFree separated
      rw [after, coverQuoted_none_cons] at blank
      rw [(List.cons.inj blank).1] at isQuote
      cases isQuote

/-! ## Reading, writing and reading -/

/-- What a list is written to is read as its names and values, in their order. -/
def Rereads (arguments : List Argument) (written : Text) : Prop :=
  ∃ again, parse written true = .ok again ∧ named again = named arguments

/-- The names and values of tidy arguments come back from a list that proposes no other delimiter
than the comma, and those of others do not. -/
theorem rereads_iff_of_comma {place : Option Nat}
    (uncovered : ∀ argument ∈ arguments, Uncovered argument)
    (done : render arguments = .ok written) (effective : effective? written = .ok (',', place)) :
    Rereads arguments written ↔ ∀ argument ∈ arguments, Tidy argument := by
  have read : parse written true = .ok (cut true ',' written) := by
    have same : cut true ',' (coverAt place written) = cut true ',' written := by
      rw [cut, cut, coverQuoted_coverAt_of_render done effective]
    rw [(parse_of_render done true).2, effective, ← same]
    rfl
  constructor
  · rintro ⟨again, readAgain, same⟩ argument among
    rw [read] at readAgain
    cases readAgain
    have member : (argument.name, argument.value) ∈ named (cut true ',' written) := by
      rw [same]
      exact List.mem_map_of_mem among
    obtain ⟨other, cut, pair⟩ := List.mem_map.mp member
    obtain ⟨plain, name, value⟩ := tidy_of_mem_cut (by decide) (by decide) cut
    rw [Prod.mk.injEq] at pair
    rw [pair.1] at plain name
    rw [pair.2] at value
    exact ⟨plain, name, value⟩
  · intro tidy
    exact ⟨_, read, named_cut_of_render (fun argument among => ⟨tidy argument among,
      uncovered argument among⟩) done⟩

/-- No list of several arguments comes back from a written list that proposes another delimiter. -/
theorem not_rereads_of_other (done : render arguments = .ok written)
    (foreign : ∀ place, effective? written ≠ .ok (',', place)) (several : 2 ≤ arguments.length) :
    ¬Rereads arguments written := by
  rintro ⟨again, read, same⟩
  obtain ⟨d, place, effective, rfl⟩ := exists_of_parse read
  rw [(parse_of_render done true).1] at effective same
  have other : d ≠ ',' := by
    rintro rfl
    exact foreign place effective
  have kept : (coverAt place written).count ',' = written.count ',' := by
    cases place with
    | none => rfl
    | some n =>
      obtain ⟨inside, held⟩ := List.getElem?_eq_some_iff.mp (placed_of_effective? effective n rfl)
      have covered : cover ≠ ',' := by decide
      rw [coverAt, List.count_set inside, held]
      simp [other, covered]
  have fewer := count_le_cut other (coverAt place written)
  rw [kept, count_of_render done, commas_eq_of_named same] at fewer
  omega

/-- A list that was read and written is read as the same names and values if what was written proposes
no other delimiter than the comma and if the names and values are tidy; they are, unless the list was
cut at blanks or equals signs, and nothing is proposed unless one of them names the delimiter. -/
theorem rereads_of_parse (read : parse t true = .ok arguments)
    (done : render arguments = .ok written) :
    ((∃ place, effective? written = .ok (',', place)) →
      (Rereads arguments written ↔ ∀ argument ∈ arguments, Tidy argument)) ∧
    ((∀ place, effective? written ≠ .ok (',', place)) → 2 ≤ arguments.length →
      ¬Rereads arguments written) ∧
    (∀ d place, effective? t.trim = .ok (d, place) → Text.isBlank d = false → d ≠ '=' →
      ∀ argument ∈ arguments, Tidy argument) ∧
    ((∀ argument ∈ arguments, ¬NamesDelimiter argument.name ∧ ¬NamesDelimiter argument.value) →
      effective? written = .ok (',', none)) := by
  obtain ⟨d, place, effective, rfl⟩ := exists_of_parse read
  refine ⟨?_, not_rereads_of_other done, ?_, ?_⟩
  · rintro ⟨place, comma⟩
    exact rereads_iff_of_comma (fun _ => uncovered_of_mem_cut) done comma
  · intro other otherPlace same ink plain argument among
    rw [effective, Except.ok.injEq, Prod.mk.injEq] at same
    rw [← same.1] at ink plain
    exact tidy_of_mem_cut ink plain among
  · exact fun absent => effective?_of_not_namesDelimiter (not_namesDelimiter_of_render done absent)

/-- What a list gives that is cut at commas, with a keyword, a quoted comma and a name twice. -/
def mixed : List Argument :=
  [⟨"a=1".toList, "a".toList, "1".toList⟩, ⟨"b='x, y'".toList, "b".toList, "x, y".toList⟩,
    ⟨"/flag".toList, "flag".toList, "true".toList⟩, ⟨"a=2".toList, "a".toList, "2".toList⟩]

/-- What a list gives that is cut at slashes. -/
def slashed : List Argument :=
  [⟨"delimiter='/'".toList, "delimiter".toList, "/".toList⟩,
    ⟨"a=1,2".toList, "a".toList, "1,2".toList⟩, ⟨"b=3".toList, "b".toList, "3".toList⟩]

/-- The list cut at commas comes back, the list cut at slashes does not. -/
theorem rereads_of_parse_mixed :
    parse "a=1, b='x, y', /flag, a=2".toList true = .ok mixed ∧
    render mixed = .ok "a=1, b='x, y', flag=true, a=2".toList ∧
    Rereads mixed "a=1, b='x, y', flag=true, a=2".toList ∧
    parse "delimiter='/'/a=1,2/b=3".toList true = .ok slashed ∧
    render slashed = .ok "delimiter='/', a='1,2', b=3".toList ∧
    ¬Rereads slashed "delimiter='/', a='1,2', b=3".toList := by
  have mixedRead : parse "a=1, b='x, y', /flag, a=2".toList true = .ok mixed := by decide +kernel
  have mixedDone : render mixed = .ok "a=1, b='x, y', flag=true, a=2".toList := by decide +kernel
  have slashedRead : parse "delimiter='/'/a=1,2/b=3".toList true = .ok slashed := by decide +kernel
  have slashedDone : render slashed = .ok "delimiter='/', a='1,2', b=3".toList := by decide +kernel
  obtain ⟨back, -, tidy, comma⟩ := rereads_of_parse mixedRead mixedDone
  obtain ⟨-, other, -, -⟩ := rereads_of_parse slashedRead slashedDone
  have proposed : effective? "delimiter='/', a='1,2', b=3".toList = .ok ('/', some 11) := by
    decide +kernel
  refine ⟨mixedRead, mixedDone, ?_, slashedRead, slashedDone, ?_⟩
  · refine (back ⟨none, comma (by decide +kernel)⟩).mpr ?_
    exact tidy ',' none (by decide +kernel) (by decide) (by decide)
  · refine other (fun place same => ?_) (by decide)
    rw [proposed] at same
    cases same

/-- Not every list that can be read and written comes back. -/
theorem not_forall_rereads :
    ¬ ∀ (t : Text) (arguments : List Argument) (written : Text), parse t true = .ok arguments →
      render arguments = .ok written → Rereads arguments written := by
  intro claim
  obtain ⟨again, read, same⟩ := claim "delimiter='/'/a=1,2/b=3".toList slashed
    "delimiter='/', a='1,2', b=3".toList (by decide +kernel) (by decide +kernel)
  have single : (parse "delimiter='/', a='1,2', b=3".toList true).map List.length = .ok 1 := by
    decide +kernel
  have length := congrArg List.length same
  rw [read] at single
  simp [named, slashed, Except.ok.inj single] at length

end Arguments

end SignalAccess
