import SignalAccess.Proofs.Request.Rendering

/-!
# Lists that propose their delimiter

A list can begin with the delimiter that it is cut by, `delimiter='X'`, and then holds its pairs, each
behind an `X`. The proposed delimiter is covered where it is proposed, so that it does not cut there,
and uncovered in the value of the proposal. Commas separate nothing in such a list, and a name or a
value may start with a slash, since every token has an equals sign.

What is asked of the delimiter is that it is neither a quote nor an equals sign nor the cover, and that
the name of the proposal is not cut by it. It may be a blank.
-/

namespace SignalAccess

namespace Arguments

variable {d : Char} {t rest : Text} {pair : Text × Text} {pairs : List (Text × Text)}

/-- What comes in front of a proposed delimiter. -/
def proposalLead : Text := proposalName ++ ['=', '\'']

/-- The argument that proposes a delimiter. -/
def proposing (d : Char) : Argument := ⟨proposalLead ++ [d, '\''], proposalName, [d]⟩

/-- The list that proposes its delimiter and then writes pairs, each behind the delimiter. -/
def proposingList (d : Char) (pairs : List (Text × Text)) : Text :=
  proposalLead ++ d :: '\'' :: pairs.flatMap fun (name, value) => d :: (name ++ '=' :: value)

/-- A character that a list can propose and be cut by. -/
structure Separates (d : Char) : Prop where
  noQuote : Text.isQuote d = false
  noEquals : d ≠ '='
  noCover : d ≠ cover
  noLetter : d ∉ proposalName

instance : DecidablePred Separates := fun d =>
  decidable_of_iff (Text.isQuote d = false ∧ d ≠ '=' ∧ d ≠ cover ∧ d ∉ proposalName)
    ⟨fun ⟨noQuote, noEquals, noCover, noLetter⟩ => ⟨noQuote, noEquals, noCover, noLetter⟩,
      fun separates => ⟨separates.noQuote, separates.noEquals, separates.noCover, separates.noLetter⟩⟩

/-- A text that can stand as a name in a list cut by `d`, without quotes around it. -/
structure Bare (d : Char) (t : Text) : Prop where
  filled : t ≠ []
  trimmed : Text.trim t = t
  noDelimiter : d ∉ t
  noEquals : '=' ∉ t
  noQuote : ∀ c ∈ t, Text.isQuote c = false
  noCover : cover ∉ t

instance (d : Char) : DecidablePred (Bare d) := fun t =>
  have : Decidable (∀ c ∈ t, Text.isQuote c = false) := List.decidableBAll _ t
  decidable_of_iff (t ≠ [] ∧ Text.trim t = t ∧ d ∉ t ∧ '=' ∉ t ∧
      (∀ c ∈ t, Text.isQuote c = false) ∧ cover ∉ t)
    ⟨fun ⟨filled, trimmed, noDelimiter, noEquals, noQuote, noCover⟩ =>
        ⟨filled, trimmed, noDelimiter, noEquals, noQuote, noCover⟩,
      fun bare => ⟨bare.filled, bare.trimmed, bare.noDelimiter, bare.noEquals, bare.noQuote,
        bare.noCover⟩⟩

namespace Bare

/-- A bare text is solid. -/
theorem solid (bare : Bare d t) : Solid t := by
  obtain ⟨first, last⟩ := Text.ends_of_trim_eq bare.trimmed
  have front := List.head?_eq_some_head bare.filled
  have back := List.getLast?_eq_some_getLast bare.filled
  constructor
  · refine ⟨_, front, first _ front, ?_⟩
    exact fun same => bare.noEquals (same ▸ List.head_mem bare.filled)
  · refine ⟨_, back, last _ back, ?_⟩
    exact fun same => bare.noEquals (same ▸ List.getLast_mem bare.filled)

/-- A bare text has no quotes around it to take off. -/
theorem unquote_eq (bare : Bare d t) : Text.unquote t = t := by
  cases t with
  | nil => rfl
  | cons c rest => simp [Text.unquote, bare.noQuote c List.mem_cons_self]

end Bare

/-! ## The proposal -/

/-- A list that begins with a proposal proposes the character between the quotes, whatever it is and
whatever follows. -/
theorem proposal?_of_lead (d : Char) (rest : Text) :
    proposal? (proposalLead ++ d :: '\'' :: rest) = .ok (some ⟨proposalLead, d, '\'' :: rest⟩) := by
  have broken : Text.breakIgnoringCase (proposalLead ++ d :: '\'' :: rest) proposalName =
      some ([], '=' :: '\'' :: d :: '\'' :: rest) :=
    Text.breakIgnoringCase_append (by decide) ('=' :: '\'' :: d :: '\'' :: rest)
  have quoted : quotedAfterEquals? ('=' :: '\'' :: d :: '\'' :: rest) =
      some (d, (d :: '\'' :: rest).length) := rfl
  have front : (proposalLead ++ d :: '\'' :: rest).take
      ((proposalLead ++ d :: '\'' :: rest).length - (d :: '\'' :: rest).length) = proposalLead := by
    rw [List.length_append, Nat.add_sub_cancel, List.take_left]
  have back : (proposalLead ++ d :: '\'' :: rest).drop (proposalLead.length + 1) = '\'' :: rest := by
    rw [← List.drop_drop, List.drop_left]
    rfl
  simp only [proposal?, broken, quoted, front, back, List.isEmpty_nil, if_true]

/-- Where a list begins with its proposal, quotes cover nothing more if what follows holds none. -/
theorem coverQuoted_of_lead (plain : ∀ c ∈ rest, Text.isQuote c = false) (d : Char) :
    coverQuoted d none (proposalLead ++ cover :: '\'' :: rest) =
      proposalLead ++ cover :: '\'' :: rest := by
  have letters : (proposalName ++ ['=']).all (!Text.isQuote ·) = true := by decide
  have name : coverQuoted d none (proposalName ++ ['=']) = proposalName ++ ['='] := by
    apply coverQuoted_of_plain
    intro c among
    simpa using List.all_eq_true.mp letters c among
  have outside : openBehind none (proposalName ++ ['=']) = none := by decide
  have whole : proposalLead ++ cover :: '\'' :: rest =
      (proposalName ++ ['=']) ++ '\'' :: cover :: '\'' :: rest := by simp [proposalLead]
  have opens : quoteBehind none '\'' = some '\'' := rfl
  have still : quoteBehind (some '\'') cover = some '\'' := rfl
  have closes : quoteBehind (some '\'') '\'' = none := rfl
  have closing : isInside (some '\'') '\'' = false := rfl
  rw [whole, coverQuoted_append, name, outside, coverQuoted_none_cons, opens, coverQuoted_cons, still,
    ite_self, coverQuoted_cons, closes, if_neg (by simp [closing]), coverQuoted_of_plain plain]

/-- The token of the proposal, uncovered, is the proposal. -/
theorem uncover_ofToken_proposal (d : Char) :
    uncover d (ofToken true (proposalLead ++ [cover, '\''])) = proposing d := by
  have read : ofToken true (proposalLead ++ [cover, '\'']) =
      ⟨proposalLead ++ [cover, '\''], proposalName, [cover]⟩ := by decide +kernel
  rw [read]
  rfl

/-! ## Pairs behind a proposal -/

/-- The token of a pair is read as the pair. -/
theorem uncover_ofToken_pair (name : Bare d pair.1) (value : Bare d pair.2)
    (closed : pair.2.getLast? ≠ some ')') :
    uncover d (ofToken true (pair.1 ++ '=' :: pair.2)) = .ofParts pair.1 pair.2 := by
  have dropped : dropParenthesis pair.2 = pair.2 := if_neg closed
  have free : cover ∉ pair.1 ++ '=' :: pair.2 := by
    have equals : cover ≠ '=' := by decide
    simp [name.noCover, value.noCover, equals]
  rw [ofToken_of_solid name.solid value.solid name.noEquals dropped, name.unquote_eq, value.unquote_eq,
    name.trimmed, value.trimmed, uncover, Text.replaceChar_of_not_mem free,
    Text.replaceChar_of_not_mem name.noCover, Text.replaceChar_of_not_mem value.noCover]
  rfl

/-! ## The list -/

/-- The list, with any character in the place of the proposed one, as tokens joined by the
delimiter. -/
theorem lead_append_eq_joinBy (c d : Char) (pairs : List (Text × Text)) :
    proposalLead ++ c :: '\'' :: pairs.flatMap (fun (name, value) => d :: (name ++ '=' :: value)) =
      Text.joinBy [d] ((proposalLead ++ [c, '\'']) ::
        pairs.map fun pair => pair.1 ++ '=' :: pair.2) := by
  rw [Text.joinBy_cons, List.flatMap_map, List.append_assoc]
  rfl

/-- A list that proposes its delimiter is solid. -/
theorem solid_proposingList (each : ∀ pair ∈ pairs, Bare d pair.1 ∧ Bare d pair.2) :
    Solid (proposingList d pairs) := by
  rw [proposingList, lead_append_eq_joinBy]
  apply Solid.joinBy
  rw [List.forall_mem_cons, List.forall_mem_map]
  constructor
  · exact ⟨⟨'d', rfl, by decide, by decide⟩, '\'', by simp, by decide, by decide⟩
  · intro pair among
    exact (each pair among).1.solid.append_cons '=' (each pair among).2.solid

/-- Behind its proposal the list holds no quotes. -/
theorem plain_of_bare (separates : Separates d)
    (each : ∀ pair ∈ pairs, Bare d pair.1 ∧ Bare d pair.2) :
    ∀ c ∈ pairs.flatMap (fun (name, value) => d :: (name ++ '=' :: value)),
      Text.isQuote c = false := by
  intro c among
  obtain ⟨pair, member, held⟩ := List.mem_flatMap.mp among
  rcases List.mem_cons.mp held with rfl | held
  · exact separates.noQuote
  · rcases List.mem_append.mp held with inName | behind
    · exact (each pair member).1.noQuote c inName
    · rcases List.mem_cons.mp behind with rfl | inValue
      · rfl
      · exact (each pair member).2.noQuote c inValue

/-- With its proposal covered the list is cut into the proposal and the pairs, none of them blank. -/
theorem splitOn_covered (separates : Separates d)
    (each : ∀ pair ∈ pairs, Bare d pair.1 ∧ Bare d pair.2) :
    let tokens := (proposalLead ++ [cover, '\'']) :: pairs.map fun pair => pair.1 ++ '=' :: pair.2
    Text.splitOn d (Text.joinBy [d] tokens) = tokens ∧ ∀ token ∈ tokens, Text.trim token ≠ [] := by
  have free : ∀ token ∈ (proposalLead ++ [cover, '\'']) :: pairs.map fun pair =>
      pair.1 ++ '=' :: pair.2, d ∉ token := by
    rw [List.forall_mem_cons, List.forall_mem_map]
    constructor
    · have quote : d ≠ '\'' := by
        rintro rfl
        cases separates.noQuote
      simp [proposalLead, separates.noLetter, separates.noEquals, separates.noCover, quote]
    · intro pair among
      simp [(each pair among).1.noDelimiter, (each pair among).2.noDelimiter, separates.noEquals]
  constructor
  · rw [Text.splitOn_joinBy _ free List.not_mem_nil]
    simp
  · rw [List.forall_mem_cons, List.forall_mem_map]
    constructor
    · decide
    · intro pair among
      rw [((each pair among).1.solid.append_cons '=' (each pair among).2.solid).trim_eq]
      simp

/-- A list that begins with the proposal of its delimiter is read as the proposal and exactly the pairs
behind it, in their order, whatever commas and slashes they hold. -/
theorem parse_proposingList (separates : Separates d)
    (names : ∀ pair ∈ pairs, Bare d pair.1)
    (values : ∀ pair ∈ pairs, Bare d pair.2 ∧ pair.2.getLast? ≠ some ')') :
    parse (proposingList d pairs) true =
      .ok (proposing d :: pairs.map fun pair => .ofParts pair.1 pair.2) := by
  have each : ∀ pair ∈ pairs, Bare d pair.1 ∧ Bare d pair.2 := fun pair among =>
    ⟨names pair among, (values pair among).1⟩
  have solid := solid_proposingList each
  have unfailing : ¬((proposingList d pairs).head? = some '=' ∨
      (proposingList d pairs).getLast? = some '=') := by
    obtain ⟨front, head, -, frontPlain⟩ := solid.first
    obtain ⟨back, last, -, backPlain⟩ := solid.last
    rw [head, last]
    simpa using ⟨frontPlain, backPlain⟩
  have proposed : proposal? (proposingList d pairs) = .ok (some ⟨proposalLead, d, _⟩) :=
    proposal?_of_lead d _
  have effective : effective? (proposingList d pairs) = .ok (d, some proposalLead.length) := by
    rw [effective?, proposed]
    rfl
  have covered := coverAt_proposal proposed
  obtain ⟨apart, inked⟩ := splitOn_covered separates each
  rw [parse_eq, solid.trim_eq, if_neg unfailing, effective]
  show Except.ok (cut true d (coverAt (some proposalLead.length) (proposingList d pairs))) = _
  rw [covered, cut, coverQuoted_of_lead (plain_of_bare separates each), lead_append_eq_joinBy, apart,
    List.filter_eq_self.mpr (by simpa using inked), List.map_cons, List.map_map,
    uncover_ofToken_proposal]
  congr 2
  apply List.map_congr_left
  intro pair among
  exact uncover_ofToken_pair (names pair among) (values pair among).1 (values pair among).2

/-- Pairs with commas, a slash and parentheses. -/
def listed : List (Text × Text) :=
  [("a".toList, "1, 2".toList), ("x,y".toList, "/z".toList), ("/n)".toList, "(v".toList)]

/-- Commas, slashes and parentheses come back from a list that proposes a semicolon. -/
theorem parse_proposingList_listed :
    proposingList ';' listed = "delimiter=';';a=1, 2;x,y=/z;/n)=(v".toList ∧ Separates ';' ∧
    (∀ pair ∈ listed, Bare ';' pair.1) ∧
    (∀ pair ∈ listed, Bare ';' pair.2 ∧ pair.2.getLast? ≠ some ')') ∧
    parse (proposingList ';' listed) true =
      .ok [⟨"delimiter=';'".toList, "delimiter".toList, ";".toList⟩,
        .ofParts "a".toList "1, 2".toList, .ofParts "x,y".toList "/z".toList,
        .ofParts "/n)".toList "(v".toList] := by
  have separates : Separates ';' := by decide
  have names : ∀ pair ∈ listed, Bare ';' pair.1 := by decide +kernel
  have values : ∀ pair ∈ listed, Bare ';' pair.2 ∧ pair.2.getLast? ≠ some ')' := by decide +kernel
  exact ⟨by decide +kernel, separates, names, values, parse_proposingList separates names values⟩

end Arguments

end SignalAccess
