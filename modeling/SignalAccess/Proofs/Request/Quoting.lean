import SignalAccess.Proofs.Failure.Recording
import SignalAccess.Proofs.Text.Pieces
import SignalAccess.Proofs.Text.Search
import SignalAccess.Proofs.Text.Trim
import SignalAccess.Request.Arguments

/-!
# Lists of arguments, cut by their delimiter

A list of arguments is read in a roundabout way: delimiters that separate nothing are covered, the
list is cut at the others, and what was covered is uncovered in the tokens. The direct way goes
through the list once, with the quote that is open, and cuts at each delimiter outside of quotes or
closing one. What is established here is that both ways give the same tokens, whatever the delimiter
is, a quote or a blank included, and however quotes are left open.

The proposal of a delimiter stands between quotes of its own, so it is neither a delimiter nor a
quote of the list. Blank delimiters need a closer look, since an uncovered blank at the end of a
token would be trimmed: a token starts outside of quotes then, and a quote that is still open at its
end is open at the end of the list, which is no blank.
-/

namespace SignalAccess

namespace Arguments

variable {c d : Char} {opened : Option Char} {t front back token : Text}

/-! ## Open quotes -/

/-- The quote that is open behind a character. An open quote is closed by its like, and where none is
open a quote opens. -/
def quoteBehind (opened : Option Char) (c : Char) : Option Char :=
  match opened with
  | some quote => if c = quote then none else some quote
  | none => if Text.isQuote c then some c else none

/-- The quote that is open behind a text. -/
def openBehind (opened : Option Char) (t : Text) : Option Char := t.foldl quoteBehind opened

/-- Whether a character stands inside an open quote that it does not close. -/
def isInside (opened : Option Char) (c : Char) : Bool := opened.any (· != c)

/-- There are two quotes, the single one and the double one. -/
theorem eq_quote_of_isQuote (quote : Text.isQuote c = true) : c = '\'' ∨ c = '"' := by
  simpa [Text.isQuote] using quote

/-- A quote is no blank. -/
theorem isBlank_of_isQuote (quote : Text.isQuote c = true) : Text.isBlank c = false := by
  rcases eq_quote_of_isQuote quote with rfl | rfl <;> decide

/-- The cover is no blank. -/
theorem isBlank_cover : Text.isBlank cover = false := by decide

/-- A quote differs from every character that is none. -/
theorem ne_of_isQuote {quote : Char} (isQuote : Text.isQuote quote = true)
    (plain : Text.isQuote c = false) : quote ≠ c := by
  rintro rfl
  rw [isQuote] at plain
  cases plain

/-- What is open is a quote. -/
theorem isQuote_of_quoteBehind (quotes : ∀ quote ∈ opened, Text.isQuote quote = true) :
    ∀ quote ∈ quoteBehind opened c, Text.isQuote quote = true := by
  intro quote among
  cases opened with
  | none =>
    rw [quoteBehind] at among
    split at among
    · next isQuote =>
      cases among
      exact isQuote
    · cases among
  | some other =>
    rw [quoteBehind] at among
    split at among
    · cases among
    · cases among
      exact quotes quote rfl

/-- A character that is no quote leaves open what is open. -/
theorem quoteBehind_of_not_isQuote (quotes : ∀ quote ∈ opened, Text.isQuote quote = true)
    (plain : Text.isQuote c = false) : quoteBehind opened c = opened := by
  cases opened with
  | none => simp [quoteBehind, plain]
  | some quote =>
    have other := ne_of_isQuote (quotes quote rfl) plain
    simp [quoteBehind, Ne.symm other]

/-- One character is covered if it is a delimiter inside an open quote. -/
theorem coverQuoted_cons (d : Char) (opened : Option Char) (c : Char) (rest : Text) :
    coverQuoted d opened (c :: rest) =
      (if isInside opened c = true ∧ c = d then cover else c) ::
        coverQuoted d (quoteBehind opened c) rest := by
  cases opened with
  | none => simp [coverQuoted, isInside, quoteBehind]
  | some quote =>
    by_cases closes : c = quote
    · simp [coverQuoted, isInside, quoteBehind, closes]
    · simp [coverQuoted, isInside, quoteBehind, closes, Ne.symm closes]

/-- Outside of quotes nothing is covered. -/
theorem coverQuoted_none_cons (d c : Char) (rest : Text) :
    coverQuoted d none (c :: rest) = c :: coverQuoted d (quoteBehind none c) rest := by
  rw [coverQuoted_cons, if_neg (by simp [isInside])]

/-- What is covered behind a text depends on the quote that is open there. -/
theorem coverQuoted_append (d : Char) (opened : Option Char) (front back : Text) :
    coverQuoted d opened (front ++ back) =
      coverQuoted d opened front ++ coverQuoted d (openBehind opened front) back := by
  induction front generalizing opened with
  | nil => cases opened <;> rfl
  | cons c front inductionHypothesis =>
    rw [List.cons_append, coverQuoted_cons, coverQuoted_cons, inductionHypothesis, List.cons_append]
    rfl

/-- There is nothing to cover in the empty text. -/
theorem coverQuoted_nil (d : Char) (opened : Option Char) : coverQuoted d opened [] = [] := by
  cases opened <;> rfl

/-! ## The direct way -/

/-- The pieces of a list, cut directly. A delimiter separates where it is not inside an open quote, or
closes it; the character at `place` is the proposed delimiter, and separates nothing. -/
def pieces (d : Char) : (opened : Option Char) → (place : Option Nat) → Text → List Text
  | _, _, [] => [[]]
  | opened, place, c :: rest =>
    if place = some 0 then (pieces d opened none rest).modifyHead (c :: ·)
    else
      let more := pieces d (quoteBehind opened c) (place.map Nat.pred) rest
      if c = d ∧ isInside opened c = false then [] :: more else more.modifyHead (c :: ·)

/-- The list with its proposed delimiter covered. -/
def coverAt (place : Option Nat) (t : Text) : Text :=
  match place with
  | none => t
  | some n => t.set n cover

/-- Changing the first member of a list commutes with a change of all its members where the two
changes do. -/
theorem modifyHead_map {α β : Type} {f : α → α} {g : α → β} {h : β → β} {l : List α}
    (commute : ∀ a, g (f a) = h (g a)) : (l.modifyHead f).map g = (l.map g).modifyHead h := by
  cases l with
  | nil => rfl
  | cons a l => simp [commute]

/-- Uncovered tokens are the pieces of the list. The induction is on the list, with the open quote in
hand; the place of the proposal comes nearer with every character. -/
theorem map_uncover_splitOn (quotes : ∀ quote ∈ opened, Text.isQuote quote = true)
    (uncovered : cover ∉ t) (delimiter : d ≠ cover) {place : Option Nat}
    (placed : ∀ n ∈ place, t[n]? = some d) :
    (Text.splitOn d (coverQuoted d opened (coverAt place t))).map (Text.replaceChar cover d) =
      pieces d opened place t := by
  induction t generalizing opened place with
  | nil => cases place <;> simp [coverAt, coverQuoted_nil, pieces, Text.replaceChar]
  | cons c rest inductionHypothesis =>
    rw [List.mem_cons, not_or] at uncovered
    have commute (x y : Char) (same : (if x = cover then d else x) = y) (token : Text) :
        Text.replaceChar cover d (x :: token) = y :: Text.replaceChar cover d token := by
      rw [Text.replaceChar, List.map_cons, same]
      rfl
    by_cases here : place = some 0
    · subst here
      have proposed : c = d := by simpa using placed 0 rfl
      have still : quoteBehind opened cover = opened := quoteBehind_of_not_isQuote quotes (by decide)
      have absent : ∀ n ∈ (none : Option Nat), rest[n]? = some d := by simp
      have later := inductionHypothesis quotes uncovered.2 absent
      have covered : coverAt (some 0) (c :: rest) = cover :: coverAt none rest := rfl
      rw [covered, coverQuoted_cons, if_neg (fun inside => delimiter inside.2.symm), still,
        Text.splitOn_cons_of_ne (Ne.symm delimiter), pieces, if_pos rfl, ← later]
      exact modifyHead_map (commute cover c (by rw [if_pos rfl, proposed]))
    · have covered : coverAt place (c :: rest) = c :: coverAt (place.map Nat.pred) rest := by
        rcases place with _ | _ | n
        · rfl
        · exact absurd rfl here
        · rfl
      have placedLater : ∀ n ∈ place.map Nat.pred, rest[n]? = some d := by
        rcases place with _ | _ | n
        · simp
        · exact absurd rfl here
        · simpa using placed (n + 1) rfl
      have later := inductionHypothesis (isQuote_of_quoteBehind (c := c) quotes) uncovered.2 placedLater
      rw [covered, coverQuoted_cons, pieces, if_neg here, ← later]
      by_cases delimits : c = d
      · subst delimits
        cases inside : isInside opened c with
        | false =>
          rw [if_neg (by simp), if_pos ⟨rfl, rfl⟩, Text.splitOn_cons_self]
          rfl
        | true =>
          rw [if_pos ⟨rfl, rfl⟩, if_neg (by simp), Text.splitOn_cons_of_ne (Ne.symm delimiter)]
          exact modifyHead_map (commute cover c (if_pos rfl))
      · rw [if_neg (fun both => delimits both.2), if_neg (fun both => delimits both.1),
          Text.splitOn_cons_of_ne delimits]
        exact modifyHead_map (commute c c (if_neg (Ne.symm uncovered.1)))

/-! ## Blanks at the ends of tokens -/

/-- A blank is no quote. -/
theorem not_isQuote_of_isBlank (blank : Text.isBlank c = true) : Text.isQuote c = false := by
  by_contra quote
  rw [Bool.not_eq_false] at quote
  rw [isBlank_of_isQuote quote] at blank
  cases blank

/-- The tokens of a list, blanks aside, where a quote may be open at its start: no cover stands at the
ends of a token, except that the first one starts inside the open quote, and holds what closes it. -/
structure Sheltered (opened : Option Char) (first : Text) (more : List Text) : Prop where
  starts : opened = none → Text.firstInk first ≠ some cover
  ends : Text.lastInk first ≠ some cover
  closes : opened ≠ none → Text.lastInk first ≠ none
  later : ∀ token ∈ more, Text.firstInk token ≠ some cover ∧ Text.lastInk token ≠ some cover

namespace Sheltered

variable {first : Text} {more : List Text}

/-- A list that ends is sheltered if no quote is left open. -/
theorem nil : Sheltered none [] [] := by
  constructor <;> simp [Text.firstInk, Text.lastInk]

/-- A last character that is neither a blank nor the cover is sheltered. -/
theorem single (ink : Text.isBlank c = false) (plain : c ≠ cover) : Sheltered opened [c] [] := by
  constructor <;> simp [Text.firstInk, Text.lastInk, ink, plain]

/-- A delimiter outside of quotes starts another token. -/
theorem cut (sheltered : Sheltered none first more) : Sheltered none [] (first :: more) := by
  constructor
  · simp [Text.firstInk]
  · simp [Text.lastInk]
  · simp
  · exact List.forall_mem_cons.mpr ⟨⟨sheltered.starts rfl, sheltered.ends⟩, sheltered.later⟩

/-- A covered delimiter stands in front of what closes its quote. -/
theorem covered {quote : Char} (sheltered : Sheltered (some quote) first more) :
    Sheltered (some quote) (cover :: first) more := by
  have shown := sheltered.closes (by simp)
  have behind : Text.lastInk (cover :: first) = Text.lastInk first := by
    rw [Text.lastInk_cons]
    exact Option.or_of_isSome (Option.isSome_iff_ne_none.mpr shown)
  exact ⟨by simp, behind ▸ sheltered.ends, fun _ => behind ▸ shown, sheltered.later⟩

/-- A character that is no cover shelters the tokens that are sheltered behind it. -/
theorem cons (quotes : ∀ quote ∈ opened, Text.isQuote quote = true) (plain : c ≠ cover)
    (sheltered : Sheltered (quoteBehind opened c) first more) :
    Sheltered opened (c :: first) more := by
  constructor
  · rintro rfl
    rw [Text.firstInk_cons]
    split
    · next blank =>
      exact sheltered.starts (by simp [quoteBehind, not_isQuote_of_isBlank blank])
    · simpa using plain
  · rw [Text.lastInk_cons]
    cases found : Text.lastInk first with
    | none => cases Text.isBlank c <;> simp [plain]
    | some x =>
      have ends := sheltered.ends
      rw [found] at ends
      simpa using ends
  · intro inside
    rw [Text.lastInk_cons]
    obtain ⟨quote, rfl⟩ := Option.ne_none_iff_exists'.mp inside
    by_cases closing : c = quote
    · have ink := isBlank_of_isQuote (quotes quote rfl)
      simp [closing, ink]
    · have still := sheltered.closes (by simp [quoteBehind, closing])
      simp [still]
  · exact sheltered.later

end Sheltered

/-- Between blank delimiters no cover stands at the ends of a token. A token starts outside of quotes,
so that a quote stands in front of its first cover. Behind its last cover stands the quote that closes
it, or the end of the list, which is no blank. -/
theorem sheltered_of_splitOn (blank : Text.isBlank d = true) (uncovered : cover ∉ t)
    (quotes : ∀ quote ∈ opened, Text.isQuote quote = true)
    (last : ∀ c, t.getLast? = some c → Text.isBlank c = false) (ended : t = [] → opened = none) :
    ∃ first more, Text.splitOn d (coverQuoted d opened t) = first :: more ∧
      Sheltered opened first more := by
  induction t generalizing opened with
  | nil =>
    rw [ended rfl]
    exact ⟨[], [], rfl, .nil⟩
  | cons c rest inductionHypothesis =>
    rw [List.mem_cons, not_or] at uncovered
    have plain : c ≠ cover := Ne.symm uncovered.1
    cases rest with
    | nil =>
      have ink : Text.isBlank c = false := last c rfl
      have other : c ≠ d := by
        rintro rfl
        rw [ink] at blank
        cases blank
      refine ⟨[c], [], ?_, .single ink plain⟩
      rw [coverQuoted_cons, if_neg (fun both => other both.2), coverQuoted_nil,
        Text.splitOn_cons_of_ne other, Text.splitOn_nil]
      rfl
    | cons next others =>
      obtain ⟨first, more, split, sheltered⟩ := inductionHypothesis uncovered.2
        (isQuote_of_quoteBehind (c := c) quotes)
        (fun x ending => last x (by rw [List.getLast?_cons_cons]; exact ending)) (by simp)
      rw [coverQuoted_cons]
      by_cases delimits : c = d
      · subst delimits
        have noQuote := not_isQuote_of_isBlank blank
        rw [quoteBehind_of_not_isQuote quotes noQuote] at split sheltered ⊢
        cases opened with
        | none =>
          rw [if_neg (by simp [isInside]), Text.splitOn_cons_self, split]
          exact ⟨[], first :: more, rfl, sheltered.cut⟩
        | some quote =>
          have inside : isInside (some quote) c = true := by
            simpa [isInside] using ne_of_isQuote (quotes quote rfl) noQuote
          rw [if_pos ⟨inside, rfl⟩, Text.splitOn_cons_of_ne (Ne.symm plain), split]
          exact ⟨cover :: first, more, rfl, sheltered.covered⟩
      · rw [if_neg (fun both => delimits both.2), Text.splitOn_cons_of_ne delimits, split]
        exact ⟨c :: first, more, rfl, sheltered.cons quotes plain⟩

/-! ## The delimiter that a list proposes -/

/-- What is read behind the name of a proposal: an equals sign between blanks, and a character between
two equal quotes. -/
theorem exists_of_quotedAfterEquals? {remaining : Nat}
    (found : quotedAfterEquals? t = some (c, remaining)) :
    ∃ left right quote rest, t = left ++ '=' :: (right ++ quote :: c :: quote :: rest) ∧
      remaining = (c :: quote :: rest).length ∧ Text.isQuote quote = true ∧
      (∀ x ∈ left, Text.isBlank x = true) ∧ ∀ x ∈ right, Text.isBlank x = true := by
  obtain ⟨left, leftWhole, leftBlank⟩ := Text.exists_trimStart_eq t
  unfold quotedAfterEquals? at found
  split at found
  · next behind equals =>
    obtain ⟨right, rightWhole, rightBlank⟩ := Text.exists_trimStart_eq behind
    split at found
    · next opening proposed closing rest quoted =>
      split at found
      · next both =>
        obtain ⟨rfl, isQuote⟩ := both
        cases found
        rw [quoted] at rightWhole
        rw [equals, rightWhole] at leftWhole
        exact ⟨left, right, opening, rest, leftWhole, rfl, isQuote, leftBlank, rightBlank⟩
      · cases found
    · cases found
  · cases found

/-- A list that proposes a delimiter. The proposal stands in front, or behind the delimiter that it
proposes: the name of the proposal, an equals sign, and the delimiter between quotes. -/
structure Proposes (t : Text) (found : Proposal) : Prop where
  whole : t = found.before ++ found.delimiter :: found.after
  before : ∃ front name left right quote,
    found.before = front ++ (name ++ (left ++ '=' :: (right ++ [quote]))) ∧
    name.map Char.toLower = proposalName.map Char.toLower ∧ Text.isQuote quote = true ∧
    (∀ x ∈ left, Text.isBlank x = true) ∧ (∀ x ∈ right, Text.isBlank x = true) ∧
    (front = [] ∨ (Text.trimEnd front).getLast? = some found.delimiter)
  after : ∃ quote rest, found.after = quote :: rest ∧ Text.isQuote quote = true

/-- Where a proposal that counts was found. -/
theorem exists_of_proposal? {found : Proposal} (proposed : proposal? t = .ok (some found)) :
    ∃ front tail remaining, t.breakIgnoringCase proposalName = some (front, tail) ∧
      quotedAfterEquals? tail = some (found.delimiter, remaining) ∧
      found.before = t.take (t.length - remaining) ∧
      found.after = t.drop (found.before.length + 1) ∧
      (front = [] ∨ (Text.trimEnd front).getLast? = some found.delimiter) := by
  unfold proposal? at proposed
  split at proposed
  · cases proposed
  · next front tail broken =>
    split at proposed
    · cases proposed
    · next delimiter remaining quoted =>
      dsimp only at proposed
      split at proposed
      · next empty =>
        cases proposed
        exact ⟨front, tail, remaining, broken, quoted, rfl, rfl, .inl (List.isEmpty_iff.mp empty)⟩
      · split at proposed
        · cases proposed
        · next previous last =>
          split at proposed
          · next itself =>
            cases proposed
            exact ⟨front, tail, remaining, broken, quoted, rfl, rfl, .inr (by rw [last, itself])⟩
          · split at proposed <;> cases proposed

/-- A proposal that is found stands in the list. -/
theorem proposes_of_proposal? {found : Proposal} (proposed : proposal? t = .ok (some found)) :
    Proposes t found := by
  obtain ⟨front, tail, remaining, broken, quoted, before, after, place⟩ := exists_of_proposal? proposed
  obtain ⟨name, named, lower⟩ := Text.exists_of_breakIgnoringCase broken
  obtain ⟨left, right, quote, rest, tailWhole, rfl, isQuote, leftBlank, rightBlank⟩ :=
    exists_of_quotedAfterEquals? quoted
  have whole : t = (front ++ (name ++ (left ++ '=' :: (right ++ [quote])))) ++
      found.delimiter :: quote :: rest := by
    simp [named, tailWhole]
  have opening : found.before = front ++ (name ++ (left ++ '=' :: (right ++ [quote]))) := by
    rw [before, whole, List.length_append, Nat.add_sub_cancel, List.take_left]
  have back : found.after = quote :: rest := by
    rw [after, opening, whole, ← List.drop_drop, List.drop_left]
    rfl
  constructor
  · rw [opening, back]
    exact whole
  · exact ⟨front, name, left, right, quote, opening, lower, isQuote, leftBlank, rightBlank, place⟩
  · exact ⟨quote, rest, back, isQuote⟩

/-- The delimiter with which a list is read, and the place at which the list proposes it. -/
def effective? (t : Text) : Except Failure (Char × Option Nat) :=
  (proposal? t).map fun
    | none => (defaultDelimiter, none)
    | some found => (found.delimiter, some found.before.length)

/-- A list is read with the default delimiter, or with one that it proposes. -/
theorem cases_of_effective? {place : Option Nat} (effective : effective? t = .ok (d, place)) :
    (proposal? t = .ok none ∧ d = defaultDelimiter ∧ place = none) ∨
    ∃ found, proposal? t = .ok (some found) ∧ d = found.delimiter ∧
      place = some found.before.length := by
  unfold effective? at effective
  cases proposed : proposal? t with
  | error failure =>
    rw [proposed] at effective
    cases effective
  | ok found =>
    rw [proposed] at effective
    cases found with
    | none =>
      cases effective
      exact .inl ⟨rfl, rfl, rfl⟩
    | some found =>
      cases effective
      exact .inr ⟨found, rfl, rfl, rfl⟩

/-- The list around its proposal, with the delimiter that it proposes covered. -/
theorem coverAt_proposal {found : Proposal} (proposed : proposal? t = .ok (some found)) :
    coverAt (some found.before.length) t = found.before ++ cover :: found.after := by
  conv_lhs => rw [(proposes_of_proposal? proposed).whole]
  simp [coverAt]

/-- The delimiter stands at the place at which the list proposes it. -/
theorem placed_of_effective? {place : Option Nat} (effective : effective? t = .ok (d, place)) :
    ∀ n ∈ place, t[n]? = some d := by
  rcases cases_of_effective? effective with ⟨-, -, rfl⟩ | ⟨found, proposed, rfl, rfl⟩
  · simp
  · intro n among
    cases among
    conv_lhs => rw [(proposes_of_proposal? proposed).whole]
    simp

/-- How a list is read: with its effective delimiter, unless an equals sign stands at one of its
ends. -/
theorem parse_eq (t : Text) (stripQuotes : Bool) :
    parse t stripQuotes =
      if t.trim.head? = some '=' ∨ t.trim.getLast? = some '=' then
        .error (.syntaxError (.argumentList t.trim))
      else (effective? t.trim).map fun found => cut stripQuotes found.1 (coverAt found.2 t.trim) := by
  unfold parse
  dsimp only
  split
  · next empty =>
    rw [List.isEmpty_iff.mp empty]
    rfl
  · split
    · next ends =>
      rw [if_pos (by simpa using ends)]
    · next ends =>
      rw [if_neg (by simpa using ends), effective?]
      cases proposed : proposal? t.trim with
      | error failure => rfl
      | ok found =>
        cases found with
        | none => rfl
        | some found =>
          have covered := congrArg (cut stripQuotes found.delimiter) (coverAt_proposal proposed)
          exact congrArg Except.ok covered.symm

/-- What a list is read to, if it can be read. -/
theorem exists_of_parse {stripQuotes : Bool} {arguments : List Argument}
    (read : parse t stripQuotes = .ok arguments) :
    ∃ d place, effective? t.trim = .ok (d, place) ∧
      arguments = cut stripQuotes d (coverAt place t.trim) := by
  rw [parse_eq] at read
  split at read
  · cases read
  · cases effective : effective? t.trim with
    | error failure =>
      rw [effective] at read
      cases read
    | ok found =>
      rw [effective] at read
      cases read
      exact ⟨found.1, found.2, rfl, rfl⟩

/-! ## Tokens -/

/-- A text without quotes opens and closes none. -/
theorem openBehind_of_plain (quotes : ∀ quote ∈ opened, Text.isQuote quote = true)
    (plain : ∀ c ∈ t, Text.isQuote c = false) : openBehind opened t = opened := by
  induction t with
  | nil => rfl
  | cons c rest inductionHypothesis =>
    have first := quoteBehind_of_not_isQuote quotes (plain c List.mem_cons_self)
    have later := inductionHypothesis fun x among => plain x (List.mem_cons_of_mem c among)
    rwa [openBehind, List.foldl_cons, first]

/-- A quote is open behind two texts as behind the second one, read behind the first. -/
theorem openBehind_append (opened : Option Char) (front back : Text) :
    openBehind opened (front ++ back) = openBehind (openBehind opened front) back :=
  List.foldl_append

/-- A character that is proposed inside an open quote is covered in any case. -/
theorem coverQuoted_of_openBehind {quote : Char} (inside : openBehind opened front = some quote)
    (isQuote : Text.isQuote quote = true) (other : quote ≠ d) (back : Text) :
    coverQuoted d opened (front ++ cover :: back) = coverQuoted d opened (front ++ d :: back) := by
  have still (c : Char) (other : c ≠ quote) : quoteBehind (some quote) c = some quote := by
    simp [quoteBehind, other]
  have uncovered : quote ≠ cover := ne_of_isQuote isQuote (by decide)
  have covered : coverQuoted d (some quote) (cover :: back) =
      cover :: coverQuoted d (some quote) back := by
    rw [coverQuoted_cons, ite_self, still cover (Ne.symm uncovered)]
  have delimiter : coverQuoted d (some quote) (d :: back) =
      cover :: coverQuoted d (some quote) back := by
    rw [coverQuoted_cons, if_pos ⟨by simpa [isInside] using other, rfl⟩, still d (Ne.symm other)]
  rw [coverQuoted_append, coverQuoted_append, inside, covered, delimiter]

/-- The letters of a proposal's name are no quotes. -/
theorem plain_of_name {name : Text} (lower : name.map Char.toLower = proposalName.map Char.toLower) :
    ∀ c ∈ name, Text.isQuote c = false := by
  intro c among
  by_contra quote
  rw [Bool.not_eq_false] at quote
  have held : c.toLower ∈ proposalName.map Char.toLower := lower ▸ List.mem_map_of_mem among
  rcases eq_quote_of_isQuote quote with rfl | rfl <;> revert held <;> decide

/-- A blank delimiter can be proposed only in front, and stands inside the quote that opens there. -/
theorem openBehind_proposal {found : Proposal} (proposed : proposal? t = .ok (some found))
    (blank : Text.isBlank found.delimiter = true) :
    ∃ quote, openBehind none found.before = some quote ∧ Text.isQuote quote = true := by
  obtain ⟨front, name, left, right, quote, before, lower, isQuote, leftBlank, rightBlank, place⟩ :=
    (proposes_of_proposal? proposed).before
  have first : front = [] := by
    refine place.resolve_right fun last => ?_
    rw [Text.getLast?_trimEnd front last] at blank
    cases blank
  have plain : ∀ c ∈ name ++ (left ++ '=' :: right), Text.isQuote c = false := by
    intro c among
    simp only [List.mem_append, List.mem_cons] at among
    rcases among with named | spaced | rfl | spaced
    · exact plain_of_name lower c named
    · exact not_isQuote_of_isBlank (leftBlank c spaced)
    · decide
    · exact not_isQuote_of_isBlank (rightBlank c spaced)
  have whole : found.before = (name ++ (left ++ '=' :: right)) ++ [quote] := by
    simp [before, first]
  refine ⟨quote, ?_, isQuote⟩
  rw [whole, openBehind_append, openBehind_of_plain (by simp) plain]
  simp [openBehind, quoteBehind, isQuote]

/-- The tokens of a list can be trimmed before or after they are uncovered. -/
theorem trim_uncover_of_mem {place : Option Nat} (trimmed : Text.trim t = t) (uncovered : cover ∉ t)
    (effective : effective? t = .ok (d, place))
    (among : token ∈ Text.splitOn d (coverQuoted d none (coverAt place t))) :
    Text.trim (Text.replaceChar cover d token) = Text.replaceChar cover d (Text.trim token) := by
  cases blank : Text.isBlank d with
  | false => exact Text.trim_replaceChar isBlank_cover (.inl blank)
  | true =>
    have plain : coverQuoted d none (coverAt place t) = coverQuoted d none t := by
      rcases cases_of_effective? effective with ⟨-, -, rfl⟩ | ⟨found, proposed, rfl, rfl⟩
      · rfl
      · obtain ⟨quote, inside, isQuote⟩ := openBehind_proposal proposed blank
        have other := ne_of_isQuote isQuote (not_isQuote_of_isBlank blank)
        rw [coverAt_proposal proposed, coverQuoted_of_openBehind inside isQuote other,
          ← (proposes_of_proposal? proposed).whole]
    have outside : ∀ quote ∈ (none : Option Char), Text.isQuote quote = true := by simp
    obtain ⟨first, more, split, sheltered⟩ := sheltered_of_splitOn blank uncovered outside
      (Text.ends_of_trim_eq trimmed).2 fun _ => rfl
    rw [plain, split, List.mem_cons] at among
    rcases among with rfl | among
    · exact Text.trim_replaceChar isBlank_cover (.inr ⟨sheltered.starts rfl, sheltered.ends⟩)
    · exact Text.trim_replaceChar isBlank_cover (.inr (sheltered.later token among))

/-- A list without a cover is not cut at one. -/
theorem ne_cover_of_effective? {place : Option Nat} (uncovered : cover ∉ t)
    (effective : effective? t = .ok (d, place)) : d ≠ cover := by
  rintro rfl
  rcases cases_of_effective? effective with ⟨-, default, -⟩ | ⟨found, -, -, rfl⟩
  · revert default
    decide
  · exact uncovered (List.mem_of_getElem? (placed_of_effective? effective _ rfl))

/-- Each argument is written as its token, trimmed and uncovered. -/
theorem map_source_cut (stripQuotes : Bool) (d : Char) (t : Text) :
    (cut stripQuotes d t).map Argument.source =
      ((Text.splitOn d (coverQuoted d none t)).filter fun token => !token.trim.isEmpty).map
        fun token => Text.replaceChar cover d token.trim := by
  unfold cut
  dsimp only
  rw [List.map_map]
  refine List.map_congr_left fun token _ => ?_
  cases stripQuotes <;> rfl

/-- The arguments of a list that can be read are written as the pieces of the list, cut directly with
its effective delimiter: blank pieces are dropped, and the others trimmed. -/
theorem sources_of_parse {stripQuotes : Bool} {arguments : List Argument} (uncovered : cover ∉ t)
    (read : parse t stripQuotes = .ok arguments) :
    ∃ d place, effective? t.trim = .ok (d, place) ∧
      arguments.map Argument.source =
        ((pieces d none place t.trim).filter fun piece => !piece.trim.isEmpty).map Text.trim := by
  obtain ⟨d, place, effective, rfl⟩ := exists_of_parse read
  refine ⟨d, place, effective, ?_⟩
  have inside : cover ∉ t.trim := fun among => uncovered (Text.mem_of_mem_trim among)
  have commute : ∀ token ∈ Text.splitOn d (coverQuoted d none (coverAt place t.trim)),
      Text.trim (Text.replaceChar cover d token) = Text.replaceChar cover d (Text.trim token) :=
    fun _ => trim_uncover_of_mem (Text.trim_trim t) inside effective
  rw [map_source_cut, ← map_uncover_splitOn (by simp) inside (ne_cover_of_effective? inside effective)
    (placed_of_effective? effective), List.filter_map, List.map_map]
  have kept : (Text.splitOn d (coverQuoted d none (coverAt place t.trim))).filter
      ((fun piece => !piece.trim.isEmpty) ∘ Text.replaceChar cover d) =
        (Text.splitOn d (coverQuoted d none (coverAt place t.trim))).filter
          fun token => !token.trim.isEmpty := by
    refine List.filter_congr fun token among => ?_
    rw [Function.comp_apply, commute token among]
    simp [Text.replaceChar]
  rw [kept]
  refine List.map_congr_left fun token among => ?_
  exact (commute token (List.mem_of_mem_filter among)).symm

/-- Slashes cut a list that proposes them; the proposed one does not, nor does one between quotes. -/
theorem sources_of_parse_slashes :
    parse "delimiter='/'/a='1/2'/ /b".toList false =
      .ok [⟨"delimiter='/'".toList, "delimiter".toList, "'/'".toList⟩,
        ⟨"a='1/2'".toList, "a".toList, "'1/2'".toList⟩, ⟨"b".toList, "b".toList, "b".toList⟩] ∧
    ∃ d place, effective? "delimiter='/'/a='1/2'/ /b".toList = .ok (d, place) ∧
      ["delimiter='/'".toList, "a='1/2'".toList, "b".toList] =
        ((pieces d none place "delimiter='/'/a='1/2'/ /b".toList).filter
          fun piece => !piece.trim.isEmpty).map Text.trim := by
  have read : parse "delimiter='/'/a='1/2'/ /b".toList false =
      .ok [⟨"delimiter='/'".toList, "delimiter".toList, "'/'".toList⟩,
        ⟨"a='1/2'".toList, "a".toList, "'1/2'".toList⟩, ⟨"b".toList, "b".toList, "b".toList⟩] := by
    decide +kernel
  exact ⟨read, sources_of_parse (by decide) read⟩

end Arguments

end SignalAccess
