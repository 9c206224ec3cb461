import SignalAccess.Text.Blank
/-!
# Searching, cutting and joining texts

The operations from which the request grammar is built. Two comparisons of characters occur: exact,
and with the twenty-six ASCII letters read alike in both cases. Searches take the comparison as a
parameter and return the two parts around a match, so no position in a text is ever computed.
-/
namespace SignalAccess

namespace Text

/-- The number of bytes of the text in UTF-8. -/
def byteLength : Text → Nat
  | [] => 0
  | c :: t => c.utf8Size + byteLength t

/-- The empty text has no bytes. -/
@[simp] theorem byteLength_nil : byteLength [] = 0 := rfl

/-- A character in front adds its own bytes. -/
@[simp] theorem byteLength_cons (c : Char) (t : Text) :
    byteLength (c :: t) = c.utf8Size + byteLength t := rfl

/-- Whether two characters are the same letter, ASCII case aside. -/
def sameLetter (a b : Char) : Bool := a.toLower == b.toLower

/-- Whether two texts agree, ASCII case aside. -/
def equalIgnoringCase (a b : Text) : Bool := a.map Char.toLower == b.map Char.toLower

/-- What follows `lead` in a text that starts with it under the comparison `same`. -/
def afterLead (same : Char → Char → Bool) : Text → Text → Option Text
  | [], t => some t
  | _ :: _, [] => none
  | p :: lead, c :: rest => if same p c then afterLead same lead rest else none

/-- What follows `lead` in a text that starts with it. -/
def after? (t lead : Text) : Option Text := afterLead (· == ·) lead t

/-- What follows `lead` in a text that starts with it, ASCII case aside. -/
def afterIgnoringCase? (t lead : Text) : Option Text := afterLead sameLetter lead t

/-- Whether a text starts with `lead`. -/
def startsWith (t lead : Text) : Bool := (after? t lead).isSome

/-- The parts of a text around the first match of `needle` under the comparison `same`. An empty
needle matches in front. -/
def breakBy (same : Char → Char → Bool) (needle : Text) : Text → Option (Text × Text)
  | [] => if needle.isEmpty then some ([], []) else none
  | c :: rest =>
    match afterLead same needle (c :: rest) with
    | some tail => some ([], tail)
    | none => (breakBy same needle rest).map fun (front, tail) => (c :: front, tail)

/-- The parts of a text around the first occurrence of `needle`. -/
def breakOn (t needle : Text) : Option (Text × Text) := breakBy (· == ·) needle t

/-- The parts of a text around the first occurrence of `needle`, ASCII case aside. -/
def breakIgnoringCase (t needle : Text) : Option (Text × Text) := breakBy sameLetter needle t

/-- The parts of a text around the last occurrence of `needle`. An empty needle matches behind. -/
def breakOnLast : (t needle : Text) → Option (Text × Text)
  | [], needle => if needle.isEmpty then some ([], []) else none
  | c :: rest, needle =>
    match breakOnLast rest needle with
    | some (front, tail) => some (c :: front, tail)
    | none => (afterLead (· == ·) needle (c :: rest)).map fun tail => ([], tail)

/-- A text is as long as its lead and what stands behind it. -/
theorem length_of_afterLead {same : Char → Char → Bool} {lead t rest : Text}
    (found : afterLead same lead t = some rest) : t.length = lead.length + rest.length := by
  induction lead generalizing t with
  | nil => simp_all [afterLead]
  | cons p lead ih =>
    cases t with
    | nil => simp [afterLead] at found
    | cons c t =>
      simp only [afterLead] at found
      split at found
      · have := ih found
        simp only [List.length_cons]
        omega
      · simp at found

/-- A text that is cut at a needle has the length of both parts and of the needle. -/
theorem length_of_breakBy {same : Char → Char → Bool} {needle t front tail : Text}
    (found : breakBy same needle t = some (front, tail)) :
    t.length = front.length + needle.length + tail.length := by
  induction t generalizing front with
  | nil =>
    simp only [breakBy] at found
    split at found
    · simp_all
    · simp at found
  | cons c t ih =>
    simp only [breakBy] at found
    split at found
    · next rest matched =>
      have := length_of_afterLead matched
      simp_all
    · simp only [Option.map_eq_some_iff, Prod.mk.injEq, Prod.exists] at found
      obtain ⟨inner, last, matched, rfl, rfl⟩ := found
      have := ih matched
      simp only [List.length_cons]
      omega

/-- A text that is cut at the last needle has the length of both parts and of the needle. -/
theorem length_of_breakOnLast {needle t front tail : Text}
    (found : breakOnLast t needle = some (front, tail)) :
    t.length = front.length + needle.length + tail.length := by
  induction t generalizing front with
  | nil =>
    simp only [breakOnLast] at found
    split at found
    · simp_all
    · simp at found
  | cons c t ih =>
    simp only [breakOnLast] at found
    split at found
    · next inner last matched =>
      simp only [Option.some.injEq, Prod.mk.injEq] at found
      obtain ⟨rfl, rfl⟩ := found
      have := ih matched
      simp only [List.length_cons]
      omega
    · simp only [Option.map_eq_some_iff, Prod.mk.injEq] at found
      obtain ⟨rest, matched, rfl, rfl⟩ := found
      have := length_of_afterLead matched
      simp_all

/-- What is found behind a lead stands behind it in the text. -/
theorem append_of_afterLead {lead t rest : Text} (found : afterLead (· == ·) lead t = some rest) :
    t = lead ++ rest := by
  induction lead generalizing t with
  | nil => exact Option.some.inj found
  | cons p lead ih =>
    cases t with
    | nil => cases found
    | cons c t =>
      rw [afterLead] at found
      split at found
      · next same => rw [ih found, beq_iff_eq.mp same, List.cons_append]
      · cases found

/-- The parts of a text that is cut at the last needle stand around that needle. -/
theorem append_of_breakOnLast {needle t front tail : Text}
    (found : breakOnLast t needle = some (front, tail)) : t = front ++ needle ++ tail := by
  induction t generalizing front with
  | nil =>
    rw [breakOnLast] at found
    split at found
    · next empty =>
      cases found
      rw [List.isEmpty_iff.mp empty]
      rfl
    · cases found
  | cons c t ih =>
    rw [breakOnLast] at found
    split at found
    · next inner last matched =>
      cases found
      rw [ih matched, List.cons_append, List.cons_append]
    · obtain ⟨rest, matched, same⟩ := Option.map_eq_some_iff.mp found
      cases same
      exact append_of_afterLead matched

/-- The parts of a text around the first `c`. -/
def breakAt (c : Char) (t : Text) : Option (Text × Text) := breakOn t [c]

/-- The parts of a text around the last `c`. -/
def breakAtLast (c : Char) (t : Text) : Option (Text × Text) := breakOnLast t [c]

/-- Whether `needle` occurs in a text. -/
def has (t needle : Text) : Bool := (breakOn t needle).isSome

/-- The pieces of a text between its separators; there is one more piece than separators. -/
def splitWhere (isSeparator : Char → Bool) : Text → List Text
  | [] => [[]]
  | c :: rest =>
    if isSeparator c then [] :: splitWhere isSeparator rest
    else
      match splitWhere isSeparator rest with
      | [] => [[c]]
      | piece :: more => (c :: piece) :: more

/-- There is always a piece. -/
theorem splitWhere_ne_nil (isSeparator : Char → Bool) (t : Text) : splitWhere isSeparator t ≠ [] := by
  cases t with
  | nil => exact List.cons_ne_nil _ _
  | cons c rest =>
    rw [splitWhere]
    split
    · exact List.cons_ne_nil _ _
    · split
      · exact List.cons_ne_nil _ _
      · exact List.cons_ne_nil _ _

/-- The pieces of a text between the occurrences of one separator. -/
def splitOn (separator : Char) (t : Text) : List Text := splitWhere (· == separator) t

/-- The elements of a path: its pieces between slashes that are not empty. -/
def elements (t : Text) : List Text := (splitOn '/' t).filter (!·.isEmpty)

/-- The last piece of a path. -/
def lastElement (t : Text) : Text :=
  match breakAtLast '/' t with
  | some (_, tail) => tail
  | none => t

/-- Texts joined by a separator. -/
def joinBy (separator : Text) : List Text → Text
  | [] => []
  | [t] => t
  | t :: more => t ++ separator ++ joinBy separator more

/-- The text with every `c` replaced by `d`. -/
def replaceChar (c d : Char) (t : Text) : Text := t.map fun x => if x = c then d else x

/-- The longest part from the front that has at most `budget` bytes and cuts no character. -/
def takeBytes : Nat → Text → Text
  | _, [] => []
  | budget, c :: rest =>
    if c.utf8Size ≤ budget then c :: takeBytes (budget - c.utf8Size) rest else []

/-- A text that is cut to a budget of bytes keeps to the budget. -/
theorem byteLength_takeBytes_le (budget : Nat) (t : Text) :
    byteLength (takeBytes budget t) ≤ budget := by
  induction t generalizing budget with
  | nil => simp [takeBytes]
  | cons c rest ih =>
    rw [takeBytes]
    split
    · have := ih (budget - c.utf8Size)
      rw [byteLength_cons]
      omega
    · exact Nat.zero_le budget

/-- Whether a character is one of the two quotes. -/
def isQuote (c : Char) : Bool := c == '\'' || c == '"'

/-- The text without one pair of equal quotes around it. -/
def unquote : Text → Text
  | [] => []
  | q :: rest => if isQuote q && rest.getLast? == some q then rest.dropLast else q :: rest

/-- Whether a text holds the wildcard `*`. -/
def hasWildcard (t : Text) : Bool := t.contains '*'

/-- Trimming the front makes no text longer. -/
theorem length_trimStart_le (t : Text) : (trimStart t).length ≤ t.length :=
  (List.dropWhile_sublist _).length_le

/-- Trimming both ends makes no text longer. -/
theorem length_trim_le (t : Text) : (trim t).length ≤ t.length := by
  have back : (trimEnd (trimStart t)).length ≤ (trimStart t).length := by
    simpa [trimEnd] using ((trimStart t).reverse.dropWhile_sublist isBlank).length_le
  exact Nat.le_trans back (length_trimStart_le t)

/-- A text with no blank at either end is left alone. -/
theorem trim_of_ends {t : Text} {front back : Char} (first : t.head? = some front)
    (last : t.getLast? = some back) (frontInk : isBlank front = false)
    (backInk : isBlank back = false) : trim t = t := by
  obtain ⟨rest, rfl⟩ := List.head?_eq_some_iff.mp first
  have started : trimStart (front :: rest) = front :: rest :=
    List.dropWhile_cons_of_neg (by simp [frontInk])
  obtain ⟨inner, split⟩ := List.getLast?_eq_some_iff.mp last
  rw [trim, started, split, trimEnd, List.reverse_append, List.reverse_singleton, List.singleton_append,
    List.dropWhile_cons_of_neg (by simp [backInk]), List.reverse_cons, List.reverse_reverse]

/-- A character of a portable path: an ASCII letter or digit, or one of `_-+./$:`. -/
def isPathChar (c : Char) : Bool := c.isAlphanum || "_-+./$:".toList.contains c

/-- Whether a text uses only characters of a portable path, so that it can reach no command as
anything but a name. -/
def isLegalPath (t : Text) : Bool := t.all isPathChar

end Text

end SignalAccess
