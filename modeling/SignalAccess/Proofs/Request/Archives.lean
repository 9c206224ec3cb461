import SignalAccess.Proofs.Text.Search
import SignalAccess.Proofs.Text.Trim
import SignalAccess.Request.Parser

/-!
# Archives in front of signals

The archive of a signal is looked for in front of its first delimiter. A default archive that stands
there is passed over, and the search goes on behind it, with nothing but the shrinking signal to bound
the number of turns. One turn is written out here by itself, and the search is a row of such turns. So
it ends, and what stands behind default archives is split as it would be alone, whichever way the search
ends for it.

A name is refused for its length only. What is measured is all of the text in front of the delimiter,
the blanks behind the name with it, and the bound is one byte below the limit of a field. So some names
are refused that are shorter than the limit.
-/

namespace SignalAccess

namespace RequestReader

variable {default delimiter signal rest front remainder : Text} {known : ArchivedSignal}

/-! ## The turns of the search -/

/-- What one turn of the search for an archive comes to. -/
inductive Turn where
  /-- The search ends. -/
  | ends (outcome : Except Failure Unit) (found : ArchivedSignal)
  /-- A default archive is passed over. The search goes on with what stands behind it. -/
  | passes (remainder : Text)

/-- One turn of the search for the archive of a signal. -/
def turn (default delimiter : Text) (reduce : Bool) (known : ArchivedSignal) : Turn :=
  if delimiter.isEmpty then .ends (.ok ()) known
  else
    match known.signal.trim.breakOn delimiter with
    | none => .ends (.ok ()) { known with signal := known.signal.trim }
    | some (front, remainder) =>
      let name := front.trim
      if Limit.field - 1 ≤ front.byteLength then .ends (.error (.syntaxError .archiveTooLong)) known
      else if reduce && name.equalIgnoringCase default then .passes remainder
      else if !name.isLegalPath || insideBrackets remainder then
        .ends (.ok ()) { known with archive := [] }
      else .ends (.ok ()) ⟨name, if reduce then remainder.trim else known.signal⟩

/-- The search for the archive of a signal, given up when it has not ended after a number of turns. -/
def splitWithin (default delimiter : Text) (reduce : Bool) :
    (turns : Nat) → ArchivedSignal → Option (Except Failure Unit × ArchivedSignal)
  | 0, _ => none
  | turns + 1, known =>
    match turn default delimiter reduce known with
    | .ends outcome found => some (outcome, found)
    | .passes remainder => splitWithin default delimiter reduce turns ⟨[], remainder⟩

/-- The search is a turn, and the search behind what the turn passes over. -/
theorem splitArchive_eq (default delimiter : Text) (reduce : Bool) (known : ArchivedSignal) :
    splitArchive default delimiter reduce known =
      match turn default delimiter reduce known with
      | .ends outcome found => (outcome, found)
      | .passes remainder => splitArchive default delimiter reduce ⟨[], remainder⟩ := by
  rw [splitArchive, turn]
  split
  · rfl
  · split
    · next absent => rw [absent]
    · next front remainder found =>
      rw [found]
      dsimp only
      split
      · rfl
      · split
        · rfl
        · split
          · rfl
          · rfl

/-- A default archive is passed over together with its delimiter. -/
theorem length_of_turn {reduce : Bool} (passed : turn default delimiter reduce known = .passes remainder) :
    remainder.length < known.signal.length := by
  unfold turn at passed
  split at passed
  · cases passed
  · next given =>
    split at passed
    · cases passed
    · next front tail found =>
      have cut := Text.length_of_breakBy found
      have trimmed := Text.length_trim_le known.signal
      have some : 0 < delimiter.length := List.length_pos_of_ne_nil (by simpa using given)
      dsimp only at passed
      split at passed
      · cases passed
      · split at passed
        · cases passed
          omega
        · split at passed <;> cases passed

/-- The search ends: there are no more turns than the signal has characters, and one. -/
theorem splitWithin_eq (default delimiter : Text) (reduce : Bool) {turns : Nat}
    (enough : known.signal.length < turns) :
    splitWithin default delimiter reduce turns known =
      some (splitArchive default delimiter reduce known) := by
  induction turns generalizing known with
  | zero => exact absurd enough (Nat.not_lt_zero _)
  | succ turns inductionHypothesis =>
    rw [splitWithin, splitArchive_eq]
    cases taken : turn default delimiter reduce known with
    | ends outcome found => rfl
    | passes remainder =>
      have shorter := length_of_turn taken
      exact inductionHypothesis (Nat.lt_of_lt_of_le shorter (Nat.le_of_lt_succ enough))

/-- A default archive in front of a signal makes no difference to what the search comes to. -/
theorem splitArchive_of_default (archive : Text) (delimited : delimiter ≠ [])
    (cut : signal.trim.breakOn delimiter = some (front, remainder))
    (short : front.byteLength < Limit.field - 1)
    (same : front.trim.equalIgnoringCase default = true) :
    splitArchive default delimiter true ⟨archive, signal⟩ =
      splitArchive default delimiter true ⟨[], remainder⟩ := by
  have taken : turn default delimiter true ⟨archive, signal⟩ = .passes remainder := by
    simp [turn, delimited, cut, Nat.not_le_of_lt short, same]
  rw [splitArchive_eq, taken]

/-- Something long stands in front of a delimiter only if there is one. -/
theorem ne_nil_of_long (cut : signal.trim.breakOn delimiter = some (front, remainder))
    (long : Limit.field - 1 ≤ front.byteLength) : delimiter ≠ [] := by
  rintro rfl
  rw [Text.breakOn_nil] at cut
  cases cut
  exact absurd long (by decide)

/-- A long text in front of the delimiter ends the search with a refusal. -/
theorem splitArchive_of_long (archive : Text)
    (cut : signal.trim.breakOn delimiter = some (front, remainder))
    (long : Limit.field - 1 ≤ front.byteLength) :
    splitArchive default delimiter true ⟨archive, signal⟩ =
      (.error (.syntaxError .archiveTooLong), ⟨archive, signal⟩) := by
  have delimited := ne_nil_of_long cut long
  have taken : turn default delimiter true ⟨archive, signal⟩ =
      .ends (.error (.syntaxError .archiveTooLong)) ⟨archive, signal⟩ := by
    simp [turn, delimited, cut, long]
  rw [splitArchive_eq, taken]

/-- Any other name that an archive can have is taken off the signal, unless brackets hold the
delimiter. -/
theorem splitArchive_of_archive (archive : Text) (delimited : delimiter ≠ [])
    (cut : signal.trim.breakOn delimiter = some (front, remainder))
    (short : front.byteLength < Limit.field - 1)
    (other : front.trim.equalIgnoringCase default = false) (legal : front.trim.isLegalPath = true)
    (outside : insideBrackets remainder = false) :
    splitArchive default delimiter true ⟨archive, signal⟩ =
      (.ok (), ⟨front.trim, remainder.trim⟩) := by
  have taken : turn default delimiter true ⟨archive, signal⟩ =
      .ends (.ok ()) ⟨front.trim, remainder.trim⟩ := by
    simp [turn, delimited, cut, Nat.not_le_of_lt short, other, legal, outside]
  rw [splitArchive_eq, taken]

/-! ## Signals behind default archives -/

/-- A default archive that is passed over when its delimiter follows. -/
structure Passable (default delimiter : Text) : Prop where
  trimmed : Text.trim default = default
  short : Text.byteLength default < 1023
  delimited : delimiter ≠ []
  delimiterTrimmed : Text.trim delimiter = delimiter
  cut : (default ++ delimiter).breakOn delimiter = some (default, [])

/-- A signal behind a default archive, written a number of times. -/
def wrapped (default delimiter : Text) (count : Nat) (signal : Text) : Text :=
  (List.replicate count (default ++ delimiter)).flatten ++ signal

/-- One default archive more stands in front of the others. -/
theorem wrapped_succ (default delimiter : Text) (count : Nat) (signal : Text) :
    wrapped default delimiter (count + 1) signal =
      default ++ delimiter ++ wrapped default delimiter count signal := by
  simp [wrapped, List.replicate_succ]

/-- No blanks come to stand around a trimmed signal behind default archives. -/
theorem Passable.trim_wrapped (passable : Passable default delimiter) (count : Nat)
    (trimmed : Text.trim signal = signal) :
    Text.trim (wrapped default delimiter count signal) = wrapped default delimiter count signal := by
  induction count with
  | zero => exact trimmed
  | succ count inductionHypothesis =>
    rw [wrapped_succ]
    have lead := Text.trim_append passable.trimmed passable.delimiterTrimmed
    exact Text.trim_append lead inductionHypothesis

/-- A signal behind default archives is split as it would be alone: each of them is passed over, by
induction on their number. -/
theorem Passable.splitArchive_wrapped (passable : Passable default delimiter) (count : Nat)
    (trimmed : Text.trim signal = signal) :
    splitArchive default delimiter true ⟨[], wrapped default delimiter count signal⟩ =
      splitArchive default delimiter true ⟨[], signal⟩ := by
  induction count with
  | zero => rfl
  | succ count inductionHypothesis =>
    have cut : (Text.trim (wrapped default delimiter (count + 1) signal)).breakOn delimiter =
        some (default, wrapped default delimiter count signal) := by
      rw [passable.trim_wrapped _ trimmed, wrapped_succ]
      exact Text.breakBy_append_of_eq_some passable.cut _
    have same : (Text.trim default).equalIgnoringCase default = true := by
      rw [passable.trimmed]
      exact beq_self_eq_true _
    rw [splitArchive_of_default [] passable.delimited cut passable.short same, inductionHypothesis]

/-- The search for the archive of a signal ends, after no more turns than the signal has characters and
one. A signal behind a default archive, written any number of times, is then split as it would be
alone: both fail alike or not at all, and leave the same archive and the same signal. -/
theorem extractArchive_wrapped (reader : RequestReader) (request : Request) :
    (∃ outcome found, (∀ turns, request.signal.length < turns →
        splitWithin reader.configuration.archive request.delimiter true turns
          ⟨request.archive, request.signal⟩ = some (outcome, found)) ∧
      reader.extractArchive true request =
        (outcome, { request with archive := found.archive, signal := found.signal })) ∧
    ∀ count signal, Passable reader.configuration.archive request.delimiter →
      Text.trim signal = signal →
      reader.extractArchive true { request with
          archive := []
          signal := wrapped reader.configuration.archive request.delimiter count signal } =
        reader.extractArchive true { request with archive := [], signal := signal } := by
  constructor
  · exact ⟨_, _, fun turns enough => splitWithin_eq _ _ true enough, rfl⟩
  · intro count signal passable trimmed
    simp only [extractArchive, passable.splitArchive_wrapped count trimmed]

/-- An installation whose default archive is `MAST`, and a request for a signal of another archive. -/
def underMast : RequestReader :=
  ⟨{ Configuration.standard with archive := "MAST".toList }, .standard, .bare⟩

/-- A request for a signal behind the name of another archive. -/
def askingMast : Request := { Request.blank with signal := "AMC::ip".toList, delimiter := "::".toList }

/-- Three default archives are passed over, and the archive behind them is found. -/
theorem extractArchive_wrapped_thrice :
    Passable "MAST".toList "::".toList ∧ Text.trim "AMC::ip".toList = "AMC::ip".toList ∧
      wrapped "MAST".toList "::".toList 3 "AMC::ip".toList = "MAST::MAST::MAST::AMC::ip".toList ∧
      underMast.extractArchive true { askingMast with
          archive := [], signal := wrapped "MAST".toList "::".toList 3 "AMC::ip".toList } =
        (.ok (), { askingMast with archive := "AMC".toList, signal := "ip".toList }) := by
  have passable : Passable "MAST".toList "::".toList :=
    ⟨by decide +kernel, by decide +kernel, by decide, by decide +kernel, by decide +kernel⟩
  have trimmed : Text.trim "AMC::ip".toList = "AMC::ip".toList := by decide +kernel
  have same := (extractArchive_wrapped underMast askingMast).2 3 _ passable trimmed
  refine ⟨passable, trimmed, by decide +kernel, same.trans ?_⟩
  decide +kernel

/-! ## Names that are refused -/

/-- What the search has before it when some default archives of a signal are passed over. -/
inductive Reaches (default delimiter : Text) : Text → Text → Prop where
  | here (signal : Text) : Reaches default delimiter signal signal
  | behind {signal front remainder rest : Text}
    (cut : signal.trim.breakOn delimiter = some (front, remainder))
    (passed : front.trim.equalIgnoringCase default = true)
    (later : Reaches default delimiter remainder rest) : Reaches default delimiter signal rest

/-- A name that the search reaches, and the blanks between it and its delimiter. -/
def ReachesName (default delimiter signal name blanks : Text) : Prop :=
  ∃ rest remainder, Reaches default delimiter signal rest ∧
    rest.trim.breakOn delimiter = some (name ++ blanks, remainder) ∧ name.trim = name ∧
    ∀ c ∈ blanks, Text.isBlank c = true

variable {name blanks : Text}

/-- What stands in front of the delimiter is a name with blanks behind it. -/
theorem exists_reachesName (default : Text)
    (cut : signal.trim.breakOn delimiter = some (front, remainder)) :
    ∃ blanks, front = front.trim ++ blanks ∧
      ReachesName default delimiter signal front.trim blanks := by
  obtain ⟨blanks, whole, blank⟩ := Text.exists_eq_trim_append (Text.append_of_breakOn cut)
  refine ⟨blanks, whole, signal, remainder, .here signal, ?_, Text.trim_trim front, blank⟩
  rw [← whole]
  exact cut

/-- A name behind a default archive is reached. -/
theorem ReachesName.behind (cut : signal.trim.breakOn delimiter = some (front, remainder))
    (passed : front.trim.equalIgnoringCase default = true)
    (later : ReachesName default delimiter remainder name blanks) :
    ReachesName default delimiter signal name blanks := by
  obtain ⟨rest, tail, reached, named⟩ := later
  exact ⟨rest, tail, .behind cut passed reached, named⟩

/-- Where another archive stands in front, no other name is reached. -/
theorem ReachesName.eq_trim (reached : ReachesName default delimiter signal name blanks)
    (cut : signal.trim.breakOn delimiter = some (front, remainder))
    (other : front.trim.equalIgnoringCase default = false) : name = front.trim := by
  obtain ⟨rest, tail, reached, found, trimmed, blank⟩ := reached
  cases reached with
  | here signal =>
    rw [cut] at found
    cases found
    rw [Text.trim_append_of_blank name blank, trimmed]
  | behind again passed later =>
    rw [cut] at again
    cases again
    rw [other] at passed
    cases passed

/-- The search is refused at a name that is too long with the blanks behind it, unless it was refused
at an earlier one; the induction is on the default archives in front of the name. -/
theorem ReachesName.refused (reached : ReachesName default delimiter signal name blanks)
    (long : Limit.field - 1 ≤ (name ++ blanks).byteLength) (archive : Text) :
    (splitArchive default delimiter true ⟨archive, signal⟩).1 =
      .error (.syntaxError .archiveTooLong) := by
  obtain ⟨rest, remainder, reached, cut, -⟩ := reached
  have delimited := ne_nil_of_long cut long
  induction reached generalizing archive with
  | here signal => exact congrArg Prod.fst (splitArchive_of_long archive cut long)
  | @behind signal earlier tail rest found passed later inductionHypothesis =>
    by_cases early : Limit.field - 1 ≤ earlier.byteLength
    · exact congrArg Prod.fst (splitArchive_of_long archive found early)
    · rw [splitArchive_of_default archive delimited found (Nat.lt_of_not_le early) passed]
      exact inductionHypothesis [] cut

/-- The search is refused at a name that it reaches. If it is not refused, the archive is what it was,
or empty, or a name that the search reaches. -/
theorem splitArchive_outcome (default delimiter : Text) (known : ArchivedSignal) :
    let found := splitArchive default delimiter true known
    (found.1 = .error (.syntaxError .archiveTooLong) ∧ ∃ name blanks,
        ReachesName default delimiter known.signal name blanks ∧
          Limit.field - 1 ≤ (name ++ blanks).byteLength) ∨
      (found.1 = .ok () ∧ (found.2.archive = known.archive ∨ found.2.archive = [] ∨
        ∃ blanks, ReachesName default delimiter known.signal found.2.archive blanks)) := by
  generalize mode : true = reduce
  fun_induction splitArchive default delimiter reduce known with
  | case1 known absent => exact .inr ⟨rfl, .inl rfl⟩
  | case2 known present none => exact .inr ⟨rfl, .inl rfl⟩
  | case3 known present front remainder cut long =>
    obtain ⟨blanks, whole, named⟩ := exists_reachesName default cut
    exact .inl ⟨rfl, _, blanks, named, whole ▸ long⟩
  | case4 known present front remainder cut name short passed inductionHypothesis =>
    have same : name.equalIgnoringCase default = true := (Bool.and_eq_true_iff.mp passed).2
    rcases inductionHypothesis with
      ⟨refused, last, blanks, named, long⟩ | ⟨done, untouched | empty | ⟨blanks, named⟩⟩
    · exact .inl ⟨refused, last, blanks, named.behind cut same, long⟩
    · exact .inr ⟨done, .inr (.inl untouched)⟩
    · exact .inr ⟨done, .inr (.inl empty)⟩
    · exact .inr ⟨done, .inr (.inr ⟨blanks, named.behind cut same⟩)⟩
  | case5 known present front remainder cut name short kept illegal =>
    exact .inr ⟨rfl, .inr (.inl rfl)⟩
  | case6 known present front remainder cut name short kept legal =>
    obtain ⟨blanks, -, named⟩ := exists_reachesName default cut
    exact .inr ⟨rfl, .inr (.inr ⟨blanks, named⟩)⟩

/-- The search for an archive is refused exactly if it reaches a name that has 1023 bytes or more
together with the blanks between it and its delimiter. If every name that it reaches is shorter, it
succeeds, and leaves the archive as it was, or empties it, or finds one of these names. -/
theorem extractArchive_refused_iff (reader : RequestReader) (request : Request) :
    let default := reader.configuration.archive
    let found := reader.extractArchive true request
    (found.1 = .error (.syntaxError .archiveTooLong) ↔ ∃ name blanks,
      ReachesName default request.delimiter request.signal name blanks ∧
        1023 ≤ (name ++ blanks).byteLength) ∧
    (found.1 = .ok () ↔ ∀ name blanks,
      ReachesName default request.delimiter request.signal name blanks →
        (name ++ blanks).byteLength < 1023) ∧
    (found.1 = .ok () → found.2.archive = request.archive ∨ found.2.archive = [] ∨
      ∃ blanks, ReachesName default request.delimiter request.signal found.2.archive blanks) := by
  intro default found
  have outcome : (found.1 = .error (.syntaxError .archiveTooLong) ∧ _) ∨ (found.1 = .ok () ∧ _) :=
    splitArchive_outcome default request.delimiter ⟨request.archive, request.signal⟩
  have refused : found.1 = .error (.syntaxError .archiveTooLong) ↔ ∃ name blanks,
      ReachesName default request.delimiter request.signal name blanks ∧
        1023 ≤ (name ++ blanks).byteLength := by
    constructor
    · intro failed
      rcases outcome with ⟨-, reached⟩ | ⟨done, -⟩
      · exact reached
      · rw [done] at failed
        cases failed
    · rintro ⟨name, blanks, reached, long⟩
      exact reached.refused long request.archive
  have accepted : found.1 = .ok () ↔ ¬found.1 = .error (.syntaxError .archiveTooLong) := by
    rcases outcome with ⟨failed, -⟩ | ⟨done, -⟩
    · simp [failed]
    · simp [done]
  refine ⟨refused, ?_, ?_⟩
  · rw [accepted, refused]
    simp only [not_exists, not_and, Nat.not_le]
  · intro done
    rcases outcome with ⟨failed, -⟩ | ⟨-, kept⟩
    · exact absurd failed (accepted.mp done)
    · exact kept

/-- A request for a signal behind letters and blanks. -/
def askingBehind (letters blanks : Nat) : Request :=
  { Request.blank with
    signal := List.replicate letters 'A' ++ List.replicate blanks ' ' ++ "::x".toList
    delimiter := "::".toList }

/-- An installation whose default archive has no name. -/
def underNone : RequestReader := ⟨.standard, .standard, .bare⟩

/-- Letters make a legal path. -/
theorem isLegalPath_letters (letters : Nat) : Text.isLegalPath (List.replicate letters 'A') = true := by
  rw [Text.isLegalPath, List.all_replicate]
  simp [Text.isPathChar]

/-- The letters and the blanks stand in front of the only delimiter. -/
theorem breakOn_askingBehind (letters blanks : Nat) :
    (askingBehind (letters + 1) blanks).signal.trim.breakOn "::".toList =
      some (List.replicate (letters + 1) 'A' ++ List.replicate blanks ' ', ['x']) := by
  have free : ':' ∉ List.replicate (letters + 1) 'A' ++ List.replicate blanks ' ' := by simp
  have first : (askingBehind (letters + 1) blanks).signal.head? = some 'A' := rfl
  have last : (askingBehind (letters + 1) blanks).signal.getLast? = some 'x' := by simp [askingBehind]
  rw [Text.trim_of_ends first last (by decide) (by decide)]
  exact Text.breakOn_append_cons free [':'] ['x']

/-- Each letter and each blank takes one byte. -/
theorem byteLength_askingBehind (letters blanks : Nat) :
    Text.byteLength (List.replicate letters 'A' ++ List.replicate blanks ' ') = letters + blanks := by
  have single : ∀ c ∈ List.replicate letters 'A' ++ List.replicate blanks ' ', c.utf8Size = 1 := by
    intro c among
    rcases List.mem_append.mp among with letter | blank
    · rw [List.eq_of_mem_replicate letter]
      rfl
    · rw [List.eq_of_mem_replicate blank]
      rfl
  rw [Text.byteLength_eq_length single, List.length_append, List.length_replicate,
    List.length_replicate]

/-- A request for a signal behind letters and blanks is refused where these are 1023 bytes
together. -/
theorem refused_askingBehind {letters blanks : Nat} (long : 1023 ≤ letters + 1 + blanks) :
    (underNone.extractArchive true (askingBehind (letters + 1) blanks)).1 =
      .error (.syntaxError .archiveTooLong) := by
  rw [← byteLength_askingBehind] at long
  exact congrArg Prod.fst (splitArchive_of_long [] (breakOn_askingBehind letters blanks) long)

/-- The letters are the only name that is reached. -/
theorem eq_of_reachesName_askingBehind {letters gap : Nat}
    (reached : ReachesName [] "::".toList (askingBehind (letters + 1) gap).signal name blanks) :
    name = List.replicate (letters + 1) 'A' := by
  have whole : Text.trim (List.replicate (letters + 1) 'A' ++ List.replicate gap ' ') =
      List.replicate (letters + 1) 'A' := by
    have blank : ∀ c ∈ List.replicate gap ' ', Text.isBlank c = true := by
      intro c among
      rw [List.eq_of_mem_replicate among]
      decide
    rw [Text.trim_append_of_blank _ blank, Text.trim_of_isLegalPath (isLegalPath_letters _)]
  rw [reached.eq_trim (breakOn_askingBehind letters gap), whole]
  rw [whole, Text.equalIgnoringCase_nil]
  rfl

/-- A name of 1023 bytes is refused, one byte below the limit that the refusal stands for. Nor is it the
name that is measured: a name of one byte is refused with 1022 blanks behind it. -/
theorem not_forall_refused_long :
    (¬∀ (reader : RequestReader) (request : Request) (failure : Failure),
      (reader.extractArchive true request).1 = .error failure → ∃ name blanks,
        ReachesName reader.configuration.archive request.delimiter request.signal name blanks ∧
          1024 ≤ name.byteLength) ∧
    ¬∀ (reader : RequestReader) (request : Request) (failure : Failure),
      (reader.extractArchive true request).1 = .error failure → ∃ name blanks,
        ReachesName reader.configuration.archive request.delimiter request.signal name blanks ∧
          1023 ≤ name.byteLength := by
  have bytes (letters : Nat) : Text.byteLength (List.replicate letters 'A') = letters := by
    simpa using byteLength_askingBehind letters 0
  constructor
  · intro claimed
    obtain ⟨name, blanks, reached, long⟩ := claimed underNone (askingBehind (1022 + 1) 0) _
      (refused_askingBehind (by omega))
    rw [eq_of_reachesName_askingBehind reached, bytes] at long
    omega
  · intro claimed
    obtain ⟨name, blanks, reached, long⟩ := claimed underNone (askingBehind (0 + 1) 1022) _
      (refused_askingBehind (by omega))
    rw [eq_of_reachesName_askingBehind reached, bytes] at long
    omega

end RequestReader

end SignalAccess
