import SignalAccess.Proofs.Request.CallForms
import SignalAccess.Proofs.Request.Devices
import SignalAccess.Proofs.Text.Pieces
import SignalAccess.Proofs.Text.Trim

/-!
# Calls that a delimiter divides

A source is searched for a delimiter before it is taken for a call, and nothing in a call keeps the
delimiter from being found: what stands between the quotes of an argument divides the call as well as
a name in front of it does. So without a default device, a call by itself is read as the call that it
is exactly if no delimiter stands in it and it does not start with one in other letters. A call that
is divided is refused or read as something else, and then never with the function that it names; only
a device whose name the call starts with can still bring that function in.

What stands behind the division is shorter than the call, and has fewer letters of its function in front
of the parenthesis. That is all that the second half rests on.
-/

namespace SignalAccess

open Recording

/-! ## What is left of a text -/

namespace Text

variable {text rest source needle front : Text}

/-- What is left of a text when some of it is taken off in front. -/
def IsLeft (text source : Text) : Prop := ∃ front, front ≠ [] ∧ front ++ text = source

/-- More can be taken off in front of what is left. -/
theorem IsLeft.of_suffix (left : IsLeft rest source) (suffix : text <:+ rest) : IsLeft text source := by
  obtain ⟨front, given, rfl⟩ := left
  obtain ⟨more, rfl⟩ := suffix
  exact ⟨front ++ more, by simp [given], List.append_assoc front more text⟩

/-- What is left ends the text. -/
theorem IsLeft.suffix (left : IsLeft text source) : text <:+ source := by
  obtain ⟨front, -, rfl⟩ := left
  exact List.suffix_append front text

/-- What is left of an end of a text is left of the text. -/
theorem IsLeft.within (left : IsLeft text rest) (suffix : rest <:+ source) : IsLeft text source := by
  obtain ⟨front, given, rfl⟩ := left
  obtain ⟨more, rfl⟩ := suffix
  exact ⟨more ++ front, by simp [given], List.append_assoc more front text⟩

/-- What stands behind a needle is left of the text. -/
theorem isLeft_of_breakOn (given : needle ≠ []) (found : breakOn source needle = some (front, rest)) :
    IsLeft rest source := by
  refine ⟨front ++ needle, by simp [given], ?_⟩
  rw [append_of_breakOn found, List.append_assoc]

/-- A text that starts with another one, ASCII case aside, is longer than what is left of it. -/
theorem isLeft_of_afterIgnoringCase? (given : needle ≠ [])
    (found : afterIgnoringCase? source needle = some rest) : IsLeft rest source := by
  obtain ⟨written, rfl, lower⟩ := exists_of_afterLead_sameLetter found
  refine ⟨written, ?_, rfl⟩
  rintro rfl
  exact given (List.map_eq_nil_iff.mp lower.symm)

end Text

/-! ## Calls by themselves -/

namespace Call

/-- A function and the text of its arguments, written as a call. -/
def written (function arguments : Text) : Text := function ++ '(' :: (arguments ++ [')'])

/-- A text without parentheses and slashes. -/
structure Bare (t : Text) : Prop where
  opening : '(' ∉ t
  closing : ')' ∉ t
  slash : '/' ∉ t

/-- A function and the text of its arguments, as a call by itself takes them: the function is given
and trimmed, no delimiter stands in it, and both are bare. -/
structure Plain (delimiter function arguments : Text) : Prop where
  given : function ≠ []
  trimmed : function.trim = function
  undelimited : ¬delimiter <:+: function
  function : Bare function
  arguments : Bare arguments

variable {delimiter function arguments text : Text}

instance decidableBare : Decidable (Bare text) :=
  decidable_of_iff ('(' ∉ text ∧ ')' ∉ text ∧ '/' ∉ text)
    ⟨fun ⟨opening, closing, slash⟩ => ⟨opening, closing, slash⟩,
      fun ⟨opening, closing, slash⟩ => ⟨opening, closing, slash⟩⟩

instance decidablePlain : Decidable (Plain delimiter function arguments) :=
  decidable_of_iff
    (function ≠ [] ∧ function.trim = function ∧ ¬delimiter <:+: function ∧ Bare function ∧
      Bare arguments)
    ⟨fun ⟨given, trimmed, undelimited, function, arguments⟩ =>
        ⟨given, trimmed, undelimited, function, arguments⟩,
      fun ⟨given, trimmed, undelimited, function, arguments⟩ =>
        ⟨given, trimmed, undelimited, function, arguments⟩⟩

/-- A call is no empty text. -/
theorem written_ne_nil (function arguments : Text) : written function arguments ≠ [] := by
  simp [written]

/-- A call divides at its first parenthesis, which the function does not hold. -/
theorem breakAt_written (free : '(' ∉ function) :
    Text.breakAt '(' (written function arguments) = some (function, arguments ++ [')']) :=
  Text.breakAt_append free _

/-- A plain call is one. -/
theorem Plain.isCall (plain : Plain delimiter function arguments) :
    isCall (written function arguments) = true := by
  have closes : Text.breakAt ')' (written function arguments) =
      some (function ++ '(' :: arguments, []) := by
    have free : ')' ∉ function ++ '(' :: arguments := by
      simp [plain.function.closing, plain.arguments.closing]
    have broken := Text.breakAt_append free []
    rwa [List.append_assoc, List.cons_append] at broken
  rw [Call.isCall, breakAt_written plain.function.opening, closes]
  simp [plain.function.slash]

/-- The arguments of a plain call are those that it is written with, trimmed. -/
theorem Plain.firstArguments? (plain : Plain delimiter function arguments) :
    firstArguments? (written function arguments) = some arguments.trim := by
  have closes : Text.breakAt ')' (arguments ++ [')']) = some (arguments, []) :=
    Text.breakAt_append plain.arguments.closing []
  simp [Call.firstArguments?, breakAt_written plain.function.opening, closes]

/-- No blanks stand around a plain call. -/
theorem Plain.trim_written (plain : Plain delimiter function arguments) :
    (written function arguments).trim = written function arguments := by
  obtain ⟨first, -⟩ := Text.ends_of_trim_eq plain.trimmed
  refine Text.trim_eq_self (fun c start => first c ?_) fun c last => ?_
  · rwa [written, List.head?_append_of_ne_nil _ plain.given] at start
  · have closed : (written function arguments).getLast? = some ')' := by
      simp [written, List.getLast?_append, List.getLast?_cons]
    rw [closed] at last
    cases last
    decide

/-- Names in front of a function only ever take letters away. -/
theorem length_unqualified_le (delimiter t : Text) : (unqualified delimiter t).length ≤ t.length := by
  fun_induction unqualified delimiter t with
  | case1 t empty => exact Nat.le_refl _
  | case2 t given absent => exact Nat.le_refl _
  | case3 t given front tail found inductionHypothesis =>
    have cut := Text.length_of_breakBy found
    have trimmed := Text.length_trim_le tail
    omega

/-- A text without a delimiter has nothing in front of it to take off. -/
theorem unqualified_of_undelimited (undelimited : ¬delimiter <:+: text) :
    unqualified delimiter text = text := by
  have given := List.isEmpty_eq_false_iff.mpr (Text.ne_nil_of_not_infix undelimited)
  rw [unqualified, given, if_neg Bool.false_ne_true]
  split
  · rfl
  · next found =>
    rw [Text.breakOn_eq_none_iff.mpr undelimited] at found
    cases found

/-- A plain call names the function that it is written with. -/
theorem Plain.functionName (plain : Plain delimiter function arguments) :
    functionName (written function arguments) delimiter = function := by
  rw [Call.functionName, breakAt_written plain.function.opening]
  dsimp only
  rw [plain.trimmed, unqualified_of_undelimited plain.undelimited]

/-- What is left of a call holds the parenthesis, if any, behind the rest of the function: there is no
other one. -/
theorem Plain.eq_append_of_breakAt (plain : Plain delimiter function arguments) {front head tail : Text}
    (whole : front ++ text = written function arguments)
    (found : Text.breakAt '(' text = some (head, tail)) : function = front ++ head := by
  have cut : text = head ++ '(' :: tail := Text.append_of_breakOn found
  rw [cut, ← List.append_assoc] at whole
  obtain ⟨skipped, same, later⟩ :=
    Text.exists_of_append_eq plain.function.opening whole.symm
  cases skipped with
  | nil => rw [same, List.append_nil]
  | cons c skipped =>
    rw [List.cons_append, List.cons.injEq] at later
    have among : '(' ∈ arguments ++ [')'] := by
      rw [later.2]
      simp
    exact absurd among (by simp [plain.arguments.opening])

/-- What is left of a call does not call its function. -/
theorem Plain.functionName_ne (plain : Plain delimiter function arguments)
    (left : Text.IsLeft text (written function arguments)) :
    Call.functionName text delimiter ≠ function := by
  obtain ⟨front, cut, whole⟩ := left
  have taken := List.length_pos_of_ne_nil cut
  have own := List.length_pos_of_ne_nil plain.given
  have shorter : (Call.functionName text delimiter).length < function.length := by
    rw [Call.functionName]
    split
    · exact own
    · next head tail found =>
      have rest := congrArg List.length (plain.eq_append_of_breakAt whole found)
      rw [List.length_append] at rest
      have named := length_unqualified_le delimiter head.trim
      have trimmed := Text.length_trim_le head
      omega
  intro same
  rw [same] at shorter
  exact Nat.lt_irrefl _ shorter

end Call

/-! ## What a call has in front -/

/-- A text that a delimiter does not cut, and that does not start with one, ASCII case aside. -/
structure Undivided (delimiter text : Text) : Prop where
  uncut : ¬delimiter <:+: text
  apart : ¬delimiter.map Char.toLower <+: text.map Char.toLower

instance decidableUndivided {delimiter text : Text} : Decidable (Undivided delimiter text) :=
  decidable_of_iff
    (¬delimiter <:+: text ∧ ¬delimiter.map Char.toLower <+: text.map Char.toLower)
    ⟨fun ⟨uncut, apart⟩ => ⟨uncut, apart⟩, fun ⟨uncut, apart⟩ => ⟨uncut, apart⟩⟩

namespace RequestReader

variable {reader : RequestReader} {configuration : Configuration}
  {delimiter source text function arguments : Text} {request : Request}

/-- A source has no name in front exactly if no delimiter stands in it. -/
theorem splitName_eq_none_iff {device : Text} :
    splitName device delimiter source = none ↔ ¬delimiter <:+: source := by
  rw [← Text.breakOn_eq_none_iff, splitName]
  cases source.breakOn delimiter with
  | none => simp
  | some parts =>
    dsimp only
    split
    · split
      · simp
      · simp
    · simp

/-- Behind a name, some of the source is gone. -/
theorem isLeft_of_splitName {name : Text} (given : delimiter ≠ [])
    (found : splitName [] delimiter source = some (name, text)) : Text.IsLeft text source := by
  rw [splitName] at found
  split at found
  · cases found
  · next front rest first =>
    have left := Text.isLeft_of_breakOn given first
    split at found
    · split at found
      · next second behind later =>
        cases found
        have further := Text.isLeft_of_breakOn given later
        exact (further.within left.suffix).of_suffix (List.dropWhile_suffix _)
      · cases found
        exact left
    · cases found
      exact left

/-- What a source can have in front of its text where no device is the default. Either all of the source
is its text, or some of the source is gone. -/
inductive LeadOf (delimiter source : Text) : Lead → Prop where
  | whole (undivided : Undivided delimiter source) : LeadOf delimiter source (.plain source)
  | absent (divided : ¬Undivided delimiter source) : LeadOf delimiter source .absent
  | plain {text : Text} (divided : ¬Undivided delimiter source) (left : Text.IsLeft text source) :
    LeadOf delimiter source (.plain text)
  | named {name text : Text} (divided : ¬Undivided delimiter source)
    (left : Text.IsLeft text source) : LeadOf delimiter source (.named name text)

/-- Some of a divided source is gone at its name, unless it was gone before. -/
theorem leadOf_splitName (divided : ¬Undivided delimiter source) (delimited : delimiter ≠ [])
    {work : Text} (suffix : work <:+ source)
    (uncut : splitName [] delimiter work = none → Text.IsLeft work source) :
    LeadOf delimiter source (match splitName [] delimiter work with
      | none => .plain work
      | some (name, rest) => if name.equalIgnoringCase [] then .plain rest else .named name rest) := by
  split
  · next absent => exact .plain divided (uncut absent)
  · next name rest found =>
    have left := (isLeft_of_splitName delimited found).within suffix
    split
    · exact .plain divided left
    · exact .named divided left

/-- Without a default device, a source has one of these in front. -/
theorem leadOf (device : configuration.device = []) (given : source ≠ []) (delimited : delimiter ≠ []) :
    LeadOf delimiter source (lead configuration delimiter source) := by
  by_cases undivided : Undivided delimiter source
  · have apart := Text.afterIgnoringCase?_eq_none_iff.mpr undivided.apart
    rw [lead_of_undelimited device given undivided.uncut apart]
    exact .whole undivided
  · rw [lead, device]
    dsimp only
    split
    · exact .absent undivided
    · rw [List.nil_append]
      cases started : source.afterIgnoringCase? delimiter with
      | some stripped =>
        have left : Text.IsLeft stripped.trimStart source :=
          (Text.isLeft_of_afterIgnoringCase? delimited started).of_suffix (List.dropWhile_suffix _)
        exact leadOf_splitName undivided delimited left.suffix fun _ => left
      | none =>
        refine leadOf_splitName undivided delimited List.suffix_rfl fun absent => ?_
        have uncut := splitName_eq_none_iff.mp absent
        exact absurd ⟨uncut, Text.afterIgnoringCase?_eq_none_iff.mp started⟩ undivided

end RequestReader

/-! ## What a request calls -/

/-- A request whose signal asks for nothing. -/
structure Request.Silent (delimiter : Text) (request : Request) : Prop where
  signal : request.signal = []
  archive : request.archive = []
  delimiter : request.delimiter = delimiter

namespace RequestReader

variable {reader : RequestReader} {delimiter source text function arguments : Text}
  {request : Request}

/-- What is sent to a reader or to a foreign device has a property. -/
def Named.Sends (property : Request → Prop) : Named → Prop
  | .known request _ => property request
  | .foreign request => property request
  | .redirect _ => True

/-- A text without a format in front calls its own function or none. -/
theorem function_of_readPlain (text signal : Text) (request : Request) :
    (reader.readPlain text signal request).Yields fun read =>
      read.function = request.function ∨
        read.function = Call.functionName text request.delimiter := by
  rw [readPlain]
  split
  · next found _ =>
    obtain ⟨pulse, pass, passName, same⟩ :=
      atPulse_eq { request with device := reader.configuration.device } found
    exact yields_pure (.inl (by rw [same]))
  · split
    · cases first : Call.firstArguments? text with
      | none =>
        rw [readCall, first]
        exact yields_refuse _ _
      | some inner =>
        exact (makes_of_readCall first signal).mono fun read makes => .inr makes.function
    · split
      · exact yields_refuse _ _
      · refine (yields_readPath text _).mono ?_
        rintro read ⟨kind, format, pulse, pass, passName, path, file, rfl, -⟩
        exact .inl rfl

/-- A text without a format in front leaves a silent request silent. -/
theorem silent_of_readPlain (silent : request.Silent delimiter) (text signal : Text) :
    (reader.readPlain text signal request).Yields fun read => read.Silent delimiter := by
  refine (yields_readPlain text signal request).mono ?_
  rintro read ⟨kind, format, pulse, pass, passName, device, path, file, function, arguments, rfl, -⟩
  exact ⟨silent.signal, silent.archive, silent.delimiter⟩

/-- A text behind a name calls its own function or none, where no device stands for another
source. -/
theorem function_of_readNamed (name text : Text) (request : Request) :
    (reader.readNamed name text request).Yields <| Named.Sends fun sent =>
      sent.function = request.function ∨
        sent.function = Call.functionName text request.delimiter := by
  rw [readNamed]
  split
  · exact yields_pure (.inl rfl)
  · split
    · exact yields_pure trivial
    · exact yields_pure (.inl rfl)
    · exact yields_pure (.inl rfl)
    · exact yields_pure (.inl rfl)
    · split
      · split
        · exact yields_refuse _ _
        · exact Yields.behind fun _ => yields_pure (.inr rfl)
      · exact yields_refuse _ _

/-- A text behind a name leaves a silent request silent, wherever the request is sent. -/
theorem silent_of_readNamed (silent : request.Silent delimiter) (name text : Text) :
    (reader.readNamed name text request).Yields (Named.Sends fun sent => sent.Silent delimiter) := by
  refine (yields_readNamed name text request).mono fun named given => ?_
  cases given with
  | foreign absent => exact ⟨silent.signal, silent.archive, silent.delimiter⟩
  | redirect given device => trivial
  | file given file => exact ⟨silent.signal, silent.archive, silent.delimiter⟩
  | placed given device file => exact ⟨silent.signal, silent.archive, silent.delimiter⟩

/-- A signal that asks for nothing leaves the function alone. -/
theorem function_of_readSignal (silent : request.Silent delimiter) (delimited : delimiter ≠ [])
    (isServer isForeign : Bool) :
    (reader.readSignal false isServer isForeign request).Yields fun read =>
      read.function = request.function := by
  rw [← silent.delimiter] at delimited
  rw [readSignal_of_empty _ _ silent.signal silent.archive delimited]
  exact yields_pure rfl

/-- Reading an address leaves the function of a request as it is. -/
theorem function_of_readAddress (text : Text) (request : Request) :
    (readAddress text request).Yields fun read => read.function = request.function := by
  refine (yields_readAddress text request).mono ?_
  rintro read ⟨server, pulse, path, file, rfl⟩
  rfl

/-- What stands behind a name calls a function of some property, if the request that is sent does
and so do the sources that it redirects to. -/
theorem function_of_readBehind (property : Text → Prop) (delimited : delimiter ≠ [])
    {follow : Text → Recording Request}
    (others : ∀ other, (follow other).Yields fun read => property read.function) {named : Named}
    (sends : named.Sends fun sent => sent.Silent delimiter ∧ property sent.function) (text : Text) :
    (reader.readBehind text follow named).Yields fun read => property read.function := by
  cases named with
  | foreign request =>
    refine (function_of_readSignal sends.1 delimited false true).bind fun read same => ?_
    refine (function_of_readAddress text read).mono fun last kept => ?_
    rw [kept, same]
    exact sends.2
  | known request isServer =>
    refine (function_of_readSignal sends.1 delimited isServer false).bind fun read same => ?_
    refine (function_of_readAddress text read).mono fun last kept => ?_
    rw [kept, same]
    exact sends.2
  | redirect other => exact others other

/-! ## Sources that call -/

/-- A source without a name in front calls the function of its text or none. -/
theorem function_of_readSource_of_plain (unproxied : reader.configuration.proxy = none)
    (delimited : delimiter ≠ []) (plain : lead reader.configuration delimiter source.trim = .plain text)
    (follow : Text → Recording Request) :
    (reader.readSource delimiter [] follow source).Yields fun read =>
      read.function = [] ∨ read.function = Call.functionName text delimiter := by
  rw [readSource_of_plain unproxied plain]
  refine ((function_of_readPlain text [] _).and
    (silent_of_readPlain ⟨rfl, rfl, rfl⟩ text [])).bind ?_
  rintro sent ⟨called, silent⟩
  refine (function_of_readSignal silent delimited false false).mono fun read same => ?_
  rw [same]
  exact called

/-- A source with a name in front calls the function of its text or none, if the name is not that of
a device. -/
theorem function_of_readSource_of_named (unproxied : reader.configuration.proxy = none)
    (delimited : delimiter ≠ []) {name : Text}
    (named : lead reader.configuration delimiter source.trim = .named name text)
    (direct : reader.redirect? delimiter source = none) (follow : Text → Recording Request) :
    (reader.readSource delimiter [] follow source).Yields fun read =>
      read.function = [] ∨ read.function = Call.functionName text delimiter := by
  rw [readSource_of_direct direct [] follow fun _ => refuse .missingRequest,
    readSource_of_named unproxied named]
  refine ((function_of_readNamed name text _).and
    (silent_of_readNamed ⟨rfl, rfl, rfl⟩ name text)).bind ?_
  rintro sent ⟨called, silent⟩
  refine function_of_readBehind (fun called => called = [] ∨ called = Call.functionName text delimiter)
    delimited (fun _ => yields_refuse _ _) ?_ text
  cases sent with
  | foreign request => exact ⟨silent, called⟩
  | known request isServer => exact ⟨silent, called⟩
  | redirect other => trivial

/-- A call by itself that is not divided is read with its function. -/
theorem function_of_readSource_of_undivided (unproxied : reader.configuration.proxy = none)
    (device : reader.configuration.device = [])
    (plain : Call.Plain delimiter function arguments)
    (undivided : Undivided delimiter (Call.written function arguments))
    (follow : Text → Recording Request) :
    (reader.readSource delimiter [] follow (Call.written function arguments)).Yields fun read =>
      read.function = function := by
  have delimited := Text.ne_nil_of_not_infix plain.undelimited
  have whole : lead reader.configuration delimiter (Call.written function arguments).trim =
      .plain (Call.written function arguments) := by
    rw [plain.trim_written]
    have apart := Text.afterIgnoringCase?_eq_none_iff.mpr undivided.apart
    exact lead_of_undelimited device (Call.written_ne_nil _ _) undivided.uncut apart
  rw [readSource_of_plain unproxied whole]
  refine ((makes_of_readPlain plain.isCall plain.firstArguments? []).and
    (silent_of_readPlain ⟨rfl, rfl, rfl⟩ _ [])).bind ?_
  rintro sent ⟨makes, silent⟩
  refine (function_of_readSignal silent delimited false false).mono fun read same => ?_
  rw [same, makes.function]
  exact plain.functionName

/-- A call by itself that is divided is refused, or read without its function, unless it starts with the
name of a device. -/
theorem function_of_readSource_of_divided (unproxied : reader.configuration.proxy = none)
    (device : reader.configuration.device = [])
    (plain : Call.Plain delimiter function arguments)
    (divided : ¬Undivided delimiter (Call.written function arguments))
    (direct : reader.redirect? delimiter (Call.written function arguments) = none)
    (follow : Text → Recording Request) :
    (reader.readSource delimiter [] follow (Call.written function arguments)).Yields fun read =>
      read.function ≠ function := by
  have delimited := Text.ne_nil_of_not_infix plain.undelimited
  have other : ∀ {text : Text} {read : Request}, Text.IsLeft text (Call.written function arguments) →
      read.function = [] ∨ read.function = Call.functionName text delimiter →
      read.function ≠ function := by
    rintro text read left (none | called)
    · rw [none]
      exact plain.given.symm
    · rw [called]
      exact plain.functionName_ne left
  have shape := leadOf device (Call.written_ne_nil function arguments) delimited
  cases found : lead reader.configuration delimiter (Call.written function arguments) with
  | absent =>
    rw [readSource, plain.trim_written]
    simp only [found]
    exact yields_refuse _ _
  | plain text =>
    rw [found] at shape
    cases shape with
    | whole undivided => exact absurd undivided divided
    | plain _ left =>
      exact (function_of_readSource_of_plain unproxied delimited (by rw [plain.trim_written, found])
        follow).mono fun read => other left
  | named name text =>
    rw [found] at shape
    cases shape with
    | named _ left =>
      exact (function_of_readSource_of_named unproxied delimited (by rw [plain.trim_written, found])
        direct follow).mono fun read => other left

/-- Without a proxy and without a default device, a call by itself that is not divided is read with its
function when the signal asks for nothing; one that is divided is not, unless it starts with the name of
a device. -/
theorem function_of_call (reader : RequestReader) (unproxied : reader.configuration.proxy = none)
    (device : reader.configuration.device = []) (choice : Text) {function arguments : Text}
    (plain : Call.Plain (reader.configuration.delimiterOr choice) function arguments)
    {log : FailureLog} {read : Request}
    (done : (reader.parse (Call.written function arguments) [] choice log).1 = .ok read) :
    let delimiter := reader.configuration.delimiterOr choice
    let source := Call.written function arguments
    (Undivided delimiter source → read.function = function) ∧
      (¬Undivided delimiter source → reader.redirect? delimiter source = none →
        read.function ≠ function) := by
  intro delimiter source
  constructor
  · intro undivided
    exact (function_of_readSource_of_undivided unproxied device plain undivided _).of_outcome done
  · intro divided direct
    exact (function_of_readSource_of_divided unproxied device plain divided direct _).of_outcome done

/-- A call whose quotes hold a part of the delimiter, and one whose quotes hold all of it. -/
theorem function_of_call_untouched :
    let whole := { Request.blank with
      kind := .serverSide, format := "SERVERSIDE".toList, function := "f".toList
      source := "f(a='x:y')".toList, delimiter := "::".toList
      arguments := [⟨"a='x:y'".toList, "a".toList, "x:y".toList⟩] }
    let cut := { Request.blank with
      kind := .generic, device := "f(a='x".toList
      source := "f(a='x::y')".toList, delimiter := "::".toList }
    Call.Plain "::".toList "f".toList "a='x:y'".toList ∧
      (untouched.parse "f(a='x:y')".toList [] [] .empty).1 = .ok whole ∧
      Undivided "::".toList "f(a='x:y')".toList ∧ whole.function = "f".toList ∧
      Call.Plain "::".toList "f".toList "a='x::y'".toList ∧
      (untouched.parse "f(a='x::y')".toList [] [] .empty).1 = .ok cut ∧
      ¬Undivided "::".toList "f(a='x::y')".toList ∧ cut.function ≠ "f".toList := by
  intro whole cut
  have plain : Call.Plain "::".toList "f".toList "a='x:y'".toList := by decide +kernel
  have done : (untouched.parse "f(a='x:y')".toList [] [] .empty).1 = .ok whole := by decide +kernel
  have undivided : Undivided "::".toList "f(a='x:y')".toList := by decide +kernel
  have cutPlain : Call.Plain "::".toList "f".toList "a='x::y'".toList := by decide +kernel
  have cutDone : (untouched.parse "f(a='x::y')".toList [] [] .empty).1 = .ok cut := by
    decide +kernel
  have divided : ¬Undivided "::".toList "f(a='x::y')".toList := by decide +kernel
  have direct : untouched.redirect? "::".toList "f(a='x::y')".toList = none := by decide +kernel
  have kept := (function_of_call untouched rfl rfl [] plain done).1 undivided
  have lost := (function_of_call untouched rfl rfl [] cutPlain cutDone).2 divided direct
  exact ⟨plain, done, undivided, kept, cutPlain, cutDone, divided, lost⟩

/-- The quotes of an argument do not keep a delimiter from dividing the call. -/
theorem not_forall_function_of_call :
    ¬∀ (reader : RequestReader) (function arguments choice : Text) (log : FailureLog)
      (read : Request), reader.configuration.proxy = none → reader.configuration.device = [] →
      Call.Plain (reader.configuration.delimiterOr choice) function arguments →
      (reader.parse (Call.written function arguments) [] choice log).1 = .ok read →
      read.function = function := by
  intro claimed
  have plain : Call.Plain "::".toList "f".toList "a='x::y'".toList := by decide +kernel
  have done : (untouched.parse "f(a='x::y')".toList [] [] .empty).1 =
      .ok { Request.blank with
        kind := .generic, device := "f(a='x".toList
        source := "f(a='x::y')".toList, delimiter := "::".toList } := by
    decide +kernel
  have kept := claimed untouched "f".toList "a='x::y'".toList [] .empty _ rfl rfl plain done
  revert kept
  decide

end RequestReader

end SignalAccess
