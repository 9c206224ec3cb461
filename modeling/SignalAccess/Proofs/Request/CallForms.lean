import SignalAccess.Proofs.Request.Calls

/-!
# One call, written in three ways

With the readers of every installation, and without a default device or archive, a call can be the
source as it stands, the source behind the name of the server's own library, or the signal of no
source. The three go the same way through different steps: the text of the arguments is cut out,
read, and sent to the server's own library with the name in front of it. Behind the name and in the
signal the arguments reach to the last closing parenthesis, in the source as it stands to the first.
So the library and the signal always come to the same, and the third form comes to it too where both
texts read alike, as they do when the arguments hold no closing parenthesis of their own.

What can set the forms apart besides is the delimiter, when it cuts the name of the library or is
taken for an empty device in front of a source.
-/

namespace SignalAccess

open Recording

/-! ## Calls as they are written -/

namespace Call

/-- A call as a source or a signal writes it: it ends with its parenthesis, and nothing of it is
taken for a name in front of another text. -/
structure Written (delimiter t : Text) : Prop where
  trimmed : Text.trim t = t
  call : isCall t = true
  closed : t.getLast? = some ')'
  undelimited : ¬delimiter <:+: t

variable {delimiter t head inner : Text}

instance decidableWritten : Decidable (Written delimiter t) :=
  decidable_of_iff
    (Text.trim t = t ∧ isCall t = true ∧ t.getLast? = some ')' ∧ ¬delimiter <:+: t)
    ⟨fun ⟨trimmed, call, closed, undelimited⟩ => ⟨trimmed, call, closed, undelimited⟩,
      fun ⟨trimmed, call, closed, undelimited⟩ => ⟨trimmed, call, closed, undelimited⟩⟩

/-- The parentheses of a call that ends with one. -/
theorem Written.exists_breakAt (written : Written delimiter t) :
    ∃ head inner, Text.breakAt '(' t = some (head, inner ++ [')']) := by
  obtain ⟨head, tail, broken, rfl, -⟩ := exists_of_isCall written.call
  have closed := written.closed
  cases tail with
  | nil => simp at closed
  | cons c tail =>
    rw [List.getLast?_append_cons, List.getLast?_cons_cons] at closed
    obtain ⟨inner, ends⟩ := List.getLast?_eq_some_iff.mp closed
    exact ⟨head, inner, by rw [broken, ends]⟩

/-- The outer arguments of a call stand behind its first parenthesis, up to its last character. -/
theorem outerArguments?_of_breakAt (broken : Text.breakAt '(' t = some (head, inner ++ [')'])) :
    outerArguments? t = some (Text.trim inner) := by
  have last : Text.breakAtLast ')' (inner ++ [')']) = some (inner, []) :=
    Text.breakAtLast_append inner List.not_mem_nil
  simp [outerArguments?, broken, last]

/-- A call that ends with its parenthesis has arguments up to the first one that closes. -/
theorem exists_firstArguments (broken : Text.breakAt '(' t = some (head, inner ++ [')'])) :
    ∃ first, firstArguments? t = some first := by
  have held : ')' ∈ inner ++ [')'] := by simp
  obtain ⟨front, back, -, -, first⟩ := Text.exists_breakAt_of_mem held
  exact ⟨Text.trim front, by simp [firstArguments?, broken, first]⟩

/-- Arguments without a closing parenthesis of their own are read alike up to the first and up to the
last. -/
theorem firstArguments?_eq_outerArguments? (broken : Text.breakAt '(' t = some (head, inner ++ [')']))
    (flat : ')' ∉ inner) : firstArguments? t = outerArguments? t := by
  have first : Text.breakAt ')' (inner ++ [')']) = some (inner, []) := Text.breakAt_append flat []
  rw [outerArguments?_of_breakAt broken]
  simp [firstArguments?, broken, first]

/-- A call in which no delimiter stands names no library. -/
theorem Written.library? (written : Written delimiter t) : library? t delimiter = none := by
  obtain ⟨head, tail, broken, rfl, -⟩ := exists_of_isCall written.call
  have absent : Text.breakOnLast head delimiter = none := by
    refine Text.breakOnLast_eq_none_iff.mpr fun among => written.undelimited ?_
    exact among.trans (List.prefix_append head ('(' :: tail)).isInfix
  simp [Call.library?, broken, absent]

end Call

/-- The names and the values that a text lists, in their order. -/
def Arguments.pairs? (t : Text) : Option (List (Text × Text)) :=
  (Arguments.parse t true).toOption.map (List.map fun argument => (argument.name, argument.value))

/-- What a request calls, and where. -/
structure Request.Called where
  kind : RequestKind
  function : Text
  /-- The names and the values of the arguments, in their order. -/
  arguments : List (Text × Text)
  deriving DecidableEq, Repr

/-- A request's kind, function and arguments, and nothing of the text that they were read from. -/
def Request.called (request : Request) : Request.Called where
  kind := request.kind
  function := request.function
  arguments := request.arguments.map fun argument => (argument.name, argument.value)

namespace RequestReader

/-- What the request of a source and a signal calls, unless it is refused. -/
def called? (reader : RequestReader) (source signal choice : Text) (log : FailureLog) :
    Option Request.Called :=
  (reader.parse source signal choice log).1.toOption.map Request.called

/-- The readers of every installation, without a proxy and without a default device or archive. -/
structure Standard (reader : RequestReader) : Prop where
  unproxied : reader.configuration.proxy = none
  device : reader.configuration.device = []
  archive : reader.configuration.archive = []
  registry : reader.registry = .standard

/-- The reader of the server's own function library. -/
def serverSideReader : Reader := .plain Registry.serverSideFormat .serverSide .function

variable {reader : RequestReader} {delimiter text : Text} {request : Request}

/-- The server's own library is registered in every installation. -/
theorem Standard.serverSide? (standard : reader.Standard) :
    reader.registry.serverSide? = some serverSideReader := by
  rw [standard.registry]
  decide +kernel

/-- The server's own library is found under its name. -/
theorem Standard.byFormat?_serverSide (standard : reader.Standard) :
    reader.registry.byFormat? Registry.serverSideFormat = some serverSideReader := by
  rw [standard.registry]
  decide +kernel

/-- Nothing is registered under the empty name. -/
theorem Standard.byFormat?_nil (standard : reader.Standard) :
    reader.registry.byFormat? [] = none := by
  rw [standard.registry]
  decide +kernel

/-! ## The signal -/

/-- A signal without a group at its end is read as it stands. -/
theorem extract_of_opening? {signal : Text} (plain : Subset.opening? (Text.trim signal) = none) :
    Subset.extract signal = .ok none := by
  have whole : Subset.lastGroup? (Text.trim signal) = none := by simp [Subset.lastGroup?, plain]
  have groups : Subset.splitGroups (Text.trim signal) = (Text.trim signal, []) := by
    rw [Subset.splitGroups]
    split
    · rfl
    · next found =>
      rw [whole] at found
      cases found
  rw [Subset.extract, groups]
  cases Text.trim signal with
  | nil => rfl
  | cons c rest => rfl

/-- A signal in which no delimiter stands keeps its text, and lies in the default archive. -/
theorem readArchive_of_undelimited (reduce : Bool) (unnamed : request.archive = [])
    (undelimited : ¬request.delimiter <:+: Text.trim request.signal) :
    reader.readArchive reduce request = pure { request with
      archive := reader.configuration.archive, signal := Text.trim request.signal } := by
  have given : request.delimiter.isEmpty = false :=
    List.isEmpty_eq_false_iff.mpr (Text.ne_nil_of_not_infix undelimited)
  have absent := Text.breakOn_eq_none_iff.mpr undelimited
  have split : splitArchive reader.configuration.archive request.delimiter reduce
      ⟨request.archive, request.signal⟩ = (.ok (), ⟨[], Text.trim request.signal⟩) := by
    rw [splitArchive, given, if_neg Bool.false_ne_true]
    split
    · rw [unnamed]
    · next found =>
      rw [absent] at found
      cases found
  simp [readArchive, extractArchive, split, ofResult]

/-- Behind a source, a signal that asks for nothing only lays the request into the default archive. -/
theorem readSignal_of_empty (isServer isForeign : Bool) (signal : request.signal = [])
    (archive : request.archive = []) (delimited : request.delimiter ≠ []) :
    reader.readSignal false isServer isForeign request =
      pure { request with archive := reader.configuration.archive } := by
  have extracted : Subset.extract request.signal = .ok none := by
    rw [signal]
    exact extract_of_opening? rfl
  have taken : readSubset request = pure request := by simp [readSubset, extracted, ofResult]
  have undelimited : ¬request.delimiter <:+: Text.trim request.signal := by
    rw [signal]
    exact fun among => delimited (List.infix_nil.mp among)
  have same : { request with
      archive := reader.configuration.archive, signal := Text.trim request.signal } =
      { request with archive := reader.configuration.archive } := by
    rw [signal, Text.trim_nil, ← signal]
  have inside : reader.isInDefault { request with archive := reader.configuration.archive } = true := by
    simp [isInDefault, Text.equalIgnoringCase]
  simp [readSignal, taken, readArchive_of_undelimited _ archive undelimited, same, inside,
    readSignalCall, chooseReader]

/-- Without a default archive it changes nothing. -/
theorem Standard.readSignal_of_empty (standard : reader.Standard) (isServer isForeign : Bool)
    (signal : request.signal = []) (archive : request.archive = [])
    (delimited : request.delimiter ≠ []) :
    reader.readSignal false isServer isForeign request = pure request := by
  rw [RequestReader.readSignal_of_empty _ _ signal archive delimited, standard.archive, ← archive]

/-- A signal of no source that is a call reads its arguments, and is sent to the server's own
library. -/
theorem readSignal_of_call (standard : reader.Standard) {inner : Text}
    (written : Call.Written request.delimiter request.signal) (archive : request.archive = [])
    (outer : Call.outerArguments? request.signal = some inner) :
    reader.readSignal true false false request = argumentsOf inner >>= fun arguments =>
      pure (sendTo { request with
        arguments := request.arguments ++ arguments
        function := Call.functionName request.signal request.delimiter } serverSideReader) := by
  have plain : Subset.opening? (Text.trim request.signal) = none := by
    rw [written.trimmed, Subset.opening?, written.closed]
    rfl
  have taken : readSubset request = pure request := by
    simp [readSubset, extract_of_opening? plain, ofResult]
  have undelimited : ¬request.delimiter <:+: Text.trim request.signal := by
    rw [written.trimmed]
    exact written.undelimited
  have same : { request with
      archive := reader.configuration.archive, signal := Text.trim request.signal } = request := by
    rw [written.trimmed]
    cases request
    dsimp only at archive ⊢
    rw [standard.archive, archive]
  have chosen : ∀ request : Request, request.archive = [] →
      reader.chooseReader true true request = sendTo request serverSideReader := by
    intro request archive
    simp [chooseReader, resolveSignal, archive, standard.byFormat?_nil, standard.serverSide?]
  simp only [readSignal, taken, pure_bind, readArchive_of_undelimited _ archive undelimited, same,
    readSignalCall, outer]
  simp [chosen, archive]

/-! ## Names in front -/

/-- A delimiter that stands behind the name of the server's own library and nowhere before, and that
neither source starts with, ASCII case aside. -/
structure SetsApart (delimiter text : Text) : Prop where
  name : (Registry.serverSideFormat ++ delimiter).breakOn delimiter =
    some (Registry.serverSideFormat, [])
  source : (Registry.serverSideFormat ++ delimiter).afterIgnoringCase? delimiter = none
  call : text.afterIgnoringCase? delimiter = none

/-- A call is taken neither for the default device nor for the default archive. -/
theorem not_equal_of_apart (apart : text.afterIgnoringCase? delimiter = none) :
    text.equalIgnoringCase delimiter = false := by
  by_contra same
  rw [Bool.not_eq_false] at same
  rw [Text.afterIgnoringCase?_of_equalIgnoringCase same] at apart
  cases apart

/-- Where no device is the default, a text that a delimiter neither cuts nor starts has no name in
front. -/
theorem lead_of_undelimited {configuration : Configuration} (device : configuration.device = [])
    (given : text ≠ []) (undelimited : ¬delimiter <:+: text)
    (apart : text.afterIgnoringCase? delimiter = none) :
    lead configuration delimiter text = .plain text := by
  have source : isNoSource [] delimiter text = false := by
    simp [isNoSource, given, Text.equalIgnoringCase_nil, not_equal_of_apart apart]
  have name : splitName [] delimiter text = none := by
    simp [splitName, Text.breakOn_eq_none_iff.mpr undelimited]
  simp [lead, device, source, apart, name]

/-- The name of the server's own library is found in front of a call. -/
theorem lead_of_library (standard : reader.Standard) (apart : SetsApart delimiter text) :
    lead reader.configuration delimiter (Registry.serverSideFormat ++ delimiter ++ text) =
      .named Registry.serverSideFormat text := by
  have long : delimiter.length ≤ (Registry.serverSideFormat ++ delimiter).length := by simp
  have started : Text.afterIgnoringCase? (Registry.serverSideFormat ++ delimiter ++ text) delimiter =
      none := Text.afterLead_append_of_eq_none apart.source long text
  have split : Text.breakOn (Registry.serverSideFormat ++ delimiter ++ text) delimiter =
      some (Registry.serverSideFormat, text) := Text.breakBy_append_of_eq_some apart.name text
  have trimmed : Text.trim Registry.serverSideFormat = Registry.serverSideFormat := by decide +kernel
  have source : isNoSource [] delimiter (Registry.serverSideFormat ++ delimiter ++ text) = false := by
    simp only [isNoSource, Text.equalIgnoringCase_nil, List.nil_append,
      not_equal_of_apart started]
    rfl
  have name : splitName [] delimiter (Registry.serverSideFormat ++ delimiter ++ text) =
      some (Registry.serverSideFormat, text) := by
    simp only [splitName, split, trimmed, Text.equalIgnoringCase_nil]
    rfl
  simp only [lead, standard.device, source, List.nil_append, started, name]
  rfl

/-- An empty source has nothing in front. -/
theorem lead_nil (configuration : Configuration) (delimiter : Text) :
    lead configuration delimiter [] = .absent := by
  simp [lead, isNoSource]

/-! ## The source -/

/-- A call in which no delimiter stands is sent to no other library. -/
theorem sendToLibrary_of_undelimited (written : Call.Written request.delimiter text) :
    reader.sendToLibrary text [] request = request := by
  have absent := Text.breakOn_eq_none_iff.mpr fun among : request.delimiter <:+: [] =>
    Text.ne_nil_of_not_infix written.undelimited (List.infix_nil.mp among)
  have unnamed : signalArchive? [] request.delimiter = none := by simp [signalArchive?, absent]
  simp [sendToLibrary, written.library?, unnamed]

/-- A source that is a call reads its arguments, and is sent to the server's own library. -/
theorem readPlain_of_call (standard : reader.Standard) {inner : Text}
    (written : Call.Written request.delimiter text) (first : Call.firstArguments? text = some inner) :
    reader.readPlain text [] request = argumentsOf inner >>= fun arguments =>
      pure { sendTo request serverSideReader with
        device := reader.configuration.device
        function := Call.functionName text request.delimiter, arguments := arguments } := by
  rw [readPlain, Pulse.ofText?_of_isCall written.call]
  dsimp only
  rw [if_pos written.call, readCall, first]
  refine bind_congr fun arguments => congrArg pure ?_
  rw [sendToServerSide, standard.serverSide?]
  exact sendToLibrary_of_undelimited written

/-- A call behind the name of the server's own library reads its arguments, and is sent there. -/
theorem readNamed_of_call (standard : reader.Standard) {inner : Text}
    (call : Call.isCall text = true) (outer : Call.outerArguments? text = some inner) :
    reader.readNamed Registry.serverSideFormat text request = argumentsOf inner >>= fun arguments =>
      pure (.known { sendTo request serverSideReader with
        device := reader.configuration.device, path := text, file := []
        function := Call.functionName text request.delimiter, arguments := arguments } false) := by
  rw [readNamed, standard.byFormat?_serverSide]
  have sort : serverSideReader.readerClass = .function := rfl
  dsimp only
  rw [sort]
  dsimp only
  rw [if_pos call, outer]

/-- Behind the name of the server's own library, a signal that asks for nothing changes nothing, and
there is no address to be taken apart. -/
theorem readBehind_of_empty (standard : reader.Standard) (follow : Text → Recording Request)
    (kind : request.kind = .serverSide) (signal : request.signal = [])
    (archive : request.archive = []) (delimited : request.delimiter ≠ []) :
    reader.readBehind text follow (.known request false) = pure request := by
  rw [readBehind, standard.readSignal_of_empty _ _ signal archive delimited, pure_bind, readAddress,
    kind]

/-- What is read without a source is read of the signal. -/
theorem readSource_of_absent (unproxied : reader.configuration.proxy = none) {source : Text}
    (absent : lead reader.configuration delimiter source.trim = .absent)
    (asked : isNoSignal reader.configuration.archive delimiter text = false)
    (follow : Text → Recording Request) :
    reader.readSource delimiter text follow source = reader.readSignal true false false
      { Request.blank with
        source := source.trim, signal := text, delimiter := delimiter
        device := reader.configuration.device } := by
  simp [readSource, absent, asked, unproxied]

/-! ## The three forms -/

/-- A step that reads a list of arguments, and comes to a request for a call of the server's own
library with them. -/
def Calls (step : Recording Request) (function inner : Text) : Prop :=
  ∃ sent : List Argument → Request,
    (step = argumentsOf inner >>= fun arguments => pure (sent arguments)) ∧
      ∀ arguments, (sent arguments).called = ⟨.serverSide, function,
        arguments.map fun argument => (argument.name, argument.value)⟩

variable {inner function : Text}

/-- What such a step calls is decided by the texts of its function and its arguments. -/
theorem Calls.called {step : Recording Request} (calls : Calls step function inner)
    (log : FailureLog) :
    (step.outcome log).1.toOption.map Request.called =
      (Arguments.pairs? inner).map (Request.Called.mk .serverSide function) := by
  obtain ⟨sent, rfl, called⟩ := calls
  rw [argumentsOf, Arguments.pairs?]
  cases Arguments.parse inner true with
  | error failure => rfl
  | ok arguments => exact congrArg some (called arguments)

/-- What follows the arguments may change nothing that is called. -/
theorem calls_of_bind {α : Type} {placed : List Argument → α} {follow : α → Recording Request}
    {sent : List Argument → Request}
    (same : ∀ arguments, follow (placed arguments) = pure (sent arguments))
    (called : ∀ arguments, (sent arguments).called = ⟨.serverSide, function,
      arguments.map fun argument => (argument.name, argument.value)⟩) :
    Calls ((argumentsOf inner >>= fun arguments => pure (placed arguments)) >>= follow) function
      inner := by
  refine ⟨sent, ?_, called⟩
  rw [bind_assoc]
  refine bind_congr fun arguments => ?_
  rw [pure_bind, same]

variable (choice : Text)

/-- A source that is a call calls its function with the arguments up to the first parenthesis that
closes. -/
theorem calls_of_source (standard : reader.Standard)
    (written : Call.Written (reader.configuration.delimiterOr choice) text)
    (apart : SetsApart (reader.configuration.delimiterOr choice) text)
    (first : Call.firstArguments? text = some inner) :
    Calls (reader.read text [] choice)
      (Call.functionName text (reader.configuration.delimiterOr choice)) inner := by
  have plain : lead reader.configuration (reader.configuration.delimiterOr choice)
      (Text.trim text) = .plain text := by
    rw [written.trimmed]
    have given : text ≠ [] := by
      rintro rfl
      cases written.closed
    exact lead_of_undelimited standard.device given written.undelimited apart.call
  have delimited := Text.ne_nil_of_not_infix written.undelimited
  rw [read, readWithin, readSource_of_plain standard.unproxied plain, Text.trim_nil,
    readPlain_of_call standard written first]
  exact calls_of_bind (fun _ => standard.readSignal_of_empty _ _ rfl rfl delimited) fun _ => rfl

/-- A call behind the name of the server's own library calls its function with the outer
arguments. -/
theorem calls_of_library (standard : reader.Standard)
    (written : Call.Written (reader.configuration.delimiterOr choice) text)
    (apart : SetsApart (reader.configuration.delimiterOr choice) text)
    (outer : Call.outerArguments? text = some inner) :
    Calls (reader.read
        (Registry.serverSideFormat ++ reader.configuration.delimiterOr choice ++ text) [] choice)
      (Call.functionName text (reader.configuration.delimiterOr choice)) inner := by
  have starts : (Registry.serverSideFormat ++ reader.configuration.delimiterOr choice ++ text).head? =
      some 'S' := rfl
  have ends : (Registry.serverSideFormat ++ reader.configuration.delimiterOr choice ++ text).getLast? =
      some ')' := by
    rw [List.getLast?_append, written.closed]
    rfl
  have trimmed : Text.trim
      (Registry.serverSideFormat ++ reader.configuration.delimiterOr choice ++ text) =
      Registry.serverSideFormat ++ reader.configuration.delimiterOr choice ++ text :=
    Text.trim_of_ends starts ends (by decide) (by decide)
  have named : lead reader.configuration (reader.configuration.delimiterOr choice)
      (Text.trim (Registry.serverSideFormat ++ reader.configuration.delimiterOr choice ++ text)) =
      .named Registry.serverSideFormat text := by
    rw [trimmed]
    exact lead_of_library standard apart
  have delimited := Text.ne_nil_of_not_infix written.undelimited
  rw [read, readWithin, readSource_of_named standard.unproxied named, Text.trim_nil,
    readNamed_of_call standard written.call outer]
  exact calls_of_bind (fun _ => readBehind_of_empty standard _ rfl rfl rfl delimited) fun _ => rfl

/-- A signal that is a call calls its function with the outer arguments. -/
theorem calls_of_signal (standard : reader.Standard)
    (written : Call.Written (reader.configuration.delimiterOr choice) text)
    (apart : SetsApart (reader.configuration.delimiterOr choice) text)
    (outer : Call.outerArguments? text = some inner) :
    Calls (reader.read [] text choice)
      (Call.functionName text (reader.configuration.delimiterOr choice)) inner := by
  have some : text ≠ [] := by
    rintro rfl
    cases written.closed
  have asked : isNoSignal reader.configuration.archive (reader.configuration.delimiterOr choice)
      text = false := by
    simp [isNoSignal, standard.archive, some, not_equal_of_apart apart.call]
  rw [read, readWithin, written.trimmed,
    readSource_of_absent standard.unproxied (lead_nil _ _) asked,
    readSignal_of_call standard written rfl outer]
  exact ⟨_, rfl, fun _ => rfl⟩

/-- A call behind the name of the server's own library and the same call in the signal of no source
come to the same. So does the call as a source by itself, where its arguments are read alike up to
their first closing parenthesis and up to the last, as they are if they hold none of their own. -/
theorem called_eq_of_forms (standard : reader.Standard)
    (written : Call.Written (reader.configuration.delimiterOr choice) text)
    (apart : SetsApart (reader.configuration.delimiterOr choice) text)
    (log behindLog signalLog : FailureLog) :
    let behind := Registry.serverSideFormat ++ reader.configuration.delimiterOr choice ++ text
    reader.called? behind [] choice behindLog = reader.called? [] text choice signalLog ∧
      ((Call.firstArguments? text).bind Arguments.pairs? =
          (Call.outerArguments? text).bind Arguments.pairs? →
        reader.called? text [] choice log = reader.called? behind [] choice behindLog) ∧
      ∀ head inner, Text.breakAt '(' text = some (head, inner ++ [')']) → ')' ∉ inner →
        reader.called? text [] choice log = reader.called? behind [] choice behindLog := by
  intro behind
  obtain ⟨head, inner, broken⟩ := written.exists_breakAt
  have outer := Call.outerArguments?_of_breakAt broken
  obtain ⟨first, cut⟩ := Call.exists_firstArguments broken
  have library := (calls_of_library choice standard written apart outer).called behindLog
  have signalled := (calls_of_signal choice standard written apart outer).called signalLog
  have plain := (calls_of_source choice standard written apart cut).called log
  have same : (Call.firstArguments? text).bind Arguments.pairs? =
        (Call.outerArguments? text).bind Arguments.pairs? →
      reader.called? text [] choice log = reader.called? behind [] choice behindLog := by
    intro alike
    rw [cut, outer, Option.bind_some, Option.bind_some] at alike
    exact (plain.trans (congrArg _ alike)).trans library.symm
  refine ⟨library.trans signalled.symm, same, ?_⟩
  intro name arguments called flat
  exact same (congrArg (·.bind Arguments.pairs?) (Call.firstArguments?_eq_outerArguments? called flat))

/-- The readers of every installation, configured by nothing. -/
def untouched : RequestReader := ⟨.standard, .standard, .bare⟩

/-- The three forms of a call whose arguments hold quoted delimiters and a flag. -/
theorem called_eq_of_forms_untouched :
    let text := "scale(x='1, 2', /fast)".toList
    untouched.Standard ∧ Call.Written "::".toList text ∧ SetsApart "::".toList text ∧
      untouched.called? "SERVERSIDE::scale(x='1, 2', /fast)".toList [] [] .empty =
        untouched.called? [] text [] .empty ∧
      untouched.called? text [] [] .empty =
        untouched.called? "SERVERSIDE::scale(x='1, 2', /fast)".toList [] [] .empty ∧
      untouched.called? text [] [] .empty = some ⟨.serverSide, "scale".toList,
        [("x".toList, "1, 2".toList), ("fast".toList, "true".toList)]⟩ := by
  intro text
  have standard : untouched.Standard := ⟨rfl, rfl, rfl, rfl⟩
  have written : Call.Written "::".toList text := by decide +kernel
  have apart : SetsApart "::".toList text :=
    ⟨by decide +kernel, by decide +kernel, by decide +kernel⟩
  have broken : Text.breakAt '(' text =
      some ("scale".toList, "x='1, 2', /fast".toList ++ [')']) := by decide +kernel
  obtain ⟨same, -, plain⟩ := called_eq_of_forms [] standard written apart .empty .empty .empty
  exact ⟨standard, written, apart, same, plain _ _ broken (by decide), by decide +kernel⟩

/-- The forms come apart where the delimiter cuts the name of the library, where it is taken for an
empty device in front of the library or of the call, and where the arguments go on behind their first
closing parenthesis. -/
theorem not_forall_called_eq_of_forms :
    untouched.Standard ∧
      ∀ sample ∈ [("E", "f(x=1)"), ("server", "f(x=1)"), ("fn", "Fn(x=1)"), ("::", "f(x=g(1),y=2)")],
        let choice := sample.1.toList
        let text := sample.2.toList
        let behind := Registry.serverSideFormat ++ untouched.configuration.delimiterOr choice ++ text
        Call.Written (untouched.configuration.delimiterOr choice) text ∧
          ¬(untouched.called? text [] choice .empty = untouched.called? behind [] choice .empty ∧
            untouched.called? behind [] choice .empty =
              untouched.called? [] text choice .empty) := by
  refine ⟨⟨rfl, rfl, rfl, rfl⟩, ?_⟩
  decide +kernel

end RequestReader

end SignalAccess
