import SignalAccess.Proofs.Request.Precedence
import SignalAccess.Proofs.Text.Search

/-!
# Calls in sources

A source can call a function, by itself or behind the name of a library of functions. It is then read
as that call and as nothing else: it is no pulse and no path. The call gives the request its function
and its first arguments. The signal is read behind it and only ever adds arguments; and as long as it
makes no call of its own outside the default archive, the function is the one that the source names.
-/

namespace SignalAccess

open Recording

namespace Call

variable {t : Text}

/-- A call starts with what stands in front of its first parenthesis, which holds no slash. -/
theorem exists_of_isCall (call : isCall t = true) :
    ∃ head tail, Text.breakAt '(' t = some (head, tail) ∧ t = head ++ '(' :: tail ∧ '/' ∉ head := by
  unfold isCall at call
  split at call
  · next head tail closed behind opened closes =>
    have held : '(' ∈ t := by
      by_contra absent
      rw [Text.breakAt_eq_none_iff.mpr absent] at opened
      cases opened
    obtain ⟨front, back, rfl, free, broken⟩ := Text.exists_breakAt_of_mem held
    rw [broken] at opened
    cases opened
    rw [Bool.and_eq_true, Bool.not_eq_true'] at call
    refine ⟨head, tail, broken, rfl, ?_⟩
    simpa using call.1
  · cases call

end Call

namespace RequestReader

/-- A call is no pulse: its first element holds a parenthesis. -/
theorem Pulse.ofText?_of_isCall {text : Text} (call : Call.isCall text = true) :
    Pulse.ofText? text = none := by
  obtain ⟨head, tail, -, rfl, free⟩ := Call.exists_of_isCall call
  have apart : '/' ∉ head ++ ['('] := by simpa using free
  obtain ⟨piece, more, split⟩ := Text.exists_elements_append (by simp) apart tail
  rw [List.append_assoc, List.append_assoc, List.singleton_append, List.singleton_append] at split
  have number : Text.int32? (head ++ '(' :: piece) = none :=
    Text.int32?_eq_none_of_mem (c := '(') (by simp) (by decide) (by decide)
  unfold ofText?
  rw [split]
  split
  · rfl
  · simp [number]

/-- The call that a source makes: the function that it names, and the text of its arguments. -/
structure SourceCall where
  function : Text
  arguments : Text
  deriving DecidableEq, Repr

/-- The call that a source makes, by itself or behind the name of a library of functions. A call by
itself ends with its first closing parenthesis, and one behind a name with its last. -/
def sourceCall? (reader : RequestReader) (delimiter source : Text) : Option SourceCall :=
  match lead reader.configuration delimiter source.trim with
  | .absent => none
  | .plain text =>
    if Call.isCall text then
      (Call.firstArguments? text).map (SourceCall.mk (Call.functionName text delimiter))
    else none
  | .named name text =>
    match reader.registry.byFormat? name with
    | none => none
    | some found =>
      if found.readerClass = .function ∧ Call.isCall text = true then
        (Call.outerArguments? text).map (SourceCall.mk (Call.functionName text delimiter))
      else none

end RequestReader

namespace Request

/-- A request for what a source calls, and for nothing more. -/
structure Makes (request : Request) (call : RequestReader.SourceCall) : Prop where
  function : request.function = call.function
  arguments : Arguments.parse call.arguments true = .ok request.arguments

/-- A request that its signal has completed. The signal adds arguments behind those of the source,
and leaves the function alone unless it calls one outside the default archive. -/
structure KeepsCall (reader : RequestReader) (request read : Request) : Prop where
  arguments : request.arguments <+: read.arguments
  function : reader.isInDefault read = true ∨ Call.outerArguments? read.signal = none →
    read.function = request.function

end Request

namespace RequestReader

variable {reader : RequestReader} {delimiter text inner : Text} {request : Request}

/-! ## The source -/

/-- A text with arguments is read as a call of its function. -/
theorem makes_of_readCall (first : Call.firstArguments? text = some inner) (signal : Text) :
    (reader.readCall text signal request).Yields
      fun read => read.Makes ⟨Call.functionName text request.delimiter, inner⟩ := by
  rw [readCall, first]
  have parsed : (argumentsOf inner).Yields fun arguments =>
      Arguments.parse inner true = .ok arguments := yields_ofResult _ fun _ given => given
  refine parsed.bind fun arguments given => yields_pure ?_
  obtain ⟨kind, format, sent, -⟩ := sendToLibrary_eq reader text signal
    { reader.sendToServerSide request with
      function := Call.functionName text request.delimiter, arguments := arguments }
  rw [sent]
  exact ⟨rfl, given⟩

/-- A source that is a call by itself is read as its call. -/
theorem makes_of_readPlain (call : Call.isCall text = true)
    (first : Call.firstArguments? text = some inner) (signal : Text) :
    (reader.readPlain text signal request).Yields
      fun read => read.Makes ⟨Call.functionName text request.delimiter, inner⟩ := by
  rw [readPlain, Pulse.ofText?_of_isCall call]
  dsimp only
  rw [if_pos call]
  exact makes_of_readCall first signal

/-- A call behind the name of a library of functions is read as that call. -/
theorem makes_of_readNamed {name : Text} {found : Reader}
    (given : reader.registry.byFormat? name = some found) (sort : found.readerClass = .function)
    (call : Call.isCall text = true) (outer : Call.outerArguments? text = some inner) :
    (reader.readNamed name text request).Yields fun named => ∃ sent, named = .known sent false ∧
      sent.Makes ⟨Call.functionName text request.delimiter, inner⟩ := by
  rw [readNamed, given]
  dsimp only
  rw [sort]
  dsimp only
  rw [if_pos call, outer]
  have parsed : (argumentsOf inner).Yields fun arguments =>
      Arguments.parse inner true = .ok arguments := yields_ofResult _ fun _ given => given
  exact parsed.bind fun arguments given => yields_pure ⟨_, rfl, rfl, given⟩

/-! ## The signal -/

/-- Only a call that the signal may make writes the function. -/
theorem keeps_of_readSignalCall (permitted : Bool) (request : Request) :
    (readSignalCall permitted request).Yields fun called => ∃ more function,
      called.1 = { request with arguments := request.arguments ++ more, function := function } ∧
        (permitted = false ∨ Call.outerArguments? request.signal = none →
          function = request.function) := by
  rw [readSignalCall]
  split
  · exact yields_pure ⟨[], _, by simp, fun _ => rfl⟩
  · next allowed =>
    split
    · exact yields_pure ⟨[], _, by simp, fun _ => rfl⟩
    · next inner outer =>
      refine Yields.behind fun arguments => yields_pure ⟨arguments, _, rfl, ?_⟩
      rintro (refused | absent)
      · simp [refused] at allowed
      · rw [outer] at absent
        cases absent

/-- The signal keeps to the call of a source. -/
theorem keepsCall_of_readSignal (isServer isForeign : Bool) (request : Request) :
    (reader.readSignal false isServer isForeign request).Yields
      fun read => Request.KeepsCall reader request read := by
  have taken : (readSubset request).Yields fun taken =>
      taken.arguments = request.arguments ∧ taken.function = request.function := by
    refine (yields_readSubset request).mono ?_
    rintro taken (rfl | ⟨found, -, rfl⟩)
    · exact ⟨rfl, rfl⟩
    · exact ⟨rfl, rfl⟩
  refine taken.bind ?_
  rintro taken ⟨arguments, function⟩
  refine (yields_readArchive _ taken).bind ?_
  rintro _ ⟨archive, signal, rfl, -⟩
  refine (keeps_of_readSignalCall _ _).bind ?_
  rintro ⟨called, isCall⟩ ⟨more, callee, rfl, kept⟩
  obtain ⟨kind, format, chosen, -⟩ := chooseReader_false_eq reader isCall
    { taken with
      archive := archive, signal := signal, arguments := taken.arguments ++ more
      function := callee }
  refine yields_pure ?_
  rw [chosen]
  constructor
  · exact ⟨more, by rw [arguments]⟩
  · intro alone
    have still : callee = taken.function := by
      refine kept (alone.imp_left fun inside => ?_)
      have here : reader.isInDefault { taken with archive := archive, signal := signal } = true :=
        inside
      simp [here]
    exact still.trans function

/-! ## Both -/

/-- What a source calls stands in every request that is read of it. -/
theorem keepsCall_of_readSource (unproxied : reader.configuration.proxy = none) {source : Text}
    {call : SourceCall} (calls : reader.sourceCall? delimiter source = some call) (signal : Text)
    (follow : Text → Recording Request) :
    (reader.readSource delimiter signal follow source).Yields fun read =>
      ∃ sent : Request, sent.Makes call ∧ Request.KeepsCall reader sent read := by
  unfold sourceCall? at calls
  split at calls
  · cases calls
  · next text plain =>
    split at calls
    · next shape =>
      obtain ⟨inner, first, rfl⟩ := Option.map_eq_some_iff.mp calls
      rw [readSource_of_plain unproxied plain]
      refine (makes_of_readPlain shape first signal).bind fun sent makes => ?_
      exact (keepsCall_of_readSignal false false sent).mono fun read keeps => ⟨sent, makes, keeps⟩
    · cases calls
  · next name text named =>
    split at calls
    · cases calls
    · next found given =>
      split at calls
      · next shape =>
        obtain ⟨inner, outer, rfl⟩ := Option.map_eq_some_iff.mp calls
        rw [readSource_of_named unproxied named]
        refine (makes_of_readNamed given shape.1 shape.2 outer).bind ?_
        rintro _ ⟨sent, rfl, makes⟩
        refine (keepsCall_of_readSignal false false sent).bind fun read keeps => ?_
        refine (yields_readAddress text read).mono ?_
        -- An address writes neither the call nor what the signal says of it.
        rintro _ ⟨server, pulse, path, file, rfl⟩
        exact ⟨sent, makes, keeps.arguments, keeps.function⟩
      · cases calls

/-- Without a proxy, the arguments of the call that a source makes come first in its request, and the
function is the one that the source names, as long as the signal calls none outside the default
archive. -/
theorem function_of_source (reader : RequestReader) (unproxied : reader.configuration.proxy = none)
    (choice : Text) {source : Text} {call : SourceCall}
    (calls : reader.sourceCall? (reader.configuration.delimiterOr choice) source = some call)
    {signal : Text} {log : FailureLog} {read : Request}
    (done : (reader.parse source signal choice log).1 = .ok read) :
    (∃ arguments, Arguments.parse call.arguments true = .ok arguments ∧
        arguments <+: read.arguments) ∧
      (reader.isInDefault read = true ∨ Call.outerArguments? read.signal = none →
        read.function = call.function) := by
  have kept := keepsCall_of_readSource unproxied calls signal.trim
    (reader.readWithin (reader.configuration.delimiterOr choice) signal.trim
      reader.configuration.maxRedirects)
  obtain ⟨sent, makes, keeps⟩ := kept.of_outcome done
  refine ⟨⟨sent.arguments, makes.arguments, keeps.arguments⟩, fun alone => ?_⟩
  exact (keeps.function alone).trans makes.function

/-- An installation whose default archive is `MAST`. -/
def archived (proxy : Option Text) : RequestReader where
  configuration := { Configuration.standard with archive := "MAST".toList, proxy := proxy }
  registry := .standard
  machine := .bare

/-- A signal of the default archive adds nothing to the call behind a library, though it is a call.
-/
theorem function_of_source_archived :
    let reader := archived none
    let source := "SERVERSIDE::f(a=1)".toList
    let signal := "MAST::g(b=2)".toList
    let read := { Request.blank with
      kind := .serverSide, format := "SERVERSIDE".toList, archive := "MAST".toList
      path := "f(a=1)".toList, function := "f".toList, signal := "g(b=2)".toList
      source := source, delimiter := "::".toList
      arguments := [.ofParts "a".toList "1".toList] }
    reader.configuration.proxy = none ∧
      reader.sourceCall? "::".toList source = some ⟨"f".toList, "a=1".toList⟩ ∧
      (reader.parse source signal [] .empty).1 = .ok read ∧
      (∃ arguments, Arguments.parse "a=1".toList true = .ok arguments ∧
        arguments <+: read.arguments) ∧
      reader.isInDefault read = true ∧ read.function = "f".toList := by
  intro reader source signal read
  have calls : reader.sourceCall? "::".toList source = some ⟨"f".toList, "a=1".toList⟩ := by
    decide +kernel
  have done : (reader.parse source signal [] .empty).1 = .ok read := by decide +kernel
  have inside : reader.isInDefault read = true := by decide +kernel
  obtain ⟨first, function⟩ := function_of_source reader rfl [] calls done
  exact ⟨rfl, calls, done, first, inside, function (.inl inside)⟩

/-- A request that goes to the proxy has no function and no arguments. And a call of the signal
outside the default archive takes the place of the function that the source names. -/
theorem not_forall_function_of_source :
    (¬∀ (reader : RequestReader) (source signal choice : Text) (log : FailureLog)
      (call : SourceCall) (read : Request),
      reader.sourceCall? (reader.configuration.delimiterOr choice) source = some call →
      (reader.parse source signal choice log).1 = .ok read →
      read.function = call.function ∧
        ∃ arguments, Arguments.parse call.arguments true = .ok arguments ∧
          arguments <+: read.arguments) ∧
    ¬∀ (reader : RequestReader) (source signal choice : Text) (log : FailureLog)
      (call : SourceCall) (read : Request), reader.configuration.proxy = none →
      reader.sourceCall? (reader.configuration.delimiterOr choice) source = some call →
      (reader.parse source signal choice log).1 = .ok read →
      read.function = call.function := by
  constructor
  · intro claimed
    let reader := archived (some "proxy:1".toList)
    have calls : reader.sourceCall? "::".toList "f(a=1)".toList = some ⟨"f".toList, "a=1".toList⟩ := by
      decide +kernel
    have done : (reader.parse "f(a=1)".toList "ip".toList [] .empty).1 = .ok { Request.blank with
        kind := .forward, archive := "MAST".toList, server := "proxy:1".toList
        signal := "ip".toList, source := "f(a=1)".toList, delimiter := "::".toList } := by
      decide +kernel
    obtain ⟨function, -⟩ := claimed reader _ _ [] _ _ _ calls done
    cases function
  · intro claimed
    let reader := archived none
    have calls : reader.sourceCall? "::".toList "f(a=1)".toList = some ⟨"f".toList, "a=1".toList⟩ := by
      decide +kernel
    have done : (reader.parse "f(a=1)".toList "LIB::g(b=2)".toList [] .empty).1 =
        .ok { Request.blank with
          kind := .serverSide, format := "SERVERSIDE".toList, archive := "LIB".toList
          function := "g".toList, signal := "g(b=2)".toList, source := "f(a=1)".toList
          delimiter := "::".toList
          arguments := [.ofParts "a".toList "1".toList, .ofParts "b".toList "2".toList] } := by
      decide +kernel
    have function := claimed reader _ _ [] _ _ _ rfl calls done
    revert function
    decide

end RequestReader

end SignalAccess
