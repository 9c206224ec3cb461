import SignalAccess.Failure.Log
import SignalAccess.Path.Variables
import SignalAccess.Request.Address
import SignalAccess.Request.Arguments
import SignalAccess.Request.Call
import SignalAccess.Request.FileFormat
import SignalAccess.Request.Subset
/-!
# Reading requests

A client's source and signal become a request. The source is read first:

* without a delimiter, or behind the default device, it is a pulse with an optional pass, a function
  call or the path of a file;
* behind the format of a registered reader it is what that reader makes of it, and a device stands
  for another source;
* behind any other name it is left to a foreign device.

The signal then gives the data object, its archive and its subset, or calls a function. What the
source decided about the reader stands, and the signal chooses a reader only where the source left
the choice open.
-/
namespace SignalAccess

/-- What requests are read against. -/
structure RequestReader where
  configuration : Configuration
  registry : Registry
  machine : Machine

namespace RequestReader

/-- The step that most failures are recorded against. -/
def mainStep : String := "make_request_data"

/-- Refuses a request in the main step. -/
def refuse {α : Type} (failure : Failure) : Recording α := Recording.refuse mainStep failure

/-- The request sent to a reader. -/
def sendTo (request : Request) (reader : Reader) : Request :=
  { request with kind := reader.kind, format := reader.format }

/-- A pulse, with the text of a pass where one stands behind it. -/
structure Pulse where
  number : Int32
  pass : Option Text
  deriving DecidableEq, Repr

/-- The pulse that a text is, with an optional pass, if it is one. -/
def Pulse.ofText? (text : Text) : Option Pulse :=
  if text.isEmpty || text.head? = some '/' then none
  else
    match text.elements with
    | [] => none
    | first :: others => first.int32?.map fun number => ⟨number, others.head?⟩

/-- The request for a pulse. A pass that is no number is kept as a name. -/
def atPulse (request : Request) (pulse : Pulse) : Request :=
  let found := { request with kind := .generic, pulse := pulse.number, path := [] }
  match pulse.pass with
  | none => found
  | some text =>
    match text.int32? with
    | some pass => { found with pass := pass }
    | none => { found with passName := text }

/-- The text in front of the first delimiter of a signal, if there is any. -/
def signalArchive? (signal delimiter : Text) : Option Text :=
  match signal.breakOn delimiter with
  | some (front, _) => if front.trim.isEmpty then none else some front.trim
  | none => none

/-- The arguments of a call, as a step of its own. -/
def argumentsOf (text : Text) : Recording (List Argument) :=
  .ofResult "name_value_pairs" (Arguments.parse text true)

/-- The request sent to the server's own function library. -/
def sendToServerSide (reader : RequestReader) (request : Request) : Request :=
  match reader.registry.serverSide? with
  | some default => sendTo request default
  | none => { request with kind := .serverSide }

/-- The request sent to the library that the text of its call names, or else the archive of its
signal. -/
def sendToLibrary (reader : RequestReader) (text signal : Text) (request : Request) : Request :=
  let library := (Call.library? text request.delimiter).orElse fun _ =>
    signalArchive? signal request.delimiter
  match library.bind reader.registry.byFormat? with
  | some found => sendTo request found
  | none => request

/-- A source that calls a function without naming a format. The library in front of the function, or
the archive of the signal, may still name one. -/
def readCall (reader : RequestReader) (text signal : Text) (request : Request) :
    Recording Request :=
  match Call.firstArguments? text with
  | none => refuse (.syntaxError .noCall)
  | some inner => do
    let arguments ← argumentsOf inner
    let function := Call.functionName text request.delimiter
    return reader.sendToLibrary text signal
      { reader.sendToServerSide request with function := function, arguments := arguments }

/-- The reader of a file at a path, if its format is known. -/
def fileReader? (reader : RequestReader) (text : Text) : Option Reader :=
  (FileFormat.identify reader.configuration reader.registry reader.machine text).bind
    reader.registry.byFormat?

/-- The request for the pulse that follows the first character of a path, if one does. -/
def pulseInPath (text : Text) (request : Request) : Request :=
  let tail := text.drop 1
  if (tail.head?.map Char.isDigit).getD false then
    (Pulse.ofText? tail).elim request (atPulse request)
  else request

/-- The request for the file at a path. A pulse may follow the first character of the path. -/
def atPath (reader : RequestReader) (found : Reader) (text : Text) (request : Request) : Request :=
  { sendTo (pulseInPath text request) found with
    path := Path.expandVariables reader.machine.environment? text
    file := if found.readerClass = .file then text.lastElement else [] }

/-- A source that is the path of a file. -/
def readPath (reader : RequestReader) (text : Text) (request : Request) : Recording Request :=
  match reader.fileReader? text with
  | none => refuse (.unrecognizedFormat ("Please specify (".toList ++ text ++ [')']))
  | some found => return reader.atPath found text request

/-- A source without a format. -/
def readPlain (reader : RequestReader) (text signal : Text) (request : Request) :
    Recording Request :=
  let request := { request with device := reader.configuration.device }
  match Pulse.ofText? text with
  | some pulse => return atPulse request pulse
  | none =>
    if Call.isCall text then reader.readCall text signal request
    else if text.contains '/' && (text.contains '(' || text.contains ')') then
      refuse (.syntaxError .pathWithParentheses)
    else reader.readPath text request

/-- What a source behind a name turned out to be. -/
inductive Named where
  /-- A request to a registered reader; `isServer` says that the reader is another data server. -/
  | known (request : Request) (isServer : Bool)
  /-- A request to a device that is not registered. -/
  | foreign (request : Request)
  /-- Another source, for which the name of a device stands. -/
  | redirect (source : Text)

/-- A source behind a name that is not the default device. -/
def readNamed (reader : RequestReader) (name text : Text) (request : Request) : Recording Named :=
  match reader.registry.byFormat? name with
  | none => return .foreign { request with device := name, kind := .generic }
  | some found =>
    let sent := { sendTo request found with device := reader.configuration.device }
    let placed := { sent with path := text, file := [] }
    match found.readerClass with
    | .device => return .redirect (found.redirect request.delimiter text)
    | .file => return .known { sent with file := text.trim.lastElement, path := [] } false
    | .server => return .known placed true
    | .library => return .known placed false
    | .function =>
      if Call.isCall text then
        match Call.outerArguments? text with
        | none => refuse (.syntaxError .callParentheses)
        | some inner => do
          let arguments ← argumentsOf inner
          let function := Call.functionName text request.delimiter
          return .known { placed with function := function, arguments := arguments } false
      else refuse (.syntaxError (.functionExpected found.format))

/-- Whether the brackets of a text make it a subset that the delimiter only seems to cut. -/
def insideBrackets (remainder : Text) : Bool :=
  let inner? := (remainder.breakAt ']').orElse fun _ => remainder.breakAt '}'
  match inner? with
  | some (inner, _) => inner.isEmpty || inner.isInteger
  | none => false

/-- A signal and the archive that it lies in. -/
structure ArchivedSignal where
  archive : Text
  signal : Text
  deriving DecidableEq, Repr

/-- The archive and the signal that remain of what is known so far. With `reduce` the archive is
taken off the signal, and a default archive in front of it is passed over. A name that no archive can
have leaves the archive empty. A name that is too long is refused; what was passed over in front of
it stays passed over. -/
def splitArchive (default delimiter : Text) (reduce : Bool) (known : ArchivedSignal) :
    Except Failure Unit × ArchivedSignal :=
  if delimiter.isEmpty then (.ok (), known)
  else
    match _found : known.signal.trim.breakOn delimiter with
    | none => (.ok (), { known with signal := known.signal.trim })
    | some (front, remainder) =>
      let name := front.trim
      if Limit.field - 1 ≤ front.byteLength then (.error (.syntaxError .archiveTooLong), known)
      else if reduce && name.equalIgnoringCase default then
        splitArchive default delimiter reduce ⟨[], remainder⟩
      else if !name.isLegalPath || insideBrackets remainder then (.ok (), { known with archive := [] })
      else (.ok (), ⟨name, if reduce then remainder.trim else known.signal⟩)
termination_by known.signal.length
decreasing_by
  have cut := Text.length_of_breakBy _found
  have trimmed := Text.length_trim_le known.signal
  have : 0 < delimiter.length := by
    cases delimiter with
    | nil => simp at *
    | cons => simp
  show remainder.length < known.signal.length
  omega

/-- The request with its archive taken off its signal, as far as that succeeds. -/
def extractArchive (reader : RequestReader) (reduce : Bool) (request : Request) :
    Except Failure Unit × Request :=
  let (outcome, rest) :=
    splitArchive reader.configuration.archive request.delimiter reduce
      ⟨request.archive, request.signal⟩
  (outcome, { request with archive := rest.archive, signal := rest.signal })

/-- The reader of a request whose source leaves the choice to the signal. -/
def resolveSignal (reader : RequestReader) (isCall : Bool) (request : Request) : Request :=
  if !isCall then { request with kind := .generic }
  else
    let named := reader.registry.byFormat? request.archive
    match named.filter (·.readerClass == .function) with
    | some library => sendTo request library
    | none =>
      match reader.registry.serverSide? with
      | some default => sendTo request default
      | none => { request with function := [], kind := (named.map (·.kind)).getD .generic }

/-- The function library that a signal names, other than the server's own. -/
def signalLibrary? (reader : RequestReader) (archive : Text) : Option Reader :=
  (reader.registry.byFormat? archive).filter fun found =>
    found.readerClass == .function
      && !found.format.equalIgnoringCase Registry.serverSideFormat

/-- The request with the call of its signal, if it has one and may have one. -/
def readSignalCall (permitted : Bool) (request : Request) : Recording (Request × Bool) :=
  if !permitted then return (request, false)
  else
    match Call.outerArguments? request.signal with
    | none => return (request, false)
    | some inner => do
      let arguments ← argumentsOf inner
      let function := Call.functionName request.signal request.delimiter
      return ({ request with arguments := request.arguments ++ arguments, function := function }, true)

/-- The request with the subset taken off its signal. -/
def readSubset (request : Request) : Recording Request := do
  match ← Recording.ofResult "extract_subset" (Subset.extract request.signal) with
  | some found =>
    return { request with signal := found.signal, subsetText := found.text, subset := found.subset }
  | none => return request

/-- The request with the archive taken off its signal. A request without one gets the default
archive. -/
def readArchive (reader : RequestReader) (reduce : Bool) (request : Request) :
    Recording Request := do
  let (outcome, request) := reader.extractArchive reduce request
  Recording.ofResult "extract_archive" outcome
  if request.archive.isEmpty then return { request with archive := reader.configuration.archive }
  else return request

/-- Whether a request lies in the default archive. -/
def isInDefault (reader : RequestReader) (request : Request) : Bool :=
  request.archive.equalIgnoringCase reader.configuration.archive

/-- The request sent to the library that the call of its signal names, where the source left the
choice open. -/
def chooseLibrary (reader : RequestReader) (request : Request) : Request :=
  match reader.signalLibrary? request.archive with
  | some library =>
    if request.kind = .generic || request.kind = .unknown then sendTo request library else request
  | none => request

/-- The request sent where its signal wants it, as far as that is for the signal to say. -/
def chooseReader (reader : RequestReader) (noSource isCall : Bool) (request : Request) : Request :=
  if noSource then reader.resolveSignal isCall request
  else if isCall && !reader.isInDefault request then reader.chooseLibrary request
  else request

/-- The request completed by its signal. -/
def readSignal (reader : RequestReader) (noSource isServer isForeign : Bool) (request : Request) :
    Recording Request := do
  let request ← readSubset request
  let reduce := request.kind != .forward && !isForeign
  let request ← reader.readArchive reduce request
  let permitted := !isServer && (noSource || !reader.isInDefault request)
  let (request, isCall) ← readSignalCall permitted request
  return reader.chooseReader noSource isCall request

/-- The request with the address behind a server's format taken apart. -/
def readAddress (text : Text) (request : Request) : Recording Request :=
  match request.kind with
  | .mds => .ofResult mainStep (Address.tree text request)
  | .forward | .web => return Address.remote text request
  | .sql => return Address.database request
  | _ => return request

/-- The name in front of the first delimiter of a source and the text behind it. The default device
is passed over when another name follows it. -/
def splitName (device delimiter work : Text) : Option (Text × Text) :=
  match work.breakOn delimiter with
  | none => none
  | some (front, rest) =>
    if front.trim.equalIgnoringCase device then
      match rest.breakOn delimiter with
      | some (second, behind) => some (second.trim, behind.trimStart)
      | none => some (front.trim, rest)
    else some (front.trim, rest)

/-- Whether a source names nothing but the default device. -/
def isNoSource (device delimiter source : Text) : Bool :=
  source.isEmpty || source.equalIgnoringCase device
    || source.equalIgnoringCase (device ++ delimiter)

/-- What a source has in front of its text. -/
inductive Lead where
  /-- There is no source: it names nothing but the default device. -/
  | absent
  /-- No name, or the default device, in front of a text. -/
  | plain (text : Text)
  /-- Another name in front of a text. -/
  | named (name text : Text)
  deriving DecidableEq, Repr

/-- What a source has in front of its text. -/
def lead (configuration : Configuration) (delimiter source : Text) : Lead :=
  let device := configuration.device
  if isNoSource device delimiter source then .absent
  else
    let work :=
      match source.afterIgnoringCase? (device ++ delimiter) with
      | some stripped => stripped.trimStart
      | none => source
    match splitName device delimiter work with
    | none => .plain work
    | some (name, rest) => if name.equalIgnoringCase device then .plain rest else .named name rest

/-- Whether a signal asks for nothing, because it names nothing but the default archive. -/
def isNoSignal (archive delimiter signal : Text) : Bool :=
  signal.isEmpty || signal.equalIgnoringCase (archive ++ delimiter)

/-- The request that is forwarded as it came. -/
def forwarded (configuration : Configuration) (target : Text) (request : Request) : Request :=
  { request with
    kind := .forward
    server := target
    device := configuration.device
    archive := configuration.archive }

/-- What a source behind a name turned out to be, completed by its signal and by the address in its
text, or read in the place of it. -/
def readBehind (reader : RequestReader) (text : Text) (redirected : Text → Recording Request) :
    Named → Recording Request
  | .foreign request => do
    let request ← reader.readSignal false false true request
    readAddress text request
  | .known request isServer => do
    let request ← reader.readSignal false isServer false request
    readAddress text request
  | .redirect other => redirected other

/-- The request of a source and a signal, where `redirected` reads another source for which a device
stands. -/
def readSource (reader : RequestReader) (delimiter signal : Text)
    (redirected : Text → Recording Request) (source : Text) : Recording Request :=
  let configuration := reader.configuration
  let source := source.trim
  let request := { Request.blank with source, signal, delimiter }
  let lead := lead configuration delimiter source
  if lead = .absent && isNoSignal configuration.archive delimiter signal then refuse .missingRequest
  else
    match configuration.proxy with
    | some target => return forwarded configuration target request
    | none =>
      match lead with
      | .absent =>
        reader.readSignal true false false { request with device := configuration.device }
      | .plain text => do
        let request ← reader.readPlain text signal request
        reader.readSignal false false false request
      | .named name text => do
        let named ← reader.readNamed name text request
        reader.readBehind text redirected named

/-- The request of a source and a signal, where at most `sources` sources are read: the one at hand
and those for which devices stand. -/
def readWithin (reader : RequestReader) (delimiter signal : Text) :
    (sources : Nat) → (source : Text) → Recording Request
  | 0, _ => refuse (.tooManyRedirects reader.configuration.maxRedirects)
  | sources + 1, source =>
    reader.readSource delimiter signal (readWithin reader delimiter signal sources) source

/-- The request of a source and a signal. An empty `choice` selects the configured delimiter. -/
def read (reader : RequestReader) (source signal choice : Text) : Recording Request :=
  reader.readWithin (reader.configuration.delimiterOr choice) signal.trim
    (reader.configuration.maxRedirects + 1) source

/-- The request of a source and a signal, and the log after it. -/
def parse (reader : RequestReader) (source signal choice : Text) (log : FailureLog) :
    Except Failure Request × FailureLog :=
  (reader.read source signal choice).outcome log

end RequestReader

end SignalAccess
