import SignalAccess.Failure.Protocol
import SignalAccess.Failure.SystemCode
/-!
# Failures

Every operation that can fail does so with a `Failure`: its cause, from which its numeric code, its
origin and its wording follow. Causes that carry a text carry what the wording adds to the cause.
-/
namespace SignalAccess

/-- Where a failure arose. The numbers are those on the wire. -/
inductive Origin where
  /-- In the operating system. -/
  | system
  /-- In this library. -/
  | code
  /-- In a reader. -/
  | reader
  deriving DecidableEq, Repr

namespace Origin

/-- The number of an origin. -/
def number : Origin → Int32
  | .system => 1
  | .code => 2
  | .reader => 3

/-- The origin with a number; any other number counts as this library's own. -/
def ofNumber (number : Int32) : Origin :=
  if number = 1 then .system else if number = 3 then .reader else .code

/-- The number of an origin leads back to the origin. -/
theorem ofNumber_number (origin : Origin) : ofNumber origin.number = origin := by
  cases origin <;> rfl

end Origin

/-- A failure of the operating system. -/
inductive SystemFault where
  /-- One with a number. -/
  | numbered (code : Int32)
  /-- One that only a text describes. -/
  | described (text : Text)
  deriving DecidableEq, Repr

/-- A text that breaks the grammar of requests or path rules. -/
inductive SyntaxFault where
  /-- A list of arguments starts or ends with its equals sign. -/
  | argumentList (text : Text)
  /-- A list of arguments proposes a delimiter that does not precede the proposal. -/
  | argumentDelimiter (text : Text)
  /-- A name or value holds both quotes, so that neither can enclose it. -/
  | bothQuotes (text : Text)
  /-- A bound of a slice is no integer. -/
  | boundNotInteger (what : String) (token : Text)
  /-- A bound of a slice is negative. -/
  | boundNegative (what : String) (value : Int)
  /-- The stride of a slice is no integer. -/
  | strideNotInteger (token : Text)
  /-- The stride of a slice is not positive. -/
  | strideNotPositive (value : Int)
  /-- A slice stops before it starts. -/
  | stopBeforeStart (stop start : Int)
  /-- A slice has more than three parts. -/
  | sliceParts (text : Text)
  /-- A path holds parentheses. -/
  | pathWithParentheses
  /-- A call has no complete argument list. -/
  | noCall
  /-- A function library is given something other than a call. -/
  | functionExpected (format : Text)
  /-- A call behind a library has no complete argument list. -/
  | callParentheses
  /-- The name of an archive is too long. -/
  | archiveTooLong
  /-- A rule's substitute has wildcards that its target lacks. -/
  | wildcardWithoutTarget
  /-- A rule's target and substitute have different numbers of wildcards. -/
  | wildcardCount
  /-- A breach that a peer describes in its own words. -/
  | described (text : Text)
  deriving DecidableEq, Repr

/-- The wording of a breach of grammar. -/
def SyntaxFault.message : SyntaxFault → String
  | .argumentList text => s!"Name Value pair syntax is incorrect: {String.ofList text}"
  | .argumentDelimiter text =>
    s!"Name Value pair delimiter is not preceded by itself: {String.ofList text}"
  | .bothQuotes text =>
    s!"Name Value pair text contains both quote characters: {String.ofList text}"
  | .boundNotInteger what token => s!"Invalid {what} in subset operation: '{String.ofList token}'"
  | .boundNegative what value => s!"Negative {what} in subset operation: {value}"
  | .strideNotInteger token => s!"Invalid stride in subset operation: '{String.ofList token}'"
  | .strideNotPositive value => s!"Invalid stride in subset operation: {value}"
  | .stopBeforeStart stop start => s!"Invalid stop index in subset operation: {stop} < {start}"
  | .sliceParts text => s!"Invalid number of elements in subset operation: '{String.ofList text}'"
  | .pathWithParentheses => "Source syntax: path with parenthesis () is incorrect!"
  | .noCall => "No Data Access Plugin Identified!"
  | .functionExpected format =>
    let name := String.ofList format
    s!"Not a function when one is expected! - A Library plugin has been specified ({name})"
  | .callParentheses => "Function syntax error - please correct"
  | .archiveTooLong => "The ARCHIVE Name is too long!"
  | .wildcardWithoutTarget =>
    "No wildcards are permitted in the substitute path unless matched by one in the target path."
  | .wildcardCount => "Un-matched wildcards found in the target and substitute paths"
  | .described text => String.ofList text

/-- A configuration that contradicts itself. -/
inductive ConfigurationFault where
  /-- A device in a registry has no host. -/
  | deviceWithoutHost (name : Text)
  /-- A target or substitute of a path rule is too long. -/
  | ruleTooLong (role : String) (start : Text)
  /-- The lists of targets and substitutes differ in length. -/
  | ruleCount
  /-- A contradiction that is described in other words. -/
  | described (text : Text)
  deriving DecidableEq, Repr

/-- The wording of a contradiction. -/
def ConfigurationFault.message : ConfigurationFault → String
  | .deviceWithoutHost name => s!"Device '{String.ofList name}' has no host"
  | .ruleTooLong role start =>
    s!"The length of the path {role} '{String.ofList start}...' exceeds the internal limit"
  | .ruleCount => "Number of Path Targets and Substitutes is inconsistent"
  | .described text => String.ofList text

/-- Why an operation failed. -/
inductive Failure where
  /-- The operating system refused a file, a program or a stream. -/
  | system (fault : SystemFault)
  /-- A JSON document is malformed or is none of the kind asked for. -/
  | json (detail : Text)
  /-- A value could not be written as MessagePack. -/
  | messagePackEncoding (detail : Text)
  /-- A MessagePack document is malformed or is none of the kind asked for. -/
  | messagePackDecoding (detail : Text)
  /-- The exchange with the peer broke its protocol in the given section. -/
  | protocol (part : Section) (fault : ProtocolFault)
  /-- A request names neither a data object nor a source. -/
  | missingRequest
  /-- A text breaks the grammar. -/
  | syntaxError (fault : SyntaxFault)
  /-- Devices stood for devices more often than is allowed. -/
  | tooManyRedirects (limit : Nat)
  /-- No file format fits a path. -/
  | unrecognizedFormat (detail : Text)
  /-- A tree number has no tree name in front of it. -/
  | ambiguousTree (detail : Text)
  /-- A path uses characters that no portable path has. -/
  | illegalPath (detail : Text)
  /-- The configuration contradicts itself. -/
  | configuration (fault : ConfigurationFault)
  /-- The peer closed the stream. -/
  | connectionClosed
  deriving DecidableEq, Repr

namespace Failure

/-- The code of failures that have none of their own. -/
def generalCode : Int32 := 999

/-- The numeric code of a failure. -/
def code : Failure → Int32
  | .system (.numbered code) => code
  | .protocol part _ => part
  | .connectionClosed => Section.state
  | _ => generalCode

/-- Where a failure arose. -/
def origin : Failure → Origin
  | .system _ => .system
  | _ => .code

/-- The wording of a failure. -/
def message : Failure → String
  | .system (.numbered code) => s!"I/O error: {SystemCode.describe code}"
  | .system (.described text) => s!"I/O error: {String.ofList text}"
  | .json detail => s!"JSON error: {String.ofList detail}"
  | .messagePackEncoding detail => s!"MsgPack encode error: {String.ofList detail}"
  | .messagePackDecoding detail => s!"MsgPack decode error: {String.ofList detail}"
  | .protocol _ fault => s!"Protocol error: {fault.message}"
  | .missingRequest => "Neither Data Object nor Source specified!"
  | .syntaxError fault => s!"Syntax error: {fault.message}"
  | .tooManyRedirects limit => s!"Too many device redirections ({limit})"
  | .unrecognizedFormat detail => s!"No File Format identified: {String.ofList detail}"
  | .ambiguousTree detail => s!"Ambiguous MDS+ path: {String.ofList detail}"
  | .illegalPath detail => s!"Illegal path: {String.ofList detail}"
  | .configuration fault => s!"Configuration error: {fault.message}"
  | .connectionClosed => "Connection closed"

end Failure

end SignalAccess
