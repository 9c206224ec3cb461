import SignalAccess.Data.Elements
/-!
# Error bars

Errors belong to the elements of a block or to the coordinates of an axis: a model with its
parameters, and errors above and below each value. Errors that are the same on both sides are only
given above. What the header says of error bars follows from them.
-/
namespace SignalAccess

/-- The errors of a row of values. -/
structure ErrorBars where
  model : Int32
  parameters : List Binary32
  upper : Option Elements
  /-- The errors below, where they differ from those above. -/
  lower : Option Elements
  deriving DecidableEq

namespace ErrorBars

/-- No errors. -/
def absent : ErrorBars := ⟨0, [], none, none⟩

/-- The type of the errors. -/
def type (bars : ErrorBars) : ElementType := (bars.upper.map (·.elementType)).getD .unknown

/-- Whether the errors below are given on their own. -/
def isAsymmetric (bars : ErrorBars) : Bool := bars.lower.isSome

/-- The errors below each value. -/
def below (bars : ErrorBars) : Option Elements := bars.lower <|> bars.upper

/-- What is wrong with error bars for a number of values, if anything is. -/
def fault? (bars : ErrorBars) (count : Nat) : Option ProtocolFault :=
  match bars.upper, bars.lower with
  | none, none => none
  | none, some _ => some .lowerErrorsAlone
  | some upper, lower =>
    if upper.count ≠ count then some (.upperErrorCount upper.count count)
    else if lower.all (·.areOf upper.elementType count) then none
    else some .lowerErrorMismatch

/-- What a header says of error bars. -/
structure Header where
  type : ElementType
  model : Int32
  asymmetric : Bool
  parameterCount : Nat
  deriving DecidableEq, Repr

/-- The header of error bars. -/
def header (bars : ErrorBars) : Header :=
  ⟨bars.type, bars.model, bars.isAsymmetric, bars.parameters.length⟩

/-- The header on the wire. -/
def Header.encode (part : Section) (header : Header) : Encoding :=
  .joined [.int32 header.type.code, .int32 header.model, .truth header.asymmetric,
    .count part header.parameterCount]

/-- Reads a header. -/
def Header.decode : Decoder Header := do
  let type ← Decoder.elementType
  let model ← Decoder.int32
  let asymmetric ← Decoder.truth
  let parameterCount ← Decoder.count
  return ⟨type, model, asymmetric, parameterCount⟩

/-- The errors on the wire: the parameters if there are any, the errors above, those below. -/
def encode (part : Section) (bars : ErrorBars) : Encoding :=
  .joined [
    if bars.parameters.isEmpty then .ok []
    else .words part 4 (bars.parameters.map (·.bits.toBitVec)),
    (bars.upper.map (·.encode part)).getD (.ok []),
    (bars.lower.map (·.encode part)).getD (.ok [])]

/-- Reads the errors of a number of values after their header. -/
def decode (header : Header) (count : Nat) : Decoder ErrorBars := do
  let parameters ←
    if header.parameterCount = 0 then pure []
    else Decoder.words 4 header.parameterCount
  let bars : ErrorBars := ⟨header.model, parameters.map fun word => ⟨⟨word⟩⟩, none, none⟩
  if header.type = .unknown then return bars
  else
    let upper ← Elements.decode header.type count
    if header.asymmetric then
      return { bars with upper := some upper, lower := some (← Elements.decode header.type count) }
    else return { bars with upper := some upper }

end ErrorBars

end SignalAccess
