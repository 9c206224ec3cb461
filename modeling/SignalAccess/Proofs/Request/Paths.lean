import SignalAccess.Proofs.Request.Precedence

/-!
# Sources that are paths

A source without a name in front, or with the default device in front of it, is the path of a file when
it is neither a pulse nor a call. Its reader is then found by the format of the file, and the signal is
read behind it.
-/

namespace SignalAccess

open Recording

namespace RequestReader

variable {reader : RequestReader} {delimiter source path : Text}

/-- A source that is read as the path of a file. -/
structure ReadsPath (reader : RequestReader) (delimiter source path : Text) : Prop where
  unproxied : reader.configuration.proxy = none
  plain : lead reader.configuration delimiter source.trim = .plain path
  pulse : Pulse.ofText? path = none
  call : Call.isCall path = false
  /-- A slash and a parenthesis together are refused. -/
  flat : (path.contains '/' && (path.contains '(' || path.contains ')')) = false

instance decidableReadsPath : Decidable (reader.ReadsPath delimiter source path) :=
  decidable_of_iff
    (reader.configuration.proxy = none ∧
      lead reader.configuration delimiter source.trim = .plain path ∧
      Pulse.ofText? path = none ∧ Call.isCall path = false ∧
      (path.contains '/' && (path.contains '(' || path.contains ')')) = false)
    ⟨fun ⟨unproxied, plain, pulse, call, flat⟩ => ⟨unproxied, plain, pulse, call, flat⟩,
      fun ⟨unproxied, plain, pulse, call, flat⟩ => ⟨unproxied, plain, pulse, call, flat⟩⟩

/-- The request that the path of a file starts with. -/
def pathRequest (reader : RequestReader) (delimiter source signal : Text) : Request :=
  { Request.blank with
    source := source.trim, signal := signal, delimiter := delimiter
    device := reader.configuration.device }

/-- A source that is a path is read as the path, and then its signal. -/
theorem readSource_of_path (reads : reader.ReadsPath delimiter source path) (signal : Text)
    (follow : Text → Recording Request) :
    reader.readSource delimiter signal follow source =
      reader.readPath path (reader.pathRequest delimiter source signal) >>=
        reader.readSignal false false false := by
  rw [readSource_of_plain reads.unproxied reads.plain, readPlain, reads.pulse]
  dsimp only
  rw [reads.call, if_neg Bool.false_ne_true, reads.flat, if_neg Bool.false_ne_true]
  rfl

end RequestReader

end SignalAccess
