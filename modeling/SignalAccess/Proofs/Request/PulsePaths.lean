import SignalAccess.Proofs.Request.Paths
import SignalAccess.Proofs.Text.Pieces
import SignalAccess.Proofs.Text.Search

/-!
# Pulses in paths

A path that starts with a slash, a pulse and perhaps a pass is the path of a file and still says which
pulse is meant. The pulse is looked for behind the first character of the path, and that character may
be any. So a request for a file has a pulse exactly if digits stand behind the first character of its
path, up to a slash or to the end, and are the number of a pulse; its pass is the next element of the
path.

What a path says of a pulse is stated here by its text alone. Reading agrees with it, and neither the
signal nor a device in front of the path adds anything.
-/

namespace SignalAccess

open Recording

namespace Request

/-- What a request says of a pulse: its number, its pass, and the pass that is no number. -/
def pulseParts (request : Request) : Int32 × Int32 × Text :=
  (request.pulse, request.pass, request.passName)

/-- The parts of a request that says nothing of a pulse. -/
def noPulse : Int32 × Int32 × Text := (0, -1, [])

end Request

namespace RequestReader

variable {reader : RequestReader} {delimiter source path digits rest : Text} {request : Request}

/-- A pulse stands behind the first character of a path: digits that make the number of a pulse, up to
a slash or to the end. The rest of the path begins there. -/
structure PulseBehindFirst (path digits rest : Text) : Prop where
  written : ∃ first, path = first :: (digits ++ rest)
  number : digits.isDigits = true
  fits : digits.digitsValue < 2 ^ 31
  apart : ∀ c, rest.head? = some c → c = '/'

/-! ## Texts that start with a pulse -/

/-- Digits up to a slash or to the end are a pulse, and the next element is its pass. -/
theorem Pulse.ofText?_of_digits (given : digits.isDigits = true)
    (apart : ∀ c, rest.head? = some c → c = '/') :
    Pulse.ofText? (digits ++ rest) =
      digits.int32?.map fun number => ⟨number, rest.elements.head?⟩ := by
  obtain ⟨c, first, digit⟩ := Text.exists_head?_of_isDigits given
  obtain ⟨more, rfl⟩ := List.head?_eq_some_iff.mp first
  have other : c ≠ '/' := by
    rintro rfl
    simp at digit
  have elements := Text.elements_append_of_apart (List.cons_ne_nil c more)
    (Text.not_mem_of_isDigits given (by decide)) apart
  rw [ofText?, elements]
  simp [other]

/-- A pulse that a text starting with a digit is was made by digits up to a slash or to the end. -/
theorem Pulse.exists_of_ofText? {t : Text} {pulse : Pulse} {c : Char} (first : t.head? = some c)
    (digit : c.isDigit = true) (found : Pulse.ofText? t = some pulse) :
    ∃ digits rest, t = digits ++ rest ∧ digits.isDigits = true ∧
      ∀ c, rest.head? = some c → c = '/' := by
  obtain ⟨front, rest, rfl, free, apart⟩ := Text.exists_append_apart t
  have given : front ≠ [] := by
    rintro rfl
    obtain rfl := apart c first
    simp at digit
  have start : front.head? = some c := by rwa [List.head?_append_of_ne_nil _ given] at first
  refine ⟨front, rest, rfl, ?_, apart⟩
  rw [ofText?, Text.elements_append_of_apart given free apart] at found
  split at found
  · cases found
  · obtain ⟨number, held, -⟩ := Option.map_eq_some_iff.mp found
    have value := Text.int32?_eq_some_iff.mp held
    rw [Text.integerValue?_of_digit start digit] at value
    by_contra other
    simp [other] at value

/-! ## Pulses behind the first character -/

/-- The pulse behind the first character of a path is put into the request. -/
theorem pulseInPath_of_behind (behind : PulseBehindFirst path digits rest) (request : Request) :
    ∃ number : Int32, number.toInt = digits.digitsValue ∧
      pulseInPath path request = atPulse request ⟨number, rest.elements.head?⟩ := by
  obtain ⟨⟨first, rfl⟩, given, fits, apart⟩ := behind
  obtain ⟨c, start, digit⟩ := Text.exists_head?_of_isDigits given
  obtain ⟨more, rfl⟩ := List.head?_eq_some_iff.mp start
  have number : (Int32.ofInt (Text.digitsValue (c :: more))).toInt =
      (Text.digitsValue (c :: more) : Int) := Int32.toInt_ofInt_of_le (by omega) (by omega)
  have held := (Text.int32?_eq_some_iff_of_isDigits given).mpr number
  refine ⟨_, number, ?_⟩
  rw [pulseInPath, List.drop_one, List.tail_cons, Pulse.ofText?_of_digits given apart, held]
  simp [digit]

/-- Without one, the request is left alone. -/
theorem pulseInPath_of_absent (absent : ∀ digits rest, ¬PulseBehindFirst path digits rest)
    (request : Request) : pulseInPath path request = request := by
  rw [pulseInPath]
  split
  · next starts =>
    cases found : Pulse.ofText? (path.drop 1) with
    | none => rfl
    | some pulse =>
      exfalso
      obtain ⟨c, first, digit⟩ : ∃ c, (path.drop 1).head? = some c ∧ c.isDigit = true := by
        cases first : (path.drop 1).head? with
        | none =>
          rw [first] at starts
          cases starts
        | some c =>
          rw [first] at starts
          exact ⟨c, rfl, starts⟩
      obtain ⟨digits, rest, whole, given, apart⟩ := Pulse.exists_of_ofText? first digit found
      rw [whole, Pulse.ofText?_of_digits given apart] at found
      obtain ⟨number, held, -⟩ := Option.map_eq_some_iff.mp found
      have value := (Text.int32?_eq_some_iff_of_isDigits given).mp held
      have bound := number.toInt_lt
      refine absent digits rest ⟨?_, given, by omega, apart⟩
      cases path with
      | nil => simp at first
      | cons start path => exact ⟨start, by simpa using whole⟩
  · rfl

/-- A request for a pulse says nothing of one only if its number is zero and its pass the latest. -/
theorem pulseParts_atPulse_eq_iff (blank : request.pulseParts = Request.noPulse) {pulse : Pulse}
    (named : ∀ pass, pulse.pass = some pass → pass ≠ []) :
    (atPulse request pulse).pulseParts = Request.noPulse ↔
      pulse.number = 0 ∧ ∀ pass, pulse.pass = some pass → pass.int32? = some (-1) := by
  obtain ⟨number, pass⟩ := pulse
  obtain ⟨-, latest, unnamed⟩ : request.pulse = 0 ∧ request.pass = -1 ∧ request.passName = [] := by
    simpa [Request.pulseParts, Request.noPulse] using blank
  cases pass with
  | none => simp [atPulse, Request.pulseParts, Request.noPulse, latest, unnamed]
  | some pass =>
    have given : pass ≠ [] := named pass rfl
    cases held : pass.int32? with
    | none => simp [atPulse, Request.pulseParts, Request.noPulse, held, given]
    | some value => simp [atPulse, Request.pulseParts, Request.noPulse, held, unnamed]

/-- The number behind the first character is that of the request. -/
theorem pulse_pulseInPath (behind : PulseBehindFirst path digits rest) (request : Request) :
    (pulseInPath path request).pulse.toInt = digits.digitsValue := by
  obtain ⟨number, value, put⟩ := pulseInPath_of_behind behind request
  rw [put, ← value, atPulse]
  split
  · rfl
  · split
    · rfl
    · rfl

/-- What stands behind the first character says nothing of a pulse only if it is zero, with no pass
behind it or with the latest. -/
theorem pulseParts_pulseInPath_eq_iff (behind : PulseBehindFirst path digits rest)
    (blank : request.pulseParts = Request.noPulse) :
    (pulseInPath path request).pulseParts = Request.noPulse ↔
      digits.digitsValue = 0 ∧
        ∀ pass, rest.elements.head? = some pass → pass.int32? = some (-1) := by
  obtain ⟨number, value, put⟩ := pulseInPath_of_behind behind request
  have named : ∀ pass, rest.elements.head? = some pass → pass ≠ [] := fun pass first =>
    Text.ne_nil_of_mem_elements (List.mem_of_head? first)
  have zero : number = 0 ↔ digits.digitsValue = 0 := by
    rw [← Int32.toInt_inj, value]
    simp
  rw [put, pulseParts_atPulse_eq_iff blank named, zero]

/-! ## Requests for files -/

/-- The reader of a file changes nothing of the pulse in its path. -/
theorem pulseParts_of_readPath (path : Text) (request : Request) :
    (reader.readPath path request).Yields fun read =>
      read.pulseParts = (pulseInPath path request).pulseParts := by
  rw [readPath]
  split
  · exact yields_refuse _ _
  · exact yields_pure rfl

/-- Behind a source, the signal says nothing of a pulse. -/
theorem pulseParts_of_readSignal (isServer isForeign : Bool) (request : Request) :
    (reader.readSignal false isServer isForeign request).Yields fun read =>
      read.pulseParts = request.pulseParts := by
  refine (yields_readSignal isServer isForeign request).mono ?_
  rintro read ⟨kind, format, archive, signal, subsetText, subset, arguments, function, rfl, -⟩
  rfl

/-- A source that is read as a path says of a pulse what the path says. -/
theorem pulseParts_of_readSource (reads : reader.ReadsPath delimiter source path) (signal : Text)
    (follow : Text → Recording Request) :
    (reader.readSource delimiter signal follow source).Yields fun read => ∃ request : Request,
      request.pulseParts = Request.noPulse ∧
        read.pulseParts = (pulseInPath path request).pulseParts := by
  rw [readSource_of_path reads]
  refine (pulseParts_of_readPath path _).bind fun sent same => ?_
  refine (pulseParts_of_readSignal false false sent).mono fun read kept => ?_
  exact ⟨_, rfl, kept.trans same⟩

/-- A source that is the path of a file, or that devices stand for, gives a request with a pulse exactly
if one stands behind the first character of the path. Its number is then that of the request. -/
theorem pulse_of_path (reader : RequestReader) (choice : Text) {source final path : Text}
    {substitutions : Nat}
    (stands : reader.StandsFor (reader.configuration.delimiterOr choice) substitutions source final)
    (reads : reader.ReadsPath (reader.configuration.delimiterOr choice) final path) {signal : Text}
    {log : FailureLog} {read : Request}
    (done : (reader.parse source signal choice log).1 = .ok read) :
    (read.pulse = 0 ∧ read.pass = -1 ∧ read.passName = [] ↔
      ∀ digits rest, PulseBehindFirst path digits rest → digits.digitsValue = 0 ∧
        ∀ pass, rest.elements.head? = some pass → pass.int32? = some (-1)) ∧
    ∀ digits rest, PulseBehindFirst path digits rest → read.pulse.toInt = digits.digitsValue := by
  have yields := yields_readWithin_of_standsFor reads.unproxied stands
    (pulseParts_of_readSource reads signal.trim) (reader.configuration.maxRedirects + 1)
  obtain ⟨request, blank, same⟩ := yields.of_outcome done
  have parts : read.pulse = 0 ∧ read.pass = -1 ∧ read.passName = [] ↔
      (pulseInPath path request).pulseParts = Request.noPulse := by
    rw [← same]
    simp [Request.pulseParts, Request.noPulse]
  constructor
  · rw [parts]
    constructor
    · intro nothing digits rest behind
      exact (pulseParts_pulseInPath_eq_iff behind blank).mp nothing
    · intro each
      by_cases found : ∃ digits rest, PulseBehindFirst path digits rest
      · obtain ⟨digits, rest, behind⟩ := found
        exact (pulseParts_pulseInPath_eq_iff behind blank).mpr (each digits rest behind)
      · rw [pulseInPath_of_absent (by simpa using found)]
        exact blank
  · intro digits rest behind
    have pulse : read.pulse = (pulseInPath path request).pulse := congrArg Prod.fst same
    rw [pulse]
    exact pulse_pulseInPath behind request

/-- An installation with a device that stands for a directory by its path. -/
def sharing : RequestReader where
  configuration := .standard
  registry := Registry.standard.registerAll [deviceFor "DISK" "" "d99"]
  machine := .bare

/-- A file in a directory whose name ends with digits, behind the device: the digits are the number of
its pulse, and the file is its pass. -/
theorem pulse_of_path_sharing :
    let read := { Request.blank with
      kind := .netcdf, format := "NETCDF".toList, pulse := 99, passName := "b.nc".toList
      path := "d99/b.nc".toList, file := "b.nc".toList, signal := "ip".toList
      source := "::d99/b.nc".toList, delimiter := "::".toList }
    sharing.StandsFor "::".toList 1 "DISK::b.nc".toList "::d99/b.nc".toList ∧
      sharing.ReadsPath "::".toList "::d99/b.nc".toList "d99/b.nc".toList ∧
      (sharing.parse "DISK::b.nc".toList "ip".toList [] .empty).1 = .ok read ∧
      PulseBehindFirst "d99/b.nc".toList "99".toList "/b.nc".toList ∧
      ¬(read.pulse = 0 ∧ read.pass = -1 ∧ read.passName = []) ∧
      read.pulse.toInt = Text.digitsValue "99".toList := by
  intro read
  have disk : sharing.redirect? "::".toList "DISK::b.nc".toList = some "::d99/b.nc".toList := by
    decide +kernel
  have direct : sharing.redirect? "::".toList "::d99/b.nc".toList = none := by decide +kernel
  have stands := StandsFor.device disk (.itself direct)
  have reads : sharing.ReadsPath "::".toList "::d99/b.nc".toList "d99/b.nc".toList := by
    decide +kernel
  have done : (sharing.parse "DISK::b.nc".toList "ip".toList [] .empty).1 = .ok read := by
    decide +kernel
  have behind : PulseBehindFirst "d99/b.nc".toList "99".toList "/b.nc".toList :=
    ⟨⟨'d', rfl⟩, by decide, by decide, fun c first => (Option.some.inj first).symm⟩
  obtain ⟨exactly, number⟩ := pulse_of_path sharing [] stands reads done
  refine ⟨stands, reads, done, behind, fun nothing => ?_, number _ _ behind⟩
  have zero := (exactly.mp nothing _ _ behind).1
  revert zero
  decide

/-- A path need not start with a slash to have a pulse. -/
theorem not_forall_pulse_of_path :
    ¬∀ (reader : RequestReader) (source path signal choice : Text) (log : FailureLog)
      (read : Request),
      reader.ReadsPath (reader.configuration.delimiterOr choice) source path →
      path.head? ≠ some '/' → (reader.parse source signal choice log).1 = .ok read →
      read.pulse = 0 ∧ read.pass = -1 ∧ read.passName = [] := by
  intro claimed
  have reads : sharing.ReadsPath "::".toList "d99/b.nc".toList "d99/b.nc".toList := by
    decide +kernel
  have done : (sharing.parse "d99/b.nc".toList "ip".toList [] .empty).1 =
      .ok { Request.blank with
        kind := .netcdf, format := "NETCDF".toList, pulse := 99, passName := "b.nc".toList
        path := "d99/b.nc".toList, file := "b.nc".toList, signal := "ip".toList
        source := "d99/b.nc".toList, delimiter := "::".toList } := by
    decide +kernel
  obtain ⟨none, -⟩ := claimed sharing _ _ _ [] .empty _ reads (by decide) done
  revert none
  decide

end RequestReader

end SignalAccess
