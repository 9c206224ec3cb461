import SignalAccess.Proofs.Request.Steps

/-!
# Devices that stand for sources

A device in front of a source stands for another source, which may have a device in front of it in
turn, and devices may well stand for each other in a circle. The chain of sources is defined here
apart from reading, as far as it goes; reading agrees with it. A source that stands for a final one
within the permitted number of substitutions is read as the final one would be, and every other
source is refused once the permitted number is used up.

The source grows from one substitution to the next, so nothing in it bounds the chain. Both laws are
by induction: the first one on the chain, the second one on the number of sources that may be read.
-/

namespace SignalAccess

open Recording

namespace RequestReader

variable {reader : RequestReader} {delimiter source other final : Text}

/-- The source that stands behind the device in front of a source, if a device stands there. -/
def redirect? (reader : RequestReader) (delimiter source : Text) : Option Text :=
  match lead reader.configuration delimiter source.trim with
  | .named name text =>
    ((reader.registry.byFormat? name).filter (·.readerClass == .device)).map
      (·.redirect delimiter text)
  | _ => none

/-- A source stands for a final one, which has no device in front, after a number of substitutions. -/
inductive StandsFor (reader : RequestReader) (delimiter : Text) : Nat → Text → Text → Prop where
  | itself {source : Text} (direct : reader.redirect? delimiter source = none) :
    StandsFor reader delimiter 0 source source
  | device {substitutions : Nat} {source other final : Text}
    (redirected : reader.redirect? delimiter source = some other)
    (stands : StandsFor reader delimiter substitutions other final) :
    StandsFor reader delimiter (substitutions + 1) source final

/-- A source that its device replaces by itself stands for no final one. -/
theorem not_standsFor_of_circle (circle : reader.redirect? delimiter source = some source)
    (substitutions : Nat) : ¬reader.StandsFor delimiter substitutions source final := by
  intro stands
  induction stands with
  | itself direct =>
    rw [direct] at circle
    cases circle
  | device redirected stands inductionHypothesis =>
    rw [redirected] at circle
    cases circle
    exact inductionHypothesis redirected

/-! ## One source -/

/-- Behind a device, another source is read. -/
theorem readSource_of_redirect? (unproxied : reader.configuration.proxy = none)
    (redirected : reader.redirect? delimiter source = some other) (signal : Text)
    (follow : Text → Recording Request) :
    reader.readSource delimiter signal follow source = follow other := by
  unfold redirect? at redirected
  split at redirected
  · next name text named =>
    obtain ⟨found, given, rfl⟩ := Option.map_eq_some_iff.mp redirected
    obtain ⟨registered, sort⟩ := Option.filter_eq_some_iff.mp given
    have device : found.readerClass = .device := by simpa using sort
    simp [readSource, named, unproxied, readNamed, readBehind, registered, device]
  · cases redirected

/-- Without a device, no other source is read. -/
theorem readSource_of_direct (direct : reader.redirect? delimiter source = none) (signal : Text)
    (follow otherwise : Text → Recording Request) :
    reader.readSource delimiter signal follow source =
      reader.readSource delimiter signal otherwise source := by
  unfold readSource
  dsimp only
  split
  · rfl
  · split
    · rfl
    · split
      · rfl
      · rfl
      · next name text named =>
        refine (yields_readNamed name text _).bind_congr fun value given => ?_
        cases given with
        | foreign absent => rfl
        | file given file => rfl
        | placed given device file => rfl
        | redirect given device =>
          simp [redirect?, named, given, device] at direct

/-! ## Chains of sources -/

/-- A source is read as the one that it stands for, as long as enough sources may be read. -/
theorem readWithin_of_standsFor (unproxied : reader.configuration.proxy = none) {substitutions : Nat}
    (stands : reader.StandsFor delimiter substitutions source final) (signal : Text)
    (spare others : Nat) :
    reader.readWithin delimiter signal (spare + 1 + substitutions) source =
      reader.readWithin delimiter signal (others + 1) final := by
  induction stands with
  | itself direct => exact readSource_of_direct direct signal _ _
  | device redirected stands inductionHypothesis =>
    rw [← inductionHypothesis]
    exact readSource_of_redirect? unproxied redirected signal _

/-- Whatever the final source gives, a source that stands for it gives, by induction on the chain. -/
theorem yields_readWithin_of_standsFor (unproxied : reader.configuration.proxy = none)
    {substitutions : Nat} (stands : reader.StandsFor delimiter substitutions source final)
    {signal : Text} {property : Request → Prop}
    (given : ∀ follow, (reader.readSource delimiter signal follow final).Yields property)
    (sources : Nat) : (reader.readWithin delimiter signal sources source).Yields property := by
  induction stands generalizing sources with
  | itself direct =>
    cases sources with
    | zero => exact yields_refuse _ _
    | succ sources => exact given _
  | device redirected stands inductionHypothesis =>
    cases sources with
    | zero => exact yields_refuse _ _
    | succ sources =>
      unfold readWithin
      rw [readSource_of_redirect? unproxied redirected]
      exact inductionHypothesis given sources

/-- A source that stands for none within the sources that may be read is refused. -/
theorem readWithin_of_endless (unproxied : reader.configuration.proxy = none) (signal : Text)
    {sources : Nat}
    (endless : ∀ substitutions final, reader.StandsFor delimiter substitutions source final →
      sources ≤ substitutions) :
    reader.readWithin delimiter signal sources source =
      refuse (.tooManyRedirects reader.configuration.maxRedirects) := by
  induction sources generalizing source with
  | zero => rfl
  | succ sources inductionHypothesis =>
    cases redirected : reader.redirect? delimiter source with
    | none => exact absurd (endless 0 source (.itself redirected)) (Nat.not_succ_le_zero sources)
    | some other =>
      have next := readSource_of_redirect? unproxied redirected signal
        (reader.readWithin delimiter signal sources)
      refine next.trans (inductionHypothesis fun substitutions final stands => ?_)
      exact Nat.le_of_succ_le_succ (endless _ final (.device redirected stands))

/-- Without a proxy, a source that stands for another one within the permitted number of substitutions
is read as the other one is; any other source is refused, and the refusal is recorded. -/
theorem parse_redirected (reader : RequestReader) (unproxied : reader.configuration.proxy = none)
    (source signal choice : Text) (log : FailureLog) :
    let delimiter := reader.configuration.delimiterOr choice
    let permitted := reader.configuration.maxRedirects
    (∀ substitutions final, reader.StandsFor delimiter substitutions source final →
      substitutions ≤ permitted →
      reader.parse source signal choice log = reader.parse final signal choice log) ∧
    ((∀ substitutions final, reader.StandsFor delimiter substitutions source final →
        permitted < substitutions) →
      reader.parse source signal choice log =
        (.error (.tooManyRedirects permitted),
          log.record mainStep.toList (.tooManyRedirects permitted))) := by
  intro delimiter permitted
  constructor
  · intro substitutions final stands within
    obtain ⟨spare, same⟩ := Nat.exists_eq_add_of_le within
    have enough : permitted + 1 = spare + 1 + substitutions := by omega
    have read := readWithin_of_standsFor unproxied stands signal.trim spare permitted
    rw [← enough] at read
    exact congrArg (fun step => outcome step log) read
  · intro endless
    have read := readWithin_of_endless unproxied signal.trim endless
    exact congrArg (fun step => outcome step log) read

/-- A device that stands for a host behind another format. -/
def deviceFor (name format host : String) : Reader :=
  { Reader.plain name.toList .unknown .device with protocol := format.toList, host := host.toList }

/-- A device behind a device, a device that stands for itself, and two substitutions permitted. -/
def circling (proxy : Option Text) : RequestReader where
  configuration := { Configuration.standard with proxy := proxy, maxRedirects := 2 }
  registry := Registry.standard.registerAll
    [deviceFor "NEAR" "Far" "disk", deviceFor "FAR" "NETCDF" "store", deviceFor "LOOP" "LOOP" ""]
  machine := .bare

/-- The last of the permitted substitutions is made, and a circle is given up. -/
theorem parse_redirected_circling :
    let reader := circling none
    reader.configuration.proxy = none ∧
      reader.StandsFor "::".toList 2 "NEAR:: run.nc".toList "NETCDF::store/disk/run.nc".toList ∧
      reader.parse "NEAR:: run.nc".toList "ip".toList [] .empty =
        reader.parse "NETCDF::store/disk/run.nc".toList "ip".toList [] .empty ∧
      reader.parse "LOOP::".toList "ip".toList [] .empty =
        (.error (.tooManyRedirects 2),
          FailureLog.empty.record mainStep.toList (.tooManyRedirects 2)) := by
  intro reader
  have near : reader.redirect? "::".toList "NEAR:: run.nc".toList =
      some "Far::disk/run.nc".toList := by decide +kernel
  have far : reader.redirect? "::".toList "Far::disk/run.nc".toList =
      some "NETCDF::store/disk/run.nc".toList := by decide +kernel
  have file : reader.redirect? "::".toList "NETCDF::store/disk/run.nc".toList = none := by
    decide +kernel
  have circle : reader.redirect? "::".toList "LOOP::".toList = some "LOOP::".toList := by
    decide +kernel
  have stands := StandsFor.device near (.device far (.itself file))
  have chain := parse_redirected reader rfl "NEAR:: run.nc".toList "ip".toList [] .empty
  have loop := parse_redirected reader rfl "LOOP::".toList "ip".toList [] .empty
  refine ⟨rfl, stands, chain.1 2 _ stands (Nat.le_refl 2), loop.2 ?_⟩
  intro substitutions final found
  exact absurd found (not_standsFor_of_circle circle substitutions)

/-- With a proxy no device is substituted: the circle is not given up, the request goes to the proxy as
it came. -/
theorem not_forall_redirected :
    ¬∀ (reader : RequestReader) (source signal choice : Text) (log : FailureLog),
      let delimiter := reader.configuration.delimiterOr choice
      let permitted := reader.configuration.maxRedirects
      (∀ substitutions final, reader.StandsFor delimiter substitutions source final →
        substitutions ≤ permitted →
        (reader.parse source signal choice log).1 = (reader.parse final signal choice log).1) ∧
      ((∀ substitutions final, reader.StandsFor delimiter substitutions source final →
          permitted < substitutions) →
        (reader.parse source signal choice log).1 = .error (.tooManyRedirects permitted)) := by
  intro claimed
  let reader := circling (some "proxy:1".toList)
  have circle : reader.redirect? "::".toList "LOOP::".toList = some "LOOP::".toList := by
    decide +kernel
  have sent : (reader.parse "LOOP::".toList "ip".toList [] .empty).1 ≠
      .error (.tooManyRedirects 2) := by decide +kernel
  apply sent
  apply (claimed reader "LOOP::".toList "ip".toList [] .empty).2
  intro substitutions final found
  exact absurd found (not_standsFor_of_circle circle substitutions)

end RequestReader

end SignalAccess
