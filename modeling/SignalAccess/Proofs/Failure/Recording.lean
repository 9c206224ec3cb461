import Mathlib.Data.List.Forall2
import SignalAccess.Failure.Log

/-!
# Steps that record their failures

A step that is taken for a request has the request's log at hand. Such a step keeps the log in order
when it leaves the log alone as long as it succeeds, and when it fails has added one record, which
tells the failure that it fails with. A step keeps the log in order when its parts do: a part that
succeeds hands on the log as it found it, and a part that fails ends the step, so nothing is recorded
twice on the way out.

A record adds the system's own words to the failures of the system, so only the failures that arise
in this library are told word for word.
-/

namespace SignalAccess

/-- Results are compared by their values or by their failures. -/
instance decidableEqResult {ε α : Type} [DecidableEq ε] [DecidableEq α] : DecidableEq (Except ε α)
  | .ok a, .ok b => decidable_of_iff (a = b) ⟨congrArg Except.ok, Except.ok.inj⟩
  | .error a, .error b => decidable_of_iff (a = b) ⟨congrArg Except.error, Except.error.inj⟩
  | .ok _, .error _ => isFalse nofun
  | .error _, .ok _ => isFalse nofun

/-- What succeeds has succeeded in its first part. -/
theorem bind_eq_ok {σ α β : Type} {first : EStateM Failure σ α} {f : α → EStateM Failure σ β}
    {state last : σ} {value : β} (done : (first >>= f) state = .ok value last) :
    ∃ a next, first state = .ok a next ∧ f a next = .ok value last := by
  cases given : first state with
  | ok a next => exact ⟨a, next, rfl, by simpa only [bind, EStateM.bind, given] using done⟩
  | error failure next =>
    simp only [bind, EStateM.bind, given] at done
    cases done

/-- What fails has failed in its first part or behind it. -/
theorem bind_eq_error {σ α β : Type} {first : EStateM Failure σ α} {f : α → EStateM Failure σ β}
    {state last : σ} {failure : Failure} (failed : (first >>= f) state = .error failure last) :
    first state = .error failure last ∨
      ∃ a next, first state = .ok a next ∧ f a next = .error failure last := by
  cases given : first state with
  | ok a next => exact .inr ⟨a, next, rfl, by simpa only [bind, EStateM.bind, given] using failed⟩
  | error refusal next =>
    simp only [bind, EStateM.bind, given] at failed
    cases failed
    exact .inl rfl

/-- A record that tells a failure: it has its code and its origin, and its wording as far as the
texts of a record go. -/
structure FailureRecord.Tells (record : FailureRecord) (failure : Failure) : Prop where
  code : record.code = failure.code
  origin : record.origin = failure.origin
  message : record.message = Text.takeBytes Limit.field failure.message.toList

/-- The record that is made of a failure of this library tells it. -/
theorem FailureRecord.tells_ofFailure (location : Text) {failure : Failure}
    (own : failure.origin = .code) : (ofFailure location failure).Tells failure := by
  have told : ofFailure location failure =
      make failure.origin location failure.code failure.message.toList := by
    cases failure with
    | system fault => cases own
    | _ => rfl
  have plain : fullMessage failure.origin failure.code failure.message.toList =
      failure.message.toList := by
    rw [own]
    exact if_neg fun system => Origin.noConfusion system.1
  rw [told]
  exact ⟨rfl, rfl, congrArg (Text.takeBytes Limit.field) plain⟩

/-- A result that is a value has come of its first part. -/
theorem result_bind_eq_ok {α β : Type} {result : Except Failure α} {f : α → Except Failure β}
    {value : β} (done : (result >>= f) = .ok value) : ∃ a, result = .ok a ∧ f a = .ok value := by
  cases result with
  | error failure => cases done
  | ok a => exact ⟨a, rfl, done⟩

/-- Results for the members of a list are values if each of them is. -/
theorem forall₂_of_mapM {α β : Type} {g : β → Except Failure α} {members : List β}
    {values : List α} (done : members.mapM g = .ok values) :
    List.Forall₂ (fun b a => g b = .ok a) members values := by
  induction members generalizing values with
  | nil =>
    cases done
    exact .nil
  | cons b others inductionHypothesis =>
    rw [List.mapM_cons] at done
    obtain ⟨first, firstDone, done⟩ := result_bind_eq_ok done
    obtain ⟨rest, restDone, done⟩ := result_bind_eq_ok done
    cases done
    exact .cons firstDone (inductionHypothesis restDone)

/-- A list is mapped to the values that its members are mapped to. -/
theorem mapM_of_forall₂ {α β : Type} {g : β → Except Failure α} {members : List β}
    {values : List α} (each : List.Forall₂ (fun b a => g b = .ok a) members values) :
    members.mapM g = .ok values := by
  induction each with
  | nil => rfl
  | cons given _ inductionHypothesis =>
    rw [List.mapM_cons, given, inductionHypothesis]
    rfl

/-- Each of these values is the result for a member. -/
theorem exists_of_mem_of_mapM {α β : Type} {g : β → Except Failure α} {members : List β}
    {values : List α} {a : α} (done : members.mapM g = .ok values) (among : a ∈ values) :
    ∃ b ∈ members, g b = .ok a := by
  have related := forall₂_of_mapM done
  clear done
  induction related with
  | nil => cases among
  | @cons b first others values given _ inductionHypothesis =>
    rcases List.mem_cons.mp among with rfl | among
    · exact ⟨b, List.mem_cons_self, given⟩
    · obtain ⟨other, member, given⟩ := inductionHypothesis among
      exact ⟨other, List.mem_cons_of_mem b member, given⟩

/-- What each of these values has, all of them have. -/
theorem forall_of_mapM {α β : Type} {g : β → Except Failure α} {members : List β}
    {values : List α} {property : α → Prop} (done : members.mapM g = .ok values)
    (each : ∀ b a, g b = .ok a → property a) : ∀ a ∈ values, property a := by
  intro a among
  obtain ⟨b, -, given⟩ := exists_of_mem_of_mapM done among
  exact each b a given

/-- The results are values if each one is. -/
theorem exists_mapM_eq_ok {α β : Type} {g : β → Except Failure α} {members : List β}
    (each : ∀ b ∈ members, ∃ a, g b = .ok a) : ∃ values, members.mapM g = .ok values := by
  induction members with
  | nil => exact ⟨[], rfl⟩
  | cons b others inductionHypothesis =>
    obtain ⟨first, firstDone⟩ := each b List.mem_cons_self
    obtain ⟨rest, restDone⟩ := inductionHypothesis fun c among => each c (List.mem_cons_of_mem b among)
    refine ⟨first :: rest, ?_⟩
    rw [List.mapM_cons, firstDone, restDone]
    rfl

/-- The results are no values if and only if one of them fails. -/
theorem exists_mapM_eq_error_iff {α β : Type} {g : β → Except Failure α} {members : List β} :
    (∃ failure, members.mapM g = .error failure) ↔
      ∃ b ∈ members, ∃ failure, g b = .error failure := by
  induction members with
  | nil => simp [pure, Except.pure]
  | cons b others inductionHypothesis =>
    rw [List.mapM_cons, List.exists_mem_cons_iff, ← inductionHypothesis]
    cases g b with
    | error failure => simp [bind, Except.bind]
    | ok first =>
      cases others.mapM g with
      | error failure => simp [bind, Except.bind]
      | ok rest => simp [bind, Except.bind, pure, Except.pure]

namespace Failure

/-- A result that fails, if it does, with failures of one kind. -/
def Only {α : Type} (kind : Failure → Prop) (result : Except Failure α) : Prop :=
  ∀ failure, result = .error failure → kind failure

/-- A failure of this library. -/
def IsOwn (failure : Failure) : Prop := failure.origin = .code

/-- The failure of a text that breaks its grammar. -/
def IsSyntax (failure : Failure) : Prop := ∃ fault, failure = .syntaxError fault

/-- The failure of a text that breaks its grammar is one of this library. -/
theorem IsSyntax.isOwn {failure : Failure} (breaks : IsSyntax failure) : IsOwn failure := by
  obtain ⟨fault, rfl⟩ := breaks
  rfl

/-- A fault of the syntax makes the failure of such a text. -/
theorem isSyntax_syntaxError (fault : SyntaxFault) : IsSyntax (.syntaxError fault) := ⟨fault, rfl⟩

variable {α β : Type} {kind : Failure → Prop} {result : Except Failure α} {f : α → Except Failure β}

/-- A result that is there fails in no way. -/
theorem only_ok (value : α) : Only kind (.ok value) := by
  intro failure failed
  cases failed

/-- A failure of a kind is only of this kind. -/
theorem only_error {failure : Failure} (given : kind failure) :
    Only kind (.error failure : Except Failure α) := by
  intro other failed
  cases failed
  exact given

/-- A kind of failures may be widened. -/
theorem Only.mono {wider : Failure → Prop} (only : Only kind result)
    (implied : ∀ failure, kind failure → wider failure) : Only wider result :=
  fun failure failed => implied failure (only failure failed)

/-- Two steps fail in one way only if each of them does. -/
theorem Only.bind (first : Only kind result) (others : ∀ value, Only kind (f value)) :
    Only kind (result >>= f) := by
  cases result with
  | error failure => exact only_error (first failure rfl)
  | ok value => exact others value

/-- A list is mapped with failures of one kind only, if each member is. -/
theorem Only.mapM {g : β → Except Failure α} (each : ∀ b, Only kind (g b)) (members : List β) :
    Only kind (members.mapM g) := by
  induction members with
  | nil => exact only_ok []
  | cons b others inductionHypothesis =>
    rw [List.mapM_cons]
    exact (each b).bind fun first => inductionHypothesis.bind fun rest => only_ok (first :: rest)

end Failure

namespace Recording

variable {α β : Type} {step other : Recording α} {f : α → Recording β} {log after : FailureLog}

/-! ## Composite steps -/

/-- Behind a step that is done, the next one goes on with its value and its log. -/
theorem bind_of_eq_ok {value : α} (done : step log = .ok value after) :
    (step >>= f) log = f value after := by
  simp only [bind, EStateM.bind, done]

/-- Behind a step that failed, nothing is done, and its log stays. -/
theorem bind_of_eq_error {failure : Failure} (failed : step log = .error failure after) :
    (step >>= f) log = .error failure after := by
  simp only [bind, EStateM.bind, failed]

/-- What is made of a value behind a step can be made of it within the step. -/
theorem map_bind_of_map {γ δ : Type} {made : α → γ} {last : β → δ} {mapped : Recording γ}
    {behind : γ → Recording δ} (first : made <$> step = mapped)
    (others : ∀ a, last <$> f a = behind (made a)) : last <$> (step >>= f) = mapped >>= behind := by
  rw [← first, map_bind, bind_map_left]
  exact bind_congr others

/-- A value may be changed before or after it is gone on with. -/
theorem map_ofResult (location : String) (made : α → β) (result : Except Failure α) :
    made <$> ofResult location result = ofResult location (result.map made) := by
  cases result with
  | ok value => rfl
  | error failure => rfl

/-- A change to the value leaves the log alone. -/
theorem outcome_map (made : α → β) (step : Recording α) (log : FailureLog) :
    (made <$> step).outcome log = ((step.outcome log).1.map made, (step.outcome log).2) := by
  cases given : step log with
  | ok value after => simp only [outcome, Functor.map, EStateM.map, given, Except.map]
  | error failure after => simp only [outcome, Functor.map, EStateM.map, given, Except.map]

/-- A step comes to a value exactly if it gives the value. -/
theorem outcome_eq_ok_iff {value : α} :
    (step.outcome log).1 = .ok value ↔ ∃ after, step log = .ok value after := by
  rw [outcome]
  cases step log with
  | ok given next => simp
  | error failure next => simp

/-! ## Steps that keep the log in order -/

/-- An outcome that belongs to the log behind it: a success has left the log alone, and a failure has
added one record, which tells it. -/
def Accounted (log : FailureLog) : Except Failure α × FailureLog → Prop
  | (.ok _, after) => after = log
  | (.error failure, after) =>
    ∃ record, after.records = log.records ++ [record] ∧ record.Tells failure

/-- A step that keeps the log in order, whatever was recorded before. -/
def RecordsOnce (step : Recording α) : Prop := ∀ log, Accounted log (step.outcome log)

/-- A step that only gives a value records nothing. -/
theorem recordsOnce_pure (value : α) : RecordsOnce (pure value) := fun _ => rfl

/-- A refusal is recorded once, against its step. -/
theorem recordsOnce_refuse (location : String) {failure : Failure} (own : failure.IsOwn) :
    (refuse location failure : Recording α).RecordsOnce :=
  fun _ => ⟨_, rfl, FailureRecord.tells_ofFailure location.toList own⟩

/-- A result that fails with a failure of this library is recorded once. -/
theorem recordsOnce_ofResult (location : String) {result : Except Failure α}
    (own : Failure.Only Failure.IsOwn result) : (ofResult location result).RecordsOnce := by
  cases result with
  | ok value => exact recordsOnce_pure value
  | error failure => exact recordsOnce_refuse location (own failure rfl)

/-- Where the first part fails, the second one records nothing more; where it succeeds, the second
part finds the log as it was. -/
theorem RecordsOnce.bind (first : step.RecordsOnce) (others : ∀ value, (f value).RecordsOnce) :
    RecordsOnce (step >>= f) := by
  intro log
  have accounted := first log
  cases given : step log with
  | ok value next =>
    rw [outcome, given] at accounted
    obtain rfl : next = log := accounted
    have same : (step >>= f).outcome next = (f value).outcome next := by
      simp only [outcome, bind_of_eq_ok given]
    rw [same]
    exact others value next
  | error failure next =>
    rw [outcome, given] at accounted
    have same : (step >>= f).outcome log = (.error failure, next) := by
      simp only [outcome, bind_of_eq_error given]
    rw [same]
    exact accounted

/-! ## What a step can give -/

/-- Every value that a step gives has a property. -/
def Yields (step : Recording α) (property : α → Prop) : Prop :=
  ∀ log value after, step log = .ok value after → property value

variable {property : α → Prop}

/-- A step that gives a value yields what holds of it. -/
theorem yields_pure {value : α} (given : property value) : Yields (pure value) property := by
  intro log other after done
  cases done
  exact given

/-- A refusal yields nothing, and so all that is said of it holds. -/
theorem yields_refuse (location : String) (failure : Failure) :
    (refuse location failure : Recording α).Yields property := by
  intro log value after done
  cases done

/-- A result yields what holds of its value. -/
theorem yields_ofResult (location : String) {result : Except Failure α}
    (given : ∀ value, result = .ok value → property value) :
    (ofResult location result).Yields property := by
  cases result with
  | ok value => exact yields_pure (given value rfl)
  | error failure => exact yields_refuse location failure

/-- Nothing is said of a value by what holds of every value. -/
theorem yields_true (step : Recording α) : step.Yields fun _ => True := fun _ _ _ _ => trivial

/-- What is said of the value may be weakened. -/
theorem Yields.mono {weaker : α → Prop} (yields : step.Yields property)
    (implied : ∀ value, property value → weaker value) : step.Yields weaker :=
  fun log value after done => implied value (yields log value after done)

/-- Two things that are said of the value hold together. -/
theorem Yields.and {other : α → Prop} (first : step.Yields property) (second : step.Yields other) :
    step.Yields fun value => property value ∧ other value :=
  fun log value after done => ⟨first log value after done, second log value after done⟩

/-- What the first step yields may be used of the second one. -/
theorem Yields.bind {last : β → Prop} (first : step.Yields property)
    (second : ∀ value, property value → (f value).Yields last) : Yields (step >>= f) last := by
  intro log value after done
  obtain ⟨given, next, firstDone, secondDone⟩ := bind_eq_ok done
  exact second given (first log given next firstDone) next value after secondDone

/-- What comes before may be of no concern. -/
theorem Yields.behind {last : β → Prop} (second : ∀ value, (f value).Yields last) :
    Yields (step >>= f) last :=
  (yields_true step).bind fun value _ => second value

/-- Steps that agree on all that the first part gives are the same behind it. -/
theorem Yields.bind_congr {g : α → Recording β} (yields : step.Yields property)
    (same : ∀ value, property value → f value = g value) : step >>= f = step >>= g := by
  funext log
  cases given : step log with
  | ok value next =>
    rw [bind_of_eq_ok given, bind_of_eq_ok given, same value (yields log value next given)]
  | error failure next => rw [bind_of_eq_error given, bind_of_eq_error given]

/-- What comes of a step is what it gives. -/
theorem Yields.of_outcome {value : α} (yields : step.Yields property)
    (done : (step.outcome log).1 = .ok value) : property value := by
  obtain ⟨after, given⟩ := outcome_eq_ok_iff.mp done
  exact yields log value after given

/-! ## How a step can fail -/

/-- Every failure of a step is of one kind. -/
def Fails (step : Recording α) (kind : Failure → Prop) : Prop :=
  ∀ log failure after, step log = .error failure after → kind failure

variable {kind : Failure → Prop}

/-- A step that only gives a value does not fail. -/
theorem fails_pure (value : α) : Fails (pure value) kind := by
  intro log failure after failed
  cases failed

/-- A step fails as the result that it goes on with. -/
theorem fails_ofResult (location : String) {result : Except Failure α}
    (only : Failure.Only kind result) : (ofResult location result).Fails kind := by
  intro log failure after failed
  cases result with
  | ok value => cases failed
  | error given =>
    cases failed
    exact only failure rfl

/-- Two steps fail in one way only if each of them does. -/
theorem Fails.bind (first : step.Fails kind) (others : ∀ value, (f value).Fails kind) :
    Fails (step >>= f) kind := by
  intro log failure after failed
  rcases bind_eq_error failed with early | ⟨value, next, -, late⟩
  · exact first log failure after early
  · exact others value next failure after late

/-- A failure that a step comes to is one of its own. -/
theorem Fails.of_outcome {failure : Failure} (fails : step.Fails kind)
    (failed : (step.outcome log).1 = .error failure) : kind failure := by
  rw [outcome] at failed
  cases given : step log with
  | ok value next =>
    rw [given] at failed
    cases failed
  | error refusal next =>
    rw [given] at failed
    cases failed
    exact fails log failure next given

/-! ## Two steps side by side -/

/-- Two steps whose values are related wherever both give one. -/
def Agree (related : α → β → Prop) (first : Recording α) (second : Recording β) : Prop :=
  ∀ log a after other b last, first log = .ok a after → second other = .ok b last → related a b

/-- Steps agree on what each of them gives by itself. -/
theorem Yields.agree {other : Recording β} {others : β → Prop} {related : α → β → Prop}
    (first : step.Yields property) (second : other.Yields others)
    (implied : ∀ a b, property a → others b → related a b) : Agree related step other := by
  intro log a after behind b last firstDone secondDone
  exact implied a b (first log a after firstDone) (second behind b last secondDone)

/-- Related values agree. -/
theorem agree_pure {related : α → β → Prop} {a : α} {b : β} (given : related a b) :
    Agree related (pure a) (pure b) := by
  intro log first after other second last firstDone secondDone
  cases firstDone
  cases secondDone
  exact given

/-- A refusal agrees with everything, for it gives no value. -/
theorem agree_refuse {related : α → β → Prop} (location : String) (failure : Failure)
    (second : Recording β) : Agree related (refuse location failure) second := by
  intro log a after other b last firstDone secondDone
  cases firstDone

/-- Results agree if their values are related wherever both have one. -/
theorem agree_ofResult {related : α → β → Prop} (location : String) {result : Except Failure α}
    {other : Except Failure β}
    (given : ∀ a b, result = .ok a → other = .ok b → related a b) :
    Agree related (ofResult location result) (ofResult location other) :=
  (yields_ofResult location fun _ done => done).agree (yields_ofResult location fun _ done => done)
    given

/-- Steps that agree may be followed by steps that agree on related values. -/
theorem Agree.bind {γ δ : Type} {related : α → β → Prop} {outcomes : γ → δ → Prop}
    {first : Recording α} {second : Recording β} {f : α → Recording γ} {g : β → Recording δ}
    (agree : Agree related first second)
    (others : ∀ a b, related a b → Agree outcomes (f a) (g b)) :
    Agree outcomes (first >>= f) (second >>= g) := by
  intro log c after other d last firstDone secondDone
  obtain ⟨a, next, firstGiven, firstDone⟩ := bind_eq_ok firstDone
  obtain ⟨b, behind, secondGiven, secondDone⟩ := bind_eq_ok secondDone
  have given := agree log a next other b behind firstGiven secondGiven
  exact others a b given next c after behind d last firstDone secondDone

/-- What comes of both steps is related. -/
theorem Agree.of_outcome {related : α → β → Prop} {first : Recording α} {second : Recording β}
    (agree : Agree related first second) {a : α} {b : β} {log other : FailureLog}
    (done : (first.outcome log).1 = .ok a) (otherDone : (second.outcome other).1 = .ok b) :
    related a b := by
  obtain ⟨after, given⟩ := outcome_eq_ok_iff.mp done
  obtain ⟨last, otherGiven⟩ := outcome_eq_ok_iff.mp otherDone
  exact agree log a after other b last given otherGiven

end Recording

end SignalAccess
