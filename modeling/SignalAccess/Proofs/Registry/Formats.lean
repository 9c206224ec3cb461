import Mathlib.Data.List.Forall2
import SignalAccess.Proofs.Registry.Kinds

/-!
# Readers by their formats

A registry keeps every reader that was ever registered, in the order of the calls, and beside them a
table of places by upper-cased format. The table is only ever added to. Every place in it is that of
a reader of its format, and the place that is found first is that of the latest one: a reader hides
the earlier ones of its format from the search, however the two are written, and takes none away.
-/

namespace SignalAccess

namespace Registry

variable {registry : Registry} {reader found : Reader} {readers : List Reader} {format : Text}

/-- A call that adds a reader to a registry. -/
inductive Registration where
  | reader (reader : Reader)
  | format (format : Text) (readerClass : ReaderClass) (extension : Text)
  | device (name protocol host : Text) (service : Option UInt16)

/-- The registry after a call. -/
def perform (registry : Registry) : Registration → Registry
  | .reader reader => registry.register reader
  | .format format readerClass extension => registry.registerFormat format readerClass extension
  | .device name protocol host service => registry.registerDevice name protocol host service

/-- The registry after calls, one after the other. -/
def performAll (registry : Registry) (calls : List Registration) : Registry :=
  calls.foldl perform registry

/-- The reader that a call adds, before it has a kind. -/
def Registration.added : Registration → Reader
  | .reader reader => reader
  | .format format readerClass extension =>
    { Reader.plain format .unknown readerClass with extension := extension }
  | .device name protocol host service =>
    { Reader.plain name .unknown .device with
      protocol := protocol, host := host, service := service }

/-- How a reader is kept: as it came, or with an id if it came without a kind. -/
inductive Keeps (given : Reader) : Reader → Prop where
  | own (known : given.kind ≠ .unknown) : Keeps given given
  | numbered (unknown : given.kind = .unknown) (id : Int32) :
    Keeps given { given with kind := .added id }

/-- Whether a reader is the latest one of a format among others, upper case alone counting. -/
def IsLatest (readers : List Reader) (format : Text) (found : Reader) : Prop :=
  ∃ earlier later, readers = earlier ++ found :: later ∧ found.format.upper = format.upper ∧
    ∀ other ∈ later, other.format.upper ≠ format.upper

/-! ## The readers that are kept -/

/-- A history of registrations adds the entry of each of them in order. -/
theorem performAll_eq (registry : Registry) (calls : List Registration) :
    registry.performAll calls = registry.registerAll (calls.map Registration.added) := by
  induction calls generalizing registry with
  | nil => rfl
  | cons call calls inductionHypothesis =>
    have performed : registry.perform call = registry.register call.added := by
      cases call with
      | reader reader => rfl
      | format format readerClass extension => rfl
      | device name protocol host service => rfl
    rw [List.map_cons, registerAll_cons, ← performed, ← inductionHypothesis]
    rfl

/-- Numbering keeps of every reader all but its number. -/
theorem forall₂_keeps_numbered (id : Int32) (readers : List Reader) :
    List.Forall₂ Keeps readers (numbered id readers) := by
  induction readers generalizing id with
  | nil => exact .nil
  | cons reader readers inductionHypothesis =>
    rw [numbered]
    split
    · next unknown => exact .cons (.numbered unknown id) (inductionHypothesis (id + 1))
    · next known => exact .cons (.own known) (inductionHypothesis id)

/-! ## The table of formats -/

/-- What the table of a registry says about its readers: each of its places is that of a reader of
the format, and the first place for a format is that of the latest reader. -/
structure Faithful (registry : Registry) : Prop where
  placed : ∀ format place, (format, place) ∈ registry.places →
    ∃ found, registry.readers[place]? = some found ∧ found.format.upper = format
  latest : ∀ format, registry.byFormat? format =
    registry.readers.reverse.find? (·.format.upper == format.upper)

/-- The table of an empty registry is faithful. -/
theorem faithful_empty : Faithful empty where
  placed := by
    rintro format place ⟨⟩
  latest format := rfl

/-- A place that the table gives for a format is one of its entries. -/
theorem mem_places_of_lookup {place : Nat} (given : registry.places.lookup format = some place) :
    (format, place) ∈ registry.places := by
  obtain ⟨front, back, whole, -⟩ := List.lookup_eq_some_iff.mp given
  rw [whole]
  exact List.mem_append_right front List.mem_cons_self

/-- What was found stays where it is when another reader is added. -/
theorem getElem?_register {place : Nat} (given : registry.readers[place]? = some found)
    (reader : Reader) : (registry.register reader).readers[place]? = some found := by
  obtain ⟨inside, -⟩ := List.getElem?_eq_some_iff.mp given
  rw [register, List.getElem?_append_left inside, given]

/-- A reader is found by its own format at once, and hides no other format. -/
theorem Faithful.byFormat?_register (faithful : registry.Faithful) (reader : Reader)
    (format : Text) : (registry.register reader).byFormat? format =
      if format.upper = reader.format.upper then some (registry.settled reader)
      else registry.byFormat? format := by
  rw [byFormat?, lookup_register]
  split
  · exact List.getElem?_concat_length
  · rw [byFormat?]
    cases listed : registry.places.lookup format.upper with
    | none => rfl
    | some place =>
      obtain ⟨found, given, -⟩ := faithful.placed _ place (mem_places_of_lookup listed)
      exact (getElem?_register given reader).trans given.symm

/-- The table stays faithful when a reader is registered. -/
theorem Faithful.register (faithful : registry.Faithful) (reader : Reader) :
    (registry.register reader).Faithful where
  placed := by
    intro format place among
    rcases List.mem_cons.mp among with same | earlier
    · obtain ⟨rfl, rfl⟩ := Prod.mk.inj same
      exact ⟨_, List.getElem?_concat_length, congrArg Text.upper (format_settled registry reader)⟩
    · obtain ⟨found, given, formatted⟩ := faithful.placed format place earlier
      exact ⟨found, getElem?_register given reader, formatted⟩
  latest := by
    intro format
    have whole : (registry.register reader).readers.reverse =
        registry.settled reader :: registry.readers.reverse := List.reverse_concat
    rw [faithful.byFormat?_register, whole, List.find?_cons, format_settled, faithful.latest]
    by_cases same : format.upper = reader.format.upper
    · simp [same]
    · rw [if_neg same, beq_false_of_ne (Ne.symm same)]

/-- The table stays faithful through a whole history, by induction on it. -/
theorem Faithful.registerAll (faithful : registry.Faithful) (readers : List Reader) :
    (registry.registerAll readers).Faithful := by
  induction readers generalizing registry with
  | nil => exact faithful
  | cons reader readers inductionHypothesis => exact inductionHypothesis (faithful.register reader)

/-- A search from the end finds the latest reader of a format. -/
theorem find?_reverse_eq_some_iff :
    readers.reverse.find? (·.format.upper == format.upper) = some found ↔
      IsLatest readers format found := by
  rw [List.find?_eq_some_iff_append]
  constructor
  · rintro ⟨same, later, earlier, whole, others⟩
    refine ⟨earlier.reverse, later.reverse, ?_, eq_of_beq same, ?_⟩
    · rw [← List.reverse_reverse readers, whole]
      simp
    · intro other among
      have differs := others other (List.mem_reverse.mp among)
      simpa using differs
  · rintro ⟨earlier, later, rfl, same, others⟩
    refine ⟨beq_of_eq same, later.reverse, earlier.reverse, by simp, ?_⟩
    intro other among
    simpa using others other (List.mem_reverse.mp among)

/-- Whatever calls are made of an empty registry, it keeps the readers that they add, each in its
place and with a kind. By its format, upper case alone counting, the latest of them is found, and
none only if there is none; and every place in the table of formats is that of a reader of the
format. -/
theorem byFormat?_performAll (calls : List Registration) :
    List.Forall₂ Keeps (calls.map Registration.added) (empty.performAll calls).readers ∧
    (∀ format found, (empty.performAll calls).byFormat? format = some found ↔
      IsLatest (empty.performAll calls).readers format found) ∧
    (∀ format, (empty.performAll calls).byFormat? format = none ↔
      ∀ found ∈ (empty.performAll calls).readers, found.format.upper ≠ format.upper) ∧
    ∀ format place, (format, place) ∈ (empty.performAll calls).places →
      ∃ found, (empty.performAll calls).readers[place]? = some found ∧
        found.format.upper = format := by
  rw [performAll_eq]
  have faithful := faithful_empty.registerAll (calls.map Registration.added)
  refine ⟨?_, ?_, ?_, faithful.placed⟩
  · rw [readers_registerAll]
    exact forall₂_keeps_numbered firstAddedId _
  · intro format found
    rw [faithful.latest, find?_reverse_eq_some_iff]
  · intro format
    rw [faithful.latest]
    simp

end Registry

end SignalAccess
