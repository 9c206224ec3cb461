import SignalAccess.Registry

/-!
# What a registry offers

A registry gives a kind to every reader that comes without one, and finds a reader for the format of
each one that it has, even if only a later one of the same format. Every registration keeps both, and
so does any sequence of them. So a request that takes its kind from a registry is decided, and a format
that comes from a registry is known to it.
-/

namespace SignalAccess

namespace Registry

variable {registry : Registry}

/-- Every reader of a registry has a kind. -/
def Resolved (registry : Registry) : Prop := ∀ found ∈ registry.readers, found.kind ≠ .unknown

/-- No reader of an empty registry has an unknown kind. -/
theorem resolved_empty : Resolved empty := by
  intro found among
  cases among

/-- A reader is kept with a kind: its own, or the next of the added ones. -/
theorem settled_ne_unknown (registry : Registry) (reader : Reader) :
    (registry.settled reader).kind ≠ .unknown := by
  rw [settled]
  split
  · exact RequestKind.noConfusion
  · assumption

/-- A reader that is registered gets a kind. -/
theorem Resolved.register (resolved : registry.Resolved) (reader : Reader) :
    (registry.register reader).Resolved := by
  intro found among
  rcases List.mem_append.mp among with earlier | last
  · exact resolved found earlier
  · rw [List.mem_singleton.mp last]
    exact settled_ne_unknown registry reader

/-- Readers that were registered one after the other have kinds, by induction on them. -/
theorem Resolved.registerAll (resolved : registry.Resolved) (readers : List Reader) :
    (registry.registerAll readers).Resolved := by
  induction readers generalizing registry with
  | nil => exact resolved
  | cons reader others inductionHypothesis => exact inductionHypothesis (resolved.register reader)

/-! ## Kinds from a registry -/

/-- A kind that a registry gives to a request: that of a reader, or one of the two that need none. -/
inductive Offers (registry : Registry) : RequestKind → Prop where
  | generic : Offers registry .generic
  | serverSide : Offers registry .serverSide
  | reader {found : Reader} (among : found ∈ registry.readers) : Offers registry found.kind

/-- No kind that a registry offers is unknown. -/
theorem Offers.ne_unknown {kind : RequestKind} (offers : registry.Offers kind)
    (resolved : registry.Resolved) : kind ≠ .unknown := by
  cases offers with
  | generic => exact RequestKind.noConfusion
  | serverSide => exact RequestKind.noConfusion
  | reader among => exact resolved _ among

/-- A reader found by its format is offered. -/
theorem offers_of_byFormat? {found : Reader} {format : Text}
    (given : registry.byFormat? format = some found) :
    registry.Offers found.kind := by
  obtain ⟨place, -, placed⟩ := Option.bind_eq_some_iff.mp given
  exact .reader (List.mem_of_getElem? placed)

/-- The reader of the server's own library is offered. -/
theorem offers_of_serverSide? {found : Reader} (given : registry.serverSide? = some found) :
    registry.Offers found.kind := by
  rw [serverSide?] at given
  cases kind : registry.byKind? .serverSide with
  | some reader =>
    rw [kind] at given
    cases given
    exact .reader (List.mem_of_find?_eq_some kind)
  | none =>
    rw [kind] at given
    exact offers_of_byFormat? given

/-! ## Formats in a registry -/

/-- The places of a registry are those of readers, and every reader's format has one. -/
structure Indexed (registry : Registry) : Prop where
  taken : ∀ format place, registry.places.lookup format = some place →
    place < registry.readers.length
  listed : ∀ found ∈ registry.readers, ∃ place,
    registry.places.lookup found.format.upper = some place

/-- The table of an empty registry is right. -/
theorem indexed_empty : Indexed empty where
  taken := by
    rintro format place ⟨⟩
  listed := by
    rintro found ⟨⟩

/-- A reader keeps its format when it is given a kind. -/
theorem format_settled (registry : Registry) (reader : Reader) :
    (registry.settled reader).format = reader.format := by
  rw [settled]
  split
  · rfl
  · rfl

/-- A format that is registered leads to the last place, and the others stay where they were. -/
theorem lookup_register (registry : Registry) (reader : Reader) (format : Text) :
    (registry.register reader).places.lookup format =
      if format = reader.format.upper then some registry.readers.length
      else registry.places.lookup format := by
  rw [register, List.lookup_cons]
  split
  · next same => rw [if_pos (by simpa using same)]
  · next other => rw [if_neg (by simpa using other)]

/-- The table stays right when a reader is registered. -/
theorem Indexed.register (indexed : registry.Indexed) (reader : Reader) :
    (registry.register reader).Indexed where
  taken := by
    intro format place given
    rw [lookup_register] at given
    have longer : (registry.register reader).readers.length = registry.readers.length + 1 := by
      simp [Registry.register]
    split at given
    · cases given
      omega
    · have earlier := indexed.taken format place given
      omega
  listed := by
    intro found among
    rw [lookup_register]
    split
    · exact ⟨_, rfl⟩
    · next other =>
      rcases List.mem_append.mp among with earlier | last
      · exact indexed.listed found earlier
      · rw [List.mem_singleton.mp last, format_settled] at other
        exact absurd rfl other

/-- Readers that were registered one after the other are found by their formats, by induction on
them. -/
theorem Indexed.registerAll (indexed : registry.Indexed) (readers : List Reader) :
    (registry.registerAll readers).Indexed := by
  induction readers generalizing registry with
  | nil => exact indexed
  | cons reader others inductionHypothesis => exact inductionHypothesis (indexed.register reader)

/-- The format of a reader is known. -/
theorem Indexed.exists_byFormat? (indexed : registry.Indexed) {found : Reader}
    (among : found ∈ registry.readers) :
    ∃ latest, registry.byFormat? found.format = some latest := by
  obtain ⟨place, listed⟩ := indexed.listed found among
  have taken := indexed.taken _ place listed
  exact ⟨registry.readers[place], by simp [byFormat?, listed, taken]⟩

/-- A reader found by an extension is registered, with this extension, letter case aside. -/
theorem mem_of_byExtension? {found : Reader} {extension : Text}
    (given : registry.byExtension? extension = some found) :
    found ∈ registry.readers ∧ found.extension.equalIgnoringCase extension = true := by
  rw [byExtension?] at given
  split at given
  · cases given
  · have matched := List.find?_some given
    exact ⟨List.mem_of_find?_eq_some given, matched⟩

/-- The table of the standard registry is right. -/
theorem indexed_standard : Indexed standard := indexed_empty.registerAll standardReaders

end Registry

end SignalAccess
