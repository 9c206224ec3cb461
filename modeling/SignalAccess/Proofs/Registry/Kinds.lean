import SignalAccess.Proofs.Registry

/-!
# Kinds that a registry gives

A registry numbers the readers that come without a kind: each of them is given the next id of the
added kinds. A reader that comes with a kind keeps it, and the numbering does not look at it. So a
kind that was given is that of no other reader that was numbered, as long as there are ids left. It
may be the kind that another reader came with; if that one was registered earlier, a search for the
kind finds it in the place of the reader that was numbered.
-/

namespace SignalAccess

namespace Registry

variable {registry : Registry} {reader : Reader} {readers front back : List Reader}
  {kind : RequestKind}

/-- The number of readers that come without a kind. -/
def unnumbered (readers : List Reader) : Nat := readers.countP (·.kind == .unknown)

/-- The readers with their kinds, if the first one without a kind is given an id. -/
def numbered : Int32 → List Reader → List Reader
  | _, [] => []
  | id, reader :: readers =>
    if reader.kind = .unknown then { reader with kind := .added id } :: numbered (id + 1) readers
    else reader :: numbered id readers

/-- The reader as it is kept when it is registered behind others. -/
def keptBehind (front : List Reader) (reader : Reader) : Reader :=
  (empty.registerAll front).settled reader

/-! ## What is kept -/

/-- The first of some readers is registered first. -/
theorem registerAll_cons (registry : Registry) (reader : Reader) (readers : List Reader) :
    registry.registerAll (reader :: readers) = (registry.register reader).registerAll readers := rfl

/-- Readers are registered in two parts as they are at once. -/
theorem registerAll_append (registry : Registry) (front back : List Reader) :
    registry.registerAll (front ++ back) = (registry.registerAll front).registerAll back :=
  List.foldl_append

/-- The readers of a registry are those that were registered, in their order, with the ids that
follow each other. By induction on them: each takes the next id, or leaves it to the others. -/
theorem readers_registerAll (registry : Registry) (readers : List Reader) :
    (registry.registerAll readers).readers =
      registry.readers ++ numbered registry.nextId readers := by
  induction readers generalizing registry with
  | nil => exact (List.append_nil _).symm
  | cons reader readers inductionHypothesis =>
    rw [registerAll_cons, inductionHypothesis, numbered]
    by_cases unknown : reader.kind = .unknown
    · simp [register, settled, unknown]
    · simp [register, settled, unknown]

/-- Every reader without a kind takes an id. -/
theorem nextId_registerAll (registry : Registry) (readers : List Reader) :
    (registry.registerAll readers).nextId =
      registry.nextId + Int32.ofNat (unnumbered readers) := by
  induction readers generalizing registry with
  | nil => exact (Int32.add_zero _).symm
  | cons reader readers inductionHypothesis =>
    rw [registerAll_cons, inductionHypothesis, unnumbered, unnumbered]
    by_cases unknown : reader.kind = .unknown
    · simp [register, unknown, Int32.ofNat_add, Int32.add_assoc, Int32.add_comm]
    · simp [register, unknown]

/-- Numbering keeps the number of readers. -/
theorem length_numbered (id : Int32) (readers : List Reader) :
    (numbered id readers).length = readers.length := by
  induction readers generalizing id with
  | nil => rfl
  | cons reader readers inductionHypothesis =>
    rw [numbered]
    split
    · exact congrArg (· + 1) (inductionHypothesis (id + 1))
    · exact congrArg (· + 1) (inductionHypothesis id)

/-! ## Kinds that were given -/

/-- As long as there are ids left, the kinds that are given differ. -/
theorem added_ne_added {m n : Nat} (below : m < n) (few : n < UInt32.size) (id : Int32) :
    RequestKind.added (id + Int32.ofNat n) ≠ .added (id + Int32.ofNat m) := by
  intro same
  have ids : Int32.ofNat n = Int32.ofNat m :=
    (Int32.add_right_inj id).mp (RequestKind.added.inj same)
  have words := congrArg (fun id : Int32 => id.toBitVec.toNat) ids
  simp only [Int32.toBitVec_ofNat', BitVec.toNat_ofNat] at words
  have size : UInt32.size = 2 ^ 32 := rfl
  omega

/-- A kind that no reader is given is that of the readers that came with it, so that the numbering
does not change which one is found. By induction on the readers: one that is numbered has the kind
neither before nor behind. -/
theorem find?_numbered {id : Int32} (known : kind ≠ .unknown)
    (apart : ∀ n < unnumbered readers, kind ≠ .added (id + Int32.ofNat n)) :
    (numbered id readers).find? (·.kind == kind) = readers.find? (·.kind == kind) := by
  induction readers generalizing id with
  | nil => rfl
  | cons reader readers inductionHypothesis =>
    rw [numbered]
    by_cases unknown : reader.kind = .unknown
    · have first : kind ≠ .added id := by
        have given := apart 0 (by simp [unnumbered, unknown])
        exact Int32.add_zero id ▸ given
      have others : ∀ n < unnumbered readers, kind ≠ .added (id + 1 + Int32.ofNat n) := by
        intro n below
        have given := apart (n + 1) (by simpa [unnumbered, unknown] using below)
        rwa [Int32.ofNat_add, Int32.add_comm (Int32.ofNat n), ← Int32.add_assoc] at given
      rw [if_pos unknown, List.find?_cons_of_neg (by simpa using first.symm),
        List.find?_cons_of_neg (by simpa [unknown] using known.symm), inductionHypothesis others]
    · have others : ∀ n < unnumbered readers, kind ≠ .added (id + Int32.ofNat n) := by
        simpa [unnumbered, unknown] using apart
      rw [if_neg unknown, List.find?_cons, List.find?_cons, inductionHypothesis others]

/-- No reader of a kind is found exactly if none has it. -/
theorem find?_kind_eq_none_iff :
    readers.find? (·.kind == kind) = none ↔ ∀ found ∈ readers, found.kind ≠ kind := by
  simp

/-- What is kept of a number of readers that have one without a kind among them. -/
theorem readers_registerAll_unknown (unknown : reader.kind = .unknown) (front back : List Reader) :
    (empty.registerAll (front ++ reader :: back)).readers =
      numbered firstAddedId front ++ keptBehind front reader ::
        numbered (firstAddedId + Int32.ofNat (unnumbered front + 1)) back := by
  have next : ((empty.registerAll front).register reader).nextId =
      firstAddedId + Int32.ofNat (unnumbered front + 1) := by
    rw [register, if_pos unknown, nextId_registerAll, Int32.ofNat_add, ← Int32.add_assoc]
    rfl
  have earlier : (empty.registerAll front).readers = numbered firstAddedId front :=
    readers_registerAll empty front
  rw [registerAll_append, registerAll_cons, readers_registerAll, next, register, earlier,
    List.append_assoc]
  rfl

/-- A reader without a kind gets the next number behind those that were given out. -/
theorem kind_keptBehind (unknown : reader.kind = .unknown) (front : List Reader) :
    (keptBehind front reader).kind = .added (firstAddedId + Int32.ofNat (unnumbered front)) := by
  rw [keptBehind, settled, if_pos unknown, nextId_registerAll]
  rfl

/-- A reader that comes without a kind is given the id that follows those of the readers without a
kind in front of it. No other reader of the registry has this kind exactly if none of the others came
with it, and the reader is found by its kind unless one of those that were registered earlier came
with it: that one is found then. -/
theorem given_kind_apart_iff (unknown : reader.kind = .unknown)
    (few : unnumbered (front ++ reader :: back) ≤ UInt32.size) :
    (keptBehind front reader).kind = .added (firstAddedId + Int32.ofNat (unnumbered front)) ∧
    (empty.registerAll (front ++ reader :: back)).readers[front.length]? =
      some (keptBehind front reader) ∧
    ((∀ other ∈ (empty.registerAll (front ++ reader :: back)).readers.eraseIdx front.length,
        other.kind ≠ (keptBehind front reader).kind) ↔
      ∀ other ∈ front ++ back, other.kind ≠ (keptBehind front reader).kind) ∧
    (empty.registerAll (front ++ reader :: back)).byKind? (keptBehind front reader).kind =
      (front.find? (·.kind == (keptBehind front reader).kind)).or
        (some (keptBehind front reader)) := by
  have kind := kind_keptBehind unknown front
  have known : (keptBehind front reader).kind ≠ .unknown := settled_ne_unknown _ reader
  have total : unnumbered front + 1 + unnumbered back ≤ UInt32.size := by
    have split : unnumbered (front ++ reader :: back) =
        unnumbered front + (unnumbered back + 1) := by
      simp [unnumbered, unknown]
    omega
  have earlier : (numbered firstAddedId front).find? (·.kind == (keptBehind front reader).kind) =
      front.find? (·.kind == (keptBehind front reader).kind) := by
    refine find?_numbered known fun n below => ?_
    rw [kind]
    exact added_ne_added below (by omega) firstAddedId
  have later : (numbered (firstAddedId + Int32.ofNat (unnumbered front + 1)) back).find?
        (·.kind == (keptBehind front reader).kind) =
      back.find? (·.kind == (keptBehind front reader).kind) := by
    refine find?_numbered known fun n below => ?_
    rw [kind, Int32.add_assoc, ← Int32.ofNat_add]
    exact (added_ne_added (by omega) (by omega) firstAddedId).symm
  rw [readers_registerAll_unknown unknown]
  refine ⟨kind, ?_, ?_, ?_⟩
  · rw [← length_numbered firstAddedId front, List.getElem?_append_right (Nat.le_refl _),
      Nat.sub_self]
    rfl
  · rw [← length_numbered firstAddedId front, List.eraseIdx_append_of_length_le (Nat.le_refl _),
      Nat.sub_self, List.eraseIdx_cons_zero, List.forall_mem_append, List.forall_mem_append,
      ← find?_kind_eq_none_iff, ← find?_kind_eq_none_iff, earlier, later, find?_kind_eq_none_iff,
      find?_kind_eq_none_iff]
  · rw [byKind?, readers_registerAll_unknown unknown, List.find?_append, earlier,
      List.find?_cons_of_pos (by simp)]

/-- A reader that comes with the first of the added ids. -/
def listed : Reader := .plain "A".toList (.added 100) .file

/-- A reader that comes without a kind. -/
def unlisted : Reader := .plain "B".toList .unknown .library

/-- Behind a reader that came with the first id, another one is given it, and is not found by it. -/
theorem given_kind_apart_iff_listed :
    unlisted.kind = .unknown ∧ unnumbered [listed, unlisted] ≤ UInt32.size ∧
      (keptBehind [listed] unlisted).kind = .added 100 ∧
      (empty.registerAll [listed, unlisted]).byKind? (.added 100) = some listed := by
  have unknown : unlisted.kind = .unknown := rfl
  have few : unnumbered [listed, unlisted] ≤ UInt32.size := by decide
  obtain ⟨kind, -, -, found⟩ := @given_kind_apart_iff unlisted [listed] [] unknown few
  have first : firstAddedId + Int32.ofNat (unnumbered [listed]) = 100 := by decide
  rw [first] at kind
  rw [kind] at found
  exact ⟨unknown, few, kind, found⟩

/-- So it is not true that a kind which is given belongs to one reader and finds it. -/
theorem not_forall_given_kind_apart : ¬∀ (front back : List Reader) (reader : Reader),
    reader.kind = .unknown →
      (∀ other ∈ (empty.registerAll (front ++ reader :: back)).readers.eraseIdx front.length,
        other.kind ≠ (keptBehind front reader).kind) ∧
      (empty.registerAll (front ++ reader :: back)).byKind? (keptBehind front reader).kind =
        some (keptBehind front reader) := by
  intro all
  have found := (all [listed] [] unlisted rfl).2
  exact absurd found (by decide)

end Registry

end SignalAccess
