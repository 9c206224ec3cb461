import SignalAccess.Proofs.MessagePack.ReadBack

/-!
# Heads in a document

A document is read back if each head in it fits. Two reasons can stand against that: an integer is
wider than the widest word, or a text or a collection is longer than the longest size. Integers
depend on what the document stands for. Sizes can be told from the bytes, which are at least as many
as any size in the document: short documents have no size that does not fit.
-/

namespace SignalAccess.MessagePack

namespace Head

/-- An integer under the head fits the widest word of its kind. -/
def IntegerFits : Head → Prop
  | .natural n => n < UInt64.size
  | .signed i => Int64.minValue.toInt ≤ i ∧ i ≤ Int64.maxValue.toInt
  | _ => True

/-- The size of what stands behind the head fits the widest word for sizes. -/
def SizeFits : Head → Prop
  | .text size | .binary size | .array size | .map size | .extension _ size => size < UInt32.size
  | _ => True

end Head

namespace Document

mutual

/-- All heads in a document have a property. -/
def Heads (property : Head → Prop) : Document → Prop
  | .nil => property .nil
  | .boolean b => property (.boolean b)
  | .natural n => property (.natural n)
  | .signed i => property (.signed i)
  | .single x => property (.single x)
  | .double x => property (.double x)
  | .text bytes => property (.text bytes.length)
  | .binary bytes => property (.binary bytes.length)
  | .array items => property (.array items.length) ∧ ItemsHeads property items
  | .map entries => property (.map entries.length) ∧ EntriesHeads property entries
  | .extension type bytes => property (.extension type bytes.length)

/-- All heads in some values have a property. -/
def ItemsHeads (property : Head → Prop) : List Document → Prop
  | [] => True
  | item :: items => Heads property item ∧ ItemsHeads property items

/-- All heads in keys and values have a property. -/
def EntriesHeads (property : Head → Prop) : List (Document × Document) → Prop
  | [] => True
  | (key, value) :: entries =>
    Heads property key ∧ Heads property value ∧ EntriesHeads property entries

end

variable {property : Head → Prop}

/-- All heads of a list have a property exactly if those of each item have it. -/
theorem itemsHeads_iff {items : List Document} :
    ItemsHeads property items ↔ ∀ item ∈ items, item.Heads property := by
  induction items with
  | nil => simp [ItemsHeads]
  | cons item items inductionHypothesis =>
    rw [ItemsHeads, inductionHypothesis, List.forall_mem_cons]

/-- The integers of a list fit if those of its values do. -/
theorem integersFit_array {items : List Document}
    (each : ∀ item ∈ items, item.Heads Head.IntegerFits) :
    (array items).Heads Head.IntegerFits := by
  rw [Heads]
  exact ⟨trivial, itemsHeads_iff.mpr each⟩

/-- The integers of a record fit if those of its values do. -/
theorem integersFit_record {entries : List (String × Document)}
    (each : ∀ entry ∈ entries, entry.2.Heads Head.IntegerFits) :
    (record entries).Heads Head.IntegerFits := by
  have all : EntriesHeads Head.IntegerFits
      (entries.map fun entry => (ofText entry.1.toList, entry.2)) := by
    induction entries with
    | nil => simp [EntriesHeads]
    | cons entry entries inductionHypothesis =>
      obtain ⟨first, others⟩ := List.forall_mem_cons.mp each
      exact ⟨trivial, first, inductionHypothesis others⟩
  rw [record, Heads]
  exact ⟨trivial, all⟩

/-- The integers of a record with one entry fit if those of the value do. -/
theorem integersFit_record_singleton {name : String} {value : Document}
    (fits : value.Heads Head.IntegerFits) : (record [(name, value)]).Heads Head.IntegerFits :=
  integersFit_record fun _ member => List.mem_singleton.mp member ▸ fits

mutual

/-- The heads of a document fit if their integers and their sizes do. -/
theorem fits_of_heads : (document : Document) → document.Heads Head.IntegerFits →
    document.Heads Head.SizeFits → document.Fits
  | .nil, _, _ | .boolean _, _, _ | .single _, _, _ | .double _, _, _ => trivial
  | .natural _, integer, _ | .signed _, integer, _ => integer
  | .text _, _, size | .binary _, _, size | .extension _ _, _, size => size
  | .array items, integer, size => ⟨size.1, itemsFit_of_heads items integer.2 size.2⟩
  | .map entries, integer, size => ⟨size.1, entriesFit_of_heads entries integer.2 size.2⟩

/-- Items fit if their integers and their sizes do. -/
theorem itemsFit_of_heads : (items : List Document) → ItemsHeads Head.IntegerFits items →
    ItemsHeads Head.SizeFits items → ItemsFit items
  | [], _, _ => trivial
  | item :: items, integer, size =>
    ⟨fits_of_heads item integer.1 size.1, itemsFit_of_heads items integer.2 size.2⟩

/-- Entries fit if their integers and their sizes do. -/
theorem entriesFit_of_heads : (entries : List (Document × Document)) →
    EntriesHeads Head.IntegerFits entries → EntriesHeads Head.SizeFits entries → EntriesFit entries
  | [], _, _ => trivial
  | (key, value) :: entries, integer, size =>
    ⟨fits_of_heads key integer.1 size.1, fits_of_heads value integer.2.1 size.2.1,
      entriesFit_of_heads entries integer.2.2 size.2.2⟩

end

/-- A document that can be read back takes a byte at least. -/
theorem length_encode_pos {document : Document} (fits : document.Fits) :
    0 < document.encode.length := by
  apply List.length_pos_iff.mpr
  intro nothing
  have back := ofBytes?_encode fits
  rw [nothing] at back
  cases back

mutual

/-- A document with fewer bytes than the widest size counts has no size that does not fit. Recursion
follows the document: each size in it is at most the number of the bytes behind its head. -/
theorem sizesFit_of_length : (document : Document) → document.Heads Head.IntegerFits →
    document.encode.length < UInt32.size → document.Heads Head.SizeFits
  | .nil, _, _ | .boolean _, _, _ | .natural _, _, _ | .signed _, _, _ | .single _, _, _
  | .double _, _, _ => trivial
  | .text bytes, _, short | .binary bytes, _, short | .extension _ bytes, _, short => by
    rw [encode, List.length_append] at short
    exact Nat.lt_of_le_of_lt (Nat.le_add_left bytes.length _) short
  | .array items, integers, short => by
    rw [encode, List.length_append] at short
    have few : (encodeItems items).length < UInt32.size :=
      Nat.lt_of_le_of_lt (Nat.le_add_left _ _) short
    obtain ⟨counted, fit⟩ := itemsSizesFit_of_length items integers.2 few
    exact ⟨Nat.lt_of_le_of_lt counted few, fit⟩
  | .map entries, integers, short => by
    rw [encode, List.length_append] at short
    have few : (encodeEntries entries).length < UInt32.size :=
      Nat.lt_of_le_of_lt (Nat.le_add_left _ _) short
    obtain ⟨counted, fit⟩ := entriesSizesFit_of_length entries integers.2 few
    exact ⟨Nat.lt_of_le_of_lt counted few, fit⟩

/-- Values are at most as many as their bytes. -/
theorem itemsSizesFit_of_length : (items : List Document) → ItemsHeads Head.IntegerFits items →
    (encodeItems items).length < UInt32.size →
    items.length ≤ (encodeItems items).length ∧ ItemsHeads Head.SizeFits items
  | [], _, _ => ⟨Nat.le_refl 0, trivial⟩
  | item :: items, integers, short => by
    rw [encodeItems, List.length_append] at short ⊢
    have first := sizesFit_of_length item integers.1 (by omega)
    have some := length_encode_pos (fits_of_heads item integers.1 first)
    obtain ⟨counted, others⟩ := itemsSizesFit_of_length items integers.2 (by omega)
    rw [List.length_cons]
    exact ⟨by omega, first, others⟩

/-- Keys with their values are at most as many as their bytes. -/
theorem entriesSizesFit_of_length : (entries : List (Document × Document)) →
    EntriesHeads Head.IntegerFits entries → (encodeEntries entries).length < UInt32.size →
    entries.length ≤ (encodeEntries entries).length ∧ EntriesHeads Head.SizeFits entries
  | [], _, _ => ⟨Nat.le_refl 0, trivial⟩
  | (key, value) :: entries, integers, short => by
    rw [encodeEntries, List.length_append, List.length_append] at short ⊢
    have name := sizesFit_of_length key integers.1 (by omega)
    have content := sizesFit_of_length value integers.2.1 (by omega)
    have some := length_encode_pos (fits_of_heads key integers.1 name)
    obtain ⟨counted, others⟩ := entriesSizesFit_of_length entries integers.2.2 (by omega)
    rw [List.length_cons]
    exact ⟨by omega, name, content, others⟩

end

end Document

end SignalAccess.MessagePack
