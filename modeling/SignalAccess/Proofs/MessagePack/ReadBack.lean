import SignalAccess.MessagePack.Document

/-!
# Reading back MessagePack documents

A document is read back from its bytes, whatever stands behind them, if its numbers fit the words
that heads have for them. The reader counts how deep collections lie within each other and needs one
level more than the document has; the bytes of a document are always more than its levels, so the
bytes alone give the reader enough of them.
-/

namespace SignalAccess.MessagePack

namespace Head

/-- The number of a head fits the widest word of its kind. -/
def Fits : Head → Prop
  | .natural n => n < UInt64.size
  | .signed i => Int64.minValue.toInt ≤ i ∧ i ≤ Int64.maxValue.toInt
  | .text size | .binary size | .array size | .map size | .extension _ size => size < UInt32.size
  | _ => True

/-- Bytes are split where the front part ends. -/
theorem split?_append (front back : Bytes) :
    split? front.length (front ++ back) = some (front, back) := by
  simp [split?]

/-- The number of a word is read back from it. -/
theorem withWord_bytes (width : Nat) {n : Nat} (fits : n < 1 <<< (8 * width)) (head : Nat → Head)
    (rest : Bytes) :
    withWord width head (Word.bytes width n ++ rest) = some (head n, rest) := by
  have word := split?_append (Word.bytes width n) rest
  rw [Word.length_bytes] at word
  simp [withWord, word, Word.number_bytes_of_lt width fits]

/-- An integer is read back from its residue if it lies in the middle of the residues. -/
theorem withSign_complement (width : Nat) {i : Int}
    (low : -((1 <<< (8 * width) : Nat) / 2 : Int) ≤ i)
    (high : i < ((1 <<< (8 * width) : Nat) + 1) / 2) (rest : Bytes) :
    withSign width (complement width i ++ rest) = some (.signed i, rest) := by
  rw [withSign, complement]
  have some_residue : 0 < 1 <<< (8 * width) := by
    rw [Nat.one_shiftLeft]
    exact Nat.pow_pos (by decide)
  generalize residues : 1 <<< (8 * width) = m at low high some_residue
  have residue : 0 ≤ i % (m : Int) := Int.emod_nonneg i (by omega)
  have below : i % (m : Int) < m := Int.emod_lt_of_pos i (by omega)
  have fits : (i % (m : Int)).toNat < 1 <<< (8 * width) := by omega
  rw [withWord_bytes width fits, Int.toNat_of_nonneg residue, Int.emod_bmod,
    Int.bmod_eq_of_le low high]

/-- The size and the type of an extension are read back. -/
theorem withSizeAndType_bytes (width : Nat) {size : Nat} (fits : size < 1 <<< (8 * width))
    (type : UInt8) (rest : Bytes) :
    withSizeAndType width (Word.bytes width size ++ [type] ++ rest) =
      some (.extension type size, rest) := by
  have word := split?_append (Word.bytes width size) ([type] ++ rest)
  rw [Word.length_bytes] at word
  simp only [withSizeAndType, List.append_assoc, word, bind, Option.bind,
    Word.number_bytes_of_lt width fits]
  rfl

/-- A byte below the heads with bytes of their own holds a number or a size. -/
theorem read_ofNat {n : Nat} (small : n < 0xc0) (rest : Bytes) :
    read (UInt8.ofNat n :: rest) =
      if n < 0x80 then some (.natural n, rest)
      else if n < 0x90 then some (.map (n - 0x80), rest)
      else if n < 0xa0 then some (.array (n - 0x90), rest)
      else some (.text (n - 0xa0), rest) := by
  have same : (UInt8.ofNat n).toNat = n := by
    rw [UInt8.toNat_ofNat', Nat.mod_eq_of_lt (Nat.lt_trans small (by decide))]
  simp only [read, same, small, if_true]

/-- A short integer with a sign has a byte of its own, which is one of the last. -/
theorem read_complement {i : Int} (low : -0x20 ≤ i) (high : i < 0) (rest : Bytes) :
    read (complement 1 i ++ rest) = some (.signed i, rest) := by
  have residues : 1 <<< (8 * 1) = 0x100 := rfl
  obtain ⟨n, residue, value⟩ : ∃ n : Nat, (i % (0x100 : Nat)).toNat = n ∧ i = n - 0x100 :=
    ⟨_, rfl, by omega⟩
  have last : 0xe0 ≤ n ∧ n < 0x100 := by omega
  have same : (UInt8.ofNat n).toNat = n := by rw [UInt8.toNat_ofNat', Nat.mod_eq_of_lt last.2]
  have byte : Word.bytes 1 n = [UInt8.ofNat n] := by simp [Word.bytes]
  rw [complement, residues, residue, byte, List.singleton_append]
  simp only [read, same]
  rw [if_neg (by omega), if_neg (by omega), if_neg (by omega), if_neg (by omega), if_pos last.1,
    value]

/-- A number is read back from its bytes, which are a byte of its own or a word. -/
theorem read_naturalBytes {n : Nat} (fits : n < UInt64.size) (rest : Bytes) :
    read (naturalBytes n ++ rest) = some (.natural n, rest) := by
  simp only [naturalBytes]
  split
  · next small =>
    have below : n < 0x80 := small
    have byte := read_ofNat (Nat.lt_trans small (by decide)) rest
    rw [if_pos below] at byte
    exact byte
  split
  · next small => exact withWord_bytes 1 small .natural rest
  split
  · next small => exact withWord_bytes 2 small .natural rest
  split
  · next small => exact withWord_bytes 4 small .natural rest
  · exact withWord_bytes 8 fits .natural rest

/-- An integer with a sign is read back from its bytes. -/
theorem read_signedBytes {i : Int} (low : Int64.minValue.toInt ≤ i)
    (high : i ≤ Int64.maxValue.toInt) (rest : Bytes) :
    read (signedBytes i ++ rest) = some (.signed i, rest) := by
  have least : Int64.minValue.toInt = -0x8000000000000000 := rfl
  have greatest : Int64.maxValue.toInt = 0x7fffffffffffffff := rfl
  simp only [signedBytes]
  split
  · next small => exact read_complement small.1 small.2 rest
  split
  · next small => exact withSign_complement 1 (by omega) (by omega) rest
  split
  · next small => exact withSign_complement 2 (by omega) (by omega) rest
  split
  · next small => exact withSign_complement 4 (by omega) (by omega) rest
  · exact withSign_complement 8 (by omega) (by omega) rest

/-- A head is read back from its bytes. Each width has a byte of its own in front. -/
theorem read_encode (head : Head) (fits : head.Fits) (rest : Bytes) :
    read (head.encode ++ rest) = some (head, rest) := by
  cases head with
  | nil => rfl
  | boolean b => cases b <;> rfl
  | single x =>
    have word := withWord_bytes 4 x.bits.toNat_lt
      (fun bits => .single ⟨UInt32.ofNat bits⟩) rest
    rw [UInt32.ofNat_toNat] at word
    exact word
  | double x =>
    have word := withWord_bytes 8 x.bits.toNat_lt
      (fun bits => .double ⟨UInt64.ofNat bits⟩) rest
    rw [UInt64.ofNat_toNat] at word
    exact word
  | natural n => exact read_naturalBytes fits rest
  | signed i => exact read_signedBytes fits.1 fits.2 rest
  | text size =>
    simp only [Fits] at fits
    simp only [encode]
    split
    · next small =>
      rw [List.singleton_append, read_ofNat (by omega), if_neg (by omega), if_neg (by omega),
        if_neg (by omega), Nat.add_sub_cancel_left]
    split
    · next small => exact withWord_bytes 1 small .text rest
    split
    · next small => exact withWord_bytes 2 small .text rest
    · exact withWord_bytes 4 fits .text rest
  | binary size =>
    simp only [Fits] at fits
    simp only [encode]
    split
    · next small => exact withWord_bytes 1 small .binary rest
    split
    · next small => exact withWord_bytes 2 small .binary rest
    · exact withWord_bytes 4 fits .binary rest
  | array size =>
    simp only [Fits] at fits
    simp only [encode]
    split
    · next small =>
      rw [List.singleton_append, read_ofNat (by omega), if_neg (by omega), if_neg (by omega),
        if_pos (by omega), Nat.add_sub_cancel_left]
    split
    · next small => exact withWord_bytes 2 small .array rest
    · exact withWord_bytes 4 fits .array rest
  | map size =>
    simp only [Fits] at fits
    simp only [encode]
    split
    · next small =>
      rw [List.singleton_append, read_ofNat (by omega), if_neg (by omega), if_pos (by omega),
        Nat.add_sub_cancel_left]
    split
    · next small => exact withWord_bytes 2 small .map rest
    · exact withWord_bytes 4 fits .map rest
  | extension type size =>
    simp only [Fits] at fits
    simp only [encode]
    split
    · next small => exact withSizeAndType_bytes 1 small type rest
    split
    · next small => exact withSizeAndType_bytes 2 small type rest
    · exact withSizeAndType_bytes 4 fits type rest

/-- A head takes at least one byte. -/
theorem length_encode_pos (head : Head) (fits : head.Fits) : 0 < head.encode.length := by
  apply List.length_pos_iff.mpr
  intro nothing
  have back := read_encode head fits []
  rw [nothing] at back
  cases back

end Head

namespace Document

mutual

/-- The numbers of a document fit the words that heads have for them. -/
def Fits : Document → Prop
  | .natural n => (Head.natural n).Fits
  | .signed i => (Head.signed i).Fits
  | .text bytes | .binary bytes => bytes.length < UInt32.size
  | .array items => items.length < UInt32.size ∧ ItemsFit items
  | .map entries => entries.length < UInt32.size ∧ EntriesFit entries
  | .extension _ bytes => bytes.length < UInt32.size
  | _ => True

/-- The numbers of some values fit. -/
def ItemsFit : List Document → Prop
  | [] => True
  | item :: items => Fits item ∧ ItemsFit items

/-- The numbers of keys and values fit. -/
def EntriesFit : List (Document × Document) → Prop
  | [] => True
  | (key, value) :: entries => Fits key ∧ Fits value ∧ EntriesFit entries

end

mutual

/-- A document is read back with more levels than it has, whatever stands behind it. Recursion
follows the document; the collections in it have one level less, and so has their reader. -/
theorem read_encode : (document : Document) → document.Fits → (levels : Nat) →
    document.depth < levels → (rest : Bytes) →
    read levels (document.encode ++ rest) = some (document, rest)
  | document, fits, 0, enough, rest => absurd enough (Nat.not_lt_zero _)
  | .nil, _, levels + 1, _, rest => rfl
  | .boolean b, _, levels + 1, _, rest => by cases b <;> rfl
  | .natural n, fits, levels + 1, _, rest => by
    simp only [Fits] at fits
    simp [read, encode, Head.read_encode _ fits]
  | .signed i, fits, levels + 1, _, rest => by
    simp only [Fits] at fits
    simp [read, encode, Head.read_encode _ fits]
  | .single x, _, levels + 1, _, rest => by
    simp [read, encode, Head.read_encode (.single x) trivial]
  | .double x, _, levels + 1, _, rest => by
    simp [read, encode, Head.read_encode (.double x) trivial]
  | .text bytes, fits, levels + 1, _, rest => by
    simp only [Fits] at fits
    simp [read, encode, Head.read_encode (.text bytes.length) fits, Head.split?_append]
  | .binary bytes, fits, levels + 1, _, rest => by
    simp only [Fits] at fits
    simp [read, encode, Head.read_encode (.binary bytes.length) fits, Head.split?_append]
  | .extension type bytes, fits, levels + 1, _, rest => by
    simp only [Fits] at fits
    simp [read, encode, Head.read_encode (.extension type bytes.length) fits,
      Head.split?_append]
  | .array items, fits, levels + 1, enough, rest => by
    simp only [Fits] at fits
    simp only [depth] at enough
    have contents := readMany_encodeItems items fits.2 levels (by omega) rest
    simp [read, encode, Head.read_encode (.array items.length) fits.1, contents]
  | .map entries, fits, levels + 1, enough, rest => by
    simp only [Fits] at fits
    simp only [depth] at enough
    have contents := readMany_encodeEntries entries fits.2 levels (by omega) rest
    simp [read, encode, Head.read_encode (.map entries.length) fits.1, contents]

/-- Values one behind the other are read back. -/
theorem readMany_encodeItems : (items : List Document) → ItemsFit items → (levels : Nat) →
    itemsDepth items < levels → (rest : Bytes) →
    readMany (read levels) items.length (encodeItems items ++ rest) = some (items, rest)
  | [], _, levels, _, rest => rfl
  | item :: items, fits, levels, enough, rest => by
    simp only [ItemsFit] at fits
    simp only [itemsDepth] at enough
    have first := read_encode item fits.1 levels (by omega) (encodeItems items ++ rest)
    have others := readMany_encodeItems items fits.2 levels (by omega) rest
    simp [readMany, encodeItems, first, others]

/-- Keys with their values are read back. -/
theorem readMany_encodeEntries : (entries : List (Document × Document)) → EntriesFit entries →
    (levels : Nat) → entriesDepth entries < levels → (rest : Bytes) →
    readMany (readEntry (read levels)) entries.length (encodeEntries entries ++ rest) =
      some (entries, rest)
  | [], _, levels, _, rest => rfl
  | (key, value) :: entries, fits, levels, enough, rest => by
    simp only [EntriesFit] at fits
    simp only [entriesDepth] at enough
    have name := read_encode key fits.1 levels (by omega)
      (encode value ++ (encodeEntries entries ++ rest))
    have content := read_encode value fits.2.1 levels (by omega) (encodeEntries entries ++ rest)
    have others := readMany_encodeEntries entries fits.2.2 levels (by omega) rest
    simp [readMany, readEntry, encodeEntries, name, content, others]

end

mutual

/-- A document has at least as many bytes as levels. -/
theorem depth_le : (document : Document) → document.Fits →
    document.depth ≤ document.encode.length
  | .array items, fits => by
    simp only [Fits] at fits
    have contents := itemsDepth_le items fits.2
    have head := Head.length_encode_pos (.array items.length) fits.1
    simp only [depth, encode, List.length_append]
    omega
  | .map entries, fits => by
    simp only [Fits] at fits
    have contents := entriesDepth_le entries fits.2
    have head := Head.length_encode_pos (.map entries.length) fits.1
    simp only [depth, encode, List.length_append]
    omega
  | .extension type bytes, fits => by
    simp only [Fits] at fits
    have head := Head.length_encode_pos (.extension type bytes.length) fits
    simp only [depth, encode, List.length_append]
    omega
  | .nil, _ | .boolean _, _ | .natural _, _ | .signed _, _ | .single _, _ | .double _, _
  | .text _, _ | .binary _, _ => Nat.zero_le _

/-- Items are no deeper than the bytes that they are written in. -/
theorem itemsDepth_le : (items : List Document) → ItemsFit items →
    itemsDepth items ≤ (encodeItems items).length
  | [], _ => Nat.le_refl 0
  | item :: items, fits => by
    simp only [ItemsFit] at fits
    have first := depth_le item fits.1
    have others := itemsDepth_le items fits.2
    simp only [itemsDepth, encodeItems, List.length_append]
    omega

/-- Entries are no deeper than the bytes that they are written in. -/
theorem entriesDepth_le : (entries : List (Document × Document)) → EntriesFit entries →
    entriesDepth entries ≤ (encodeEntries entries).length
  | [], _ => Nat.le_refl 0
  | (key, value) :: entries, fits => by
    simp only [EntriesFit] at fits
    have name := depth_le key fits.1
    have content := depth_le value fits.2.1
    have others := entriesDepth_le entries fits.2.2
    simp only [entriesDepth, encodeEntries, List.length_append]
    omega

end

/-- A document whose numbers fit is the document of its bytes. -/
theorem ofBytes?_encode {document : Document} (fits : document.Fits) :
    ofBytes? document.encode = some document := by
  have enough := depth_le document fits
  have back := read_encode document fits (document.encode.length + 1) (by omega) []
  rw [List.append_nil] at back
  rw [ofBytes?, back]
  rfl

/-- The numbers of a record fit if its names are short and the numbers of its values fit. -/
theorem fits_record {entries : List (String × Document)} (few : entries.length < UInt32.size)
    (each : ∀ entry ∈ entries, (Text.utf8 entry.1.toList).length < UInt32.size ∧ entry.2.Fits) :
    (record entries).Fits := by
  have all : EntriesFit (entries.map fun entry => (ofText entry.1.toList, entry.2)) := by
    clear few
    induction entries with
    | nil => trivial
    | cons entry entries inductionHypothesis =>
      obtain ⟨first, others⟩ := List.forall_mem_cons.mp each
      exact ⟨first.1, first.2, inductionHypothesis others⟩
  exact ⟨by simpa using few, all⟩

/-- A list of one item fits if the item does. -/
theorem fits_singleton {value : Document} (fits : value.Fits) : (array [value]).Fits :=
  ⟨show 1 < UInt32.size by decide, fits, trivial⟩

end Document

end SignalAccess.MessagePack
