import SignalAccess.Proofs.Request.Failures
import SignalAccess.Proofs.Request.Paths
import SignalAccess.Proofs.Text.Search

/-!
# Formats of files and the readers for them

The format of a file comes from the readers of the registry, from common custom or from its first
bytes, and is looked up in the registry again to find its reader. With the readers of every
installation the two agree but for one format: custom knows the files of the pulse archive by two digits
behind their last point, and no reader is registered for these. So a path is refused for its format,
although the format is known, exactly if it ends with a point and two digits.

What the machine answers about the contents of a file is left open.
-/

namespace SignalAccess

open Failure Recording

/-- A letter is a digit in neither case. -/
theorem Text.isDigit_toLower (c : Char) : c.toLower.isDigit = c.isDigit := by
  by_cases upper : 'A'.val ≤ c.val ∧ c.val ≤ 'Z'.val
  · have lowered : c.toLower.val = c.val + ('a'.val - 'A'.val) := congrArg Char.val (dif_pos upper)
    simp only [Char.isDigit, lowered]
    grind
  · exact congrArg Char.isDigit (dif_neg upper)

namespace FileFormat

/-- A path that ends with a point and two digits. -/
def EndsWithTwoDigits (path : Text) : Prop :=
  ∃ front tens units, path = front ++ ['.', tens, units] ∧ tens.isDigit = true ∧ units.isDigit = true

variable {configuration : Configuration} {machine : Machine} {path extension format : Text}

/-- The extension of a file is what stands behind the last point of its path, where no slash follows. -/
theorem extensionOf_append (front : Text) {back : Text} (pointFree : '.' ∉ back)
    (slashFree : '/' ∉ back) : extensionOf (front ++ '.' :: back) = back := by
  have free : '/' ∉ '.' :: back := by simpa using slashFree
  obtain ⟨piece, last⟩ := Text.exists_lastElement_append front free
  rw [extensionOf, last, Text.breakAtLast_append piece pointFree]

/-- A given extension stands behind a point at the end of the path. -/
theorem exists_append_extensionOf (given : extensionOf path ≠ []) :
    ∃ front, path = front ++ '.' :: extensionOf path := by
  obtain ⟨front, whole⟩ := Text.exists_append_lastElement path
  rw [extensionOf] at given ⊢
  split
  · next piece extension found =>
    have last := Text.append_of_breakOnLast found
    rw [List.append_assoc, List.singleton_append] at last
    refine ⟨front ++ piece, ?_⟩
    rw [List.append_assoc, ← last]
    exact whole
  · next absent =>
    rw [absent] at given
    exact absurd rfl given

/-- A path ends with a point and two digits exactly if its extension is two digits. -/
theorem endsWithTwoDigits_iff : EndsWithTwoDigits path ↔
    (extensionOf path).length = 2 ∧ (extensionOf path).all Char.isDigit = true := by
  constructor
  · rintro ⟨front, tens, units, rfl, tensDigit, unitsDigit⟩
    have apart (c : Char) (other : c.isDigit = false) : c ∉ [tens, units] := by
      rintro among
      rcases List.mem_pair.mp among with rfl | rfl
      · rw [other] at tensDigit
        cases tensDigit
      · rw [other] at unitsDigit
        cases unitsDigit
    rw [extensionOf_append front (apart '.' (by decide)) (apart '/' (by decide))]
    simp [tensDigit, unitsDigit]
  · rintro ⟨two, digits⟩
    obtain ⟨tens, units, written⟩ := List.length_eq_two.mp two
    have given : extensionOf path ≠ [] := by simp [written]
    obtain ⟨front, whole⟩ := exists_append_extensionOf given
    rw [written] at whole digits
    simp only [List.all_cons, List.all_nil, Bool.and_true, Bool.and_eq_true] at digits
    exact ⟨front, tens, units, whole, digits.1, digits.2⟩

/-- Whether an extension is two digits does not depend on its case. -/
theorem isTwoDigits_map_toLower (extension : Text) :
    ((extension.map Char.toLower).length = 2 ∧
        (extension.map Char.toLower).all Char.isDigit = true) ↔
      extension.length = 2 ∧ extension.all Char.isDigit = true := by
  rw [List.length_map, List.all_map]
  simp [Text.isDigit_toLower]

/-! ## Where a format comes from -/

/-- The formats that are told by custom or by the contents of a file, but for that of the pulse
archive. -/
def commonFormats : List Text :=
  ["NETCDF".toList, "HDF5".toList, "XML".toList, "CSV".toList, "IDA".toList]

/-- By custom, two digits are the extension of the pulse archive. -/
theorem customary?_of_twoDigits (two : extension.length = 2)
    (digits : extension.all Char.isDigit = true) : customary? extension = some "IDA3".toList := by
  obtain ⟨lowerTwo, lowerDigits⟩ := (isTwoDigits_map_toLower extension).mpr ⟨two, digits⟩
  simp only [customary?]
  rw [if_pos]
  simp [lowerTwo, lowerDigits]

/-- Any other extension with a format by custom has a common one. -/
theorem mem_commonFormats_of_customary?
    (other : ¬(extension.length = 2 ∧ extension.all Char.isDigit = true))
    (given : customary? extension = some format) : format ∈ commonFormats := by
  rw [← isTwoDigits_map_toLower] at other
  simp only [customary?] at given
  rw [if_neg (by simpa using other)] at given
  split at given
  · cases given
    simp [commonFormats]
  · split at given
    · cases given
      simp [commonFormats]
    · split at given
      · cases given
        simp [commonFormats]
      · split at given
        · cases given
          simp [commonFormats]
        · cases given

/-- The contents of a file tell a common format. -/
theorem mem_commonFormats_of_sniff? (given : sniff? configuration machine path = some format) :
    format ∈ commonFormats := by
  rw [sniff?] at given
  split at given
  · cases given
  · dsimp only at given
    split at given
    · cases given
      simp [commonFormats]
    · split at given
      · split at given
        · cases given
          simp [commonFormats]
        · cases given
          simp [commonFormats]
      · split at given
        · cases given
          simp [commonFormats]
        · cases given

/-- What tells the format of a file, where none is set for the pulses. -/
inductive Told (configuration : Configuration) (registry : Registry) (machine : Machine)
    (path : Text) : Text → Prop where
  /-- A reader has the extension of the file. -/
  | reader {found : Reader} (among : found ∈ registry.readers)
    (same : found.extension.equalIgnoringCase (extensionOf path) = true) :
    Told configuration registry machine path found.format
  /-- The extension is a customary one. -/
  | custom {format : Text} (given : customary? (extensionOf path) = some format) :
    Told configuration registry machine path format
  /-- The file has no extension and starts with the bytes of a format. -/
  | contents {format : Text} (bare : extensionOf path = [])
    (given : sniff? configuration machine path = some format) :
    Told configuration registry machine path format

/-- A format that is identified is told in one of these ways, where none is set. -/
theorem told_of_identify {registry : Registry} (unset : configuration.format = [])
    (known : identify configuration registry machine path = some format) :
    Told configuration registry machine path format := by
  rw [identify] at known
  split at known
  · cases known
  · cases given : registry.byExtension? (extensionOf path) with
    | some found =>
      obtain ⟨among, same⟩ := Registry.mem_of_byExtension? given
      obtain rfl : found.format = format := by simpa [given] using known
      exact .reader among same
    | none =>
      cases customary : customary? (extensionOf path) with
      | some own =>
        obtain rfl : own = format := by simpa [given, customary] using known
        exact .custom customary
      | none =>
        obtain ⟨bare, sniffed⟩ : extensionOf path = [] ∧
            sniff? configuration machine path = some format := by
          simpa [given, customary, unset] using known
        exact .contents bare sniffed

/-! ## Formats that are known and have no reader -/

/-- No reader of every installation has two digits for its extension. -/
theorem not_twoDigits_of_standard :
    ∀ found ∈ Registry.standard.readers,
      ¬(found.extension.length = 2 ∧ found.extension.all Char.isDigit = true) := by
  decide +kernel

/-- Every installation has a reader for each common format. -/
theorem byFormat?_of_common :
    ∀ format ∈ commonFormats, Registry.standard.byFormat? format ≠ none := by
  decide +kernel

/-- No installation brings a reader for the format of the pulse archive. -/
theorem byFormat?_of_archive : Registry.standard.byFormat? "IDA3".toList = none := by
  decide +kernel

/-- A format that is told has no reader exactly if it is that of the pulse archive. -/
theorem Told.byFormat?_eq_none_iff (told : Told configuration .standard machine path format) :
    Registry.standard.byFormat? format = none ↔ EndsWithTwoDigits path := by
  rw [endsWithTwoDigits_iff]
  cases told with
  | reader among same =>
    obtain ⟨latest, known⟩ := Registry.indexed_standard.exists_byFormat? among
    have lower := eq_of_beq same
    have other := not_twoDigits_of_standard _ among
    rw [← isTwoDigits_map_toLower, lower, isTwoDigits_map_toLower] at other
    exact iff_of_false (by simp [known]) other
  | custom given =>
    by_cases twoDigits :
        (extensionOf path).length = 2 ∧ (extensionOf path).all Char.isDigit = true
    · rw [customary?_of_twoDigits twoDigits.1 twoDigits.2] at given
      cases given
      exact iff_of_true byFormat?_of_archive twoDigits
    · have common := mem_commonFormats_of_customary? twoDigits given
      exact iff_of_false (byFormat?_of_common format common) twoDigits
  | contents bare given =>
    have common := mem_commonFormats_of_sniff? given
    exact iff_of_false (byFormat?_of_common format common) (by simp [bare])

end FileFormat

namespace RequestReader

variable {reader : RequestReader} {delimiter source path : Text}

/-- A path is refused for its format if there is no reader for it, and never for anything else. -/
theorem unrecognized_iff_of_path (choice signal : Text) (log : FailureLog)
    (reads : reader.ReadsPath (reader.configuration.delimiterOr choice) source path) :
    (∃ detail, (reader.parse source signal choice log).1 = .error (.unrecognizedFormat detail)) ↔
      reader.fileReader? path = none := by
  have steps : reader.read source signal choice =
      reader.readPath path (reader.pathRequest (reader.configuration.delimiterOr choice) source
        signal.trim) >>= reader.readSignal false false false := readSource_of_path reads _ _
  rw [parse, steps, readPath]
  cases reader.fileReader? path with
  | none => exact iff_of_true ⟨_, rfl⟩ rfl
  | some found =>
    refine iff_of_false ?_ (Option.some_ne_none found)
    rintro ⟨detail, failed⟩
    dsimp only at failed
    rw [pure_bind] at failed
    obtain ⟨fault, syntactic⟩ := (fails_readSignal false false false _).of_outcome failed
    cases syntactic

/-- With the readers of every installation and no format set for the pulses, a format that is told of
a file has no reader exactly if the file ends with a point and two digits, and exactly then is its path
refused for its format. -/
theorem unrecognized_iff_endsWithTwoDigits {reader : RequestReader} {path format : Text}
    (standard : reader.registry = .standard) (unset : reader.configuration.format = [])
    (known : FileFormat.identify reader.configuration reader.registry reader.machine path =
      some format) :
    (reader.registry.byFormat? format = none ↔ FileFormat.EndsWithTwoDigits path) ∧
      ∀ source signal choice log,
        reader.ReadsPath (reader.configuration.delimiterOr choice) source path →
        ((∃ detail, (reader.parse source signal choice log).1 =
            .error (.unrecognizedFormat detail)) ↔
          FileFormat.EndsWithTwoDigits path) := by
  have told := FileFormat.told_of_identify unset known
  rw [standard] at told
  have unread : reader.registry.byFormat? format = none ↔ FileFormat.EndsWithTwoDigits path := by
    rw [standard]
    exact told.byFormat?_eq_none_iff
  refine ⟨unread, fun source signal choice log reads => ?_⟩
  have found : reader.fileReader? path = reader.registry.byFormat? format := by
    rw [fileReader?, known, Option.bind_some]
  rw [unrecognized_iff_of_path choice signal log reads, found, unread]

/-- A machine on which every file starts with the bytes of classic netCDF. -/
def classic : RequestReader where
  configuration := .standard
  registry := .standard
  machine := { Machine.bare with contents := fun _ => .ok (FileFormat.netcdfSignature ++ [1]) }

/-- A file of the pulse archive is refused for its format, and a file that only its contents tell
is not. -/
theorem unrecognized_iff_endsWithTwoDigits_classic :
    FileFormat.identify classic.configuration classic.registry classic.machine "/a/b.42".toList =
        some "IDA3".toList ∧
      (∃ detail, (classic.parse "/a/b.42".toList "ip".toList [] .empty).1 =
        .error (.unrecognizedFormat detail)) ∧
      FileFormat.identify classic.configuration classic.registry classic.machine "/a/b".toList =
        some "NETCDF".toList ∧
      ¬∃ detail, (classic.parse "/a/b".toList "ip".toList [] .empty).1 =
        .error (.unrecognizedFormat detail) := by
  have archived : FileFormat.identify classic.configuration classic.registry classic.machine
      "/a/b.42".toList = some "IDA3".toList := by decide +kernel
  have bare : FileFormat.identify classic.configuration classic.registry classic.machine
      "/a/b".toList = some "NETCDF".toList := by decide +kernel
  have ends : FileFormat.EndsWithTwoDigits "/a/b.42".toList :=
    ⟨"/a/b".toList, '4', '2', rfl, rfl, rfl⟩
  have other : ¬FileFormat.EndsWithTwoDigits "/a/b".toList := by
    rw [FileFormat.endsWithTwoDigits_iff]
    decide +kernel
  obtain ⟨-, refused⟩ := unrecognized_iff_endsWithTwoDigits rfl rfl archived
  obtain ⟨-, accepted⟩ := unrecognized_iff_endsWithTwoDigits rfl rfl bare
  refine ⟨archived, (refused _ _ [] .empty ?_).mpr ends, bare,
    fun unrecognized => other ((accepted _ _ [] .empty ?_).mp unrecognized)⟩
  · decide +kernel
  · decide +kernel

/-- A format that is known need not have a reader, and its files are then refused. -/
theorem not_forall_recognized :
    ¬∀ (reader : RequestReader) (path format : Text), reader.registry = .standard →
      reader.configuration.format = [] → path.isLegalPath = true →
      FileFormat.identify reader.configuration reader.registry reader.machine path = some format →
      reader.registry.byFormat? format ≠ none ∧
        ∀ source signal choice log detail,
          reader.ReadsPath (reader.configuration.delimiterOr choice) source path →
          (reader.parse source signal choice log).1 ≠ .error (.unrecognizedFormat detail) := by
  intro claimed
  have archived : FileFormat.identify classic.configuration classic.registry classic.machine
      "/a/b.42".toList = some "IDA3".toList := by decide +kernel
  obtain ⟨found, -⟩ := claimed classic _ _ rfl rfl (by decide +kernel) archived
  exact found FileFormat.byFormat?_of_archive

end RequestReader

end SignalAccess
