import SignalAccess.Wire.Version

/-!
# What versions share

What two peers share is governed by the lower of their versions. The parts of a session give each
other different versions to compare with, their own, the latest one, or the one that was negotiated;
what they come to share is the same in each case. The order is that of signed integers.
-/

namespace SignalAccess.Version

/-- A version has no field that is younger. -/
theorem has_eq_false_iff {version : Version} {field : GatedField} :
    version.has field = false ↔ version < field.since := by
  rw [has, decide_eq_false_iff_not, Int32.not_le]

/-- What depends on whether a version has a field depends on whether the version is older. -/
theorem ite_has {α : Type} (version : Version) (field : GatedField) (present absent : α) :
    (if version.has field then present else absent) =
      if version < field.since then absent else present := by
  by_cases older : version < field.since
  · rw [if_pos older, has_eq_false_iff.mpr older]
    rfl
  · have known : version.has field = true := by
      rw [← Bool.not_eq_false, has_eq_false_iff]
      exact older
    rw [if_neg older, if_pos known]

/-- The lower of two versions, as an integer. -/
theorem toInt_min (a b : Version) : (min a b).toInt = min a.toInt b.toInt := by
  change (if a ≤ b then a else b).toInt = _
  rw [Int.min_def]
  simp only [Int32.le_iff_toInt_le]
  split
  · rfl
  · rfl

/-- A version governs itself. -/
theorem lower_self (version : Version) : min version version = version := by
  rw [← Int32.toInt_inj, toInt_min, Int.min_self]

/-- What a server shares with the version that was negotiated, it shares with the client. -/
theorem lower_server_negotiated (client server : Version) :
    min server (negotiated client server) = min server client := by
  rw [negotiated, ← Int32.toInt_inj, toInt_min, toInt_min, toInt_min]
  omega

/-- A server has the version that was negotiated, or a later one. -/
theorem lower_negotiated (client server : Version) :
    min server (negotiated client server) = negotiated client server := by
  rw [negotiated, ← Int32.toInt_inj, toInt_min, toInt_min]
  omega

/-- A reader of the latest version has every field that a state has at its own version. -/
theorem has_min_current (version : Version) (field : GatedField) :
    (min version version).has field = (min version current).has field := by
  have latest : field.since ≤ current := by cases field <;> decide
  have since : field.since ≤ min version current ↔ field.since ≤ version := by
    rw [Int32.le_iff_toInt_le] at *
    rw [Int32.le_iff_toInt_le, toInt_min]
    omega
  simp only [has, lower_self, since]

/-- What a server shares with the version that governs, it shares with the client. -/
theorem has_min_negotiated (client server : Version) (field : GatedField) :
    (min server (negotiated client server)).has field = (min server client).has field := by
  rw [lower_server_negotiated]

end SignalAccess.Version
