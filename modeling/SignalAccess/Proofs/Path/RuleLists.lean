import SignalAccess.Path.Rules
import SignalAccess.Proofs.Failure.Recording

/-!
# Lists of rules

The targets of the rules and their substitutes stand in two lists, and what stands at the same place
of both makes a rule. Of each list the first ten items are read and the others are not looked at, so
that the lists are compared by what is read of them: two lists of ten items or more make ten rules,
whether they are as long as each other or not.
-/

namespace SignalAccess

/-- The failure of a configuration that contradicts itself. -/
def Failure.IsConfiguration (failure : Failure) : Prop := ∃ fault, failure = .configuration fault

namespace PathRule

open Failure

variable {targets substitutes list : Text} {role : String} {rules : List PathRule}

/-- The items that a list names, however many and however long. -/
def named (list : Text) : List Text := (Text.splitWhere isSeparator list).filter (!·.isEmpty)

/-- The items of a list that are read. -/
def kept (list : Text) : List Text := (named list).take maxRules

/-- Whether an item is short enough for a rule. -/
def IsShort (item : Text) : Prop := item.byteLength < lengthBound

instance : DecidablePred IsShort := fun item =>
  inferInstanceAs (Decidable (item.byteLength < lengthBound))

/-! ## One list -/

/-- A list is read as its first items if none of them is too long. -/
theorem items_of_short (role : String) (short : ∀ item ∈ kept list, IsShort item) :
    items role list = .ok (kept list) := by
  have absent : (kept list).find? (fun item => lengthBound ≤ item.byteLength) = none := by
    rw [List.find?_eq_none]
    intro item among
    simpa [IsShort] using short item among
  rw [kept, named] at absent
  rw [items, absent]
  rfl

/-- And it is refused for the first of them that is too long. -/
theorem exists_items_eq_error (role : String) (long : ¬∀ item ∈ kept list, IsShort item) :
    ∃ item ∈ kept list,
      items role list = .error (.configuration (.ruleTooLong role (item.take 16))) := by
  have found : ((kept list).find? fun item => lengthBound ≤ item.byteLength).isSome := by
    push Not at long
    obtain ⟨item, among, refused⟩ := long
    exact List.find?_isSome.mpr ⟨item, among, by simpa [IsShort] using refused⟩
  obtain ⟨item, first⟩ := Option.isSome_iff_exists.mp found
  refine ⟨item, List.mem_of_find?_eq_some first, ?_⟩
  rw [kept, named] at first
  rw [items, first]

/-- A list is accepted exactly if all items that are kept are short, and then those are its
items. -/
theorem items_eq_ok_iff {found : List Text} : items role list = .ok found ↔
    (∀ item ∈ kept list, IsShort item) ∧ found = kept list := by
  by_cases short : ∀ item ∈ kept list, IsShort item
  · rw [items_of_short role short, Except.ok.injEq, eq_comm, and_iff_right short]
  · obtain ⟨item, -, refused⟩ := exists_items_eq_error role short
    rw [refused]
    exact ⟨nofun, fun both => absurd both.1 short⟩

/-- A list of items is refused as a fault of the configuration only. -/
theorem onlyConfiguration_items (role : String) (list : Text) :
    Only IsConfiguration (items role list) := by
  by_cases short : ∀ item ∈ kept list, IsShort item
  · rw [items_of_short role short]
    exact only_ok _
  · obtain ⟨item, -, refused⟩ := exists_items_eq_error role short
    rw [refused]
    exact only_error ⟨_, rfl⟩

/-! ## Two lists -/

/-- Rules are made of two lists of one length exactly if these are their targets and their
substitutes. -/
theorem eq_zip_iff {first second : List Text} :
    first.length = second.length ∧
        (first.zip second).map (fun (target, substitute) => PathRule.mk target substitute) = rules ↔
      rules.map (·.target) = first ∧ rules.map (·.substitute) = second := by
  constructor
  · rintro ⟨same, rfl⟩
    rw [List.map_map, List.map_map]
    exact ⟨List.map_fst_zip (Nat.le_of_eq same), List.map_snd_zip (Nat.le_of_eq same.symm)⟩
  · rintro ⟨rfl, rfl⟩
    refine ⟨by simp, ?_⟩
    rw [List.zip_map', List.map_map]
    exact List.map_id' rules

/-- Two lists make rules exactly if all items that are kept are short and pair by pair they are the
targets and the substitutes. -/
theorem ofLists_eq_ok_iff : ofLists targets substitutes = .ok rules ↔
    (∀ item ∈ kept targets ++ kept substitutes, IsShort item) ∧
      rules.map (·.target) = kept targets ∧ rules.map (·.substitute) = kept substitutes := by
  rw [List.forall_mem_append, ← eq_zip_iff]
  constructor
  · intro done
    obtain ⟨first, readFirst, later⟩ := result_bind_eq_ok done
    obtain ⟨second, readSecond, made⟩ := result_bind_eq_ok later
    obtain ⟨shortFirst, rfl⟩ := items_eq_ok_iff.mp readFirst
    obtain ⟨shortSecond, rfl⟩ := items_eq_ok_iff.mp readSecond
    by_cases same : (kept targets).length = (kept substitutes).length
    · rw [if_pos same] at made
      exact ⟨⟨shortFirst, shortSecond⟩, same, Except.ok.inj made⟩
    · rw [if_neg same] at made
      cases made
  · rintro ⟨⟨shortFirst, shortSecond⟩, same, rfl⟩
    rw [ofLists, items_of_short "target" shortFirst, items_of_short "substitute" shortSecond]
    exact if_pos same

/-- Two lists of rules are refused as a fault of the configuration only. -/
theorem onlyConfiguration_ofLists (targets substitutes : Text) :
    Only IsConfiguration (ofLists targets substitutes) := by
  refine (onlyConfiguration_items "target" targets).bind fun first => ?_
  refine (onlyConfiguration_items "substitute" substitutes).bind fun second => ?_
  by_cases same : first.length = second.length
  · rw [if_pos same]
    exact only_ok _
  · rw [if_neg same]
    exact only_error ⟨_, rfl⟩

/-- As much is read of one list as of the other if they are as long as each other, or longer than
what is read. -/
theorem length_kept_eq_iff : (kept targets).length = (kept substitutes).length ↔
    (named targets).length = (named substitutes).length ∨
      maxRules ≤ (named targets).length ∧ maxRules ≤ (named substitutes).length := by
  rw [kept, kept, List.length_take, List.length_take]
  omega

/-- Two lists are accepted if what is read of them is short and they name equally many items, or ten
and more each. The rules then pair the items place by place. All other lists are refused, and always
as a configuration that contradicts itself. -/
theorem ofLists_accepts_iff (targets substitutes : Text) :
    ((∃ rules, ofLists targets substitutes = .ok rules) ↔
      (∀ item ∈ kept targets ++ kept substitutes, IsShort item) ∧
      ((named targets).length = (named substitutes).length ∨
        maxRules ≤ (named targets).length ∧ maxRules ≤ (named substitutes).length)) ∧
    (∀ rules, ofLists targets substitutes = .ok rules →
      rules.map (·.target) = (named targets).take maxRules ∧
        rules.map (·.substitute) = (named substitutes).take maxRules) ∧
    ∀ failure, ofLists targets substitutes = .error failure → failure.IsConfiguration := by
  refine ⟨?_, fun rules made => (ofLists_eq_ok_iff.mp made).2, onlyConfiguration_ofLists _ _⟩
  rw [← length_kept_eq_iff]
  constructor
  · rintro ⟨rules, made⟩
    obtain ⟨short, first, second⟩ := ofLists_eq_ok_iff.mp made
    exact ⟨short, by rw [← first, ← second, List.length_map, List.length_map]⟩
  · rintro ⟨short, same⟩
    exact ⟨_, ofLists_eq_ok_iff.mpr ⟨short, eq_zip_iff.mp ⟨same, rfl⟩⟩⟩

/-- Eleven targets and ten substitutes are accepted. -/
theorem not_forall_length_named_eq : ¬∀ (targets substitutes : Text) (rules : List PathRule),
    ofLists targets substitutes = .ok rules →
      (named targets).length = (named substitutes).length := by
  intro all
  have same := all "/a,/b,/c,/d,/e,/f,/g,/h,/i,/j,/k".toList "/A,/B,/C,/D,/E,/F,/G,/H,/I,/J".toList
    _ (ofLists_eq_ok_iff.mpr ⟨by decide, eq_zip_iff.mp ⟨by decide, rfl⟩⟩)
  exact absurd same (by decide)

end PathRule

end SignalAccess
