import Mathlib.Data.List.TakeWhile
import SignalAccess.Path.Expansion
import SignalAccess.Proofs.Text.Search

/-!
# Bare names

A bare name and the same name behind `./` both name a file of the working directory. Behind `./` the
last steps of an expansion are taken once and in their order: a link is dereferenced, a path in the
shared directory gets its network name, and the rules apply. For a bare name the rules apply before
the network name is asked for, and all of the steps are taken again if the rules lead into the shared
directory or stay there. The two come to the same where the second pass changes nothing; where rules
lead into the shared directory or out of it, they may differ.
-/

namespace SignalAccess

namespace Path.Resolver

variable {resolver : Resolver} {name path directory target replaced : Text} {failure : Failure}
  {refusal : LocatedFailure}

/-- Whether a path lies in the directory that is shared over the network. -/
def InShared (resolver : Resolver) (path : Text) : Prop :=
  resolver.configuration.scratchLead <+: path

instance (resolver : Resolver) (path : Text) : Decidable (resolver.InShared path) :=
  inferInstanceAs (Decidable (resolver.configuration.scratchLead <+: path))

/-- Whether a path is the name of a file and nothing else: portable, not empty, without slashes, and
no pulse number. -/
structure IsBare (name : Text) : Prop where
  legal : name.isLegalPath = true
  given : name ≠ []
  free : '/' ∉ name
  word : Text.isInteger name = false

/-- A name behind `./`. -/
def beside (name : Text) : Text := "./".toList ++ name

/-- Whether a path has to be found from the working directory, and is no pulse. -/
structure IsRelative (path : Text) : Prop where
  legal : path.isLegalPath = true
  given : path ≠ []
  relative : path.head? ≠ some '/'
  word : startsWithPulse path = false

/-- Whether the last steps of an expansion come to the same in either order for a path that is no
link any more. -/
structure Settles (resolver : Resolver) (target : Text) : Prop where
  /-- Where rules lead into the shared directory, the second pass leads back. -/
  entered : ¬resolver.InShared target → ∀ replaced, resolver.applyRules target = .ok replaced →
    resolver.InShared replaced → resolver.finish replaced = .ok replaced
  /-- Where rules refuse a path in the shared directory, they refuse it under its network name. -/
  refused : resolver.InShared target → ∀ failure, resolver.applyRules target = .error failure →
    resolver.applyRules (resolver.onNetwork target) = .error failure
  /-- Where rules lead out of the shared directory, they do the same under its network name. -/
  left : resolver.InShared target → ∀ replaced, resolver.applyRules target = .ok replaced →
    ¬resolver.InShared replaced → resolver.applyRules (resolver.onNetwork target) = .ok replaced
  /-- Where rules stay in it, the second pass does what they do under the network name. -/
  stayed : resolver.InShared target → ∀ replaced, resolver.applyRules target = .ok replaced →
    resolver.InShared replaced →
      resolver.finish replaced = resolver.applyRules (resolver.onNetwork target)

/-! ## Paths from the working directory -/

/-- The first element of a bare name is the name. -/
theorem IsBare.isRelative (bare : IsBare name) : IsRelative name where
  legal := bare.legal
  given := bare.given
  relative := fun first => bare.free (List.mem_of_head? first)
  word := by
    have apart : ∀ c ∈ name, c ≠ '/' := fun c among same => bare.free (same ▸ among)
    have started : name.dropWhile (· == '/') = name :=
      List.dropWhile_eq_self_iff.mpr fun inside => by simpa using apart _ (List.getElem_mem inside)
    have whole : name.takeWhile (· != '/') = name :=
      List.takeWhile_eq_self_iff.mpr fun c among => by simpa using apart c among
    rw [startsWithPulse, started, whole, bare.word]

/-- The first element behind which a name stands is no number. -/
theorem IsBare.isRelative_beside (bare : IsBare name) : IsRelative (beside name) where
  legal := by
    have lead : Text.isPathChar '.' = true ∧ Text.isPathChar '/' = true := by decide
    simpa [beside, Text.isLegalPath, lead] using bare.legal
  given := by simp [beside]
  relative := by simp [beside]
  word := rfl

/-- A relative path is expanded below the directory, by its name and what stands in front of it. -/
theorem expand_of_isRelative (apart : IsRelative path) :
    resolver.expand path = (do
      let directory ← LocatedFailure.locate "expand_path" resolver.machine.directory
      match path.breakAtLast '/' with
      | none => resolver.expandName directory path
      | some (front, name) => resolver.expandBelow directory front name path) := by
  obtain ⟨legal, given, relative, word⟩ := apart
  have expands : resolver.needsExpansion path = true := by simp [needsExpansion, relative]
  have needs : needsDirectory path = true := by simp [needsDirectory, relative]
  have plain : path.isEmpty = false := List.isEmpty_eq_false_iff.mpr given
  simp only [expand, legal, expands, needs, plain, word]
  rfl

/-- Without a working directory such a path is refused. -/
theorem expand_of_no_directory (apart : IsRelative path)
    (absent : resolver.machine.directory = .error failure) :
    resolver.expand path = .error ⟨"expand_path".toList, failure⟩ := by
  rw [expand_of_isRelative apart, absent]
  rfl

/-- A bare name is expanded below the directory as a name. -/
theorem expand_name (bare : IsBare name) (found : resolver.machine.directory = .ok directory) :
    resolver.expand name = resolver.expandName directory name := by
  rw [expand_of_isRelative bare.isRelative, found, Text.breakAtLast_eq_none_iff.mpr bare.free]
  rfl

/-- Where the working directory is found as itself, the last steps are taken for the name below
it. -/
theorem expand_beside (bare : IsBare name) (found : resolver.machine.directory = .ok directory)
    (own : resolver.machine.canonical? (below directory "./".toList) = some directory) :
    resolver.expand (beside name) = resolver.finish (directory ++ '/' :: name) := by
  have cut : (beside name).breakAtLast '/' = some (['.'], name) :=
    Text.breakAtLast_append ['.'] bare.free
  have expanded : resolver.expandBelow directory ['.'] name (beside name) =
      resolver.finish (directory ++ '/' :: name) := by
    have place : expandVariables resolver.machine.environment? (['.'] ++ ['/']) = "./".toList := rfl
    simp only [expandBelow, place, own]
  rw [expand_of_isRelative bare.isRelative_beside, found, cut, ← expanded]
  rfl

/-! ## The order of the last steps -/

/-- The last steps end with the rules, on the network name of a path in the shared directory. -/
theorem finish_eq (resolver : Resolver) (path : Text) :
    resolver.finish path =
      if resolver.InShared (resolver.dereference path) then
        resolver.applyRules (resolver.onNetwork (resolver.dereference path))
      else resolver.applyRules (resolver.dereference path) := by
  by_cases inside : resolver.InShared (resolver.dereference path)
  · simp only [finish, if_pos inside, if_pos (Text.startsWith_iff.mpr inside)]
  · simp only [finish, if_neg inside, if_neg (mt Text.startsWith_iff.mp inside)]

/-- For a bare name the rules come first, and the last steps once more where they lead into the
shared directory. -/
theorem expandName_eq (resolver : Resolver) (directory name : Text) :
    resolver.expandName directory name = (do
      let replaced ← resolver.applyRules (resolver.dereference (directory ++ '/' :: name))
      if resolver.InShared replaced then resolver.finish replaced else .ok replaced) := by
  unfold expandName
  refine bind_congr fun replaced => ?_
  by_cases inside : resolver.InShared replaced
  · rw [if_pos inside, if_pos (Text.startsWith_iff.mpr inside)]
  · rw [if_neg inside, if_neg (mt Text.startsWith_iff.mp inside)]

/-- Where the rules refuse a target, both orders come to the same exactly if its form on the
network, should it have one, is refused in the same way. -/
theorem settles_iff_of_refused (refused : resolver.applyRules target = .error refusal) :
    resolver.Settles target ↔ (resolver.InShared target →
      resolver.applyRules (resolver.onNetwork target) = .error refusal) := by
  have never : ∀ replaced, resolver.applyRules target ≠ .ok replaced := by
    intro replaced made
    rw [refused] at made
    cases made
  constructor
  · intro settles inside
    exact settles.refused inside refusal refused
  · intro same
    refine ⟨fun _ replaced made => absurd made (never replaced), ?_,
      fun _ replaced made => absurd made (never replaced),
      fun _ replaced made => absurd made (never replaced)⟩
    intro inside other again
    obtain rfl : refusal = other := Except.error.inj (refused.symm.trans again)
    exact same inside

/-- Where the rules replace a target, both orders come to the same exactly if what is done with the
replaced path is what the rules do with the target's form on the network. -/
theorem settles_iff_of_made (made : resolver.applyRules target = .ok replaced) :
    resolver.Settles target ↔
      (if resolver.InShared replaced then resolver.finish replaced else .ok replaced) =
        if resolver.InShared target then resolver.applyRules (resolver.onNetwork target)
        else .ok replaced := by
  constructor
  · intro settles
    by_cases inside : resolver.InShared target
    · rw [if_pos inside]
      by_cases again : resolver.InShared replaced
      · rw [if_pos again]
        exact settles.stayed inside replaced made again
      · rw [if_neg again]
        exact (settles.left inside replaced made again).symm
    · rw [if_neg inside]
      by_cases again : resolver.InShared replaced
      · rw [if_pos again]
        exact settles.entered inside replaced made again
      · rw [if_neg again]
  · intro same
    have whole : ∀ other, resolver.applyRules target = .ok other → replaced = other :=
      fun other again => Except.ok.inj (made.symm.trans again)
    refine ⟨?_, ?_, ?_, ?_⟩
    · intro apart other found again
      obtain rfl := whole other found
      rwa [if_pos again, if_neg apart] at same
    · intro _ failure refused
      rw [made] at refused
      cases refused
    · intro inside other found apart
      obtain rfl := whole other found
      rw [if_neg apart, if_pos inside] at same
      exact same.symm
    · intro inside other found again
      obtain rfl := whole other found
      rwa [if_pos again, if_pos inside] at same

/-- A path in the shared directory that no rule changes, and that is no link, settles: the second pass
is the first one of the other order. -/
theorem settles_of_unchanged (inside : resolver.InShared target)
    (unchanged : resolver.applyRules target = .ok target)
    (plain : resolver.dereference target = target) : resolver.Settles target := by
  rw [settles_iff_of_made unchanged, if_pos inside, if_pos inside, finish_eq, plain, if_pos inside]

/-- A path settles if neither it nor what the rules make of it lies in the shared directory. -/
theorem settles_of_apart (apart : ¬resolver.InShared target)
    (never : ∀ replaced, resolver.applyRules target = .ok replaced → ¬resolver.InShared replaced) :
    resolver.Settles target where
  entered _ replaced made inside := absurd inside (never replaced made)
  refused inside := absurd inside apart
  left inside := absurd inside apart
  stayed inside := absurd inside apart

/-- The last steps in the order of bare names come to what they come to in the other order exactly if
the path that is dereferenced settles. -/
theorem expandName_eq_finish_iff (resolver : Resolver) (directory name : Text) :
    resolver.expandName directory name = resolver.finish (directory ++ '/' :: name) ↔
      resolver.Settles (resolver.dereference (directory ++ '/' :: name)) := by
  rw [expandName_eq, finish_eq]
  generalize resolver.dereference (directory ++ '/' :: name) = target
  cases made : resolver.applyRules target with
  | error refusal =>
    rw [settles_iff_of_refused made]
    by_cases inside : resolver.InShared target
    · rw [if_pos inside]
      exact ⟨fun same _ => same.symm, fun same => (same inside).symm⟩
    · rw [if_neg inside]
      exact ⟨fun _ within => absurd within inside, fun _ => rfl⟩
  | ok replaced =>
    rw [settles_iff_of_made made]
    rfl

/-! ## A bare name and the name behind `./` -/

/-- Without a working directory a bare name and the name behind `./` are refused alike. With one that
is found as itself, the last steps are taken in their order for the name behind `./`, and the bare
name comes to the same exactly if the path settles. -/
theorem expand_name_eq_iff_settles (bare : IsBare name)
    (own : ∀ directory, resolver.machine.directory = .ok directory →
      resolver.machine.canonical? (below directory "./".toList) = some directory) :
    (∀ failure, resolver.machine.directory = .error failure →
      resolver.expand name = .error ⟨"expand_path".toList, failure⟩ ∧
        resolver.expand (beside name) = .error ⟨"expand_path".toList, failure⟩) ∧
      ∀ directory, resolver.machine.directory = .ok directory →
        resolver.expand (beside name) = resolver.finish (directory ++ '/' :: name) ∧
          (resolver.expand name = resolver.expand (beside name) ↔
            resolver.Settles (resolver.dereference (directory ++ '/' :: name))) := by
  constructor
  · intro failure absent
    exact ⟨expand_of_no_directory bare.isRelative absent,
      expand_of_no_directory bare.isRelative_beside absent⟩
  · intro directory found
    have behind := expand_beside bare found (own directory found)
    refine ⟨behind, ?_⟩
    rw [behind, expand_name bare found]
    exact expandName_eq_finish_iff resolver directory name

/-- A machine with a working directory that is found as itself, on the network and with one rule. -/
def stationed (directory target substitute : Text) : Resolver where
  configuration :=
    { Configuration.standard with
      networkName := "net".toList
      hostName := some "host1".toList
      ruleTargets := target
      ruleSubstitutes := substitute }
  machine :=
    { Machine.bare with
      directory := .ok directory
      canonical? := fun place => if place = below directory "./".toList then some directory else none }

/-- The working directory of such a machine is found as itself. -/
theorem stationed_own {directory target substitute : Text} :
    ∀ found, (stationed directory target substitute).machine.directory = .ok found →
      (stationed directory target substitute).machine.canonical? (below found "./".toList) =
        some found := by
  rintro _ ⟨⟩
  exact if_pos rfl

/-- The name of a file alone is bare. -/
theorem isBare_file : IsBare "f.nc".toList := ⟨by decide, by decide, by decide, by decide⟩

/-- In the shared directory without a rule for it, and outside of it with a rule that stays outside, a
bare name and the name behind `./` come to the same. -/
theorem expand_name_eq_of_stationed :
    IsBare "f.nc".toList ∧
      (stationed "/scratch/me".toList "/home".toList "/net/home".toList).expand "f.nc".toList =
        (stationed "/scratch/me".toList "/home".toList "/net/home".toList).expand
          (beside "f.nc".toList) ∧
      (stationed "/home/me".toList "/home".toList "/net/home".toList).expand "f.nc".toList =
        (stationed "/home/me".toList "/home".toList "/net/home".toList).expand
          (beside "f.nc".toList) := by
  refine ⟨isBare_file, ?_, ?_⟩
  · refine ((expand_name_eq_iff_settles isBare_file stationed_own).2 _ rfl).2.mpr ?_
    exact settles_of_unchanged (by decide) (by decide) (by decide)
  · refine ((expand_name_eq_iff_settles isBare_file stationed_own).2 _ rfl).2.mpr ?_
    refine settles_of_apart (by decide) ?_
    intro replaced made
    obtain rfl : "/net/home/me/f.nc".toList = replaced := Except.ok.inj made
    decide

/-- A rule that leads into the shared directory is taken before the network name for a bare name, and
behind it for the name behind `./`. -/
theorem not_forall_expand_name_eq_beside : ¬∀ (resolver : Resolver) (name : Text), IsBare name →
    (∀ directory, resolver.machine.directory = .ok directory →
      resolver.machine.canonical? (below directory "./".toList) = some directory) →
    resolver.expand name = resolver.expand (beside name) := by
  intro same
  have entered := same (stationed "/work".toList "/work".toList "/scratch/work".toList)
    "f.nc".toList isBare_file stationed_own
  have bare : (stationed "/work".toList "/work".toList "/scratch/work".toList).expand
      "f.nc".toList = .ok "/net/host1/scratch/work/f.nc".toList := by decide
  have behind : (stationed "/work".toList "/work".toList "/scratch/work".toList).expand
      (beside "f.nc".toList) = .ok "/scratch/work/f.nc".toList := by decide
  rw [bare, behind] at entered
  exact absurd entered (by decide)

end Path.Resolver

end SignalAccess
