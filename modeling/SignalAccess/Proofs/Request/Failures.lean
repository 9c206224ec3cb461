import SignalAccess.Proofs.Failure.Recording
import SignalAccess.Request.Parser

/-!
# How requests fail

A request that is refused is refused once. Whatever goes wrong while its source and its signal are
read is a failure of this library, never one of the system: subsets, arguments and archives are refused
for their grammar and addresses for their number, and a file that cannot be opened only has no format.
Each step of reading keeps the log in order, and so does following the devices that stand for other
sources, by induction on how often they may. So the log of a refused request has one record more,
which tells why.
-/

namespace SignalAccess

open Failure Recording

/-! ## The grammar of a request -/

namespace Slice

/-- A bound of a slice is refused for its syntax. -/
theorem onlySyntax_parseBound (what : String) (token : Text) : Only IsSyntax (parseBound what token) := by
  rw [parseBound]
  split
  · exact only_ok none
  · split
    · exact only_error (isSyntax_syntaxError _)
    · split
      · exact only_error (isSyntax_syntaxError _)
      · exact only_ok _

/-- A stride of a slice is refused for its syntax. -/
theorem onlySyntax_parseStride (token : Text) : Only IsSyntax (parseStride token) := by
  rw [parseStride]
  split
  · exact only_ok 1
  · split
    · exact only_error (isSyntax_syntaxError _)
    · split
      · exact only_error (isSyntax_syntaxError _)
      · exact only_ok _

/-- A slice from one bound to another is refused for its syntax. -/
theorem onlySyntax_between (start : Int) (stop : Option Int) (stride : Int) :
    Only IsSyntax (between start stop stride) := by
  cases stop with
  | none => exact only_ok _
  | some stop =>
    rw [between]
    split
    · exact only_error (isSyntax_syntaxError _)
    · exact only_ok _

/-- A slice that is written with colons is refused for its syntax. -/
theorem onlySyntax_parseRange (start stop : Text) (stride : Option Text) :
    Only IsSyntax (parseRange start stop stride) := by
  refine (onlySyntax_parseBound _ _).bind fun first => (onlySyntax_parseBound _ _).bind fun last => ?_
  have given : Only IsSyntax (stride.elim (.ok 1) parseStride) := by
    cases stride with
    | none => exact only_ok 1
    | some token => exact onlySyntax_parseStride token
  exact given.bind fun _ => onlySyntax_between _ _ _

/-- An element of a subset is refused for its syntax. -/
theorem onlySyntax_parse (element : Text) : Only IsSyntax (parse element) := by
  rw [parse]
  split
  · exact only_ok whole
  · split
    · exact only_ok last
    · split
      · exact (onlySyntax_parseBound _ _).bind fun _ => only_ok _
      · exact onlySyntax_parseRange _ _ none
      · exact onlySyntax_parseRange _ _ (some _)
      · exact only_error (isSyntax_syntaxError _)

end Slice

namespace Subset

/-- A subset is refused for its syntax. -/
theorem onlySyntax_parse (expression : Text) : Only IsSyntax (parse expression) :=
  (Only.mapM Slice.onlySyntax_parse _).bind fun _ => only_ok _

/-- A signal from which its subset is taken is refused for its syntax. -/
theorem onlySyntax_extract (signal : Text) : Only IsSyntax (extract signal) := by
  rw [extract]
  split
  · exact only_ok none
  · exact only_ok none
  · exact (onlySyntax_parse _).bind fun _ => only_ok _

end Subset

namespace Arguments

/-- A list that proposes a delimiter is refused for its syntax. -/
theorem onlySyntax_proposal? (t : Text) : Only IsSyntax (proposal? t) := by
  rw [proposal?]
  split
  · exact only_ok none
  · split
    · exact only_ok none
    · dsimp only
      split
      · exact only_ok _
      · split
        · exact only_ok none
        · split
          · exact only_ok _
          · split
            · exact only_ok none
            · exact only_error (isSyntax_syntaxError _)

/-- A list of arguments is refused for its syntax. -/
theorem onlySyntax_parse (t : Text) (stripQuotes : Bool) : Only IsSyntax (parse t stripQuotes) := by
  rw [parse]
  split
  · exact only_ok []
  · split
    · exact only_error (isSyntax_syntaxError _)
    · refine (onlySyntax_proposal? _).bind fun proposed => ?_
      cases proposed with
      | none => exact only_ok _
      | some found => exact only_ok _

end Arguments

/-- An address of a tree is refused with a failure of its own. -/
theorem Address.onlyOwn_tree (t : Text) (request : Request) : Only IsOwn (tree t request) := by
  rcases tree_cases t with refused | ⟨server, sets⟩ | ⟨server, pulse, file, sets⟩
  · rw [refused]
    exact only_error rfl
  · rw [sets]
    exact only_ok _
  · rw [sets]
    exact only_ok _

namespace RequestReader

variable {reader : RequestReader}

/-- Only the length of a name is refused, however many default archives stand in front of it. -/
theorem onlySyntax_splitArchive (default delimiter : Text) (reduce : Bool) (known : ArchivedSignal) :
    Only IsSyntax (splitArchive default delimiter reduce known).1 := by
  fun_induction splitArchive default delimiter reduce known with
  | case1 known absent => exact only_ok ()
  | case2 known present none => exact only_ok ()
  | case3 known present front remainder found long => exact only_error (isSyntax_syntaxError _)
  | case4 known present front remainder found name short passed inductionHypothesis =>
    exact inductionHypothesis
  | case5 known present front remainder found name short kept illegal => exact only_ok ()
  | case6 known present front remainder found name short kept legal => exact only_ok ()

/-! ## What a signal is refused for -/

/-- Reading the arguments of a call fails for their syntax only. -/
theorem fails_argumentsOf (text : Text) : (argumentsOf text).Fails IsSyntax :=
  fails_ofResult _ (Arguments.onlySyntax_parse text true)

/-- Reading the subset of a signal fails for its syntax only. -/
theorem fails_readSubset (request : Request) : (readSubset request).Fails IsSyntax := by
  refine (fails_ofResult _ (Subset.onlySyntax_extract request.signal)).bind fun extracted => ?_
  cases extracted with
  | none => exact fails_pure _
  | some found => exact fails_pure _

/-- Reading the archive of a signal fails for its syntax only. -/
theorem fails_readArchive (reduce : Bool) (request : Request) :
    (reader.readArchive reduce request).Fails IsSyntax := by
  refine (fails_ofResult _ (onlySyntax_splitArchive _ _ _ _)).bind fun _ => ?_
  split
  · exact fails_pure _
  · exact fails_pure _

/-- Reading a call in a signal fails for its syntax only. -/
theorem fails_readSignalCall (permitted : Bool) (request : Request) :
    (readSignalCall permitted request).Fails IsSyntax := by
  rw [readSignalCall]
  split
  · exact fails_pure _
  · split
    · exact fails_pure _
    · exact (fails_argumentsOf _).bind fun _ => fails_pure _

/-- A signal is refused only for its grammar. -/
theorem fails_readSignal (noSource isServer isForeign : Bool) (request : Request) :
    (reader.readSignal noSource isServer isForeign request).Fails IsSyntax := by
  refine (fails_readSubset request).bind fun taken => ?_
  refine (fails_readArchive _ taken).bind fun archived => ?_
  exact (fails_readSignalCall _ archived).bind fun _ => fails_pure _

/-! ## The steps of reading -/

/-- A result that is refused for its syntax only is recorded once. -/
theorem recordsOnce_ofSyntax {α : Type} (location : String) {result : Except Failure α}
    (only : Only IsSyntax result) : (ofResult location result).RecordsOnce :=
  recordsOnce_ofResult location (only.mono fun _ => IsSyntax.isOwn)

/-- A refusal of this library is recorded once. -/
theorem recordsOnce_refuseMain {α : Type} {failure : Failure} (own : failure.IsOwn) :
    (refuse failure : Recording α).RecordsOnce :=
  recordsOnce_refuse mainStep own

/-- Reading the arguments of a call keeps the log in order. -/
theorem recordsOnce_argumentsOf (text : Text) : (argumentsOf text).RecordsOnce :=
  recordsOnce_ofSyntax _ (Arguments.onlySyntax_parse text true)

/-- Reading a call keeps the log in order. -/
theorem recordsOnce_readCall (text signal : Text) (request : Request) :
    (reader.readCall text signal request).RecordsOnce := by
  rw [readCall]
  split
  · exact recordsOnce_refuseMain rfl
  · exact (recordsOnce_argumentsOf _).bind fun _ => recordsOnce_pure _

/-- Reading a path keeps the log in order. -/
theorem recordsOnce_readPath (text : Text) (request : Request) :
    (reader.readPath text request).RecordsOnce := by
  rw [readPath]
  split
  · exact recordsOnce_refuseMain rfl
  · exact recordsOnce_pure _

/-- Reading a text without a format in front keeps the log in order. -/
theorem recordsOnce_readPlain (text signal : Text) (request : Request) :
    (reader.readPlain text signal request).RecordsOnce := by
  rw [readPlain]
  split
  · exact recordsOnce_pure _
  · split
    · exact recordsOnce_readCall text signal _
    · split
      · exact recordsOnce_refuseMain rfl
      · exact recordsOnce_readPath text _

/-- Reading a text behind a name keeps the log in order. -/
theorem recordsOnce_readNamed (name text : Text) (request : Request) :
    (reader.readNamed name text request).RecordsOnce := by
  rw [readNamed]
  split
  · exact recordsOnce_pure _
  · split
    · exact recordsOnce_pure _
    · exact recordsOnce_pure _
    · exact recordsOnce_pure _
    · exact recordsOnce_pure _
    · split
      · split
        · exact recordsOnce_refuseMain rfl
        · exact (recordsOnce_argumentsOf _).bind fun _ => recordsOnce_pure _
      · exact recordsOnce_refuseMain rfl

/-- Reading the subset of a signal keeps the log in order. -/
theorem recordsOnce_readSubset (request : Request) : (readSubset request).RecordsOnce := by
  refine (recordsOnce_ofSyntax _ (Subset.onlySyntax_extract request.signal)).bind fun extracted => ?_
  cases extracted with
  | none => exact recordsOnce_pure _
  | some found => exact recordsOnce_pure _

/-- Reading the archive of a signal keeps the log in order. -/
theorem recordsOnce_readArchive (reduce : Bool) (request : Request) :
    (reader.readArchive reduce request).RecordsOnce := by
  refine (recordsOnce_ofSyntax _ (onlySyntax_splitArchive _ _ _ _)).bind fun _ => ?_
  split
  · exact recordsOnce_pure _
  · exact recordsOnce_pure _

/-- Reading a call in a signal keeps the log in order. -/
theorem recordsOnce_readSignalCall (permitted : Bool) (request : Request) :
    (readSignalCall permitted request).RecordsOnce := by
  rw [readSignalCall]
  split
  · exact recordsOnce_pure _
  · split
    · exact recordsOnce_pure _
    · exact (recordsOnce_argumentsOf _).bind fun _ => recordsOnce_pure _

/-- Reading a signal keeps the log in order. -/
theorem recordsOnce_readSignal (noSource isServer isForeign : Bool) (request : Request) :
    (reader.readSignal noSource isServer isForeign request).RecordsOnce := by
  refine (recordsOnce_readSubset request).bind fun taken => ?_
  refine (recordsOnce_readArchive _ taken).bind fun archived => ?_
  exact (recordsOnce_readSignalCall _ archived).bind fun _ => recordsOnce_pure _

/-- Reading an address keeps the log in order. -/
theorem recordsOnce_readAddress (text : Text) (request : Request) :
    (readAddress text request).RecordsOnce := by
  rw [readAddress]
  split
  · exact recordsOnce_ofResult _ (Address.onlyOwn_tree text request)
  all_goals exact recordsOnce_pure _

/-- Where a device stands for another source, the outcome is that of the other source, and nothing is
added to it. -/
theorem recordsOnce_readBehind (text : Text) {redirected : Text → Recording Request}
    (others : ∀ other, (redirected other).RecordsOnce) (named : Named) :
    (reader.readBehind text redirected named).RecordsOnce := by
  cases named with
  | foreign request =>
    exact (recordsOnce_readSignal false false true request).bind fun _ =>
      recordsOnce_readAddress text _
  | known request isServer =>
    exact (recordsOnce_readSignal false isServer false request).bind fun _ =>
      recordsOnce_readAddress text _
  | redirect other => exact others other

/-- The source and the signal are read in steps that keep the log in order. -/
theorem recordsOnce_readSource (delimiter signal : Text) {redirected : Text → Recording Request}
    (others : ∀ other, (redirected other).RecordsOnce) (source : Text) :
    (reader.readSource delimiter signal redirected source).RecordsOnce := by
  rw [readSource]
  split
  · exact recordsOnce_refuseMain rfl
  · split
    · exact recordsOnce_pure _
    · split
      · exact recordsOnce_readSignal true false false _
      · exact (recordsOnce_readPlain _ signal _).bind fun _ =>
          recordsOnce_readSignal false false false _
      · exact (recordsOnce_readNamed _ _ _).bind fun named => recordsOnce_readBehind _ others named

/-- Reading keeps the log in order, by induction on how many sources may be read. -/
theorem recordsOnce_readWithin (delimiter signal : Text) (sources : Nat) (source : Text) :
    (reader.readWithin delimiter signal sources source).RecordsOnce := by
  induction sources generalizing source with
  | zero => exact recordsOnce_refuseMain rfl
  | succ sources inductionHypothesis =>
    exact recordsOnce_readSource delimiter signal inductionHypothesis source

/-- A request that is refused has one record more in its log, which tells the failure; a request that
is read leaves the log as it was. -/
theorem parse_recorded (reader : RequestReader) (source signal choice : Text) (log : FailureLog) :
    match reader.parse source signal choice log with
    | (.ok _, after) => after = log
    | (.error failure, after) =>
      ∃ record, after.records = log.records ++ [record] ∧ record.code = failure.code ∧
        record.origin = failure.origin ∧
        record.message = Text.takeBytes Limit.field failure.message.toList := by
  have accounted : Accounted log (reader.parse source signal choice log) :=
    recordsOnce_readWithin _ _ _ source log
  rcases given : reader.parse source signal choice log with ⟨failure | request, after⟩
  · rw [given] at accounted
    obtain ⟨record, appended, tells⟩ := accounted
    exact ⟨record, appended, tells.code, tells.origin, tells.message⟩
  · rw [given] at accounted
    exact accounted

end RequestReader

end SignalAccess
