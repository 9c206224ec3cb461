import Mathlib.Control.LawfulFix
import Mathlib.Order.Part
import SignalAccess.Proofs.Data.Rewriting

/-!
# How far the names of a table are followed

The reader of an item follows the names that the table gives to nested structures. The table comes
from the sender, and its types may contain themselves, directly or through others; so neither the
table nor a value gets smaller on the way, and how often a name is followed at each level is a number
that the sender states. What brings the reader to an end is the count of levels.

To say so, the reader is written down a second time without any measure, as the least fixed point of a
recursion that counts levels from the carrier down. That gives no result if it goes on for ever. It
gives one always, and it is that of the reader.

A graph that is read passes the check of the writer, which counts levels in the same way. So no
structure lies deeper below an item of the carrier than the levels that both admit.
-/

namespace SignalAccess

/-- A decoder that need not come to an end. -/
abbrev PartialDecoder := ExceptT Failure (StateT Input Part)

namespace PartialDecoder

variable {α β γ : Type}

/-- What comes behind a decoder: a failure stays what it is. -/
def behind (f : α → PartialDecoder β) : Except Failure α × Input → Part (Except Failure β × Input)
  | (.ok value, rest) => f value rest
  | (.error failure, rest) => .some (.error failure, rest)

/-- What comes behind a decoder starts from what the decoder leaves. -/
theorem bind_apply (decoder : PartialDecoder α) (f : α → PartialDecoder β) (input : Input) :
    (decoder >>= f) input = (decoder input).bind (behind f) := by
  have continued : (fun result : Except Failure α × Input =>
      ExceptT.bindCont f result.1 result.2) = behind f := by
    funext ⟨result, rest⟩
    cases result <;> rfl
  rw [← continued]
  rfl

/-- One decoder is below another one if that gives the same wherever this one gives anything. -/
instance : PartialOrder (PartialDecoder α) :=
  inferInstanceAs (PartialOrder (Input → Part (Except Failure α × Input)))

variable [Preorder γ]

/-- Two decoders in a row are monotone if both are. -/
theorem monotone_bind {decoder : γ → PartialDecoder α} {f : γ → α → PartialDecoder β}
    (first : Monotone decoder) (others : Monotone f) : Monotone fun c => decoder c >>= f c := by
  intro c d less input
  change (decoder c >>= f c) input ≤ (decoder d >>= f d) input
  rw [bind_apply, bind_apply]
  have front : Monotone fun c => decoder c input := fun _ _ less => first less input
  have back : Monotone fun c => behind (f c) := by
    rintro c d less ⟨result, rest⟩
    cases result with
    | ok value => exact others less value rest
    | error failure => exact le_rfl
  exact front.partBind back less

/-- Reading each member of a list is monotone if reading one of them is. -/
theorem monotone_mapM {decoder : γ → β → PartialDecoder α} (each : Monotone decoder)
    (members : List β) : Monotone fun c => members.mapM (decoder c) := by
  induction members with
  | nil => exact monotone_const
  | cons b others inductionHypothesis =>
    simp only [List.mapM_cons]
    have first : Monotone fun c => decoder c b := fun _ _ less => each less b
    have back : Monotone fun c first => others.mapM (decoder c) >>= fun others =>
        (pure (first :: others) : PartialDecoder (List α)) :=
      fun _ _ less _ => monotone_bind inductionHypothesis monotone_const less
    exact monotone_bind first back

end PartialDecoder

namespace Decoder

variable {α β : Type}

/-- What a decoder gives, and what it leaves of its input. -/
def outcome (decoder : Decoder α) (input : Input) : Except Failure α × Input :=
  match decoder input with
  | .ok value rest => (.ok value, rest)
  | .error failure rest => (.error failure, rest)

/-- The outcome of a decoder that reads a value is that value. -/
theorem outcome_of_ok {decoder : Decoder α} {input rest : Input} {value : α}
    (read : decoder input = .ok value rest) : decoder.outcome input = (.ok value, rest) := by
  rw [outcome, read]

/-- A decoder that does come to an end. -/
def toPartial (decoder : Decoder α) : PartialDecoder α := fun input => .some (decoder.outcome input)

/-- A decoder that reads nothing comes to an end with its value. -/
@[simp] theorem toPartial_pure (value : α) : toPartial (pure value) = pure value := rfl

/-- Two decoders in a row come to an end as the first does and then the second. -/
@[simp] theorem toPartial_bind (decoder : Decoder α) (f : α → Decoder β) :
    toPartial (decoder >>= f) = decoder.toPartial >>= fun value => (f value).toPartial := by
  funext input
  rw [PartialDecoder.bind_apply, toPartial, toPartial, Part.bind_some]
  cases read : decoder input with
  | ok value rest => simp [outcome, bind, EStateM.bind, read, PartialDecoder.behind, toPartial]
  | error failure rest => simp [outcome, bind, EStateM.bind, read, PartialDecoder.behind]

/-- A choice between two decoders comes to an end as the one that is chosen. -/
@[simp] theorem toPartial_ite {c : Prop} [Decidable c] (decoder other : Decoder α) :
    toPartial (if c then decoder else other) = if c then decoder.toPartial else other.toPartial :=
  apply_ite toPartial c decoder other

/-- Values for the members of a list come to an end if each of them does. -/
theorem toPartial_forEach (decoder : β → Decoder α) (members : List β) :
    toPartial (forEach decoder members) = members.mapM fun member => (decoder member).toPartial := by
  induction members with
  | nil => rfl
  | cons b others inductionHypothesis =>
    simp only [forEach, List.mapM_cons, toPartial_bind, inductionHypothesis, toPartial_pure]

/-- A number of values of one kind comes to an end if each of them does. -/
theorem toPartial_repeated (decoder : β → Decoder α) (b : β) (n : Nat) :
    toPartial (repeated (decoder b) n) =
      (List.replicate n b).mapM fun member => (decoder member).toPartial := by
  induction n with
  | zero => rfl
  | succ n inductionHypothesis =>
    simp only [repeated, List.replicate_succ, List.mapM_cons, toPartial_bind, inductionHypothesis,
      toPartial_pure]

end Decoder

/-! ## Following names without a measure -/

/-- Reads the contents of a field, with a way to read the structures in it. -/
def FieldValue.follow (item : Text → PartialDecoder Item) : FieldKind → PartialDecoder FieldValue
  | .array type count => do return .array (← (Elements.decode type count).toPartial)
  | .text => do return .text (← (Decoder.text Limit.long).toPartial)
  | .structures type => do
    let count ← Decoder.count.toPartial
    return .structures (← (List.replicate count type).mapM item)

/-- A field is read as if its names were followed by the reader of its structures. -/
theorem FieldValue.toPartial_decode (item : Text → Decoder Item) (kind : FieldKind) :
    (decode item kind).toPartial = follow (fun name => (item name).toPartial) kind := by
  cases kind with
  | array type count => rw [decode, Decoder.toPartial_bind]; rfl
  | text => rw [decode, Decoder.toPartial_bind]; rfl
  | structures type =>
    simp only [decode, follow, Decoder.toPartial_bind, Decoder.toPartial_repeated,
      Decoder.toPartial_pure]

/-- Reading a field is monotone in the reader of the structures in it. -/
theorem FieldValue.monotone_follow (kind : FieldKind) : Monotone fun item => follow item kind := by
  cases kind with
  | array type count => exact monotone_const
  | text => exact monotone_const
  | structures type =>
    have items (count : Nat) : Monotone fun (item : Text → PartialDecoder Item) => do
        let items ← (List.replicate count type).mapM item
        return FieldValue.structures items :=
      PartialDecoder.monotone_bind (PartialDecoder.monotone_mapM monotone_id _) monotone_const
    exact PartialDecoder.monotone_bind monotone_const fun _ _ less count => items count less

namespace StructureGraph

/-- Reads an item of a type that lies `depth` levels below the carrier, with a way to read the
structures in its fields. -/
def itemAt (types : List StructureType) (below : Nat → Text → PartialDecoder Item) (depth : Nat)
    (name : Text) : PartialDecoder Item :=
  if maxDepth < depth then (Decoder.refuse .structureTooDeep).toPartial
  else
    match findType? types name with
    | none => (Decoder.refuse (.unknownStructureType name)).toPartial
    | some type => type.fields.mapM fun field => FieldValue.follow (below (depth + 1)) field.kind

/-- Reading an item is monotone in the reader of the structures in its fields. -/
theorem monotone_itemAt (types : List StructureType) (depth : Nat) (name : Text) :
    Monotone fun below => itemAt types below depth name := by
  unfold itemAt
  split
  · exact monotone_const
  · split
    · exact monotone_const
    · refine PartialDecoder.monotone_mapM (fun below more less field => ?_) _
      exact FieldValue.monotone_follow field.kind (less (depth + 1))

/-- What the calls of a reader of items give: for a depth, the name of a type and an input. -/
abbrev Calls := Nat × Text × Input → Part (Except Failure Item × Input)

/-- The reader with these calls. -/
def Calls.reader (calls : Calls) (depth : Nat) (name : Text) : PartialDecoder Item := fun input =>
  calls (depth, name, input)

/-- The calls that read an item if the given ones read the structures in its fields. -/
def descent (types : List StructureType) : Calls →o Calls where
  toFun below call := itemAt types below.reader call.1 call.2.1 call.2.2
  monotone' _ _ less call :=
    monotone_itemAt types call.1 call.2.1 (fun depth name input => less (depth, name, input)) call.2.2

/-- Reads an item of a type that lies `depth` levels below the carrier, and follows the names of the
table for as long as they lead on. -/
def followItem (types : List StructureType) : (depth : Nat) → (name : Text) → PartialDecoder Item :=
  Calls.reader (Part.fix (descent types))

/-- Reads a graph with a declared number of items, and follows the names of its table. -/
def follow (declared : Nat) : PartialDecoder StructureGraph := do
  let types ← (do Decoder.repeated StructureType.decode (← Decoder.count) : Decoder _).toPartial
  let name ← (Decoder.text Limit.field).toPartial
  if name ≠ carrier then (Decoder.refuse (.unexpectedCarrier name carrier)).toPartial
  else
    let count ← Decoder.count.toPartial
    if count ≠ declared then (Decoder.refuse (.carrierCount count declared)).toPartial
    else
      let itemType ← (Decoder.text Limit.field).toPartial
      let items ← (List.replicate count itemType).mapM (followItem types 0)
      return ⟨types, itemType, items⟩

/-- If the structures in its fields are read as with a level less, an item is read as with the levels
that its depth leaves. -/
theorem toPartial_decodeItem_of_below {types : List StructureType} {levels depth : Nat}
    {below : Nat → Text → PartialDecoder Item} (left : maxDepth + 1 - depth = levels)
    (reads : ∀ fewer, levels = fewer + 1 →
      ∀ inner, (decodeItem types fewer inner).toPartial = below (depth + 1) inner) (name : Text) :
    (decodeItem types levels name).toPartial = itemAt types below depth name := by
  cases levels with
  | zero =>
    have deep : maxDepth < depth := by omega
    rw [itemAt, if_pos deep, decodeItem]
  | succ fewer =>
    have shallow : ¬ maxDepth < depth := by omega
    rw [itemAt, if_neg shallow, decodeItem, ← funext (reads fewer rfl)]
    cases findType? types name with
    | none => rfl
    | some type => simp only [Decoder.toPartial_forEach, FieldValue.toPartial_decode]

/-- The approximation that goes down as many levels as are left does what the reader does. Induction is
on the levels left; a level further down is reached through the fields of a type only. -/
theorem toPartial_decodeItem_approx (types : List StructureType) {levels depth : Nat}
    (left : maxDepth + 1 - depth = levels) (name : Text) :
    (decodeItem types levels name).toPartial =
      Calls.reader (Part.Fix.approx (descent types) (levels + 1)) depth name := by
  induction levels generalizing depth name with
  | zero => exact toPartial_decodeItem_of_below left nofun name
  | succ levels inductionHypothesis =>
    refine toPartial_decodeItem_of_below left ?_ name
    rintro _ ⟨⟩ inner
    exact inductionHypothesis (by omega) inner

/-- At any level, following the names of any table does what the reader does with the levels that are
left. -/
theorem toPartial_decodeItem (types : List StructureType) (depth : Nat) (name : Text) :
    (decodeItem types (maxDepth + 1 - depth) name).toPartial = followItem types depth name := by
  funext input
  have left : maxDepth + 1 - depth = maxDepth + 1 - depth := rfl
  have approximated := congrFun (toPartial_decodeItem_approx types left name) input
  have among := (Part.Fix.mem_iff (descent types) (depth, name, input) _).mpr
    ⟨_, Part.eq_some_iff.mp approximated.symm⟩
  exact (Part.eq_some_iff.mpr among).symm

/-- Following names reads an item, and the structures in its fields by following names. -/
theorem followItem_eq (types : List StructureType) (depth : Nat) (name : Text) :
    followItem types depth name = itemAt types (followItem types) depth name := by
  rw [← toPartial_decodeItem]
  refine toPartial_decodeItem_of_below rfl ?_ name
  intro fewer leaves inner
  have next : fewer = maxDepth + 1 - (depth + 1) := by omega
  rw [next, toPartial_decodeItem]

/-- Following the names of any table comes to an end, at any level. -/
theorem followItem_dom (types : List StructureType) (depth : Nat) (name : Text) (input : Input) :
    (followItem types depth name input).Dom := by
  rw [← toPartial_decodeItem]
  exact trivial

/-- So reading a graph comes to an end, and with the result of the reader. -/
theorem toPartial_decode (declared : Nat) : (decode declared).toPartial = follow declared := by
  have items (types : List StructureType) (name : Text) :
      (decodeItem types (maxDepth + 1) name).toPartial = followItem types 0 name :=
    toPartial_decodeItem types 0 name
  simp only [decode, follow, Decoder.toPartial_bind, Decoder.toPartial_ite,
    Decoder.toPartial_repeated, items, Decoder.toPartial_pure, bind_assoc]

end StructureGraph

/-! ## Levels below an item -/

/-- A structure lies a number of levels below another one: it is that structure, or lies below one of
the structures in a field of it. -/
inductive Item.LiesBelow : (levels : Nat) → (outer inner : Item) → Prop where
  | itself (item : Item) : LiesBelow 0 item item
  | within {outer among inner : Item} {items : List Item} {levels : Nat}
      (field : .structures items ∈ outer) (member : among ∈ items)
      (below : LiesBelow levels among inner) : LiesBelow (levels + 1) outer inner

namespace StructureGraph

open Encoding

variable {types : List StructureType} {levels : Nat} {name : Text} {item : Item}

/-- The structures in an item without fault are items without fault with a level less. -/
theorem exists_sound_of_mem {items : List Item} {among : Item}
    (sound : itemFault? types (levels + 1) name item = none) (field : .structures items ∈ item)
    (member : among ∈ items) : ∃ inner, itemFault? types levels inner among = none := by
  unfold itemFault? at sound
  cases found : findType? types name with
  | none => simp [found] at sound
  | some type =>
    by_cases width : type.fields.length = item.length
    · simp only [found, width, ne_eq, not_true_eq_false, ↓reduceIte] at sound
      have values : (type.fields.zip item).map Prod.snd = item :=
        List.map_snd_zip (Nat.le_of_eq width.symm)
      rw [← values] at field
      obtain ⟨⟨definition, value⟩, paired, rfl⟩ := List.mem_map.mp field
      have fits := List.findSome?_eq_none_iff.mp sound _ paired
      obtain ⟨_, kind⟩ := definition
      cases kind with
      | array type count => cases fits
      | text => cases fits
      | structures inner => exact ⟨inner, List.findSome?_eq_none_iff.mp fits among member⟩
    · simp [found, width] at sound

/-- Below an item without fault structures lie on fewer levels than are admitted. -/
theorem lt_of_liesBelow {inner : Item} {depth : Nat} (below : item.LiesBelow depth inner)
    (sound : itemFault? types levels name item = none) : depth < levels := by
  induction below generalizing levels name with
  | itself item =>
    cases levels with
    | zero => cases sound
    | succ left => exact Nat.zero_lt_succ left
  | within field member below inductionHypothesis =>
    cases levels with
    | zero => cases sound
    | succ left =>
      obtain ⟨inner, fits⟩ := exists_sound_of_mem sound field member
      exact Nat.succ_lt_succ (inductionHypothesis fits)

/-- Every graph that is read passes the check of the writer. -/
theorem fault?_of_decode {declared : Nat} {input rest : Input} {graph : StructureGraph}
    (read : decode declared input = .ok graph rest) : graph.fault? = none := by
  obtain ⟨bytes, written⟩ := (yields_decode .package declared input rest graph read).1
  exact (Encoding.faultless_of_checked written).1

/-- Whatever the bytes and the table of types, types that contain themselves included, reading a graph
comes to an end. Every item of a graph that is read passes the check of the writer, and no structure
lies more levels below it than are admitted. -/
theorem decode_ends_within_depth (declared : Nat) (input : Input) :
    (∀ types depth name, (followItem types depth name input).Dom) ∧
    follow declared input = .some ((decode declared).outcome input) ∧
    ∀ graph rest, decode declared input = .ok graph rest → ∀ item ∈ graph.items,
      itemFault? graph.types (maxDepth + 1) graph.itemType item = none ∧
        ∀ levels inner, item.LiesBelow levels inner → levels ≤ maxDepth := by
  refine ⟨fun types depth name => followItem_dom types depth name input, ?_, ?_⟩
  · rw [← toPartial_decode]
    rfl
  · intro graph rest read item member
    have sound := List.findSome?_eq_none_iff.mp (fault?_of_decode read) item member
    refine ⟨sound, ?_⟩
    intro levels inner below
    exact Nat.le_of_lt_succ (lt_of_liesBelow below sound)

/-! ## A type that contains itself -/

/-- A table of one type, whose structures hold structures of the same type. -/
def nodes : List StructureType :=
  [⟨"Node".toList, [⟨"inner".toList, .structures "Node".toList⟩]⟩]

/-- A node with a number of nodes that lie within each other. -/
def node : (depth : Nat) → Item
  | 0 => [.structures []]
  | depth + 1 => [.structures [node depth]]

/-- The innermost of the nodes lies as many levels below the outermost as there are around it. -/
theorem liesBelow_node (depth : Nat) : (node depth).LiesBelow depth (node 0) := by
  induction depth with
  | zero => exact .itself (node 0)
  | succ depth inductionHypothesis =>
    exact .within List.mem_cons_self List.mem_cons_self inductionHypothesis

/-- The writer finds no fault in nodes that lie within fewer levels than it admits. -/
theorem itemFault?_node {depth levels : Nat} (few : depth < levels) :
    itemFault? nodes levels "Node".toList (node depth) = none := by
  induction depth generalizing levels with
  | zero =>
    cases levels with
    | zero => omega
    | succ levels => rfl
  | succ depth inductionHypothesis =>
    cases levels with
    | zero => omega
    | succ levels =>
      have below := inductionHypothesis (Nat.lt_of_succ_lt_succ few)
      have found : findType? nodes "Node".toList =
          some ⟨"Node".toList, [⟨"inner".toList, .structures "Node".toList⟩]⟩ := rfl
      rw [itemFault?, found, node]
      simpa [FieldKind.fault?] using below

/-- Nodes within each other can be written, however deep they lie. -/
theorem isWritten_node (part : Section) (depth : Nat) :
    (FieldValue.encodeItem part (node depth)).IsWritten := by
  induction depth with
  | zero => exact ⟨_, rfl⟩
  | succ depth inductionHypothesis =>
    apply FieldValue.isWritten_encodeItem
    intro value member
    obtain rfl := List.mem_singleton.mp member
    apply isWritten_joined_cons (isWritten_count (show 1 < UInt32.size by decide))
    refine isWritten_joined_cons (FieldValue.isWritten_encodeItems part ?_) (isWritten_ok [])
    intro item among
    obtain rfl := List.mem_singleton.mp among
    exact inductionHypothesis

/-- Nodes that lie within each other on no more levels than are admitted can be written. -/
theorem isWritten_nodes (part : Section) {depth : Nat} (few : depth ≤ maxDepth) :
    (encode part ⟨nodes, "Node".toList, [node depth]⟩).IsWritten := by
  apply isWritten_checked
  · refine List.findSome?_eq_none_iff.mpr fun item member => ?_
    obtain rfl := List.mem_singleton.mp member
    exact itemFault?_node (Nat.lt_succ_of_le few)
  · have items : (FieldValue.encodeItems part [node depth]).IsWritten := by
      apply FieldValue.isWritten_encodeItems
      intro item member
      obtain rfl := List.mem_singleton.mp member
      exact isWritten_node part depth
    exact isWritten_joined_cons ⟨_, rfl⟩ <| isWritten_joined_cons ⟨_, rfl⟩ <|
      isWritten_joined_cons ⟨_, rfl⟩ <| isWritten_joined_cons ⟨_, rfl⟩ <|
        isWritten_joined_cons ⟨_, rfl⟩ <| isWritten_joined_cons items (isWritten_ok [])

/-- Nodes may lie within each other on as many levels as are admitted, and on no more. -/
theorem decode_ends_within_depth_node :
    let graph : StructureGraph := ⟨nodes, "Node".toList, [node maxDepth]⟩
    ∃ bytes, graph.encode .package = .ok bytes ∧
      follow 1 ⟨bytes, .package⟩ = .some (.ok graph, ⟨[], .package⟩) ∧
      (node maxDepth).LiesBelow maxDepth (node 0) ∧
      ¬ (node maxDepth).LiesBelow (maxDepth + 1) (node 0) := by
  intro graph
  obtain ⟨bytes, written⟩ := isWritten_nodes .package (Nat.le_refl maxDepth)
  have read := (graph.readBack .package bytes written).complete [] .package
  rw [List.append_nil] at read
  obtain ⟨-, ends, deep⟩ := decode_ends_within_depth 1 ⟨bytes, .package⟩
  obtain ⟨-, within⟩ := deep graph _ read (node maxDepth) List.mem_cons_self
  refine ⟨bytes, written, ?_, liesBelow_node maxDepth, ?_⟩
  · rw [ends]
    exact congrArg Part.some (Decoder.outcome_of_ok read)
  · intro deeper
    exact absurd (within _ _ deeper) (Nat.not_succ_le_self maxDepth)

end StructureGraph

end SignalAccess
