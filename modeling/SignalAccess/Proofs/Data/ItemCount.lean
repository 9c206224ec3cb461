import SignalAccess.Proofs.Data.Block
import SignalAccess.Proofs.Wire.Consumption
import SignalAccess.Proofs.Wire.Written

/-!
# How many structures a message can hold

A structure takes the bytes of its fields, and each field takes the four bytes of a number at least.
So structures with fields are few: a quarter of the bytes bounds their number, however deep they lie
and whatever the table declares. Structures of a type without fields take no byte at all. Their number
is bounded by the numbers that announce them only: each of these takes four bytes, and announces
fewer than `2 ^ 32` structures.

Both bounds come from one. A scale says what a structure weighs and what part of it its fields pay
for, and what a graph weighs on a scale is bounded by the bytes that it is read from.
-/

namespace SignalAccess

namespace FieldValue

mutual

/-- The weight of all structures in the contents of a field. -/
def weight (of : Item → Nat) : FieldValue → Nat
  | .array _ => 0
  | .text _ => 0
  | .structures items => weightAll of items

/-- The weight of all structures that lie in a structure. -/
def weightWithin (of : Item → Nat) : Item → Nat
  | [] => 0
  | value :: values => weight of value + weightWithin of values

/-- The weight of some structures and of all that lie in them. -/
def weightAll (of : Item → Nat) : List Item → Nat
  | [] => 0
  | item :: items => of item + weightWithin of item + weightAll of items

end

/-- Structures without fields weigh together as much as one of them does, so many times. -/
theorem weightAll_replicate_nil (of : Item → Nat) (n : Nat) :
    weightAll of (List.replicate n []) = n * of [] := by
  induction n with
  | zero => rw [List.replicate_zero, weightAll, Nat.zero_mul]
  | succ n inductionHypothesis =>
    rw [List.replicate_succ, weightAll, weightWithin, inductionHypothesis, Nat.succ_mul]
    omega

end FieldValue

/-- What structures weigh, and who pays for it: each structure for a share, whether it takes bytes or
not, and each of its fields for a share. -/
structure Scale where
  weight : Item → Nat
  perItem : Nat
  perField : Nat

namespace Scale

/-- The shares of a structure and of its fields pay for it, if it is of a type of the table. -/
def Suits (scale : Scale) (types : List StructureType) : Prop :=
  ∀ type ∈ types, ∀ item : Item, item.length = type.fields.length →
    scale.weight item ≤ scale.perItem + scale.perField * item.length

/-- The most that four bytes can bring in: the share of a field, and the shares of as many structures
as a number announces. -/
def rate (scale : Scale) : Nat := scale.perField + scale.perItem * (UInt32.size - 1)

/-- All structures weigh the same, and pay for themselves. -/
def even : Scale := ⟨fun _ => 1, 1, 0⟩

/-- Structures that pay for themselves do so under every table. -/
theorem suits_even (types : List StructureType) : even.Suits types :=
  fun _ _ _ _ => Nat.le_add_right 1 _

/-- All structures weigh the same, and their fields pay for them. -/
def byFields : Scale := ⟨fun _ => 1, 0, 1⟩

/-- Fields pay for all structures if every type of the table has fields. -/
theorem suits_byFields {types : List StructureType} (filled : ∀ type ∈ types, type.fields ≠ []) :
    byFields.Suits types := by
  intro type member item width
  have some : 0 < type.fields.length := List.length_pos_iff.mpr (filled type member)
  simp only [byFields]
  omega

/-- Only structures with fields weigh anything, and their fields pay for them. -/
def ofFilled : Scale := ⟨fun item => if item.isEmpty then 0 else 1, 0, 1⟩

/-- Fields pay for the structures that have any, under every table. -/
theorem suits_ofFilled (types : List StructureType) : ofFilled.Suits types := by
  intro type _ item _
  cases item with
  | nil => exact Nat.zero_le _
  | cons value values =>
    simp [ofFilled]

end Scale

namespace FieldValue

variable {types : List StructureType}

/-- What the contents of a field weigh, with the share of the field. -/
def Weighs (types : List StructureType) (value : FieldValue) (n : Nat) : Prop :=
  ∀ scale : Scale, scale.Suits types →
    4 * (scale.perField + weight scale.weight value) ≤ scale.rate * n

/-- What the contents of some fields weigh, with the shares of the fields. -/
def FieldsWeigh (types : List StructureType) (values : Item) (n : Nat) : Prop :=
  ∀ scale : Scale, scale.Suits types →
    4 * (scale.perField * values.length + weightWithin scale.weight values) ≤ scale.rate * n

/-- What a structure weighs: no byte need pay for its own share. -/
def ItemWeighs (types : List StructureType) (item : Item) (n : Nat) : Prop :=
  ∀ scale : Scale, scale.Suits types →
    4 * (scale.weight item + weightWithin scale.weight item) ≤ 4 * scale.perItem + scale.rate * n

/-- What some structures weigh. -/
def ItemsWeigh (types : List StructureType) (items : List Item) (n : Nat) : Prop :=
  ∀ scale : Scale, scale.Suits types →
    4 * weightAll scale.weight items ≤ 4 * scale.perItem * items.length + scale.rate * n

/-- No fields weigh nothing. -/
theorem FieldsWeigh.nil : FieldsWeigh types [] 0 := by
  intro scale _
  rw [weightWithin, List.length_nil]
  exact Nat.zero_le _

/-- A field in front of others adds its bytes to theirs. -/
theorem FieldsWeigh.cons {value : FieldValue} {values : Item} {n m : Nat}
    (first : Weighs types value n) (others : FieldsWeigh types values m) :
    FieldsWeigh types (value :: values) (n + m) := by
  intro scale suits
  have firstPaid := first scale suits
  have othersPaid := others scale suits
  rw [weightWithin, List.length_cons, Nat.mul_succ, Nat.mul_add scale.rate]
  omega

/-- No structures weigh nothing. -/
theorem ItemsWeigh.nil : ItemsWeigh types [] 0 := by
  intro scale _
  rw [weightAll]
  exact Nat.zero_le _

/-- A structure in front of others adds its bytes to theirs. -/
theorem ItemsWeigh.cons {item : Item} {items : List Item} {n m : Nat}
    (first : ItemWeighs types item n) (others : ItemsWeigh types items m) :
    ItemsWeigh types (item :: items) (n + m) := by
  intro scale suits
  have firstPaid := first scale suits
  have othersPaid := others scale suits
  rw [weightAll, List.length_cons, Nat.mul_succ, Nat.mul_add scale.rate]
  omega

/-- Contents without structures take four bytes, which pay for their field. -/
theorem Weighs.of_flat {value : FieldValue} {n : Nat} (flat : ∀ of, weight of value = 0)
    (bytes : 4 ≤ n) : Weighs types value n := by
  intro scale _
  have paid : scale.rate * 4 ≤ scale.rate * n := Nat.mul_le_mul_left _ bytes
  have least : scale.perField ≤ scale.rate := Nat.le_add_right _ _
  rw [flat]
  omega

/-- The four bytes of their number pay for the field of some structures and for the share of each of
them. -/
theorem Weighs.of_items {items : List Item} {m : Nat} (few : items.length < UInt32.size)
    (weigh : ItemsWeigh types items m) : Weighs types (.structures items) (4 + m) := by
  intro scale suits
  have paid := weigh scale suits
  have shares : scale.perItem * items.length ≤ scale.perItem * (UInt32.size - 1) :=
    Nat.mul_le_mul_left _ (Nat.le_sub_one_of_lt few)
  rw [Nat.mul_assoc] at paid
  rw [weight, Nat.mul_add scale.rate]
  have perNumber : scale.rate = scale.perField + scale.perItem * (UInt32.size - 1) := rfl
  omega

/-- What the reader of the contents of a field takes, if the reader of structures takes its part. -/
theorem uses_decode {item : Text → Decoder Item}
    (each : ∀ type, (item type).Uses (ItemWeighs types)) (kind : FieldKind) :
    (decode item kind).Uses (Weighs types) := by
  cases kind with
  | array type count =>
    have elements : (Elements.decode type count).Uses fun _ n => 4 ≤ n := by
      cases type with
      | flat type => exact (Decoder.uses_words type.width count).map fun _ _ => id
      | _ => exact Decoder.uses_refuse _
    exact elements.map fun value n bytes => .of_flat (fun _ => rfl) bytes
  | text => exact (Decoder.uses_text Limit.long).map fun value n bytes => .of_flat (fun _ => rfl) bytes
  | structures type =>
    refine Decoder.uses_count.bind fun size n counted => ?_
    obtain ⟨rfl, few⟩ := counted
    have items := Decoder.uses_repeated (each type) ItemsWeigh.nil (fun _ _ _ _ => ItemsWeigh.cons) size
    refine items.map fun values m weigh => .of_items ?_ weigh.2
    rwa [weigh.1]

end FieldValue

/-- The reader of a kind of field takes bytes from the front. -/
theorem FieldKind.uses_decode : FieldKind.decode.Uses fun _ _ => True := by
  have named : Decoder.elementType.Uses fun _ _ => True := by
    refine Decoder.uses_int32.bind fun code _ _ => ?_
    cases ElementType.ofCode? code with
    | some type => exact Decoder.uses_pure trivial
    | none => exact Decoder.uses_refuse _
  refine Decoder.uses_int32.bind fun tag _ _ => Decoder.Uses.ite (fun _ => ?_) fun _ =>
    Decoder.Uses.ite (fun _ => Decoder.uses_pure trivial) fun _ =>
      Decoder.Uses.ite (fun _ => ?_) fun _ => Decoder.uses_refuse _
  · exact named.bind fun type _ _ => Decoder.uses_count.map fun _ _ _ => trivial
  · exact (Decoder.uses_text Limit.field).map fun _ _ _ => trivial

/-- The reader of a type takes bytes from the front. -/
theorem StructureType.uses_decode : StructureType.decode.Uses fun _ _ => True := by
  have field : FieldDefinition.decode.Uses fun _ _ => True :=
    (Decoder.uses_text Limit.field).bind fun name _ _ => FieldKind.uses_decode.map fun _ _ _ => trivial
  refine (Decoder.uses_text Limit.field).bind fun name _ _ => Decoder.uses_count.bind fun size _ _ => ?_
  exact (Decoder.uses_repeated_any field size).map fun _ _ _ => trivial

namespace StructureGraph

open FieldValue

variable {types : List StructureType}

/-- What the reader of a structure takes. Induction is on the levels of structures that are left. -/
theorem uses_decodeItem (levels : Nat) (name : Text) :
    (decodeItem types levels name).Uses (ItemWeighs types) := by
  induction levels generalizing name with
  | zero => exact Decoder.uses_refuse _
  | succ levels inductionHypothesis =>
    unfold decodeItem
    cases found : findType? types name with
    | none => exact Decoder.uses_refuse _
    | some type =>
      have member : type ∈ types := List.mem_of_find?_eq_some found
      have each : ∀ field ∈ type.fields,
          (FieldValue.decode (decodeItem types levels) field.kind).Uses (Weighs types) :=
        fun field _ => uses_decode inductionHypothesis field.kind
      have fields := Decoder.uses_forEach each FieldsWeigh.nil (fun _ _ _ _ => FieldsWeigh.cons)
      refine fields.mono fun item n read scale suits => ?_
      have paid := read.2 scale suits
      have light := suits type member item read.1
      omega

/-- What the reader of a graph takes: the bytes of its items are among them. -/
theorem uses_decode (declared : Nat) :
    (decode declared).Uses fun graph n =>
      ∃ ofItems ≤ n, graph.items.length = declared ∧ ItemsWeigh graph.types graph.items ofItems := by
  refine Decoder.uses_count.bind fun size _ _ =>
    (Decoder.uses_repeated_any StructureType.uses_decode size).bind fun types _ _ =>
      (Decoder.uses_text Limit.field).bind fun name _ _ => Decoder.Uses.ite (fun _ =>
        Decoder.uses_refuse _) fun _ => Decoder.uses_count.bind fun count _ _ => ?_
  refine Decoder.Uses.ite (fun _ => Decoder.uses_refuse _) fun same => ?_
  obtain rfl : count = declared := Classical.not_not.mp same
  refine (Decoder.uses_text Limit.field).bind fun itemType _ _ => ?_
  have items := Decoder.uses_repeated (@uses_decodeItem types (maxDepth + 1) itemType)
    ItemsWeigh.nil (fun _ _ _ _ => ItemsWeigh.cons) count
  exact items.map fun items n read => ⟨n, by omega, read⟩

/-- The number of all structures in a graph, those that lie in others included. -/
def itemCount (graph : StructureGraph) : Nat := weightAll (fun _ => 1) graph.items

/-- The number of the structures in a graph that have fields. -/
def filledCount (graph : StructureGraph) : Nat :=
  weightAll (fun item => if item.isEmpty then 0 else 1) graph.items

end StructureGraph

/-- What the reader of a package takes for a graph in the form of the wire. -/
theorem Package.uses_decode (code : Int32) (declared : Nat) :
    (decode code declared).Uses fun package n => ∀ graph, package = .structures graph →
      ∃ ofItems ≤ n, graph.items.length = declared ∧
        FieldValue.ItemsWeigh graph.types graph.items ofItems := by
  have blob : Decoder.blob.Uses fun _ _ => True :=
    Decoder.uses_count.bind fun size _ _ => (Decoder.uses_take .blob size).mono fun _ _ _ => trivial
  have contents : (decodeContents code declared).Uses fun package n =>
      ∀ graph, package = .structures graph → ∃ ofItems ≤ n, graph.items.length = declared ∧
        FieldValue.ItemsWeigh graph.types graph.items ofItems := by
    refine Decoder.Uses.ite (fun _ => blob.map fun bytes n _ graph other => ?_) fun _ =>
      Decoder.Uses.ite (fun _ => (StructureGraph.uses_decode declared).map ?_) fun _ =>
        Decoder.Uses.ite (fun _ => blob.bind fun bytes n _ => ?_) fun _ => Decoder.uses_refuse _
    · cases other
    · rintro read n weighs graph same
      cases same
      exact weighs
    · cases StructureGraph.ofObject bytes with
      | ok object =>
        refine Decoder.uses_pure fun graph other => ?_
        cases other
      | error failure => exact Decoder.uses_throw failure
  refine contents.bind fun package n weighs => Decoder.Uses.ite (fun _ => Decoder.uses_refuse _) fun _ =>
    Decoder.uses_pure weighs

open StructureGraph in
/-- The structures with fields in a package in the form of the wire are at most a quarter of the bytes
that it is read from, whatever the table of types, and so are all its structures if every type of the
table has fields. Structures of types without fields take no bytes: only the numbers that announce
them bound how many there are. -/
theorem Package.items_of_decode (code : Int32) (declared : Nat) (input rest : Input)
    (graph : StructureGraph) (read : decode code declared input = .ok (.structures graph) rest) :
    ∃ taken, input.bytes = taken ++ rest.bytes ∧ 4 * graph.filledCount ≤ taken.length ∧
      ((∀ type ∈ graph.types, type.fields ≠ []) → 4 * graph.itemCount ≤ taken.length) ∧
      4 * graph.itemCount ≤ 4 * declared + (UInt32.size - 1) * taken.length := by
  obtain ⟨taken, split, weighs⟩ := uses_decode code declared input rest _ read
  obtain ⟨ofItems, among, counted, weighs⟩ := weighs graph rfl
  refine ⟨taken, split, ?_, fun filled => ?_, ?_⟩
  · have paid := weighs .ofFilled (Scale.suits_ofFilled graph.types)
    simp only [Scale.ofFilled, Scale.rate] at paid
    unfold filledCount
    omega
  · have paid := weighs .byFields (Scale.suits_byFields filled)
    simp only [Scale.byFields, Scale.rate] at paid
    unfold itemCount
    omega
  · have paid := weighs .even (Scale.suits_even graph.types)
    have more : (UInt32.size - 1) * ofItems ≤ (UInt32.size - 1) * taken.length :=
      Nat.mul_le_mul_left _ among
    simp only [Scale.even, Scale.rate, Nat.zero_add, Nat.one_mul, Nat.mul_one, counted] at paid
    unfold itemCount
    omega

/-- A shot with two channels is three structures, all of them with fields. -/
theorem Package.items_of_decode_shot :
    ∃ bytes taken, (Package.structures .shot).encode .package = .ok bytes ∧
      bytes = taken ++ [] ∧ StructureGraph.shot.filledCount = 3 ∧
      4 * StructureGraph.shot.filledCount ≤ taken.length ∧
      4 * StructureGraph.shot.itemCount ≤ taken.length := by
  have written : (Package.structures .shot).encode .package =
      .ok ((Package.structures .shot).encode .package).written := rfl
  have read := ((Package.structures .shot).readBack .package trivial _ written).complete [] .package
  obtain ⟨taken, split, filled, all, -⟩ := items_of_decode _ _ _ _ .shot read
  rw [List.append_nil] at split
  exact ⟨_, taken, written, split, rfl, filled, all (by decide)⟩

/-! ## Structures without fields -/

namespace StructureGraph

/-- A graph of structures without fields. -/
def crowd (n : Nat) : StructureGraph := ⟨[⟨[], []⟩], [], List.replicate n []⟩

/-- A crowd has as many structures as it is made for. -/
theorem itemCount_crowd (n : Nat) : (crowd n).itemCount = n := by
  rw [itemCount, crowd, FieldValue.weightAll_replicate_nil, Nat.mul_one]

/-- Structures without fields take no bytes. -/
theorem encodeItems_replicate_nil (part : Section) (n : Nat) :
    FieldValue.encodeItems part (List.replicate n []) = .ok [] := by
  induction n with
  | zero => rfl
  | succ n inductionHypothesis =>
    rw [List.replicate_succ, FieldValue.encodeItems, inductionHypothesis]
    rfl

/-- Thirty bytes hold as many structures without fields as their number can announce. -/
theorem encode_crowd (part : Section) {n : Nat} (fits : n < UInt32.size) :
    ((crowd n).encode part).HasLength 30 := by
  have faultless : (crowd n).fault? = none := by
    refine List.findSome?_eq_none_iff.mpr fun item member => ?_
    obtain rfl := List.eq_of_mem_replicate member
    rfl
  have counted : (Encoding.count part (crowd n).items.length).HasLength 4 :=
    Encoding.hasLength_count (by rwa [crowd, List.length_replicate])
  have items : (FieldValue.encodeItems part (crowd n).items).HasLength 0 :=
    ⟨[], encodeItems_replicate_nil part n, rfl⟩
  rw [encode, faultless]
  exact Encoding.HasLength.cons ⟨_, rfl, rfl⟩ <| Encoding.HasLength.cons ⟨_, rfl, rfl⟩ <|
    Encoding.HasLength.cons ⟨_, rfl, rfl⟩ <| counted.cons <|
      Encoding.HasLength.cons ⟨_, rfl, rfl⟩ <| items.cons Encoding.hasLength_joined_nil

end StructureGraph

/-- Every number of structures below 2^32 is read from thirty bytes, if they have no fields. -/
theorem Package.exists_decode_crowd {n : Nat} (fits : n < UInt32.size) :
    ∃ bytes, bytes.length = 30 ∧
      decode 2 n ⟨bytes, .package⟩ = .ok (.structures (.crowd n)) ⟨[], .package⟩ ∧
      (StructureGraph.crowd n).itemCount = n := by
  obtain ⟨bytes, written, length⟩ := StructureGraph.encode_crowd .package fits
  have read := ((Package.structures (.crowd n)).readBack .package trivial bytes written).complete []
    .package
  have counted : (Package.structures (.crowd n)).count = n := List.length_replicate
  rw [List.append_nil, counted] at read
  exact ⟨bytes, length, read, StructureGraph.itemCount_crowd n⟩

/-- The bytes that a package is read from do not bound its structures: thirty of them can make
thirty-one structures, and more. -/
theorem Package.items_exceed_bytes :
    ¬ ∀ (code : Int32) (declared : Nat) (input rest : Input) (graph : StructureGraph),
      decode code declared input = .ok (.structures graph) rest →
        ∃ taken, input.bytes = taken ++ rest.bytes ∧ graph.itemCount ≤ taken.length := by
  intro bounded
  obtain ⟨bytes, length, read, counted⟩ := exists_decode_crowd (show 31 < UInt32.size by decide)
  obtain ⟨taken, split, few⟩ := bounded _ _ _ _ _ read
  rw [List.append_nil] at split
  subst split
  rw [counted, length] at few
  exact absurd few (by decide)

end SignalAccess
