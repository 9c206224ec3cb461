import SignalAccess.Wire.Word
/-!
# Heads of MessagePack values

A MessagePack value starts with a head: one byte that says what follows, and the word of a number or
of a size where one is needed. Integers have two kinds of heads, without and with a sign; which kind
an integer came with is kept, because not every place admits both. Sizes and integers are written
with the shortest head of their kind that holds them; any head is read.
-/
namespace SignalAccess.MessagePack

/-- What stands at the front of a value. The contents of a text or collection follow it. -/
inductive Head where
  | nil
  | boolean (b : Bool)
  /-- An integer under a head without a sign. -/
  | natural (n : Nat)
  /-- An integer under a head with a sign. -/
  | signed (i : Int)
  | single (x : Binary32)
  | double (x : Binary64)
  /-- A text of a number of bytes. -/
  | text (size : Nat)
  /-- A number of bytes. -/
  | binary (size : Nat)
  /-- A number of values. -/
  | array (size : Nat)
  /-- A number of pairs of values. -/
  | map (size : Nat)
  /-- A number of bytes with a meaning of their own. -/
  | extension (type : UInt8) (size : Nat)
  deriving DecidableEq, Repr

namespace Head

/-- The bytes of an integer without a sign. -/
def naturalBytes (n : Nat) : Bytes :=
  if n < 0x80 then [UInt8.ofNat n]
  else if n < 0x100 then 0xcc :: Word.bytes 1 n
  else if n < 0x10000 then 0xcd :: Word.bytes 2 n
  else if n < 0x100000000 then 0xce :: Word.bytes 4 n
  else 0xcf :: Word.bytes 8 n

/-- The word of an integer with a sign: its residue. -/
def complement (width : Nat) (i : Int) : Bytes :=
  Word.bytes width (i % (1 <<< (8 * width) : Nat)).toNat

/-- The bytes of an integer with a sign. -/
def signedBytes (i : Int) : Bytes :=
  if -0x20 ≤ i ∧ i < 0 then complement 1 i
  else if -0x80 ≤ i ∧ i < 0x80 then 0xd0 :: complement 1 i
  else if -0x8000 ≤ i ∧ i < 0x8000 then 0xd1 :: complement 2 i
  else if -0x80000000 ≤ i ∧ i < 0x80000000 then 0xd2 :: complement 4 i
  else 0xd3 :: complement 8 i

/-- The bytes of a head. -/
def encode : Head → Bytes
  | .nil => [0xc0]
  | .boolean b => [if b then 0xc3 else 0xc2]
  | .natural n => naturalBytes n
  | .signed i => signedBytes i
  | .single x => 0xca :: Word.uint32 x.bits
  | .double x => 0xcb :: Word.float64 x
  | .text size =>
    if size < 0x20 then [UInt8.ofNat (0xa0 + size)]
    else if size < 0x100 then 0xd9 :: Word.bytes 1 size
    else if size < 0x10000 then 0xda :: Word.bytes 2 size
    else 0xdb :: Word.bytes 4 size
  | .binary size =>
    if size < 0x100 then 0xc4 :: Word.bytes 1 size
    else if size < 0x10000 then 0xc5 :: Word.bytes 2 size
    else 0xc6 :: Word.bytes 4 size
  | .array size =>
    if size < 0x10 then [UInt8.ofNat (0x90 + size)]
    else if size < 0x10000 then 0xdc :: Word.bytes 2 size
    else 0xdd :: Word.bytes 4 size
  | .map size =>
    if size < 0x10 then [UInt8.ofNat (0x80 + size)]
    else if size < 0x10000 then 0xde :: Word.bytes 2 size
    else 0xdf :: Word.bytes 4 size
  | .extension type size =>
    if size < 0x100 then 0xc7 :: Word.bytes 1 size ++ [type]
    else if size < 0x10000 then 0xc8 :: Word.bytes 2 size ++ [type]
    else 0xc9 :: Word.bytes 4 size ++ [type]

/-- A number of bytes from the front, and the rest; none when there are not as many. -/
def split? (size : Nat) (bytes : Bytes) : Option (Bytes × Bytes) :=
  let front := bytes.take size
  if front.length < size then none else some (front, bytes.drop size)

/-- The head that the number of a word makes, and the rest. -/
def withWord (width : Nat) (head : Nat → Head) (bytes : Bytes) : Option (Head × Bytes) :=
  (split? width bytes).map fun (word, rest) => (head (Word.number word), rest)

/-- The head of an integer whose word has a sign, and the rest. -/
def withSign (width : Nat) (bytes : Bytes) : Option (Head × Bytes) :=
  withWord width (fun n => .signed (Int.bmod n (1 <<< (8 * width)))) bytes

/-- The head of an extension, and the rest, behind its size. -/
def withType (size : Nat) : Bytes → Option (Head × Bytes)
  | [] => none
  | type :: rest => some (.extension type size, rest)

/-- The head of an extension whose size is a word, and the rest. -/
def withSizeAndType (width : Nat) (bytes : Bytes) : Option (Head × Bytes) := do
  let (word, rest) ← split? width bytes
  withType (Word.number word) rest

/-- The head at the front of some bytes, and the rest. -/
def read : Bytes → Option (Head × Bytes)
  | [] => none
  | first :: rest =>
    let n := first.toNat
    if n < 0x80 then some (.natural n, rest)
    else if n < 0x90 then some (.map (n - 0x80), rest)
    else if n < 0xa0 then some (.array (n - 0x90), rest)
    else if n < 0xc0 then some (.text (n - 0xa0), rest)
    else if 0xe0 ≤ n then some (.signed (n - 0x100), rest)
    else
      match n with
      | 0xc0 => some (.nil, rest)
      | 0xc2 => some (.boolean false, rest)
      | 0xc3 => some (.boolean true, rest)
      | 0xc4 => withWord 1 .binary rest
      | 0xc5 => withWord 2 .binary rest
      | 0xc6 => withWord 4 .binary rest
      | 0xc7 => withSizeAndType 1 rest
      | 0xc8 => withSizeAndType 2 rest
      | 0xc9 => withSizeAndType 4 rest
      | 0xca => withWord 4 (fun bits => .single ⟨UInt32.ofNat bits⟩) rest
      | 0xcb => withWord 8 (fun bits => .double ⟨UInt64.ofNat bits⟩) rest
      | 0xcc => withWord 1 .natural rest
      | 0xcd => withWord 2 .natural rest
      | 0xce => withWord 4 .natural rest
      | 0xcf => withWord 8 .natural rest
      | 0xd0 => withSign 1 rest
      | 0xd1 => withSign 2 rest
      | 0xd2 => withSign 4 rest
      | 0xd3 => withSign 8 rest
      | 0xd4 => withType 1 rest
      | 0xd5 => withType 2 rest
      | 0xd6 => withType 4 rest
      | 0xd7 => withType 8 rest
      | 0xd8 => withType 16 rest
      | 0xd9 => withWord 1 .text rest
      | 0xda => withWord 2 .text rest
      | 0xdb => withWord 4 .text rest
      | 0xdc => withWord 2 .array rest
      | 0xdd => withWord 4 .array rest
      | 0xde => withWord 2 .map rest
      | 0xdf => withWord 4 .map rest
      | _ => none

end Head

end SignalAccess.MessagePack
