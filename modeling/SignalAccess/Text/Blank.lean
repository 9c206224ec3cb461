/-!
# Blank characters

The characters that surround a token without belonging to it are those with the Unicode property
White_Space. The table lists the property's ranges in increasing order.
-/
namespace SignalAccess

/-- A text is the list of its characters: every rule of the request grammar reads it from the
front, one character at a time. Lengths on the wire count its UTF-8 bytes instead. -/
abbrev Text := List Char

namespace Text

/-- The ranges of the property White_Space, both ends included. -/
def blankRanges : List (Nat × Nat) :=
  [(0x9, 0xD), (0x20, 0x20), (0x85, 0x85), (0xA0, 0xA0), (0x1680, 0x1680), (0x2000, 0x200A),
    (0x2028, 0x2029), (0x202F, 0x202F), (0x205F, 0x205F), (0x3000, 0x3000)]

/-- Whether a character has the property White_Space. -/
def isBlank (c : Char) : Bool :=
  blankRanges.any fun (low, high) => low ≤ c.toNat && c.toNat ≤ high

/-- The text without the blanks in front of it. -/
def trimStart (t : Text) : Text := t.dropWhile isBlank

/-- The text without the blanks behind it. -/
def trimEnd (t : Text) : Text := (t.reverse.dropWhile isBlank).reverse

/-- The text without the blanks on either side. -/
def trim (t : Text) : Text := trimEnd (trimStart t)

/-- The words of a text: its longest pieces without blanks. -/
def words (t : Text) : List Text :=
  (go t).filter (!·.isEmpty)
where
  /-- Every piece between two blanks, empty ones included. -/
  go : Text → List Text
    | [] => [[]]
    | c :: rest =>
      if isBlank c then [] :: go rest
      else
        match go rest with
        | [] => [[c]]
        | word :: more => (c :: word) :: more

end Text

end SignalAccess
