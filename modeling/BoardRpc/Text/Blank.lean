/-! Blank characters, which separate and surround text: the Unicode property White_Space. -/

namespace BoardRpc.Text

/-- Inclusive code point ranges of the characters with the property White_Space. -/
def blankRanges : List (Nat × Nat) :=
  [(0x09, 0x0d), (0x20, 0x20), (0x85, 0x85), (0xa0, 0xa0), (0x1680, 0x1680), (0x2000, 0x200a),
   (0x2028, 0x2029), (0x202f, 0x202f), (0x205f, 0x205f), (0x3000, 0x3000)]

/-- Whether a code point lies in one of the given inclusive ranges. -/
def inRanges (ranges : List (Nat × Nat)) (point : Nat) : Bool :=
  ranges.any fun (first, last) => first ≤ point && point ≤ last

/-- Whether a character is blank. -/
def isBlank (c : Char) : Bool := inRanges blankRanges c.toNat

/-- The text without the blanks it begins with. -/
def skipBlank (text : List Char) : List Char := text.dropWhile isBlank

/-- The text without the blanks it begins or ends with. -/
def trim (text : List Char) : List Char :=
  (skipBlank (skipBlank text).reverse).reverse

/-- Skipping blanks never makes a text longer. -/
theorem length_skipBlank_le (text : List Char) : (skipBlank text).length ≤ text.length :=
  (List.dropWhile_sublist isBlank).length_le

/-- What is left after skipping blanks ends the text it was taken from. -/
theorem skipBlank_suffix (text : List Char) : skipBlank text <:+ text :=
  List.dropWhile_suffix isBlank

end BoardRpc.Text
