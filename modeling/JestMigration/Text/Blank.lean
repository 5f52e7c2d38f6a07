/-
# `Text.Blank` — white space

The characters with the Unicode property White_Space, and trimming by them.
-/
import JestMigration.Text.Ranges

namespace JestMigration.Text

/-- The code points of white space. -/
def blankRanges : List (Nat × Nat) :=
  [ (0x9, 0xd), (0x20, 0x20), (0x85, 0x85), (0xa0, 0xa0), (0x1680, 0x1680), (0x2000, 0x200a),
    (0x2028, 0x2029), (0x202f, 0x202f), (0x205f, 0x205f), (0x3000, 0x3000) ]

/-- Is the character white space? -/
def isBlank (c : Char) : Bool :=
  inRanges blankRanges c

/-- Drops white space at both ends. -/
def trim (text : String) : String :=
  String.ofList ((text.toList.dropWhile isBlank).reverse.dropWhile isBlank).reverse

end JestMigration.Text
