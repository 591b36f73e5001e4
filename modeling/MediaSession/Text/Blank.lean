/-! The white space of the character standard: twenty-five characters, six of them controls. -/
namespace MediaSession.Text.Blank

/-- Ranges of characters with the property `White_Space`. -/
def ranges : List (Nat × Nat) :=
  [(0x9, 0xD), (0x20, 0x20), (0x85, 0x85), (0xA0, 0xA0), (0x1680, 0x1680), (0x2000, 0x200A),
   (0x2028, 0x2029), (0x202F, 0x202F), (0x205F, 0x205F), (0x3000, 0x3000)]

def isBlank (char : Char) : Bool :=
  ranges.any fun range => range.1 ≤ char.toNat && char.toNat ≤ range.2

/-- Whether nothing is left of a text once white space is trimmed off. -/
def isBlankText (text : String) : Bool := text.toList.all isBlank

end MediaSession.Text.Blank
