import DeclarationWatch.Text.Ranges

namespace DeclarationWatch.Text

-- The 25 characters with the property White_Space.
def blankRanges : List (Nat × Nat) := [
  (0x9, 0xD), (0x20, 0x20), (0x85, 0x85), (0xA0, 0xA0), (0x1680, 0x1680), (0x2000, 0x200A),
  (0x2028, 0x2029), (0x202F, 0x202F), (0x205F, 0x205F), (0x3000, 0x3000)]

def isBlank (c : Char) : Bool := inRanges blankRanges c.toNat

example : (blankRanges.map fun range => range.2 + 1 - range.1).sum = 25 := by decide

def trimStart (s : List Char) : List Char := s.dropWhile isBlank

def trimEnd (s : List Char) : List Char := (trimStart s.reverse).reverse

-- Blanks are dropped at both ends and kept inside.
def trim (s : List Char) : List Char := trimEnd (trimStart s)

example : trim [' ', 'a', ' ', 'b', '\u3000'] = ['a', ' ', 'b'] := by decide

end DeclarationWatch.Text
