namespace DeclarationWatch.Net

def isFieldBlank (c : Char) : Bool := c == ' ' || c == '\t'

def isFieldChar (c : Char) : Bool := (0x20 ≤ c.toNat && c.toNat != 0x7F) || c == '\t'

-- A field value as it arrives. Controls cannot be sent. Blanks at the ends do not arrive.
def fieldValue? (s : String) : Option String :=
  if s.toList.all isFieldChar then
    some (String.ofList ((s.toList.dropWhile isFieldBlank).reverse.dropWhile isFieldBlank).reverse)
  else none

-- A field value that consists of visible ASCII, blanks apart.
def isPlainField (s : String) : Bool :=
  s.toList.all fun c => (0x20 ≤ c.toNat && c.toNat < 0x7F) || c == '\t'

end DeclarationWatch.Net
