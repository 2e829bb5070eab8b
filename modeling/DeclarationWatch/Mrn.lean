import DeclarationWatch.Failure
import DeclarationWatch.Text.Blank
import DeclarationWatch.Text.DecimalDigit
import DeclarationWatch.Text.UpperCase

namespace DeclarationWatch

namespace Mrn

def isUpper (c : Char) : Bool := 'A' ≤ c && c ≤ 'Z'

def isUpperOrDigit (c : Char) : Bool := isUpper c || ('0' ≤ c && c ≤ '9')

-- Two digits of the year in any script, two letters of the country and fourteen letters or digits.
def isWellFormed (s : List Char) : Bool :=
  s.length == 18 && (s.take 2).all Text.isDecimalDigit && ((s.drop 2).take 2).all isUpper &&
    (s.drop 4).all isUpperOrDigit

-- Blanks around the reference are dropped and letters are put in upper case.
def canonicalChars (s : List Char) : List Char := Text.upperCase (Text.trim s)

def canonical (raw : String) : String := String.ofList (canonicalChars raw.toList)

end Mrn

-- A movement reference number in canonical form.
structure Mrn where
  text : String
  wellFormed : Mrn.isWellFormed text.toList = true

namespace Mrn

-- The complaint shows the reference as it was given, without the blanks around it.
def malformed (raw : String) : Failure :=
  .invalidInput ("Malformed MRN: " ++ String.ofList (Text.trim raw.toList))

def ofText (raw : String) : Except Failure Mrn :=
  if h : isWellFormed (canonical raw).toList = true then .ok ⟨canonical raw, h⟩
  else .error (malformed raw)

end Mrn

end DeclarationWatch
