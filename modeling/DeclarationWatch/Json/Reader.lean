import DeclarationWatch.Json.Node
import DeclarationWatch.Width

namespace DeclarationWatch.Json

def isSpace (c : Char) : Bool := c = ' ' || c = '\t' || c = '\n' || c = '\r'

def skipSpace (s : List Char) : List Char := s.dropWhile isSpace

-- What is missing at the end of a text is a fault of its own.
def unexpected : List Char → Fault
  | [] => .endsEarly
  | _ => .malformed

def word : List Char → List Char → Except Fault (List Char)
  | [], s => .ok s
  | _ :: _, [] => .error .endsEarly
  | w :: ws, c :: s => if w = c then word ws s else .error .malformed

section Strings

def hexValue? (c : Char) : Option Nat :=
  if '0' ≤ c && c ≤ '9' then some (c.toNat - 48)
  else if 'a' ≤ c && c ≤ 'f' then some (c.toNat - 87)
  else if 'A' ≤ c && c ≤ 'F' then some (c.toNat - 55)
  else none

-- The four digits of an escape. Fewer than four bytes before the end are an early end, whatever
-- they are.
def hexEscape (s : List Char) : Except Fault (Nat × List Char) :=
  match s with
  | a :: b :: c :: d :: rest =>
      match hexValue? a, hexValue? b, hexValue? c, hexValue? d with
      | some a, some b, some c, some d => .ok (((a * 16 + b) * 16 + c) * 16 + d, rest)
      | _, _, _, _ => .error .malformed
  | short =>
      if (String.ofList short).utf8ByteSize < 4 then .error .endsEarly else .error .malformed

def isLeading (unit : Nat) : Bool := 0xD800 ≤ unit && unit < 0xDC00

def isTrailing (unit : Nat) : Bool := 0xDC00 ≤ unit && unit < 0xE000

-- A character given by its number: one unit, or a leading and a trailing surrogate.
def escapedChar (s : List Char) : Except Fault (Char × List Char) := do
  let (unit, rest) ← hexEscape s
  if isTrailing unit then .error .malformed
  else if !isLeading unit then .ok (Char.ofNat unit, rest)
  else do
    let rest ← word ['\\', 'u'] rest
    let (second, rest) ← hexEscape rest
    if isTrailing second then
      .ok (Char.ofNat (0x10000 + (unit - 0xD800) * 0x400 + (second - 0xDC00)), rest)
    else .error .malformed

def letterEscape? (c : Char) : Option Char :=
  if c = '"' || c = '\\' || c = '/' then some c
  else if c = 'b' then some '\x08'
  else if c = 'f' then some '\x0c'
  else if c = 'n' then some '\n'
  else if c = 'r' then some '\r'
  else if c = 't' then some '\t'
  else none

-- The text of a string from behind its opening quote.
def readText : Nat → List Char → Except Fault (List Char × List Char)
  | 0, _ => .error .endsEarly
  | _, [] => .error .endsEarly
  | fuel + 1, c :: s =>
      if c = '"' then .ok ([], s)
      else if c = '\\' then
        match s with
        | [] => .error .endsEarly
        | 'u' :: s => do
            let (c, s) ← escapedChar s
            let (text, rest) ← readText fuel s
            .ok (c :: text, rest)
        | letter :: s =>
            match letterEscape? letter with
            | none => .error .malformed
            | some c => do
                let (text, rest) ← readText fuel s
                .ok (c :: text, rest)
      else if c.toNat < 0x20 then .error .malformed
      else do
        let (text, rest) ← readText fuel s
        .ok (c :: text, rest)

def skipText : Nat → List Char → Except Fault (List Char)
  | 0, _ => .error .endsEarly
  | _, [] => .error .endsEarly
  | fuel + 1, c :: s =>
      if c = '"' then .ok s
      else if c = '\\' then
        match s with
        | [] => .error .endsEarly
        | 'u' :: s => do skipText fuel (← hexEscape s).2
        | letter :: s =>
            if (letterEscape? letter).isSome then skipText fuel s else .error .malformed
      else if c.toNat < 0x20 then .error .malformed
      else skipText fuel s

def readPiece (s : List Char) : Piece × Option (List Char) :=
  match readText s.length s with
  | .ok (text, rest) => (⟨.ok (String.ofList text), none⟩, some rest)
  | .error fault =>
      match skipText s.length s with
      | .ok rest => (⟨.error fault, none⟩, some rest)
      | .error cut => (⟨.error fault, some cut⟩, none)

end Strings

section Numbers

def isDigit (c : Char) : Bool := '0' ≤ c && c ≤ '9'

def digitValue (c : Char) : Nat := c.toNat - 48

def naturalOf (digits : List Char) : Nat :=
  digits.foldl (fun n c => n * 10 + digitValue c) 0

-- The spelling of a number, split at its marks.
structure Numeral where
  negative : Bool
  whole : List Char
  -- Digits behind the point.
  fraction : Option (List Char)
  -- The sign and the digits of the exponent.
  exponent : Option (Bool × List Char)

def readDigits (s : List Char) : Except Fault (List Char × List Char) :=
  match s.takeWhile isDigit with
  | [] => .error (unexpected s)
  | digits => .ok (digits, s.dropWhile isDigit)

def readFraction : List Char → Except Fault (Option (List Char) × List Char)
  | '.' :: s => do
      let (digits, rest) ← readDigits s
      .ok (some digits, rest)
  | s => .ok (none, s)

def readExponent : List Char → Except Fault (Option (Bool × List Char) × List Char)
  | c :: s =>
      if c = 'e' || c = 'E' then do
        let (negative, s) := match s with
          | '-' :: s => (true, s)
          | '+' :: s => (false, s)
          | s => (false, s)
        let (digits, rest) ← readDigits s
        .ok (some (negative, digits), rest)
      else .ok (none, c :: s)
  | [] => .ok (none, [])

-- A number may not start with a zero that is followed by a digit.
def readUnsigned (negative : Bool) (s : List Char) : Except Fault (Numeral × List Char) := do
  let (whole, s) ← readDigits s
  if whole.length > 1 && whole.head? == some '0' then .error .malformed
  else do
    let (fraction, s) ← readFraction s
    let (exponent, s) ← readExponent s
    .ok (⟨negative, whole, fraction, exponent⟩, s)

def readNumeral : List Char → Except Fault (Numeral × List Char)
  | '-' :: s => readUnsigned true s
  | s => readUnsigned false s

-- A significand of 64 bits takes the leading digits that fit. What follows the first digit that
-- does not fit is counted and dropped.
def significand (start : Nat) : List Char → Nat × Nat
  | [] => (start, 0)
  | c :: digits =>
      let next := start * 10 + digitValue c
      if next < Width.words64 then significand next digits else (start, digits.length + 1)

-- The significand scaled by a power of ten, in one floating-point step per 308 places.
def scaleBy : Nat → Float → Int → Except Fault Float
  | 0, x, _ => .ok x
  | fuel + 1, x, exponent =>
      if exponent.natAbs ≤ 308 then
        let power := Float.ofScientific 1 false exponent.natAbs
        if exponent < 0 then .ok (x / power)
        else
          let y := x * power
          if y.isInf then .error .malformed else .ok y
      else if x == 0 then .ok x
      else if 0 ≤ exponent then .error .malformed
      else scaleBy fuel (x / Float.ofScientific 1 false 308) (exponent + 308)

def Numeral.magnitude (n : Numeral) : Except Fault Float := do
  let (start, dropped) := significand 0 n.whole
  let (digits, used) := match n.fraction with
    | none => (start, 0)
    | some fraction =>
        let (digits, left) := significand start fraction
        (digits, fraction.length - left)
  let base : Int := (dropped : Int) - used
  let mantissa := digits.toUInt64.toFloat
  match n.exponent with
  | none => scaleBy 16 mantissa base
  | some (negative, places) =>
      let places := naturalOf places
      if Width.words32 ≤ 2 * places then
        if digits ≠ 0 && !negative then .error .malformed else .ok 0
      else
        let exponent := base + (if negative then -(places : Int) else places)
        scaleBy 16 mantissa exponent

-- An integer keeps its value as long as 64 bits hold it. Minus zero is a float.
def Numeral.value (n : Numeral) : Except Fault Number :=
  let signed (x : Float) : Float := if n.negative then -x else x
  match n.fraction, n.exponent with
  | none, none =>
      let whole := naturalOf n.whole
      if n.negative then
        if whole = 0 || Width.signed64 < whole then n.magnitude.map (.real <| signed ·)
        else .ok (.integer (-(whole : Int)))
      else if whole < Width.words64 then .ok (.integer whole)
      else n.magnitude.map (.real <| signed ·)
  | _, _ => n.magnitude.map (.real <| signed ·)

end Numbers

mutual

-- A value behind leading space, and the rest of the text if nothing is wrong with it.
def readNode : Nat → List Char → Node × Option (List Char)
  | 0, _ => (.absent .endsEarly, none)
  | fuel + 1, s =>
      match skipSpace s with
      | [] => (.absent .endsEarly, none)
      | c :: s =>
          if c = '[' then
            match skipSpace s with
            | [] => (.array [] (some .endsEarly), none)
            | ']' :: rest => (.array [] none, some rest)
            | s =>
                let (items, cut, rest) := readItems fuel s
                (.array items cut, rest)
          else if c = '\x7b' then
            match skipSpace s with
            | [] => (.object [] (some .endsEarly), none)
            | '\x7d' :: rest => (.object [] none, some rest)
            | s =>
                let (members, cut, rest) := readMembers fuel s
                (.object members cut, rest)
          else if c = '"' then
            let (piece, rest) := readPiece s
            (.string piece, rest)
          else if c = 'n' then readWord ['u', 'l', 'l'] .null s
          else if c = 't' then readWord ['r', 'u', 'e'] (.bool true) s
          else if c = 'f' then readWord ['a', 'l', 's', 'e'] (.bool false) s
          else if c = '-' || isDigit c then
            match readNumeral (c :: s) with
            | .ok (numeral, rest) => (.number numeral.value, some rest)
            | .error fault => (.absent fault, none)
          else (.absent .malformed, none)

-- The values of an array from the first one to the closing bracket.
def readItems : Nat → List Char → List Node × Option Fault × Option (List Char)
  | 0, _ => ([], some .endsEarly, none)
  | fuel + 1, s =>
      match readNode fuel s with
      | (item, none) => ([item], none, none)
      | (item, some rest) =>
          match skipSpace rest with
          | ']' :: rest => ([item], none, some rest)
          | ',' :: rest =>
              let (items, cut, rest) := readItems fuel rest
              (item :: items, cut, rest)
          | rest => ([item], some (unexpected rest), none)

-- The members of an object from the first key to the closing brace.
def readMembers : Nat → List Char → List (Piece × Node) × Option Fault × Option (List Char)
  | 0, _ => ([], some .endsEarly, none)
  | fuel + 1, s =>
      match skipSpace s with
      | '"' :: s =>
          match readPiece s with
          | (key, none) => ([(key, .absent .endsEarly)], none, none)
          | (key, some rest) =>
              match skipSpace rest with
              | ':' :: rest =>
                  match readNode fuel rest with
                  | (value, none) => ([(key, value)], none, none)
                  | (value, some rest) =>
                      match skipSpace rest with
                      | '\x7d' :: rest => ([(key, value)], none, some rest)
                      | ',' :: rest =>
                          let (members, cut, rest) := readMembers fuel rest
                          ((key, value) :: members, cut, rest)
                      | rest => ([(key, value)], some (unexpected rest), none)
              | rest => ([(key, .absent (unexpected rest))], none, none)
      | s => ([], some (unexpected s), none)

def readWord (ending : List Char) (node : Node) (s : List Char) : Node × Option (List Char) :=
  match word ending s with
  | .ok rest => (node, some rest)
  | .error fault => (.absent fault, none)

end

-- A whole text: its first value, and what is wrong behind it.
structure Document where
  root : Node
  trailing : Option Fault

-- Each step down uses up a character or ends.
def Document.ofText (s : List Char) : Document :=
  let (root, rest) := readNode (2 * s.length + 2) s
  ⟨root, match rest.map skipSpace with
    | some (_ :: _) => some .malformed
    | _ => none⟩

end DeclarationWatch.Json
