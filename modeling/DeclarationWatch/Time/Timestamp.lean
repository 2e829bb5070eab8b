import DeclarationWatch.Time.Instant
import DeclarationWatch.Text.Blank

namespace DeclarationWatch.Time

section Writing

-- Decimal digits, padded with zeros to a width.
def padded (width n : Nat) : List Char :=
  let digits := Nat.toDigits 10 n
  List.replicate (width - digits.length) '0' ++ digits

-- Years of four digits stand alone. Others have a sign.
def yearText (year : Int) : List Char :=
  if 0 ≤ year && year ≤ 9999 then padded 4 year.toNat
  else (if year < 0 then '-' else '+') :: padded 4 year.natAbs

-- The fewest of 0, 3, 6 and 9 digits that lose nothing.
def fractionText (nanos : Nat) : List Char :=
  if nanos = 0 then []
  else if nanos % 1000000 = 0 then '.' :: padded 3 (nanos / 1000000)
  else if nanos % 1000 = 0 then '.' :: padded 6 (nanos / 1000)
  else '.' :: padded 9 nanos

def dateText (date : Date) : List Char :=
  yearText date.year ++ '-' :: padded 2 date.month ++ '-' :: padded 2 date.day

-- The time of day from its seconds and a fraction. A leap second is the sixty-first of its minute.
def clockText (ofDay nanos : Nat) : List Char :=
  let leap := if 1000000000 ≤ nanos then 1 else 0
  padded 2 (ofDay / 3600) ++ ':' :: padded 2 (ofDay / 60 % 60) ++
    ':' :: padded 2 (ofDay % 60 + leap) ++ fractionText (nanos - leap * 1000000000)

-- The instant in Greenwich time.
def Instant.timestamp (t : Instant) : List Char :=
  dateText (Date.ofDays (t.seconds / 86400)) ++
    'T' :: clockText (t.seconds % 86400).toNat t.nanos ++ ['Z']

def Instant.text (t : Instant) : String := String.ofList t.timestamp

end Writing

section Reading

def isDigit (c : Char) : Bool := '0' ≤ c && c ≤ '9'

def natural (digits : List Char) : Nat :=
  digits.foldl (fun n c => n * 10 + (c.toNat - 48)) 0

-- A number of at least one digit and at most `width`, behind any blanks.
def number? (width : Nat) (s : List Char) : Option (Nat × List Char) :=
  let digits := (s.take width).takeWhile isDigit
  if digits.isEmpty then none else some (natural digits, s.drop digits.length)

def field? (width low high : Nat) (s : List Char) : Option (Nat × List Char) := do
  let (n, rest) ← number? width (Text.trimStart s)
  if low ≤ n && n ≤ high then some (n, rest) else none

-- A year of up to four digits, or of any length behind a sign.
def year? (s : List Char) : Option (Int × List Char) :=
  match Text.trimStart s with
  | '-' :: rest => (number? rest.length rest).map fun (n, rest) => (-(n : Int), rest)
  | '+' :: rest => (number? rest.length rest).map fun (n, rest) => ((n : Int), rest)
  | s => (number? 4 s).map fun (n, rest) => ((n : Int), rest)

-- A separator, which may have blanks before it.
def separator? (c : Char) (s : List Char) : Option (List Char) :=
  match Text.trimStart s with
  | d :: rest => if d = c then some rest else none
  | [] => none

-- Nanoseconds. Digits behind the ninth are dropped.
def fraction? : List Char → Option (Nat × List Char)
  | '.' :: s => do
      let digits := (s.take 9).takeWhile isDigit
      if digits.isEmpty then none
      else some (natural digits * Nat.pow 10 (9 - digits.length), s.dropWhile isDigit)
  | s => some (0, s)

-- The offset from Greenwich in seconds: Z, UTC in any case, or a sign with hours and minutes.
def offset? (s : List Char) : Option (Int × List Char) :=
  match s with
  | a :: b :: c :: rest =>
      if [a, b, c].map Char.toLower = ['u', 't', 'c'] then some (0, rest) else signed? s
  | _ => signed? s
where
  signed? : List Char → Option (Int × List Char)
    | [] => none
    | sign :: s =>
        if sign = 'Z' || sign = 'z' then some (0, s)
        else do
          let factor ← factor? sign
          let (hours, rest) ← two? s
          let (minutes, rest) ← two? (rest.dropWhile fun c => c = ':' || Text.isBlank c)
          if minutes < 60 then some (factor * (hours * 3600 + minutes * 60 : Nat), rest) else none
  factor? (sign : Char) : Option Int :=
    if sign = '+' then some 1 else if sign = '-' || sign = '−' then some (-1) else none
  two? : List Char → Option (Nat × List Char)
    | a :: b :: rest => if isDigit a && isDigit b then some (natural [a, b], rest) else none
    | _ => none

def date? (s : List Char) : Option (Date × List Char) := do
  let (year, s) ← year? s
  let s ← separator? '-' s
  let (month, s) ← field? 2 1 12 s
  let s ← separator? '-' s
  let (day, s) ← field? 2 1 31 s
  some (⟨year, month, day⟩, s)

-- What parts the date from the time of day.
def clockMark? : List Char → Option (List Char)
  | c :: rest => if c = 'T' || c = 't' || c = ' ' then some rest else none
  | [] => none

-- The seconds of a day and the nanoseconds. A sixtieth second is a leap second, which is not counted.
def clock? (s : List Char) : Option (Nat × Nat × List Char) := do
  let (hour, s) ← field? 2 0 23 s
  let s ← separator? ':' s
  let (minute, s) ← field? 2 0 59 s
  let s ← separator? ':' s
  let (second, s) ← field? 2 0 60 s
  let (nanos, s) ← fraction? s
  let leap := if second = 60 then 1 else 0
  some (hour * 3600 + minute * 60 + (second - leap), nanos + leap * 1000000000, s)

-- A date and a time of day with an offset of less than a day. Blanks may stand before each part. The
-- calendar must have both the day as it is written and the instant in Greenwich.
def Instant.ofTimestamp? (s : List Char) : Option Instant := do
  let (date, s) ← date? s
  let s ← clockMark? s
  let (ofDay, nanos, s) ← clock? s
  let (offset, s) ← offset? (Text.trimStart s)
  let midnight : Instant := ⟨date.toDays * 86400, 0⟩
  let t : Instant := ⟨midnight.seconds + ofDay - offset, nanos⟩
  if (Text.trimStart s).isEmpty && date.isReal && offset.natAbs < 86400 && midnight.inRange &&
      t.inRange then some t
  else none

def Instant.ofText? (s : String) : Option Instant := Instant.ofTimestamp? s.toList

end Reading

end DeclarationWatch.Time
