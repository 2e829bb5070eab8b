import DeclarationWatch.Failure
import DeclarationWatch.Text.LowerCase
import DeclarationWatch.Width

namespace DeclarationWatch.Schedule

-- One unit of time in a schedule: its values and the names that some of them have.
structure TimeUnit where
  first : Nat
  last : Nat
  -- Are all values also written with a question mark?
  anyMark : Bool
  names : List (String × Nat)

def TimeUnit.all (unit : TimeUnit) : List Nat := List.range' unit.first (unit.last + 1 - unit.first)

namespace TimeUnit

def second : TimeUnit := ⟨0, 59, false, []⟩
def minute : TimeUnit := ⟨0, 59, false, []⟩
def hour : TimeUnit := ⟨0, 23, false, []⟩
def dayOfMonth : TimeUnit := ⟨1, 31, true, []⟩
def year : TimeUnit := ⟨1970, 2100, false, []⟩

def month : TimeUnit := ⟨1, 12, false, [
  ("jan", 1), ("january", 1), ("feb", 2), ("february", 2), ("mar", 3), ("march", 3), ("apr", 4),
  ("april", 4), ("may", 5), ("jun", 6), ("june", 6), ("jul", 7), ("july", 7), ("aug", 8),
  ("august", 8), ("sep", 9), ("september", 9), ("oct", 10), ("october", 10), ("nov", 11),
  ("november", 11), ("dec", 12), ("december", 12)]⟩

-- The week begins on Sunday.
def dayOfWeek : TimeUnit := ⟨1, 7, true, [
  ("sun", 1), ("sunday", 1), ("mon", 2), ("monday", 2), ("tue", 3), ("tues", 3), ("tuesday", 3),
  ("wed", 4), ("wednesday", 4), ("thu", 5), ("thurs", 5), ("thursday", 5), ("fri", 6),
  ("friday", 6), ("sat", 7), ("saturday", 7)]⟩

end TimeUnit

-- Which values of a unit an item of a field means.
inductive Specifier where
  | all
  | point (n : Nat)
  | range (low high : Nat)
  | namedRange (low high : String)
  deriving Repr, DecidableEq

inductive FieldItem where
  | plain (specifier : Specifier)
  | stepped (specifier : Specifier) (step : Nat)
  | named (name : String)
  deriving Repr, DecidableEq

section Reading

-- Reads the beginning of a text and gives back the rest.
abbrev Reader (α : Type) := List Char → Option (α × List Char)

def isSpace (c : Char) : Bool := c = ' ' || c = '\t' || c = '\r' || c = '\n'

def skipSpace (s : List Char) : List Char := s.dropWhile isSpace

def isLetter (c : Char) : Bool := ('a' ≤ c && c ≤ 'z') || ('A' ≤ c && c ≤ 'Z')

def isDigit (c : Char) : Bool := '0' ≤ c && c ≤ '9'

-- A character as it stands, without space before it.
def mark (c : Char) : Reader Unit
  | d :: s => if d = c then some ((), s) else none
  | [] => none

-- A word of one class of characters, with space on both sides of it.
def wordOf (belongs : Char → Bool) : Reader (List Char) := fun s =>
  let s := skipSpace s
  match s.takeWhile belongs with
  | [] => none
  | word => some (word, skipSpace (s.dropWhile belongs))

def number : Reader Nat := fun s => do
  let (digits, s) ← wordOf isDigit s
  let n := digits.foldl (fun n c => n * 10 + (c.toNat - 48)) 0
  if n < Width.words32 then some (n, s) else none

def name : Reader String := fun s => do
  let (letters, s) ← wordOf isLetter s
  some (String.ofList (letters.map Char.toLower), s)

def range : Reader Specifier := fun s => do
  let (low, s) ← number s
  let ((), s) ← mark '-' s
  let (high, s) ← number s
  some (.range low high, s)

def namedRange : Reader Specifier := fun s => do
  let (low, s) ← name s
  let ((), s) ← mark '-' s
  let (high, s) ← name s
  some (.namedRange low high, s)

def star (anyMark : Bool) : Reader Specifier
  | '*' :: s => some (.all, s)
  | '?' :: s => if anyMark then some (.all, s) else none
  | _ => none

-- The alternatives are tried in this order, and the first that fits stands.
def specifier (anyMark : Bool) : Reader Specifier := fun s =>
  star anyMark s <|> range s <|> (number s).map (fun (n, s) => (.point n, s)) <|> namedRange s

def stepped (anyMark : Bool) : Reader FieldItem := fun s => do
  let (base, s) ← specifier anyMark s
  let ((), s) ← mark '/' s
  let (step, s) ← number s
  some (.stepped base step, s)

def item (anyMark : Bool) : Reader FieldItem := fun s =>
  stepped anyMark s <|> (specifier anyMark s).map (fun (base, s) => (.plain base, s)) <|>
    (name s).map (fun (name, s) => (.named name, s))

-- Further items, each behind a comma, as many as can be read.
def moreItems (anyMark : Bool) : Nat → List Char → List FieldItem × List Char
  | 0, s => ([], s)
  | fuel + 1, s =>
      match (mark ',' s).bind fun ((), s) => item anyMark s with
      | none => ([], s)
      | some (next, rest) =>
          let (items, rest) := moreItems anyMark fuel rest
          (next :: items, rest)

def fieldItems (anyMark : Bool) : Reader (List FieldItem) := fun s => do
  let (first, s) ← item anyMark (skipSpace s)
  let (items, s) := moreItems anyMark s.length s
  some (first :: items, skipSpace s)

end Reading

section Meaning

def TimeUnit.valid? (unit : TimeUnit) (n : Nat) : Option Nat :=
  if unit.first ≤ n && n ≤ unit.last then some n else none

def between? (low high : Nat) : Option (List Nat) :=
  if low ≤ high then some (List.range' low (high + 1 - low)) else none

def Specifier.values? (unit : TimeUnit) : Specifier → Option (List Nat)
  | .all => some unit.all
  | .point n => (unit.valid? n).map ([·])
  | .range low high => do between? (← unit.valid? low) (← unit.valid? high)
  | .namedRange low high => do between? (← unit.names.lookup low) (← unit.names.lookup high)

-- Every `step`-th element, beginning with the first.
def everyNth (step : Nat) (values : List Nat) : List Nat :=
  (values.zipIdx.filter fun (_, i) => i % step == 0).map (·.1)

-- A single number with a step counts up to the last value of its unit.
def FieldItem.values? (unit : TimeUnit) : FieldItem → Option (List Nat)
  | .plain base => base.values? unit
  | .named name => (unit.names.lookup name).map ([·])
  | .stepped base step =>
      if step = 0 then none
      else
        let range := match base with
          | .point n => (unit.valid? n).bind fun n => between? n unit.last
          | base => base.values? unit
        range.map (everyNth step)

-- The values of a unit that a field allows, in ascending order.
def TimeUnit.valuesOf? (unit : TimeUnit) (items : List FieldItem) : Option (List Nat) := do
  let values ← items.mapM (·.values? unit)
  some (unit.all.filter values.flatten.contains)

end Meaning

-- When a job is due: the values that each unit of time may have.
structure Timetable where
  seconds : List Nat
  minutes : List Nat
  hours : List Nat
  daysOfMonth : List Nat
  months : List Nat
  daysOfWeek : List Nat
  years : List Nat
  deriving Repr, DecidableEq

namespace Timetable

def field (unit : TimeUnit) : Reader (List Nat) := fun s => do
  let (items, s) ← fieldItems unit.anyMark s
  let values ← unit.valuesOf? items
  some (values, s)

-- Without a seventh field every year is allowed.
def longhand (s : List Char) : Option Timetable := do
  let (seconds, s) ← field .second s
  let (minutes, s) ← field .minute s
  let (hours, s) ← field .hour s
  let (daysOfMonth, s) ← field .dayOfMonth s
  let (months, s) ← field .month s
  let (daysOfWeek, s) ← field .dayOfWeek s
  let (years, s) := (field .year s).getD (TimeUnit.year.all, s)
  if s.isEmpty then some ⟨seconds, minutes, hours, daysOfMonth, months, daysOfWeek, years⟩
  else none

def shorthands : List (String × String) := [
  ("@yearly", "0 0 0 1 1 *"), ("@monthly", "0 0 0 1 * *"), ("@weekly", "0 0 0 * * 1"),
  ("@daily", "0 0 0 * * *"), ("@hourly", "0 0 * * * *")]

-- A name for a common schedule, or the fields themselves.
def ofChars? (s : List Char) : Option Timetable :=
  let trimmed := (skipSpace (skipSpace s).reverse).reverse
  match shorthands.lookup (String.ofList trimmed) with
  | some fields => longhand fields.toList
  | none => longhand (skipSpace s)

-- Whatever is wrong with an expression, the reason given is the same.
def invalidReason : String := "Invalid expression: Invalid cron expression."

def ofText (expression : String) : Except ScheduleFailure Timetable :=
  match ofChars? expression.toList with
  | some schedule => .ok schedule
  | none => .error (.invalidExpression expression invalidReason)

end Timetable

end DeclarationWatch.Schedule
