import DeclarationWatch.Schedule.Expression
import DeclarationWatch.Time.Instant

namespace DeclarationWatch.Schedule

structure Reading where
  date : Time.Date
  hour : Nat
  minute : Nat
  second : Nat
  deriving Repr, DecidableEq

def Reading.ofSeconds (seconds : Int) : Reading :=
  let ofDay := (seconds % 86400).toNat
  ⟨Time.Date.ofDays (seconds / 86400), ofDay / 3600, ofDay / 60 % 60, ofDay % 60⟩

def Reading.toInstant (r : Reading) : Time.Instant :=
  ⟨r.date.toDays * 86400 + (r.hour * 3600 + r.minute * 60 + r.second : Nat), 0⟩

-- For which units the search still starts at the value of the earliest moment allowed. Once a
-- larger unit has moved on, a smaller one starts at its least value.
structure Bounds where
  month : Bool := true
  day : Bool := true
  hour : Bool := true
  minute : Bool := true
  second : Bool := true
  deriving Repr, DecidableEq

namespace Bounds

-- Frees a unit and all smaller ones.
def freeMinute (b : Bounds) : Bounds := { b with minute := false, second := false }

def freeHour (b : Bounds) : Bounds := { b.freeMinute with hour := false }

def freeDay (b : Bounds) : Bounds := { b.freeHour with day := false }

def freeMonth (b : Bounds) : Bounds := { b.freeDay with month := false }

end Bounds

inductive Scan where
  | found (r : Reading)
  -- The day falls on a day of the week that is not allowed.
  | wrongWeekday
  | nothing
  deriving Repr, DecidableEq

-- A bound is used up when it is read.
structure Search where
  schedule : Timetable
  earliest : Reading

namespace Search

def scanSecond (search : Search) (date : Time.Date) (hour minute : Nat) (bounds : Bounds) :
    Scan × Bounds :=
  let low := if bounds.second then search.earliest.second else TimeUnit.second.first
  let bounds := { bounds with second := false }
  match search.schedule.seconds.filter (low ≤ ·) with
  | [] => (.nothing, bounds)
  | second :: _ =>
      if search.schedule.daysOfWeek.contains date.weekday then
        (.found ⟨date, hour, minute, second⟩, bounds)
      else (.wrongWeekday, bounds)

def scanMinutes (search : Search) (date : Time.Date) (hour : Nat) (bounds : Bounds) :
    List Nat → Scan × Bounds
  | [] => (.nothing, bounds)
  | minute :: rest =>
      match search.scanSecond date hour minute bounds with
      | (.nothing, bounds) => scanMinutes search date hour bounds.freeMinute rest
      | other => other

def scanMinute (search : Search) (date : Time.Date) (hour : Nat) (bounds : Bounds) :
    Scan × Bounds :=
  let low := if bounds.minute then search.earliest.minute else TimeUnit.minute.first
  let bounds := { bounds with minute := false }
  let bounds := if search.schedule.minutes.contains low then bounds else bounds.freeMinute
  search.scanMinutes date hour bounds (search.schedule.minutes.filter (low ≤ ·))

def scanHours (search : Search) (date : Time.Date) (bounds : Bounds) : List Nat → Scan × Bounds
  | [] => (.nothing, bounds)
  | hour :: rest =>
      match search.scanMinute date hour bounds with
      | (.nothing, bounds) => scanHours search date bounds.freeHour rest
      | other => other

def scanHour (search : Search) (date : Time.Date) (bounds : Bounds) : Scan × Bounds :=
  let low := if bounds.hour then search.earliest.hour else TimeUnit.hour.first
  let bounds := { bounds with hour := false }
  let bounds := if search.schedule.hours.contains low then bounds else bounds.freeHour
  search.scanHours date bounds (search.schedule.hours.filter (low ≤ ·))

-- A day of the wrong name leaves the bounds as they are.
def scanDays (search : Search) (year month : Nat) (bounds : Bounds) : List Nat → Scan × Bounds
  | [] => (.nothing, bounds)
  | day :: rest =>
      match search.scanHour ⟨year, month, day⟩ bounds with
      | (.nothing, bounds) => scanDays search year month bounds.freeDay rest
      | (.wrongWeekday, bounds) => scanDays search year month bounds rest
      | other => other

def scanDay (search : Search) (year month : Nat) (bounds : Bounds) : Scan × Bounds :=
  let low := if bounds.day then search.earliest.date.day else TimeUnit.dayOfMonth.first
  let bounds := { bounds with day := false }
  let days := search.schedule.daysOfMonth
  let bounds := if days.contains low then bounds else bounds.freeDay
  let last := Time.daysInMonth year month
  search.scanDays year month bounds (days.filter fun day => min low last ≤ day && day ≤ last)

def scanMonths (search : Search) (year : Nat) (bounds : Bounds) : List Nat → Scan × Bounds
  | [] => (.nothing, bounds)
  | month :: rest =>
      match search.scanDay year month bounds with
      | (.found r, bounds) => (.found r, bounds)
      | (_, bounds) => scanMonths search year bounds.freeMonth rest

def scanMonth (search : Search) (year : Nat) (bounds : Bounds) : Scan × Bounds :=
  let low := if bounds.month then search.earliest.date.month else TimeUnit.month.first
  let bounds := { bounds with month := false }
  let bounds := if search.schedule.months.contains low then bounds else bounds.freeMonth
  search.scanMonths year bounds (search.schedule.months.filter (low ≤ ·))

-- A new year does not free the months.
def scanYears (search : Search) (bounds : Bounds) : List Nat → Option Reading
  | [] => none
  | year :: rest =>
      match search.scanMonth year bounds with
      | (.found r, _) => some r
      | (_, bounds) => scanYears search bounds rest

end Search

-- The first moment found for a schedule from one second after the given one.
def Timetable.next? (schedule : Timetable) (after : Time.Instant) : Option Time.Instant :=
  let earliest := Reading.ofSeconds (after.seconds + 1)
  let search : Search := ⟨schedule, earliest⟩
  (search.scanYears {} (schedule.years.filter fun year => earliest.date.year ≤ year)).map
    Reading.toInstant

end DeclarationWatch.Schedule
