import DeclarationWatch.Time.Calendar
import DeclarationWatch.Width

namespace DeclarationWatch.Time

-- A point in time: seconds since 1 January 1970 in Greenwich and a fraction in nanoseconds. A
-- fraction of a whole second or more stands for a leap second after the one that is counted.
structure Instant where
  seconds : Int
  nanos : Nat
  deriving Repr, DecidableEq

namespace Instant

def ofMillis (millis : Int) : Instant := ⟨millis / 1000, (millis % 1000).toNat * 1000000⟩

-- Parts below a millisecond are dropped.
def millis (t : Instant) : Int := t.seconds * 1000 + (t.nanos / 1000000 : Nat)

def before (a b : Instant) : Bool :=
  a.seconds < b.seconds || (a.seconds == b.seconds && a.nanos < b.nanos)

def notAfter (a b : Instant) : Bool := !b.before a

-- The calendar reaches from the start of the year -262143 to the end of the year 262142.
def firstSecond : Int := (Date.mk (-262143) 1 1).toDays * 86400

def lastSecond : Int := (Date.mk 262142 12 31).toDays * 86400 + 86399

def inRange (t : Instant) : Bool := firstSecond ≤ t.seconds && t.seconds ≤ lastSecond

end Instant

-- A span of time in milliseconds fits into 64 bits either way.
def longestSpan : Int := Width.signed64 - 1

def spanOf? (millis : Int) : Option Int :=
  if -longestSpan ≤ millis && millis ≤ longestSpan then some millis else none

-- A second and any number of nanoseconds from its start.
def Instant.ofNanos (second nanos : Int) : Instant :=
  ⟨second + nanos / 1000000000, (nanos % 1000000000).toNat⟩

-- Adds milliseconds. A leap second is a second of its own only for a sum that stays in it or in the
-- second before it. A later sum does not count it. There is no result outside the calendar.
def Instant.add? (t : Instant) (millis : Int) : Option Instant :=
  let nanos := t.nanos + millis * 1000000
  let later : Instant :=
    if t.nanos < 1000000000 || millis ≤ -1000 then ofNanos t.seconds nanos
    else if nanos < 2000000000 then ⟨t.seconds, nanos.toNat⟩
    else ofNanos t.seconds (nanos - 1000000000)
  if later.inRange then some later else none

example : [-10000, -500, 500, 800, 10000].map (Instant.add? ⟨59, 1300000000⟩) =
    [some ⟨50, 300000000⟩, some ⟨59, 800000000⟩, some ⟨59, 1800000000⟩, some ⟨60, 100000000⟩,
      some ⟨69, 300000000⟩] := by decide

-- Milliseconds from one instant to a later one.
def Instant.since (t earlier : Instant) : Int := t.millis - earlier.millis

end DeclarationWatch.Time
