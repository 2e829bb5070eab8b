import DeclarationWatch.Proofs.Time.Order

namespace DeclarationWatch.Time

namespace Instant

variable {t now : Instant} {seconds : Int}

-- What a clock shows in the years from 1970 to 9999. It does not show leap seconds.
structure IsReading (t : Instant) : Prop where
  first : (Date.mk 1970 1 1).toDays ≤ t.seconds / 86400
  last : t.seconds / 86400 ≤ (Date.mk 9999 12 31).toDays
  fraction : t.nanos < 1000000000

-- The last second of these years.
def lastReading : Int := (Date.mk 9999 12 31).toDays * 86400 + 86399

theorem firstSecond_eq : firstSecond = -8334601228800 := by decide

theorem lastSecond_eq : lastSecond = 8210266876799 := by decide

theorem lastReading_eq : lastReading = 253402300799 := by decide

theorem isReading_iff :
    t.IsReading ↔ 0 ≤ t.seconds ∧ t.seconds ≤ lastReading ∧ t.nanos < 1000000000 := by
  have hfirst : (Date.mk 1970 1 1).toDays = 0 := by decide
  have hlast : (Date.mk 9999 12 31).toDays = 2932896 := by decide
  rw [lastReading_eq]
  constructor
  · rintro ⟨first, last, fraction⟩
    rw [hfirst] at first
    rw [hlast] at last
    omega
  · rintro ⟨hzero, hend, fraction⟩
    refine ⟨?_, ?_, fraction⟩
    · rw [hfirst]
      omega
    · rw [hlast]
      omega

-- Whole seconds later, wherever the calendar ends.
def plus (t : Instant) (seconds : Int) : Instant := ⟨t.seconds + seconds, t.nanos⟩

theorem inRange_plus_iff : (t.plus seconds).inRange = true ↔
    firstSecond ≤ t.seconds + seconds ∧ t.seconds + seconds ≤ lastSecond := by
  rw [inRange, Bool.and_eq_true, decide_eq_true_iff, decide_eq_true_iff]
  rfl

-- The first reading of all sets the lower limit, the last one the upper.
theorem forall_inRange_plus_iff :
    (∀ now : Instant, now.IsReading → (now.plus seconds).inRange = true) ↔
      firstSecond ≤ seconds ∧ seconds ≤ lastSecond - lastReading := by
  simp only [inRange_plus_iff, isReading_iff]
  constructor
  · intro hall
    have hlow := (hall ⟨0, 0⟩ (by decide)).1
    have hhigh := (hall ⟨lastReading, 0⟩ (by decide)).2
    simp only at hlow hhigh
    omega
  · rintro ⟨hlow, hhigh⟩ now ⟨hzero, hlast, -⟩
    omega

theorem before_plus (h : 0 < seconds) : t.before (t.plus seconds) = true := by
  simp only [before_iff, plus]
  omega

-- Nanoseconds from one reading to another.
def elapsed (since now : Instant) : Int :=
  (now.seconds - since.seconds) * 1000000000 + ((now.nanos : Int) - since.nanos)

-- The time is not over as long as less of it has passed.
theorem before_plus_iff (ht : t.nanos < 1000000000) (hnow : now.nanos < 1000000000) :
    now.before (t.plus seconds) = true ↔ elapsed t now < seconds * 1000000000 := by
  simp only [before_iff, plus, elapsed]
  omega

-- Whole seconds leave the fraction as it is, and only the calendar limits them.
theorem add?_seconds (h : t.nanos < 1000000000) (seconds : Int) :
    t.add? (seconds * 1000) = if (t.plus seconds).inRange then some (t.plus seconds) else none := by
  have hwhole : ((t.nanos : Int) + seconds * 1000 * 1000000) / 1000000000 = seconds := by omega
  have hrest : (((t.nanos : Int) + seconds * 1000 * 1000000) % 1000000000).toNat = t.nanos := by
    omega
  simp only [add?, ofNanos, h, decide_true, Bool.true_or, if_true, hwhole, hrest]
  rfl

end Instant

-- Seconds that lead from some reading to another place of the calendar are a span.
theorem spanOf?_seconds {seconds : Int}
    (hlow : Instant.firstSecond - Instant.lastReading ≤ seconds)
    (hhigh : seconds ≤ Instant.lastSecond) : spanOf? (seconds * 1000) = some (seconds * 1000) := by
  rw [Instant.firstSecond_eq, Instant.lastReading_eq] at hlow
  rw [Instant.lastSecond_eq] at hhigh
  refine if_pos ?_
  rw [Bool.and_eq_true, decide_eq_true_iff, decide_eq_true_iff]
  simp only [longestSpan, Width.signed64]
  omega

end DeclarationWatch.Time
