import DeclarationWatch.Time.Instant

namespace DeclarationWatch.Time.Instant

variable {a b c : Instant}

theorem before_iff : a.before b = true ↔
    a.seconds < b.seconds ∨ a.seconds = b.seconds ∧ a.nanos < b.nanos := by
  simp [before]

theorem before_irrefl (a : Instant) : a.before a = false := by
  simp [before]

theorem ne_of_before (h : a.before b = true) : a ≠ b := by
  rintro rfl
  rw [before_irrefl] at h
  cases h

theorem before_trans (hab : a.before b = true) (hbc : b.before c = true) : a.before c = true := by
  rw [before_iff] at *
  omega

theorem before_asymm (h : a.before b = true) : b.before a = false := by
  rw [← Bool.not_eq_true, before_iff]
  rw [before_iff] at h
  omega

theorem before_trichotomy (a b : Instant) : a.before b = true ∨ a = b ∨ b.before a = true := by
  obtain ⟨s, n⟩ := a
  obtain ⟨t, m⟩ := b
  simp only [before_iff, mk.injEq]
  omega

theorem notAfter_iff : a.notAfter b = true ↔ b.before a = false := by
  simp [notAfter]

theorem notAfter_trans (hab : a.notAfter b = true) (hbc : b.notAfter c = true) :
    a.notAfter c = true := by
  rw [notAfter_iff, ← Bool.not_eq_true, before_iff] at *
  omega

theorem before_of_notAfter_of_before (hab : a.notAfter b = true) (hbc : b.before c = true) :
    a.before c = true := by
  rw [notAfter_iff, ← Bool.not_eq_true] at hab
  rw [before_iff] at *
  omega

end DeclarationWatch.Time.Instant
