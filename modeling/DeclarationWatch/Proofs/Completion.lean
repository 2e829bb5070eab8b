import DeclarationWatch.Completion
import Mathlib.Data.List.Forall2

namespace DeclarationWatch.Completion

-- The same character, or the capital and the small letter of one place in the alphabet of ASCII.
def SameLetter (c d : Char) : Prop :=
  c = d ∨ ∃ place < 26, c.toNat = 65 + place ∧ d.toNat = 97 + place ∨
    c.toNat = 97 + place ∧ d.toNat = 65 + place

-- The texts differ at most in the case of letters of ASCII.
def SameButCase (a b : String) : Prop := List.Forall₂ SameLetter a.toList b.toList

theorem toNat_toLower (c : Char) :
    c.toLower.toNat = if 65 ≤ c.toNat ∧ c.toNat ≤ 90 then c.toNat + 32 else c.toNat := by
  have hcapital : (c.val ≥ 'A'.val ∧ c.val ≤ 'Z'.val) ↔ 65 ≤ c.toNat ∧ c.toNat ≤ 90 := by
    simp only [ge_iff_le, UInt32.le_iff_toNat_le]
    rfl
  unfold Char.toLower
  by_cases h : 65 ≤ c.toNat ∧ c.toNat ≤ 90
  · rw [if_pos h, dif_pos (hcapital.mpr h)]
    have hsmall : c.val.toNat ≤ 90 := h.2
    have hsum : (c.val + 32).toNat = c.val.toNat + 32 := by
      rw [UInt32.toNat_add]
      exact Nat.mod_eq_of_lt (by simp; omega)
    exact hsum
  · rw [if_neg h, dif_neg (mt hcapital.mp h)]

theorem toLower_eq_toLower_iff {c d : Char} : c.toLower = d.toLower ↔ SameLetter c d := by
  rw [SameLetter, ← Char.toNat_inj, ← Char.toNat_inj, toNat_toLower, toNat_toLower]
  constructor
  · intro h
    by_cases hc : 65 ≤ c.toNat ∧ c.toNat ≤ 90
    · by_cases hd : 65 ≤ d.toNat ∧ d.toNat ≤ 90
      · rw [if_pos hc, if_pos hd] at h
        exact Or.inl (by omega)
      · rw [if_pos hc, if_neg hd] at h
        exact Or.inr ⟨c.toNat - 65, by omega, by omega⟩
    · by_cases hd : 65 ≤ d.toNat ∧ d.toNat ≤ 90
      · rw [if_neg hc, if_pos hd] at h
        exact Or.inr ⟨d.toNat - 65, by omega, by omega⟩
      · rw [if_neg hc, if_neg hd] at h
        exact Or.inl h
  · rintro (hsame | ⟨place, hplace, ⟨hc, hd⟩ | ⟨hc, hd⟩⟩)
    · rw [hsame]
    · rw [if_pos (by omega), if_neg (by omega)]
      omega
    · rw [if_neg (by omega), if_pos (by omega)]
      omega

theorem sameState_iff {a b : String} : sameState a b = true ↔ SameButCase a b := by
  rw [sameState, beq_iff_eq, SameButCase, ← List.forall₂_eq_eq_eq, List.forall₂_map_left_iff,
    List.forall₂_map_right_iff]
  simp only [toLower_eq_toLower_iff]

instance (a b : String) : Decidable (SameButCase a b) := decidable_of_iff _ sameState_iff

end DeclarationWatch.Completion
