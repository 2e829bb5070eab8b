import DeclarationWatch.Json.Reader
import DeclarationWatch.Proofs.Text.Utf8

namespace DeclarationWatch.Json

-- A character in UTF-16.
def unitsOf (c : Char) : List Nat :=
  if c.toNat < 0x10000 then [c.toNat]
  else [0xD800 + (c.toNat - 0x10000) / 0x400, 0xDC00 + (c.toNat - 0x10000) % 0x400]

-- The character of a leading and a trailing surrogate.
def pairedChar (leading trailing : Nat) : Char :=
  Char.ofNat (0x10000 + (leading - 0xD800) * 0x400 + (trailing - 0xDC00))

-- A unit that is a character of its own.
def isPlain (unit : Nat) : Bool := unit < 0xD800 || (0xE000 ≤ unit && unit < 0x10000)

-- The characters that units name. Half of a pair of surrogates names none.
def charsOf? : List Nat → Option (List Char)
  | [] => some []
  | unit :: units =>
      if isPlain unit then (charsOf? units).map (Char.ofNat unit :: ·)
      else
        match units with
        | [] => none
        | second :: units =>
            if isLeading unit && isTrailing second then
              (charsOf? units).map (pairedChar unit second :: ·)
            else none

variable {unit second : Nat} {units : List Nat}

theorem isPlain_iff : isPlain unit = true ↔ unit < 0xD800 ∨ (0xE000 ≤ unit ∧ unit < 0x10000) := by
  simp only [isPlain, Bool.or_eq_true, Bool.and_eq_true, decide_eq_true_iff]

theorem isLeading_iff : isLeading unit = true ↔ 0xD800 ≤ unit ∧ unit < 0xDC00 := by
  rw [isLeading, Bool.and_eq_true, decide_eq_true_iff, decide_eq_true_iff]

theorem isTrailing_iff : isTrailing unit = true ↔ 0xDC00 ≤ unit ∧ unit < 0xE000 := by
  rw [isTrailing, Bool.and_eq_true, decide_eq_true_iff, decide_eq_true_iff]

theorem not_isPlain_of_isLeading (h : isLeading unit = true) : isPlain unit = false := by
  have hunit := isLeading_iff.mp h
  rw [← Bool.not_eq_true, isPlain_iff]
  omega

theorem not_isTrailing_of_isLeading (h : isLeading unit = true) : isTrailing unit = false := by
  have hunit := isLeading_iff.mp h
  rw [← Bool.not_eq_true, isTrailing_iff]
  omega

theorem charsOf?_plain (h : isPlain unit = true) :
    charsOf? (unit :: units) = (charsOf? units).map (Char.ofNat unit :: ·) := by
  rw [charsOf?.eq_def]
  simp [h]

theorem charsOf?_paired (h : isLeading unit = true) (hsecond : isTrailing second = true) :
    charsOf? (unit :: second :: units) = (charsOf? units).map (pairedChar unit second :: ·) := by
  rw [charsOf?.eq_def]
  simp [not_isPlain_of_isLeading h, h, hsecond]

theorem charsOf?_eq_none (hplain : isPlain unit = false)
    (hnext : isLeading unit = true → ∀ second ∈ units.head?, isTrailing second = false) :
    charsOf? (unit :: units) = none := by
  rw [charsOf?.eq_def]
  cases units with
  | nil => simp [hplain]
  | cons second units =>
      have hnot : ¬(isLeading unit = true ∧ isTrailing second = true) := fun ⟨h, htrailing⟩ => by
        rw [hnext h second rfl] at htrailing
        cases htrailing
      simp [hplain, hnot]

theorem charsOf?_unitsOf (c : Char) (units : List Nat) :
    charsOf? (unitsOf c ++ units) = (charsOf? units).map (c :: ·) := by
  have hcases := Text.toNat_cases c
  unfold unitsOf
  split
  · rename_i hsmall
    have hplain : isPlain c.toNat = true := isPlain_iff.mpr (by omega)
    rw [List.singleton_append, charsOf?_plain hplain, Char.ofNat_toNat]
  · have hcode : 0x10000 + (0xD800 + (c.toNat - 0x10000) / 0x400 - 0xD800) * 0x400 +
        (0xDC00 + (c.toNat - 0x10000) % 0x400 - 0xDC00) = c.toNat := by omega
    have hleading : isLeading (0xD800 + (c.toNat - 0x10000) / 0x400) = true :=
      isLeading_iff.mpr (by omega)
    have htrailing : isTrailing (0xDC00 + (c.toNat - 0x10000) % 0x400) = true :=
      isTrailing_iff.mpr (by omega)
    rw [List.cons_append, List.singleton_append, charsOf?_paired hleading htrailing, pairedChar,
      hcode, Char.ofNat_toNat]

theorem not_isTrailing_head_unitsOf (c : Char) (units : List Nat) :
    ∀ unit ∈ (unitsOf c ++ units).head?, isTrailing unit = false := by
  have hcases := Text.toNat_cases c
  intro unit hunit
  rw [← Bool.not_eq_true, isTrailing_iff]
  unfold unitsOf at hunit
  split at hunit
  · cases hunit
    omega
  · cases hunit
    omega

theorem unitsOf_ofNat (h : isPlain unit = true) : unitsOf (Char.ofNat unit) = [unit] := by
  have hunit := isPlain_iff.mp h
  rw [unitsOf, Text.toNat_ofNat (by omega), if_pos (by omega)]

theorem unitsOf_pairedChar (h : isLeading unit = true) (hsecond : isTrailing second = true) :
    unitsOf (pairedChar unit second) = [unit, second] := by
  have hunit := isLeading_iff.mp h
  have hrange := isTrailing_iff.mp hsecond
  rw [unitsOf, pairedChar, Text.toNat_ofNat (by omega), if_neg (by omega)]
  simp only [List.cons.injEq, and_true]
  omega

-- Different units name different texts.
theorem flatMap_unitsOf_of_charsOf? : ∀ {units : List Nat} {text : List Char},
    charsOf? units = some text → text.flatMap unitsOf = units
  | [], text, h => by
      cases h
      rfl
  | unit :: units, text, h => by
      cases hplain : isPlain unit with
      | true =>
          rw [charsOf?_plain hplain] at h
          obtain ⟨rest, hrest, rfl⟩ := Option.map_eq_some_iff.mp h
          rw [List.flatMap_cons, unitsOf_ofNat hplain, flatMap_unitsOf_of_charsOf? hrest]
          rfl
      | false =>
          cases units with
          | nil => simp [charsOf?, hplain] at h
          | cons second units =>
              rw [charsOf?] at h
              simp only [hplain, Bool.false_eq_true, if_false] at h
              split at h
              · rename_i hpair
                rw [Bool.and_eq_true] at hpair
                obtain ⟨rest, hrest, rfl⟩ := Option.map_eq_some_iff.mp h
                rw [List.flatMap_cons, unitsOf_pairedChar hpair.1 hpair.2,
                  flatMap_unitsOf_of_charsOf? hrest]
                rfl
              · cases h

end DeclarationWatch.Json
