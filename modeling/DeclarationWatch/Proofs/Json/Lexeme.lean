import DeclarationWatch.Json.Printer
import DeclarationWatch.Json.Reader

namespace DeclarationWatch.Json

section Strings

theorem hexValue?_hexDigit : ∀ n < 16, hexValue? (Text.hexDigit n) = some n := by decide

theorem letterEscape?_escapeLetter? {c letter : Char} (h : escapeLetter? c = some letter) :
    letter ≠ 'u' ∧ letterEscape? letter = some c := by
  unfold escapeLetter? at h
  split at h
  · rename_i hc; subst hc; cases h; decide
  split at h
  · rename_i hc; subst hc; cases h; decide
  split at h
  · rename_i hc; subst hc; cases h; decide
  split at h
  · rename_i hc; subst hc; cases h; decide
  split at h
  · rename_i hc; subst hc; cases h; decide
  · cases h

end Strings

section Numbers

theorem isDigit_iff (c : Char) : isDigit c = true ↔ c.isDigit = true := by
  simp [isDigit, Char.isDigit, Char.le_def]

-- What may stand behind a value.
def Ends (rest : List Char) : Prop :=
  ∀ c ∈ rest.head?, isSpace c = true ∨ c = ',' ∨ c = ']' ∨ c = '\x7d'

theorem Ends.head {c : Char} {rest : List Char} (h : Ends (c :: rest)) :
    isDigit c = false ∧ c ≠ '.' ∧ c ≠ 'e' ∧ c ≠ 'E' := by
  rcases h c rfl with hspace | rfl | rfl | rfl
  · simp only [isSpace, Bool.or_eq_true, decide_eq_true_eq] at hspace
    rcases hspace with ((rfl | rfl) | rfl) | rfl <;> decide
  · decide
  · decide
  · decide

theorem Ends.notDigit {rest : List Char} (h : Ends rest) :
    ∀ c ∈ rest.head?, isDigit c = false := by
  cases rest with
  | nil => simp
  | cons c rest => simpa using h.head.1

theorem readDigits_append {digits rest : List Char} (hne : digits ≠ [])
    (hdigits : ∀ c ∈ digits, isDigit c = true) (hrest : ∀ c ∈ rest.head?, isDigit c = false) :
    readDigits (digits ++ rest) = .ok (digits, rest) := by
  have htake : rest.takeWhile isDigit = [] ∧ rest.dropWhile isDigit = rest := by
    cases rest with
    | nil => exact ⟨rfl, rfl⟩
    | cons c rest => simp [hrest c rfl]
  have hwhole : (digits ++ rest).takeWhile isDigit = digits := by
    rw [List.takeWhile_append_of_pos hdigits, htake.1, List.append_nil]
  unfold readDigits
  rw [hwhole, List.dropWhile_append_of_pos hdigits, htake.2]
  cases digits with
  | nil => exact absurd rfl hne
  | cons c digits => rfl

theorem readFraction_of_head? {rest : List Char} (h : ∀ c ∈ rest.head?, c ≠ '.') :
    readFraction rest = .ok (none, rest) := by
  unfold readFraction
  split
  · exact absurd rfl (h '.' rfl)
  · rfl

theorem readExponent_of_ends {rest : List Char} (h : Ends rest) :
    readExponent rest = .ok (none, rest) := by
  cases rest with
  | nil => rfl
  | cons c rest => simp [readExponent, h.head]

theorem isDigit_of_mem_toDigits {n : Nat} {c : Char} (h : c ∈ Nat.toDigits 10 n) :
    isDigit c = true :=
  (isDigit_iff c).mpr (Nat.isDigit_of_mem_toDigits (by decide) (by decide) h)

-- Only zero itself starts with a zero.
theorem head?_toDigits_ne {n : Nat} (h : 0 < n) : (Nat.toDigits 10 n).head? ≠ some '0' := by
  induction n using Nat.strongRecOn with
  | ind n ih =>
      by_cases hlt : n < 10
      · rw [Nat.toDigits_of_lt_base hlt]
        simp [Nat.ne_of_gt h]
      · have hdiv : 0 < n / 10 := by omega
        have hhead := ih (n / 10) (by omega) hdiv
        rw [Nat.toDigits_of_base_le (by decide) (by omega), List.head?_append]
        cases hdigits : Nat.toDigits 10 (n / 10) with
        | nil => exact absurd hdigits Nat.toDigits_ne_nil
        | cons c digits => simpa [hdigits] using hhead

theorem naturalOf_toDigits (n : Nat) : naturalOf (Nat.toDigits 10 n) = n := by
  have hfold : naturalOf (Nat.toDigits 10 n) = Nat.ofDigitChars 10 (Nat.toDigits 10 n) 0 := by
    rw [Nat.ofDigitChars_eq_foldl, naturalOf]
    congr 1
    funext total c
    rw [Nat.mul_comm]
    rfl
  rw [hfold, Nat.ofDigitChars_ten_toDigits]

-- The numeral that an integer is written as.
def numeralOf (n : Int) : Numeral := ⟨n < 0, Nat.toDigits 10 n.natAbs, none, none⟩

-- The integers that keep their kind when they are written and read.
def InRange (n : Int) : Prop := -Width.signed64 ≤ n ∧ n < (Width.words64 : Int)

theorem value_numeralOf {n : Int} (h : InRange n) : (numeralOf n).value = .ok (.integer n) := by
  obtain ⟨hlow, hhigh⟩ := h
  have hwhole := naturalOf_toDigits n.natAbs
  unfold Numeral.value numeralOf
  by_cases hneg : n < 0
  · have hzero : n.natAbs ≠ 0 := by omega
    have hfits : ¬Width.signed64 < (n.natAbs : Int) := by omega
    have hn : -(n.natAbs : Int) = n := by omega
    simp only [hneg, decide_true, if_true, hwhole, hzero, hfits, decide_false, Bool.or_false, hn,
      Bool.false_eq_true, if_false]
  · have hlt : n.natAbs < Width.words64 := by omega
    have hn : (n.natAbs : Int) = n := by omega
    simp [hneg, hwhole, hlt, hn]

-- Spelled like an integer and kept as a float, since no integer has this sign.
def minusZero : Float := -0.0

theorem render_minusZero : (Number.real minusZero).render = ['-', '0', '.', '0'] := by decide

-- The numbers that keep their kind and their value when they are written and read.
def Number.Exact : Number → Prop
  | .integer n => InRange n
  | .real x => x = minusZero

instance : (n : Number) → Decidable n.Exact
  | .integer n => inferInstanceAs (Decidable (-Width.signed64 ≤ n ∧ n < (Width.words64 : Int)))
  | .real x => inferInstanceAs (Decidable (x = minusZero))

-- The numeral that a number is written as.
def Number.numeral : Number → Numeral
  | .integer n => numeralOf n
  | .real _ => ⟨true, ['0'], some ['0'], none⟩

theorem Number.Exact.value_numeral {n : Number} (h : n.Exact) : n.numeral.value = .ok n := by
  cases n with
  | integer n => exact value_numeralOf h
  | real x =>
      obtain rfl : x = minusZero := h
      rfl

end Numbers

end DeclarationWatch.Json
