import DeclarationWatch.Net.Base64
import DeclarationWatch.Proofs.Text.Blank
import DeclarationWatch.Proofs.Text.Utf8

namespace DeclarationWatch.Net.Base64

open Text (Bytes)

section Alphabet

-- The alphabet, checked in one go.
theorem alphabet_cases : value? '=' = none ∧ alphabet.length = 64 ∧
    ∀ n ∈ List.range 64, value? (digit n) = some n ∧ Text.isBlank (digit n) = false := by
  decide +kernel

theorem value?_equals : value? '=' = none := alphabet_cases.1

theorem value?_digit {n : Nat} (h : n < 64) : value? (digit n) = some n :=
  (alphabet_cases.2.2 n (List.mem_range.mpr h)).1

-- A digit has one value only, and all values are below 64.
theorem digit_of_value? {c : Char} {n : Nat} (h : value? c = some n) : n < 64 ∧ digit n = c := by
  obtain ⟨hn, hc, -⟩ := List.findIdx?_eq_some_iff_getElem.mp h
  have hsmall : n < 64 := alphabet_cases.2.1 ▸ hn
  refine ⟨hsmall, ?_⟩
  rw [digit, Nat.mod_eq_of_lt hsmall, List.getElem?_eq_getElem hn]
  simpa using hc

theorem digit_congr {m n : Nat} (h : m % 64 = n % 64) : digit m = digit n := by
  rw [digit, digit, h]

theorem isBlank_digit (n : Nat) : Text.isBlank (digit n) = false := by
  have hdigit := alphabet_cases.2.2 (n % 64) (List.mem_range.mpr (Nat.mod_lt n (by decide)))
  rw [digit_congr (Nat.mod_mod n 64)] at hdigit
  exact hdigit.2

end Alphabet

theorem mem_encode {bytes : Bytes} {c : Char} (h : c ∈ encode bytes) :
    c = '=' ∨ ∃ n, c = digit n := by
  fun_induction encode bytes with grind

theorem isBlank_of_mem_encode {bytes : Bytes} {c : Char} (h : c ∈ encode bytes) :
    Text.isBlank c = false := by
  rcases mem_encode h with rfl | ⟨n, rfl⟩
  · decide
  · exact isBlank_digit n

section Decode

variable {x y z w : Nat} {a b c : UInt8}

-- Four digits of six bits are three bytes.
theorem group?_digit (hx : x < 64) (hy : y < 64) (hz : z < 64) (hw : w < 64)
    (ha : a.toNat = x * 4 + y / 16) (hb : b.toNat = y % 16 * 16 + z / 4)
    (hc : c.toNat = z % 4 * 64 + w) :
    group? (digit x) (digit y) (digit z) (digit w) = some [a, b, c] := by
  simp only [group?, value?_digit hx, value?_digit hy, value?_digit hz, value?_digit hw,
    Option.bind_eq_bind, Option.bind_some, ← Text.Utf8.eq_byte ha, ← Text.Utf8.eq_byte hb,
    ← Text.Utf8.eq_byte hc]

theorem group?_equals (p q r : Char) : group? p q r '=' = none := by
  simp [group?, value?_equals]

theorem lastGroup?_one (hx : x < 64) (hy : y < 64) (hrest : y % 16 = 0)
    (ha : a.toNat = x * 4 + y / 16) : lastGroup? [digit x, digit y, '=', '='] = some [a] := by
  simp [lastGroup?, value?_digit hx, value?_digit hy, hrest, ← Text.Utf8.eq_byte ha]

theorem lastGroup?_two (hx : x < 64) (hy : y < 64) (hz : z < 64) (hrest : z % 4 = 0)
    (ha : a.toNat = x * 4 + y / 16) (hb : b.toNat = y % 16 * 16 + z / 4) :
    lastGroup? [digit x, digit y, digit z, '='] = some [a, b] := by
  have hdigit : digit z ≠ '=' := by
    intro hequals
    have hvalue := value?_digit hz
    rw [hequals, value?_equals] at hvalue
    cases hvalue
  rw [lastGroup?]
  · simp [value?_digit hx, value?_digit hy, value?_digit hz, hrest, ← Text.Utf8.eq_byte ha,
      ← Text.Utf8.eq_byte hb]
  · exact hdigit

theorem decode?_encode (bytes : Bytes) : decode? (encode bytes) = some bytes := by
  fun_induction encode bytes with
  | case1 => rfl
  | case2 a =>
      have ha := a.toNat_lt
      rw [decode?, group?_equals]
      exact lastGroup?_one (by omega) (by omega) (by omega) (by omega)
  | case3 a b =>
      have ha := a.toNat_lt
      have hb := b.toNat_lt
      rw [decode?, group?_equals]
      exact lastGroup?_two (by omega) (by omega) (by omega) (by omega) (by omega) (by omega)
  | case4 a b c rest ih =>
      have ha := a.toNat_lt
      have hb := b.toNat_lt
      have hc := c.toNat_lt
      have hdigit : digit c.toNat = digit (c.toNat % 64) := digit_congr (by omega)
      rw [hdigit, List.cons_append, List.cons_append, List.cons_append, List.cons_append,
        List.nil_append, decode?, group?_digit (a := a) (b := b) (c := c) (by omega) (by omega)
          (by omega) (by omega) (by omega) (by omega) (by omega), ih]
      rfl

open Text.Utf8 (byte toNat_byte)

-- The digits of bytes that were put together from digits. A last digit carries no bits that belong
-- to no byte.
theorem encode_one (hx : x < 64) (hy : y < 64) (hrest : y % 16 = 0) :
    encode [byte (x * 4 + y / 16)] = [digit x, digit y, '=', '='] := by
  rw [encode, toNat_byte (by omega), digit_congr (n := x) (by omega),
    digit_congr (m := _ % 4 * 16) (n := y) (by omega)]

theorem encode_two (hx : x < 64) (hy : y < 64) (hz : z < 64) (hrest : z % 4 = 0) :
    encode [byte (x * 4 + y / 16), byte (y % 16 * 16 + z / 4)] =
      [digit x, digit y, digit z, '='] := by
  rw [encode, toNat_byte (by omega), toNat_byte (by omega), digit_congr (n := x) (by omega),
    digit_congr (m := _ % 4 * 16 + _) (n := y) (by omega),
    digit_congr (m := _ % 16 * 4) (n := z) (by omega)]

theorem encode_three (hx : x < 64) (hy : y < 64) (hz : z < 64) (hw : w < 64) (rest : Bytes) :
    encode (byte (x * 4 + y / 16) :: byte (y % 16 * 16 + z / 4) :: byte (z % 4 * 64 + w) :: rest) =
      [digit x, digit y, digit z, digit w] ++ encode rest := by
  rw [encode, toNat_byte (by omega), toNat_byte (by omega), toNat_byte (by omega),
    digit_congr (n := x) (by omega), digit_congr (m := _ % 4 * 16 + _) (n := y) (by omega),
    digit_congr (m := _ % 16 * 4 + _) (n := z) (by omega),
    digit_congr (m := z % 4 * 64 + w) (n := w) (by omega)]

-- A group that is read is the one that is written for its bytes.
theorem encode_append_of_group? {p q r s : Char} {bytes : Bytes}
    (h : group? p q r s = some bytes) (rest : Bytes) :
    encode (bytes ++ rest) = p :: q :: r :: s :: encode rest := by
  simp only [group?, Option.bind_eq_bind, Option.bind_eq_some_iff, Option.some_inj] at h
  obtain ⟨x, hx, y, hy, z, hz, w, hw, rfl⟩ := h
  obtain ⟨xlt, rfl⟩ := digit_of_value? hx
  obtain ⟨ylt, rfl⟩ := digit_of_value? hy
  obtain ⟨zlt, rfl⟩ := digit_of_value? hz
  obtain ⟨wlt, rfl⟩ := digit_of_value? hw
  exact encode_three xlt ylt zlt wlt rest

theorem eq_encode_of_lastGroup? {digits : List Char} {bytes : Bytes}
    (h : lastGroup? digits = some bytes) : digits = encode bytes := by
  unfold lastGroup? at h
  split at h
  · simp only [Option.bind_eq_bind, Option.bind_eq_some_iff, Option.ite_none_right_eq_some,
      Option.some_inj] at h
    obtain ⟨x, hx, y, hy, hrest, rfl⟩ := h
    obtain ⟨xlt, rfl⟩ := digit_of_value? hx
    obtain ⟨ylt, rfl⟩ := digit_of_value? hy
    exact (encode_one xlt ylt hrest).symm
  · simp only [Option.bind_eq_bind, Option.bind_eq_some_iff, Option.ite_none_right_eq_some,
      Option.some_inj] at h
    obtain ⟨x, hx, y, hy, z, hz, hrest, rfl⟩ := h
    obtain ⟨xlt, rfl⟩ := digit_of_value? hx
    obtain ⟨ylt, rfl⟩ := digit_of_value? hy
    obtain ⟨zlt, rfl⟩ := digit_of_value? hz
    exact (encode_two xlt ylt zlt hrest).symm
  · cases h

theorem eq_encode_of_decode? {digits : List Char} {bytes : Bytes}
    (h : decode? digits = some bytes) : digits = encode bytes := by
  fun_induction decode? digits generalizing bytes with
  | case1 =>
      cases h
      rfl
  | case2 p q r s rest group hgroup ih =>
      obtain ⟨more, hmore, rfl⟩ := Option.map_eq_some_iff.mp h
      rw [ih hmore, encode_append_of_group? hgroup]
  | case3 p q r s rest hgroup hlast =>
      rw [List.isEmpty_iff.mp hlast]
      exact eq_encode_of_lastGroup? h
  | case4 => cases h
  | case5 => cases h

-- What is read are the digits of some bytes, and nothing else.
theorem decode?_eq_some_iff {digits : List Char} {bytes : Bytes} :
    decode? digits = some bytes ↔ digits = encode bytes :=
  ⟨eq_encode_of_decode?, fun h => h ▸ decode?_encode bytes⟩

end Decode

end DeclarationWatch.Net.Base64
