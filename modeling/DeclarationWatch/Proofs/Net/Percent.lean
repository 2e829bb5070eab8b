import DeclarationWatch.Net.Percent
import DeclarationWatch.Proofs.Text.Utf8

namespace DeclarationWatch.Net.Percent

open Text (Bytes)

theorem hexValue?_upperHexDigit : ∀ n < 16, hexValue? (upperHexDigit n) = some n := by decide

theorem escaped?_byte (b : UInt8) :
    escaped? (upperHexDigit (b.toNat / 16)) (upperHexDigit (b.toNat % 16)) = some b := by
  have hbyte : b.toNat < 256 := b.toNat_lt
  have hbits : b.toNat / 16 * 16 + b.toNat % 16 = b.toNat := by omega
  simp only [escaped?, hexValue?_upperHexDigit _ (show b.toNat / 16 < 16 by omega),
    hexValue?_upperHexDigit _ (show b.toNat % 16 < 16 by omega), Option.bind_eq_bind,
    Option.bind_some, hbits, Text.Utf8.byte, UInt8.ofNat_toNat]

theorem escaped?_eq_none {p q : Char} (h : hexValue? p = none ∨ hexValue? q = none) :
    escaped? p q = none := by
  rcases h with hp | hq
  · simp [escaped?, hp]
  · cases hp : hexValue? p <;> simp [escaped?, hp, hq]

-- What follows a percent sign makes it an escape.
def completesEscape : List Char → Bool
  | p :: q :: _ => (escaped? p q).isSome
  | _ => false

def hasEscape : List Char → Bool
  | [] => false
  | c :: rest => (c == '%' && completesEscape rest) || hasEscape rest

theorem completesEscape_eq_false {p : Char} (h : hexValue? p = none) (rest : List Char) :
    completesEscape (p :: rest) = false := by
  cases rest with
  | nil => rfl
  | cons q rest => simp [completesEscape, escaped?_eq_none (Or.inl h)]

theorem exists_of_completesEscape {s : List Char} (h : completesEscape s = true) :
    ∃ p q rest b, s = p :: q :: rest ∧ escaped? p q = some b := by
  match s with
  | [] => cases h
  | [p] => cases h
  | p :: q :: rest =>
      obtain ⟨b, hb⟩ := Option.isSome_iff_exists.mp h
      exact ⟨p, q, rest, b, rfl, hb⟩

theorem decode_cons {c : Char} (h : c ≠ '%') (rest : List Char) :
    decode (c :: rest) = Text.Utf8.encodeChar c ++ decode rest := by
  rw [decode]
  rintro p q more rfl
  exact absurd rfl h

theorem decode_escape {p q : Char} {b : UInt8} (h : escaped? p q = some b) (rest : List Char) :
    decode ('%' :: p :: q :: rest) = b :: decode rest := by
  rw [decode, h]

theorem decode_percent {rest : List Char} (h : completesEscape rest = false) :
    decode ('%' :: rest) = Text.Utf8.encodeChar '%' ++ decode rest := by
  match rest with
  | [] => rfl
  | [p] => rfl
  | p :: q :: after =>
      have hnone : escaped? p q = none := by simpa [completesEscape] using h
      rw [decode, hnone]

theorem decode_escapes (bytes : Bytes) (rest : List Char) :
    decode (bytes.flatMap escapeByte ++ rest) = bytes ++ decode rest := by
  induction bytes with
  | nil => rfl
  | cons b bytes ih =>
      rw [List.flatMap_cons, escapeByte, List.append_assoc, List.cons_append, List.cons_append,
        List.cons_append, List.nil_append, decode_escape (escaped?_byte b), ih, List.cons_append]

-- A text with all its bytes escaped says what it did before.
theorem decode_encode_all (s : List Char) :
    decode (encode (fun _ => true) s) = Text.Utf8.encode s := by
  have hbytes : encode (fun _ => true) s = (Text.Utf8.encode s).flatMap escapeByte := by
    simp [encode, Text.Utf8.encode, List.flatMap_assoc]
  have hdecoded := decode_escapes (Text.Utf8.encode s) []
  rwa [List.append_nil, ← hbytes, decode, List.append_nil] at hdecoded

section Sets

variable {set : Char → Bool} {c : Char}

theorem encode_cons_of_pos (h : set c = true) (s : List Char) :
    encode set (c :: s) = (Text.Utf8.encodeChar c).flatMap escapeByte ++ encode set s := by
  simp [encode, h]

theorem encode_cons_of_neg (h : set c = false) (s : List Char) :
    encode set (c :: s) = c :: encode set s := by
  simp [encode, h]

theorem exists_encode_of_pos (h : set c = true) (s : List Char) :
    ∃ rest, encode set (c :: s) = '%' :: rest := by
  obtain ⟨b, bytes, hbytes⟩ := List.exists_cons_of_ne_nil (Text.Utf8.encodeChar_ne_nil c)
  rw [encode_cons_of_pos h, hbytes]
  exact ⟨_, rfl⟩

-- The digits of an escape are left alone.
variable (hset : ∀ c, set c = true → hexValue? c = none)

include hset

-- No escape comes in where none was, and none goes.
theorem completesEscape_encode (s : List Char) :
    completesEscape (encode set s) = completesEscape s := by
  match s with
  | [] => rfl
  | p :: s =>
      cases hp : set p with
      | true =>
          obtain ⟨rest, hrest⟩ := exists_encode_of_pos hp s
          rw [hrest, completesEscape_eq_false rfl, completesEscape_eq_false (hset p hp)]
      | false =>
          rw [encode_cons_of_neg hp]
          match s with
          | [] => rfl
          | q :: s =>
              cases hq : set q with
              | true =>
                  obtain ⟨rest, hrest⟩ := exists_encode_of_pos hq s
                  rw [hrest, completesEscape, completesEscape, escaped?_eq_none (Or.inr rfl),
                    escaped?_eq_none (Or.inr (hset q hq))]
              | false => rw [encode_cons_of_neg hq, completesEscape, completesEscape]

theorem decode_encode_cons {s : List Char} (h : ¬(c = '%' ∧ completesEscape s = true)) :
    decode (encode set (c :: s)) = Text.Utf8.encodeChar c ++ decode (encode set s) := by
  cases hc : set c with
  | true => rw [encode_cons_of_pos hc, decode_escapes]
  | false =>
      rw [encode_cons_of_neg hc]
      by_cases hpercent : c = '%'
      · subst hpercent
        refine decode_percent ?_
        rw [completesEscape_encode hset]
        simpa using h
      · exact decode_cons hpercent _

-- A text without escapes is read back as it was.
theorem decode_encode {s : List Char} (h : hasEscape s = false) :
    decode (encode set s) = Text.Utf8.encode s := by
  induction s with
  | nil => rfl
  | cons c s ih =>
      simp only [hasEscape, Bool.or_eq_false_iff, Bool.and_eq_false_imp, beq_iff_eq] at h
      rw [Text.Utf8.encode_cons, ← ih h.2]
      refine decode_encode_cons hset ?_
      rintro ⟨hpercent, hcompletes⟩
      rw [h.1 hpercent] at hcompletes
      cases hcompletes

theorem decode_encode_of_escape {p q : Char} {b : UInt8} (hpercent : set '%' = false)
    (h : escaped? p q = some b) (s : List Char) :
    decode (encode set ('%' :: p :: q :: s)) = b :: decode (encode set s) := by
  have hp : set p = false := Bool.eq_false_iff.mpr fun hin => by
    rw [escaped?_eq_none (Or.inl (hset p hin))] at h
    cases h
  have hq : set q = false := Bool.eq_false_iff.mpr fun hin => by
    rw [escaped?_eq_none (Or.inr (hset q hin))] at h
    cases h
  rw [encode_cons_of_neg hpercent, encode_cons_of_neg hp, encode_cons_of_neg hq, decode_escape h]

-- An escape stands for less than its characters do.
theorem length_decode_encode (hpercent : set '%' = false) (s : List Char) :
    (decode (encode set s)).length + (hasEscape s).toNat ≤ (Text.Utf8.encode s).length := by
  match s with
  | [] => exact Nat.le_refl _
  | c :: rest =>
      by_cases hescape : c = '%' ∧ completesEscape rest = true
      · obtain ⟨rfl, hcompletes⟩ := hescape
        obtain ⟨p, q, after, b, rfl, hb⟩ := exists_of_completesEscape hcompletes
        have hafter := length_decode_encode hpercent after
        have hfirst := Text.Utf8.length_encodeChar_pos '%'
        have hp := Text.Utf8.length_encodeChar_pos p
        have hq := Text.Utf8.length_encodeChar_pos q
        have hbit := Bool.toNat_le (hasEscape ('%' :: p :: q :: after))
        rw [decode_encode_of_escape hset hpercent hb]
        simp only [Text.Utf8.encode_cons, List.length_append, List.length_cons]
        omega
      · have hrest := length_decode_encode hpercent rest
        have hsame : hasEscape (c :: rest) = hasEscape rest := by
          have hnone : (c == '%' && completesEscape rest) = false := by
            simpa [Bool.and_eq_false_imp] using hescape
          rw [hasEscape, hnone, Bool.false_or]
        rw [hsame, decode_encode_cons hset hescape, Text.Utf8.encode_cons, List.length_append,
          List.length_append]
        omega

end Sets

-- The characters of an escape.
def isEscapeChar (c : Char) : Bool := c == '%' || (hexValue? c).isSome

theorem isEscapeChar_of_mem_escapeByte {b : UInt8} {c : Char} (h : c ∈ escapeByte b) :
    isEscapeChar c = true := by
  have hbyte : b.toNat < 256 := b.toNat_lt
  simp only [escapeByte, List.mem_cons, List.not_mem_nil, or_false] at h
  rcases h with rfl | rfl | rfl
  · rfl
  · simp [isEscapeChar, hexValue?_upperHexDigit _ (show b.toNat / 16 < 16 by omega)]
  · simp [isEscapeChar, hexValue?_upperHexDigit _ (show b.toNat % 16 < 16 by omega)]

theorem mem_of_mem_encode {set : Char → Bool} {s : List Char} {c : Char}
    (h : c ∈ encode set s) : c ∈ s ∧ set c = false ∨ isEscapeChar c = true := by
  obtain ⟨given, hgiven, hmem⟩ := List.mem_flatMap.mp h
  cases hset : set given with
  | true =>
      simp only [hset, if_true, List.mem_flatMap] at hmem
      obtain ⟨b, -, hescape⟩ := hmem
      exact Or.inr (isEscapeChar_of_mem_escapeByte hescape)
  | false =>
      simp only [hset, Bool.false_eq_true, if_false, List.mem_singleton] at hmem
      subst hmem
      exact Or.inl ⟨hgiven, hset⟩

section Paths

theorem hexValue?_eq_none {c : Char} (h : c.toNat < 0x30 ∨ 0x39 < c.toNat ∧ c.toNat < 0x41 ∨
    0x46 < c.toNat ∧ c.toNat < 0x61 ∨ 0x66 < c.toNat) : hexValue? c = none := by
  have hle : ∀ a b : Char, a ≤ b ↔ a.toNat ≤ b.toNat := fun _ _ => Iff.rfl
  have hnumbers : '0'.toNat = 0x30 ∧ '9'.toNat = 0x39 ∧ 'a'.toNat = 0x61 ∧ 'f'.toNat = 0x66 ∧
      'A'.toNat = 0x41 ∧ 'F'.toNat = 0x46 := by decide
  simp only [hexValue?, Bool.and_eq_true, decide_eq_true_eq, hle]
  rw [if_neg (by omega), if_neg (by omega), if_neg (by omega)]

theorem hexValue?_of_inPath {c : Char} (h : inPath c = true) : hexValue? c = none := by
  simp only [inPath, inQuery, isControlOrForeign, Bool.or_eq_true, decide_eq_true_eq,
    beq_iff_eq] at h
  rcases h with (((((((((hcontrol | hforeign) | rfl) | rfl) | rfl) | rfl) | rfl) | rfl) | rfl) |
    rfl) | rfl
  · exact hexValue?_eq_none (by omega)
  · exact hexValue?_eq_none (by omega)
  all_goals rfl

theorem ne_of_mem_encode_inPath {s : List Char} {c : Char} (h : c ∈ encode inPath s) :
    c ≠ '?' ∧ c ≠ '#' ∧ (c = '/' → '/' ∈ s) := by
  refine ⟨?_, ?_, ?_⟩
  all_goals
    rintro rfl
    rcases mem_of_mem_encode h with ⟨hmem, hset⟩ | hescape
  · cases hset
  · cases hescape
  · cases hset
  · cases hescape
  · exact hmem
  · cases hescape

end Paths

end DeclarationWatch.Net.Percent
