import DeclarationWatch.Text.Utf8
import Mathlib.Tactic.SplitIfs

namespace DeclarationWatch.Text

-- Characters have the numbers that no surrogate has.
theorem toNat_cases (c : Char) : c.toNat < 0xD800 ∨ 0xDFFF < c.toNat ∧ c.toNat < 0x110000 := c.valid

theorem toNat_ofNat {n : Nat} (hvalid : n < 0xD800 ∨ 0xDFFF < n ∧ n < 0x110000) :
    (Char.ofNat n).toNat = n := by
  unfold Char.ofNat
  rw [dif_pos hvalid]
  rfl

namespace Utf8

theorem toNat_byte {n : Nat} (h : n < 256) : (byte n).toNat = n := by
  simp [byte, Nat.mod_eq_of_lt h]

theorem toNat_tail (bits : Nat) : (tail bits).toNat = 0x80 + bits % 64 := by
  have hbits : bits % 64 < 64 := Nat.mod_lt _ (by decide)
  exact toNat_byte (by omega)

theorem encodeChar_ne_nil (c : Char) : encodeChar c ≠ [] := by
  simp only [encodeChar]
  split
  · nofun
  · split
    · nofun
    · split <;> nofun

theorem length_encodeChar_pos (c : Char) : 0 < (encodeChar c).length :=
  List.length_pos_iff.mpr (encodeChar_ne_nil c)

theorem encode_cons (c : Char) (s : List Char) : encode (c :: s) = encodeChar c ++ encode s := rfl

-- What is left out of a text is missing from its bytes.
theorem eq_or_length_encode_lt {s t : List Char} (h : s.Sublist t) :
    s = t ∨ (encode s).length < (encode t).length := by
  induction h with
  | slnil => exact Or.inl rfl
  | cons c _ ih =>
      refine Or.inr ?_
      have hc := length_encodeChar_pos c
      rw [encode_cons, List.length_append]
      rcases ih with rfl | hless <;> omega
  | cons_cons c _ ih =>
      rcases ih with rfl | hless
      · exact Or.inl rfl
      · refine Or.inr ?_
        rw [encode_cons, encode_cons, List.length_append, List.length_append]
        omega

-- What is left to read of a character after a byte that belongs to it.
theorem scan_of_within {pending : Pending} {b : UInt8} {rest : Bytes}
    (hlow : pending.low ≤ b.toNat) (hhigh : b.toNat ≤ pending.high) (howed : 1 < pending.owed) :
    scan (some pending) (b :: rest) =
      scan (some ⟨pending.bits * 64 + b.toNat % 64, pending.owed - 1, 0x80, 0xBF⟩) rest := by
  have hmore : pending.owed - 1 ≠ 0 := by omega
  simp [scan, step, settle, hlow, hhigh, hmore]

-- The last byte of a character.
theorem scan_of_last {pending : Pending} {b : UInt8} {rest : Bytes}
    (hlow : pending.low ≤ b.toNat) (hhigh : b.toNat ≤ pending.high) (howed : pending.owed = 1) :
    scan (some pending) (b :: rest) =
      some (Char.ofNat (pending.bits * 64 + b.toNat % 64)) :: scan none rest := by
  simp [scan, step, settle, hlow, hhigh, howed]

theorem scan_of_lead {pending : Pending} {b : UInt8} {rest : Bytes}
    (hlead : lead? b.toNat = some pending) (howed : pending.owed ≠ 0) :
    scan none (b :: rest) = scan (some pending) rest := by
  simp [scan, step, first, hlead, settle, howed]

section Lead

variable {n : Nat}

theorem lead?_one (h : n < 0x80) : lead? (byte n).toNat = some ⟨n, 0, 0x80, 0xBF⟩ := by
  rw [toNat_byte (by omega), lead?, if_pos h]

theorem lead?_two (hlow : 0x80 ≤ n) (h : n < 0x800) :
    lead? (byte (0xC0 + n / 64)).toNat = some ⟨n / 64, 1, 0x80, 0xBF⟩ := by
  rw [toNat_byte (by omega), lead?, if_neg (by omega), if_neg (by omega), if_pos (by omega),
    Nat.add_sub_cancel_left]

-- The bounds of the second byte depend on the first one.
theorem lead?_three (hlow : 0x800 ≤ n) (h : n < 0x10000) (hvalid : n < 0xD800 ∨ 0xDFFF < n) :
    ∃ low high, lead? (byte (0xE0 + n / 4096)).toNat = some ⟨n / 4096, 2, low, high⟩ ∧
      low ≤ 0x80 + n / 64 % 64 ∧ 0x80 + n / 64 % 64 ≤ high := by
  rw [toNat_byte (by omega), lead?, if_neg (by omega), if_neg (by omega), if_neg (by omega)]
  by_cases hfirst : n / 4096 = 0
  · rw [if_pos (by omega), hfirst]
    exact ⟨0xA0, 0xBF, rfl, by omega, by omega⟩
  · rw [if_neg (by omega)]
    by_cases hsurrogate : n / 4096 = 13
    · rw [if_pos (by omega), hsurrogate]
      exact ⟨0x80, 0x9F, rfl, by omega, by omega⟩
    · rw [if_neg (by omega), if_pos (by omega), Nat.add_sub_cancel_left]
      exact ⟨0x80, 0xBF, rfl, by omega, by omega⟩

theorem lead?_four (hlow : 0x10000 ≤ n) (h : n < 0x110000) :
    ∃ low high, lead? (byte (0xF0 + n / 262144)).toNat = some ⟨n / 262144, 3, low, high⟩ ∧
      low ≤ 0x80 + n / 4096 % 64 ∧ 0x80 + n / 4096 % 64 ≤ high := by
  rw [toNat_byte (by omega), lead?, if_neg (by omega), if_neg (by omega), if_neg (by omega),
    if_neg (by omega), if_neg (by omega), if_neg (by omega)]
  by_cases hfirst : n / 262144 = 0
  · rw [if_pos (by omega), hfirst]
    exact ⟨0x90, 0xBF, rfl, by omega, by omega⟩
  · rw [if_neg (by omega)]
    by_cases hmiddle : n / 262144 < 4
    · rw [if_pos (by omega), Nat.add_sub_cancel_left]
      exact ⟨0x80, 0xBF, rfl, by omega, by omega⟩
    · have hlast : n / 262144 = 4 := by omega
      rw [if_neg (by omega), if_pos (by omega), hlast]
      exact ⟨0x80, 0x8F, rfl, by omega, by omega⟩

end Lead

-- A character is read back before anything after it is looked at.
theorem scan_encodeChar (c : Char) (rest : Bytes) :
    scan none (encodeChar c ++ rest) = some c :: scan none rest := by
  have hvalid := toNat_cases c
  have hback : Char.ofNat c.toNat = c := Char.ofNat_toNat c
  simp only [encodeChar]
  split
  · rename_i hone
    simp [scan, step, first, lead?_one hone, settle, hback]
  split
  · rename_i hone htwo
    have hbits : c.toNat / 64 * 64 + (tail c.toNat).toNat % 64 = c.toNat := by
      rw [toNat_tail]
      omega
    rw [List.cons_append, scan_of_lead (lead?_two (by omega) htwo) (by simp), List.singleton_append,
      scan_of_last (by simp [toNat_tail]) (by simp [toNat_tail]; omega) rfl, hbits, hback]
  split
  · rename_i hone htwo hthree
    obtain ⟨low, high, hlead, hlow, hhigh⟩ := lead?_three (by omega) hthree (by omega)
    have hbits : (c.toNat / 4096 * 64 + (tail (c.toNat / 64)).toNat % 64) * 64 +
        (tail c.toNat).toNat % 64 = c.toNat := by
      rw [toNat_tail, toNat_tail]
      omega
    rw [List.cons_append, scan_of_lead hlead (by simp), List.cons_append,
      scan_of_within (by rwa [toNat_tail]) (by rwa [toNat_tail]) (by simp),
      List.singleton_append,
      scan_of_last (by simp [toNat_tail]) (by simp [toNat_tail]; omega) rfl, hbits, hback]
  · rename_i hone htwo hthree
    obtain ⟨low, high, hlead, hlow, hhigh⟩ := lead?_four (n := c.toNat) (by omega) (by omega)
    have hbits : ((c.toNat / 262144 * 64 + (tail (c.toNat / 4096)).toNat % 64) * 64 +
        (tail (c.toNat / 64)).toNat % 64) * 64 + (tail c.toNat).toNat % 64 = c.toNat := by
      rw [toNat_tail, toNat_tail, toNat_tail]
      omega
    rw [List.cons_append, scan_of_lead hlead (by simp), List.cons_append,
      scan_of_within (by rwa [toNat_tail]) (by rwa [toNat_tail]) (by simp), List.cons_append,
      scan_of_within (by simp [toNat_tail]) (by simp [toNat_tail]; omega) (by simp),
      List.singleton_append,
      scan_of_last (by simp [toNat_tail]) (by simp [toNat_tail]; omega) rfl, hbits, hback]

theorem scan_encode (s : List Char) : scan none (encode s) = s.map some := by
  induction s with
  | nil => rfl
  | cons c s ih => rw [encode_cons, scan_encodeChar, ih, List.map_cons]

-- Every text is read back from its bytes.
theorem decode?_encode (s : List Char) : decode? (encode s) = some s := by
  rw [decode?, scan_encode]
  induction s with
  | nil => rfl
  | cons c s ih => simp [List.mapM_cons, ih]

theorem encode_injective {s t : List Char} (h : encode s = encode t) : s = t := by
  have hdecoded := congrArg decode? h
  rwa [decode?_encode, decode?_encode, Option.some_inj] at hdecoded

section Accepted

-- Which bytes are those of a text.

theorem decode?_eq_some_iff_scan {bytes : Bytes} {s : List Char} :
    decode? bytes = some s ↔ scan none bytes = s.map some := by
  have hgaps : ∀ pieces : List (Option Char), pieces.mapM id = some s ↔ pieces = s.map some := by
    intro pieces
    induction pieces generalizing s with
    | nil => cases s <;> simp
    | cons piece pieces ih =>
        rw [List.mapM_cons]
        cases piece with
        | none => cases s <;> simp
        | some c =>
            simp only [id, Option.bind_eq_bind, Option.bind_some, Option.bind_eq_some_iff,
              Option.pure_def, Option.some_inj, ih]
            constructor
            · rintro ⟨t, rfl, rfl⟩
              rfl
            · intro hpieces
              obtain ⟨d, t, rfl, hd, rfl⟩ := List.map_eq_cons_iff.mp hpieces.symm
              exact ⟨t, rfl, by rw [Option.some_inj.mp hd]⟩
  exact hgaps _

-- A character that is not complete goes on with a byte in its bounds.
theorem exists_within {pending : Pending} {bytes : Bytes} {s : List Char}
    (h : scan (some pending) bytes = s.map some) :
    ∃ b rest, bytes = b :: rest ∧ pending.low ≤ b.toNat ∧ b.toNat ≤ pending.high := by
  cases bytes with
  | nil => cases s <;> simp [scan] at h
  | cons b rest =>
      by_cases hwithin : pending.low ≤ b.toNat ∧ b.toNat ≤ pending.high
      · exact ⟨b, rest, rfl, hwithin⟩
      · have hout : (decide (pending.low ≤ b.toNat) && decide (b.toNat ≤ pending.high)) = false := by
          simpa using hwithin
        cases s <;> simp [scan, step, hout] at h

-- What a first byte can begin, by the number of bytes that are to come.
theorem lead?_cases {b : Nat} {pending : Pending} (h : lead? b = some pending) :
    (b < 0x80 ∧ pending = ⟨b, 0, 0x80, 0xBF⟩) ∨
    ((0xC2 ≤ b ∧ b < 0xE0) ∧ pending = ⟨b - 0xC0, 1, 0x80, 0xBF⟩) ∨
    ((0xE0 ≤ b ∧ b < 0xF0) ∧ ∃ low high, pending = ⟨b - 0xE0, 2, low, high⟩ ∧
      (0x80 ≤ low ∧ high ≤ 0xBF) ∧ (b = 0xE0 → 0xA0 ≤ low) ∧ (b = 0xED → high ≤ 0x9F)) ∨
    ((0xF0 ≤ b ∧ b < 0xF5) ∧ ∃ low high, pending = ⟨b - 0xF0, 3, low, high⟩ ∧
      (0x80 ≤ low ∧ high ≤ 0xBF) ∧ (b = 0xF0 → 0x90 ≤ low) ∧ (b = 0xF4 → high ≤ 0x8F)) := by
  unfold lead? at h
  split_ifs at h
  case pos => exact Or.inl ⟨by assumption, (Option.some_inj.mp h).symm⟩
  case pos => exact Or.inr (Or.inl ⟨by omega, (Option.some_inj.mp h).symm⟩)
  case pos hb =>
    refine Or.inr (Or.inr (Or.inl ⟨by omega, 0xA0, 0xBF, ?_, by omega⟩))
    rw [← Option.some_inj.mp h, hb]
  case pos hb =>
    refine Or.inr (Or.inr (Or.inl ⟨by omega, 0x80, 0x9F, ?_, by omega⟩))
    rw [← Option.some_inj.mp h, hb]
  case pos =>
    refine Or.inr (Or.inr (Or.inl ⟨by omega, 0x80, 0xBF, ?_, by omega⟩))
    rw [← Option.some_inj.mp h]
  case pos hb =>
    refine Or.inr (Or.inr (Or.inr ⟨by omega, 0x90, 0xBF, ?_, by omega⟩))
    rw [← Option.some_inj.mp h, hb]
  case pos =>
    refine Or.inr (Or.inr (Or.inr ⟨by omega, 0x80, 0xBF, ?_, by omega⟩))
    rw [← Option.some_inj.mp h]
  case pos hb =>
    refine Or.inr (Or.inr (Or.inr ⟨by omega, 0x80, 0x8F, ?_, by omega⟩))
    rw [← Option.some_inj.mp h, hb]

theorem eq_byte {b : UInt8} {n : Nat} (h : b.toNat = n) : b = byte n := by
  rw [← h, byte, UInt8.ofNat_toNat]

theorem eq_tail {b : UInt8} {n : Nat} (hlow : 0x80 ≤ b.toNat) (hhigh : b.toNat ≤ 0xBF)
    (hbits : b.toNat % 64 = n % 64) : b = tail n :=
  eq_byte (by omega)

theorem encodeChar_ofNat {n : Nat} (hvalid : n < 0xD800 ∨ 0xDFFF < n ∧ n < 0x110000) :
    encodeChar (Char.ofNat n) =
      if n < 0x80 then [byte n]
      else if n < 0x800 then [byte (0xC0 + n / 64), tail n]
      else if n < 0x10000 then [byte (0xE0 + n / 4096), tail (n / 64), tail n]
      else [byte (0xF0 + n / 262144), tail (n / 4096), tail (n / 64), tail n] := by
  simp only [encodeChar, toNat_ofNat hvalid]

section Written

variable {b b₂ b₃ b₄ : UInt8} {low high : Nat}

theorem encodeChar_of_one (h : b.toNat < 0x80) : encodeChar (Char.ofNat b.toNat) = [b] := by
  rw [encodeChar_ofNat (by omega), if_pos h, ← eq_byte rfl]

theorem encodeChar_of_two (hfirst : 0xC2 ≤ b.toNat ∧ b.toNat < 0xE0)
    (h₂ : 0x80 ≤ b₂.toNat ∧ b₂.toNat ≤ 0xBF) :
    encodeChar (Char.ofNat ((b.toNat - 0xC0) * 64 + b₂.toNat % 64)) = [b, b₂] := by
  rw [encodeChar_ofNat (by omega), if_neg (by omega), if_pos (by omega),
    ← eq_byte (b := b) (by omega), ← eq_tail h₂.1 h₂.2 (by omega)]

theorem encodeChar_of_three (hfirst : 0xE0 ≤ b.toNat ∧ b.toNat < 0xF0)
    (hbounds : 0x80 ≤ low ∧ high ≤ 0xBF) (hlong : b.toNat = 0xE0 → 0xA0 ≤ low)
    (hsurrogate : b.toNat = 0xED → high ≤ 0x9F) (h₂ : low ≤ b₂.toNat ∧ b₂.toNat ≤ high)
    (h₃ : 0x80 ≤ b₃.toNat ∧ b₃.toNat ≤ 0xBF) :
    encodeChar (Char.ofNat (((b.toNat - 0xE0) * 64 + b₂.toNat % 64) * 64 + b₃.toNat % 64)) =
      [b, b₂, b₃] := by
  rw [encodeChar_ofNat (by omega), if_neg (by omega), if_neg (by omega), if_pos (by omega),
    ← eq_byte (b := b) (by omega), ← eq_tail (b := b₂) (by omega) (by omega) (by omega),
    ← eq_tail h₃.1 h₃.2 (by omega)]

theorem encodeChar_of_four (hfirst : 0xF0 ≤ b.toNat ∧ b.toNat < 0xF5)
    (hbounds : 0x80 ≤ low ∧ high ≤ 0xBF) (hlong : b.toNat = 0xF0 → 0x90 ≤ low)
    (hbeyond : b.toNat = 0xF4 → high ≤ 0x8F) (h₂ : low ≤ b₂.toNat ∧ b₂.toNat ≤ high)
    (h₃ : 0x80 ≤ b₃.toNat ∧ b₃.toNat ≤ 0xBF) (h₄ : 0x80 ≤ b₄.toNat ∧ b₄.toNat ≤ 0xBF) :
    encodeChar (Char.ofNat ((((b.toNat - 0xF0) * 64 + b₂.toNat % 64) * 64 + b₃.toNat % 64) * 64 +
      b₄.toNat % 64)) = [b, b₂, b₃, b₄] := by
  rw [encodeChar_ofNat (by omega), if_neg (by omega), if_neg (by omega), if_neg (by omega),
    ← eq_byte (b := b) (by omega), ← eq_tail (b := b₂) (by omega) (by omega) (by omega),
    ← eq_tail h₃.1 h₃.2 (by omega), ← eq_tail h₄.1 h₄.2 (by omega)]

end Written

theorem exists_char_of_scan {code : Nat} {bytes more : Bytes} {s : List Char}
    (hbytes : encodeChar (Char.ofNat code) = bytes)
    (h : some (Char.ofNat code) :: scan none more = s.map some) :
    ∃ c t rest, s = c :: t ∧ bytes ++ more = encodeChar c ++ rest ∧ scan none rest = t.map some := by
  obtain ⟨c, t, rfl, hc, hmore⟩ := List.map_eq_cons_iff.mp h.symm
  rw [← Option.some_inj.mp hc] at hbytes
  exact ⟨c, t, more, rfl, by rw [hbytes], hmore.symm⟩

-- The bytes that are read as a character are the bytes of that character. By the number of bytes
-- that its first one promises. Each of the others has to be there and in its bounds.
theorem exists_encodeChar_of_scan {b : UInt8} {rest : Bytes} {s : List Char}
    (h : scan none (b :: rest) = s.map some) :
    ∃ c t more, s = c :: t ∧ b :: rest = encodeChar c ++ more ∧ scan none more = t.map some := by
  cases hlead : lead? b.toNat with
  | none => cases s <;> simp [scan, step, first, hlead] at h
  | some pending =>
      have hafter : pending.owed ≠ 0 → scan (some pending) rest = s.map some :=
        fun howed => (scan_of_lead hlead howed).symm.trans h
      rcases lead?_cases hlead with ⟨hone, rfl⟩ | ⟨hfirst, rfl⟩ |
        ⟨hfirst, low, high, rfl, hbounds, hlong, hsurrogate⟩ |
        ⟨hfirst, low, high, rfl, hbounds, hlong, hbeyond⟩
      · rw [scan, step, first, hlead] at h
        exact exists_char_of_scan (encodeChar_of_one hone) h
      · have hnext := hafter (by simp)
        obtain ⟨b₂, more, rfl, h₂⟩ := exists_within hnext
        rw [scan_of_last h₂.1 h₂.2 rfl] at hnext
        exact exists_char_of_scan (encodeChar_of_two hfirst h₂) hnext
      · have hnext := hafter (by simp)
        obtain ⟨b₂, more, rfl, h₂⟩ := exists_within hnext
        rw [scan_of_within h₂.1 h₂.2 (by simp)] at hnext
        obtain ⟨b₃, more, rfl, h₃⟩ := exists_within hnext
        rw [scan_of_last h₃.1 h₃.2 rfl] at hnext
        exact exists_char_of_scan
          (encodeChar_of_three hfirst hbounds hlong hsurrogate h₂ h₃) hnext
      · have hnext := hafter (by simp)
        obtain ⟨b₂, more, rfl, h₂⟩ := exists_within hnext
        rw [scan_of_within h₂.1 h₂.2 (by simp)] at hnext
        obtain ⟨b₃, more, rfl, h₃⟩ := exists_within hnext
        rw [scan_of_within h₃.1 h₃.2 (by simp)] at hnext
        obtain ⟨b₄, more, rfl, h₄⟩ := exists_within hnext
        rw [scan_of_last h₄.1 h₄.2 rfl] at hnext
        exact exists_char_of_scan
          (encodeChar_of_four hfirst hbounds hlong hbeyond h₂ h₃ h₄) hnext

theorem eq_encode_of_scan {bytes : Bytes} {s : List Char} (h : scan none bytes = s.map some) :
    bytes = encode s := by
  induction s generalizing bytes with
  | nil =>
      cases bytes with
      | nil => rfl
      | cons b rest =>
          obtain ⟨c, t, more, hnil, -⟩ := exists_encodeChar_of_scan h
          cases hnil
  | cons c s ih =>
      cases bytes with
      | nil => cases h
      | cons b rest =>
          obtain ⟨d, t, more, hcons, hbytes, hmore⟩ := exists_encodeChar_of_scan h
          cases hcons
          rw [hbytes, encode_cons, ih hmore]

-- What is read are the bytes of a text, and nothing else.
theorem decode?_eq_some_iff {bytes : Bytes} {s : List Char} :
    decode? bytes = some s ↔ bytes = encode s :=
  ⟨fun h => eq_encode_of_scan (decode?_eq_some_iff_scan.mp h), fun h => h ▸ decode?_encode s⟩

end Accepted

section Order

variable {m n : Nat} {s t : Bytes}

theorem cons_byte_lt (hn : n < 256) (h : m < n ∨ m = n ∧ s < t) : byte m :: s < byte n :: t := by
  rw [List.cons_lt_cons_iff, UInt8.lt_iff_toNat_lt, toNat_byte hn]
  rcases h with hless | ⟨rfl, hrest⟩
  · rw [toNat_byte (by omega)]
    exact Or.inl hless
  · exact Or.inr ⟨rfl, hrest⟩

-- A byte after the first is compared by the six bits that it carries.
theorem cons_tail_lt (h : m % 64 < n % 64 ∨ m % 64 = n % 64 ∧ s < t) :
    tail m :: s < tail n :: t := by
  apply cons_byte_lt
  · omega
  · exact h.imp (by omega) (And.imp_left (by omega))

-- The bytes of a smaller character come first, whatever follows. More bytes begin with a greater
-- one, and between equally many the first place decides in which the numbers differ.
theorem encodeChar_append_lt {c d : Char} (h : c.toNat < d.toNat) (s t : Bytes) :
    encodeChar c ++ s < encodeChar d ++ t := by
  have hd := toNat_cases d
  simp only [encodeChar]
  split_ifs <;> try omega
  all_goals
    simp only [List.cons_append, List.nil_append]
    apply cons_byte_lt
    · omega
    try exact Or.inl (by omega)
  · by_cases hfirst : c.toNat / 64 = d.toNat / 64
    · exact Or.inr ⟨by omega, cons_tail_lt (Or.inl (by omega))⟩
    · exact Or.inl (by omega)
  · by_cases hfirst : c.toNat / 4096 = d.toNat / 4096
    · refine Or.inr ⟨by omega, cons_tail_lt ?_⟩
      by_cases hsecond : c.toNat / 64 = d.toNat / 64
      · exact Or.inr ⟨by omega, cons_tail_lt (Or.inl (by omega))⟩
      · exact Or.inl (by omega)
    · exact Or.inl (by omega)
  · by_cases hfirst : c.toNat / 262144 = d.toNat / 262144
    · refine Or.inr ⟨by omega, cons_tail_lt ?_⟩
      by_cases hsecond : c.toNat / 4096 = d.toNat / 4096
      · refine Or.inr ⟨by omega, cons_tail_lt ?_⟩
        by_cases hthird : c.toNat / 64 = d.toNat / 64
        · exact Or.inr ⟨by omega, cons_tail_lt (Or.inl (by omega))⟩
        · exact Or.inl (by omega)
      · exact Or.inl (by omega)
    · exact Or.inl (by omega)

theorem encode_lt_of_lt {s t : List Char} (h : s < t) : encode s < encode t := by
  induction s generalizing t with
  | nil =>
      cases t with
      | nil => exact absurd h (List.lt_irrefl _)
      | cons d t =>
          obtain ⟨first, rest, hfirst⟩ := List.exists_cons_of_ne_nil (encodeChar_ne_nil d)
          rw [encode_cons, hfirst]
          exact List.nil_lt_cons _ _
  | cons c s ih =>
      cases t with
      | nil => exact absurd h (List.not_lt_nil _)
      | cons d t =>
          rw [encode_cons, encode_cons]
          rcases List.cons_lt_cons_iff.mp h with hless | ⟨rfl, hrest⟩
          · exact encodeChar_append_lt hless _ _
          · exact List.append_left_lt (ih hrest)

end Order

end Utf8

-- Texts are in the order of their bytes.
theorem utf8_lt_utf8_iff {a b : String} : utf8 a < utf8 b ↔ a < b := by
  have hmono : ∀ {s t : String}, s < t → utf8 s < utf8 t := fun h =>
    Utf8.encode_lt_of_lt (String.lt_iff.mp h)
  refine ⟨fun h => ?_, hmono⟩
  rw [← String.not_le]
  intro hle
  by_cases heq : b = a
  · exact List.lt_irrefl _ (heq ▸ h)
  · have hless : b < a := String.not_le.mp fun hge => heq (String.le_antisymm hle hge)
    exact List.lt_asymm h (hmono hless)

end DeclarationWatch.Text
