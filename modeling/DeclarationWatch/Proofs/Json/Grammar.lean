import DeclarationWatch.Proofs.Json.Reading
import DeclarationWatch.Proofs.Json.Units

namespace DeclarationWatch.Json

-- What a text says: its values, in their order, with numbers digit by digit and strings by the
-- units that they name.
inductive Content where
  | null
  | bool (b : Bool)
  | number (n : Numeral)
  | string (units : List Nat)
  | array (items : List Content)
  | object (members : List (List Nat × Content))

-- A string as a reader sees it. One that names no text ends well all the same.
def pieceOf (units : List Nat) : Piece where
  text := match charsOf? units with
    | some text => .ok (String.ofList text)
    | none => .error .malformed
  cut := none

namespace Content

mutual

-- What a reader sees of a content, however it is spelled.
def node : Content → Node
  | .null => .null
  | .bool b => .bool b
  | .number n => .number n.value
  | .string units => .string (pieceOf units)
  | .array items => .array (nodes items) none
  | .object members => .object (memberNodes members) none

def nodes : List Content → List Node
  | [] => []
  | item :: rest => node item :: nodes rest

def memberNodes : List (List Nat × Content) → List (Piece × Node)
  | [] => []
  | (key, value) :: rest => (pieceOf key, node value) :: memberNodes rest

end

end Content

section Grammar

-- White space between tokens: the text `s` starts with any of it, and `rest` stands behind it.
inductive Gap : List Char → List Char → Prop where
  | none {rest : List Char} : Gap rest rest
  | space {c : Char} {s rest : List Char} (blank : isSpace c = true) (more : Gap s rest) :
      Gap (c :: s) rest

-- A string from behind its opening quote to behind its closing one. A character stands for itself,
-- or is named by a letter, or its units are named by four hexadecimal digits each.
inductive Marks : List Char → List Nat → List Char → Prop where
  | close {rest : List Char} : Marks ('"' :: rest) [] rest
  | plain {c : Char} {s rest : List Char} {units : List Nat} (quote : c ≠ '"') (slash : c ≠ '\\')
      (printed : 0x20 ≤ c.toNat) (more : Marks s units rest) :
      Marks (c :: s) (unitsOf c ++ units) rest
  | letter {letter c : Char} {s rest : List Char} {units : List Nat}
      (named : letterEscape? letter = some c) (more : Marks s units rest) :
      Marks ('\\' :: letter :: s) (unitsOf c ++ units) rest
  | code {a b c d : Char} {high upper lower low : Nat} {s rest : List Char} {units : List Nat}
      (first : hexValue? a = some high) (second : hexValue? b = some upper)
      (third : hexValue? c = some lower) (fourth : hexValue? d = some low)
      (more : Marks s units rest) :
      Marks ('\\' :: 'u' :: a :: b :: c :: d :: s)
        ((((high * 16 + upper) * 16 + lower) * 16 + low) :: units) rest

structure Digits (s : List Char) : Prop where
  nonempty : s ≠ []
  digit : ∀ c ∈ s, isDigit c = true

inductive FractionToken : Option (List Char) → List Char → Prop where
  | none : FractionToken none []
  | some {digits : List Char} (some : Digits digits) :
      FractionToken (Option.some digits) ('.' :: digits)

inductive ExponentToken : Option (Bool × List Char) → List Char → Prop where
  | none : ExponentToken none []
  | bare {e : Char} {digits : List Char} (mark : e = 'e' ∨ e = 'E') (some : Digits digits) :
      ExponentToken (Option.some (false, digits)) (e :: digits)
  | plus {e : Char} {digits : List Char} (mark : e = 'e' ∨ e = 'E') (some : Digits digits) :
      ExponentToken (Option.some (false, digits)) (e :: '+' :: digits)
  | minus {e : Char} {digits : List Char} (mark : e = 'e' ∨ e = 'E') (some : Digits digits) :
      ExponentToken (Option.some (true, digits)) (e :: '-' :: digits)

-- A number starts with a zero only if no other digit follows it in front of the point.
inductive NumberToken : Numeral → List Char → Prop where
  | mk {negative : Bool} {whole : List Char} {fraction : Option (List Char)}
      {exponent : Option (Bool × List Char)} {s t : List Char} (digits : Digits whole)
      (zero : whole.head? = some '0' → whole.length = 1) (behindPoint : FractionToken fraction s)
      (scale : ExponentToken exponent t) :
      NumberToken ⟨negative, whole, fraction, exponent⟩
        ((if negative then ['-'] else []) ++ whole ++ s ++ t)

mutual

-- The grammar of values: the text `s` starts with a spelling of a content, and `rest` stands behind
-- it.
inductive Spells : List Char → Content → List Char → Prop where
  | null {rest : List Char} : Spells (['n', 'u', 'l', 'l'] ++ rest) .null rest
  | isTrue {rest : List Char} : Spells (['t', 'r', 'u', 'e'] ++ rest) (.bool true) rest
  | isFalse {rest : List Char} : Spells (['f', 'a', 'l', 's', 'e'] ++ rest) (.bool false) rest
  | number {n : Numeral} {token rest : List Char} (written : NumberToken n token) :
      Spells (token ++ rest) (.number n) rest
  | string {s rest : List Char} {units : List Nat} (marks : Marks s units rest) :
      Spells ('"' :: s) (.string units) rest
  | emptyArray {s rest : List Char} (gap : Gap s (']' :: rest)) : Spells ('[' :: s) (.array []) rest
  | array {s rest : List Char} {items : List Content} (inside : SpellsItems s items rest) :
      Spells ('[' :: s) (.array items) rest
  | emptyObject {s rest : List Char} (gap : Gap s ('\x7d' :: rest)) :
      Spells ('\x7b' :: s) (.object []) rest
  | object {s rest : List Char} {members : List (List Nat × Content)}
      (inside : SpellsMembers s members rest) : Spells ('\x7b' :: s) (.object members) rest

-- One value or more, with white space on both sides of each, to behind the closing bracket.
inductive SpellsItems : List Char → List Content → List Char → Prop where
  | last {s value behind rest : List Char} {item : Content} (before : Gap s value)
      (spelled : Spells value item behind) (after : Gap behind (']' :: rest)) :
      SpellsItems s [item] rest
  | more {s value behind next rest : List Char} {item : Content} {items : List Content}
      (before : Gap s value) (spelled : Spells value item behind) (after : Gap behind (',' :: next))
      (others : SpellsItems next items rest) : SpellsItems s (item :: items) rest

inductive SpellsMember : List Char → List Nat × Content → List Char → Prop where
  | mk {s name colon next value rest : List Char} {key : List Nat} {content : Content}
      (before : Gap s ('"' :: name)) (marks : Marks name key colon)
      (parted : Gap colon (':' :: next)) (gap : Gap next value)
      (spelled : Spells value content rest) :
      SpellsMember s (key, content) rest

inductive SpellsMembers : List Char → List (List Nat × Content) → List Char → Prop where
  | last {s behind rest : List Char} {member : List Nat × Content}
      (spelled : SpellsMember s member behind) (after : Gap behind ('\x7d' :: rest)) :
      SpellsMembers s [member] rest
  | more {s behind next rest : List Char} {member : List Nat × Content}
      {members : List (List Nat × Content)} (spelled : SpellsMember s member behind)
      (after : Gap behind (',' :: next)) (others : SpellsMembers next members rest) :
      SpellsMembers s (member :: members) rest

end

-- A whole text that spells one content, and nothing else.
def SpellsText (s : List Char) (content : Content) : Prop :=
  ∃ value behind, Gap s value ∧ Spells value content behind ∧ Gap behind []

end Grammar

section Gaps

variable {s rest : List Char}

theorem Gap.skipSpace_eq (h : Gap s rest) : skipSpace s = skipSpace rest := by
  induction h with
  | none => rfl
  | space blank _ ih => rw [← ih, skipSpace, List.dropWhile_cons, if_pos blank, skipSpace]

theorem Gap.trans {t : List Char} (h : Gap s t) (hrest : Gap t rest) : Gap s rest := by
  induction h with
  | none => exact hrest
  | space blank _ ih => exact .space blank (ih hrest)

theorem Gap.length_le (h : Gap s rest) : rest.length ≤ s.length := by
  induction h with
  | none => exact Nat.le_refl _
  | space _ _ ih => exact Nat.le_succ_of_le ih

theorem Gap.skipSpace_cons {c : Char} (h : Gap s (c :: rest)) (hc : isSpace c = false) :
    skipSpace s = c :: rest := by
  rw [h.skipSpace_eq, skipSpace, List.dropWhile_cons, if_neg (by simp [hc])]

theorem Gap.ends_cons {c : Char} (h : Gap s (c :: rest)) (hc : c = ',' ∨ c = ']' ∨ c = '\x7d') :
    Ends s := by
  intro d hd
  cases h with
  | none =>
      cases hd
      exact Or.inr hc
  | space blank _ =>
      cases hd
      exact Or.inl blank

theorem Gap.ends_nil (h : Gap s []) : Ends s := by
  intro d hd
  cases h with
  | none => cases hd
  | space blank _ =>
      cases hd
      exact Or.inl blank

theorem skipSpace_skipSpace (s : List Char) : skipSpace (skipSpace s) = skipSpace s := by
  unfold skipSpace
  induction s with
  | nil => rfl
  | cons c s ih =>
      by_cases hc : isSpace c = true
      · simpa [hc] using ih
      · simp [hc]

-- A reader passes over leading space by itself.
theorem readNode_skipSpace (fuel : Nat) (s : List Char) :
    readNode fuel (skipSpace s) = readNode fuel s := by
  cases fuel with
  | zero => rfl
  | succ fuel => simp only [readNode, skipSpace_skipSpace]

theorem readItems_skipSpace (fuel : Nat) (s : List Char) :
    readItems fuel (skipSpace s) = readItems fuel s := by
  cases fuel with
  | zero => rfl
  | succ fuel => simp only [readItems, readNode_skipSpace]

theorem readMembers_skipSpace (fuel : Nat) (s : List Char) :
    readMembers fuel (skipSpace s) = readMembers fuel s := by
  cases fuel with
  | zero => rfl
  | succ fuel => simp only [readMembers, skipSpace_skipSpace]

theorem Gap.readNode_eq (h : Gap s rest) (fuel : Nat) : readNode fuel s = readNode fuel rest := by
  rw [← readNode_skipSpace fuel s, h.skipSpace_eq, readNode_skipSpace]

end Gaps

section Strings

variable {s rest : List Char} {units : List Nat}

theorem hexValue?_lt {c : Char} {n : Nat} (h : hexValue? c = some n) : n < 16 := by
  simp only [hexValue?, Bool.and_eq_true, decide_eq_true_iff, Char.le_def,
    UInt32.le_iff_toNat_le] at h
  split at h
  · rename_i hc
    have hhigh : c.toNat ≤ 57 := hc.2
    cases h
    omega
  split at h
  · rename_i hc
    have hhigh : c.toNat ≤ 102 := hc.2
    cases h
    omega
  split at h
  · rename_i hc
    have hhigh : c.toNat ≤ 70 := hc.2
    cases h
    omega
  · cases h

theorem ne_of_letterEscape? {letter c : Char} (h : letterEscape? letter = some c) :
    letter ≠ 'u' := by
  rintro rfl
  cases h

-- What is read of a string that spells some units.
def readAs (units : List Nat) (rest : List Char) : Except Fault (List Char × List Char) :=
  match charsOf? units with
  | some text => .ok (text, rest)
  | none => .error .malformed

theorem readAs_unitsOf (c : Char) (units : List Nat) (rest : List Char) :
    readAs (unitsOf c ++ units) rest =
      (readAs units rest).map fun (text, rest) => (c :: text, rest) := by
  unfold readAs
  rw [charsOf?_unitsOf]
  cases charsOf? units <;> rfl

theorem readAs_plain {unit : Nat} (h : isPlain unit = true) : readAs (unit :: units) rest =
    (readAs units rest).map fun (text, rest) => (Char.ofNat unit :: text, rest) := by
  unfold readAs
  rw [charsOf?_plain h]
  cases charsOf? units <;> rfl

theorem readAs_paired {unit second : Nat} (h : isLeading unit = true)
    (hsecond : isTrailing second = true) : readAs (unit :: second :: units) rest =
      (readAs units rest).map fun (text, rest) => (pairedChar unit second :: text, rest) := by
  unfold readAs
  rw [charsOf?_paired h hsecond]
  cases charsOf? units <;> rfl

theorem hexEscape_digits {a b c d : Char} {high upper lower low : Nat}
    (first : hexValue? a = some high) (second : hexValue? b = some upper)
    (third : hexValue? c = some lower) (fourth : hexValue? d = some low) (s : List Char) :
    hexEscape (a :: b :: c :: d :: s) = .ok (((high * 16 + upper) * 16 + lower) * 16 + low, s) := by
  simp only [hexEscape, first, second, third, fourth]

section Escapes

variable {unit : Nat} {digits : List Char} (hunit : hexEscape digits = .ok (unit, s))

include hunit

theorem escapedChar_plain (h : isPlain unit = true) :
    escapedChar digits = .ok (Char.ofNat unit, s) := by
  have hrange := isPlain_iff.mp h
  have hleading : isLeading unit = false := by
    rw [← Bool.not_eq_true, isLeading_iff]
    omega
  have htrailing : isTrailing unit = false := by
    rw [← Bool.not_eq_true, isTrailing_iff]
    omega
  rw [escapedChar, hunit]
  simp [bind, Except.bind, hleading, htrailing]

theorem escapedChar_trailing (h : isTrailing unit = true) :
    escapedChar digits = .error .malformed := by
  rw [escapedChar, hunit]
  simp [bind, Except.bind, h]

theorem escapedChar_unpaired (h : isLeading unit = true)
    (hword : word ['\\', 'u'] s = .error .malformed) :
    escapedChar digits = .error .malformed := by
  rw [escapedChar, hunit]
  simp [bind, Except.bind, h, not_isTrailing_of_isLeading h, hword]

theorem escapedChar_pair {second : Nat} {t more : List Char} (h : isLeading unit = true)
    (hs : s = '\\' :: 'u' :: t) (hsecond : hexEscape t = .ok (second, more)) :
    escapedChar digits =
      if isTrailing second then .ok (pairedChar unit second, more) else .error .malformed := by
  have hword : word ['\\', 'u'] s = .ok t := by
    rw [hs]
    rfl
  rw [escapedChar, hunit]
  simp [bind, Except.bind, h, not_isTrailing_of_isLeading h, hword, hsecond, pairedChar]

end Escapes

-- Behind half of a pair the other half must be escaped too.
theorem Marks.escape_or (h : Marks s units rest) :
    (∃ t second more others, s = '\\' :: 'u' :: t ∧ hexEscape t = .ok (second, more) ∧
      units = second :: others ∧ Marks more others rest ∧ more.length < s.length) ∨
      (word ['\\', 'u'] s = .error .malformed ∧
        ∀ unit ∈ units.head?, isTrailing unit = false) := by
  cases h with
  | close => exact Or.inr ⟨rfl, by simp⟩
  | @plain c t _ _ quote slash printed more =>
      refine Or.inr ⟨?_, not_isTrailing_head_unitsOf c _⟩
      simp [word, Ne.symm slash]
  | @letter letter c t _ _ named more =>
      have hletter := ne_of_letterEscape? named
      exact Or.inr ⟨by simp [word, Ne.symm hletter], not_isTrailing_head_unitsOf c _⟩
  | code first second third fourth more =>
      exact Or.inl ⟨_, _, _, _, rfl, hexEscape_digits first second third fourth _, rfl, more,
        by simp; omega⟩

theorem readText_code (fuel : Nat) (digits : List Char) :
    readText (fuel + 1) ('\\' :: 'u' :: digits) =
      (escapedChar digits).bind fun (c, s) =>
        (readText fuel s).map fun (text, rest) => (c :: text, rest) := by
  cases hchar : escapedChar digits with
  | error fault => simp [readText, hchar, bind, Except.bind]
  | ok read =>
      cases hread : readText fuel read.2 <;>
        simp [readText, hchar, hread, bind, Except.bind, Except.map]

-- A unit named by its digits is read as it stands in front of the units behind it. With half of a
-- pair the other half is read too, so what is known about the rest must hold from there as well.
theorem Marks.readText_code {fuel unit : Nat} {digits : List Char} (more : Marks s units rest)
    (hunit : hexEscape digits = .ok (unit, s)) (hbound : unit < 0x10000)
    (hread : ∀ {t others}, Marks t others rest → t.length ≤ s.length →
      readText fuel t = readAs others rest) :
    readText (fuel + 1) ('\\' :: 'u' :: digits) = readAs (unit :: units) rest := by
  rw [Json.readText_code]
  by_cases hplain : isPlain unit = true
  · rw [escapedChar_plain hunit hplain, readAs_plain hplain, ← hread more (Nat.le_refl _)]
    rfl
  have hnot : isPlain unit = false := by simpa using hplain
  by_cases hleading : isLeading unit = true
  · rcases more.escape_or with
      ⟨t, second, behind, others, ht, hsecond, rfl, hothers, hshorter⟩ | ⟨hword, hhead⟩
    · rw [escapedChar_pair hunit hleading ht hsecond]
      by_cases htrailing : isTrailing second = true
      · rw [if_pos htrailing, readAs_paired hleading htrailing,
          ← hread hothers (Nat.le_of_lt hshorter)]
        rfl
      · have hunpaired : ∀ unit ∈ (second :: others).head?, isTrailing unit = false := by
          simpa using htrailing
        rw [if_neg htrailing, readAs, charsOf?_eq_none hnot fun _ => hunpaired]
        rfl
    · rw [escapedChar_unpaired hunit hleading hword, readAs,
        charsOf?_eq_none hnot fun _ => hhead]
      rfl
  · have htrailing : isTrailing unit = true := by
      rw [isPlain_iff] at hplain
      rw [isLeading_iff] at hleading
      rw [isTrailing_iff]
      omega
    rw [escapedChar_trailing hunit htrailing, readAs,
      charsOf?_eq_none hnot fun h => absurd h hleading]
    rfl

-- A string is read as its units say.
theorem Marks.readText_eq {fuel : Nat} (h : Marks s units rest) (hfuel : s.length ≤ fuel) :
    readText fuel s = readAs units rest := by
  induction fuel generalizing s units with
  | zero => cases h <;> simp at hfuel
  | succ fuel ih =>
      cases h with
      | close => simp [readText, readAs, charsOf?]
      | @plain c t _ units quote slash printed more =>
          have hmore := ih more (by simpa using hfuel)
          have hprinted : ¬c.toNat < 0x20 := by omega
          rw [readAs_unitsOf, ← hmore, readText.eq_def]
          simp only [quote, slash, hprinted, if_false]
          cases readText fuel t <;> rfl
      | @letter letter c t _ units named more =>
          have hmore := ih more (by simp at hfuel; omega)
          have hletter := ne_of_letterEscape? named
          rw [readAs_unitsOf, ← hmore, readText.eq_def]
          simp only [named, if_true]
          cases readText fuel t <;> rfl
      | @code a b c d high upper lower low t _ units first second third fourth more =>
          have hbound : ((high * 16 + upper) * 16 + lower) * 16 + low < 0x10000 := by
            have hhigh := hexValue?_lt first
            have hupper := hexValue?_lt second
            have hlower := hexValue?_lt third
            have hlow := hexValue?_lt fourth
            omega
          simp only [List.length_cons] at hfuel
          exact more.readText_code (hexEscape_digits first second third fourth t) hbound
            fun hothers hshorter => ih hothers (by omega)

theorem Marks.length_lt (h : Marks s units rest) : rest.length < s.length := by
  induction h with
  | close => exact Nat.lt_succ_self _
  | plain _ _ _ _ ih => exact Nat.lt_succ_of_lt ih
  | letter _ _ ih =>
      simp only [List.length_cons]
      omega
  | code _ _ _ _ _ ih =>
      simp only [List.length_cons]
      omega

theorem Marks.skipText_eq {fuel : Nat} (h : Marks s units rest) (hfuel : s.length ≤ fuel) :
    skipText fuel s = .ok rest := by
  induction h generalizing fuel with
  | close =>
      obtain ⟨fuel, rfl⟩ := Nat.exists_eq_succ_of_ne_zero (Nat.ne_of_gt (Nat.zero_lt_of_lt hfuel))
      rfl
  | plain quote slash printed more ih =>
      obtain ⟨fuel, rfl⟩ := Nat.exists_eq_succ_of_ne_zero (Nat.ne_of_gt (Nat.zero_lt_of_lt hfuel))
      have hmore := ih (Nat.le_of_succ_le_succ hfuel)
      simp [skipText, quote, slash, printed, hmore]
  | letter named more ih =>
      obtain ⟨fuel, rfl⟩ := Nat.exists_eq_succ_of_ne_zero (Nat.ne_of_gt (Nat.zero_lt_of_lt hfuel))
      simp only [List.length_cons] at hfuel
      have hmore := @ih fuel (by omega)
      simp [skipText, ne_of_letterEscape? named, named, hmore]
  | code first second third fourth more ih =>
      obtain ⟨fuel, rfl⟩ := Nat.exists_eq_succ_of_ne_zero (Nat.ne_of_gt (Nat.zero_lt_of_lt hfuel))
      simp only [List.length_cons] at hfuel
      have hmore := @ih fuel (by omega)
      have hunit := hexEscape_digits first second third fourth
      simp [skipText, hunit, hmore, bind, Except.bind]

theorem Marks.readPiece_eq (h : Marks s units rest) : readPiece s = (pieceOf units, some rest) := by
  have htext := h.readText_eq (Nat.le_refl _)
  have hskip := h.skipText_eq (Nat.le_refl _)
  unfold readPiece
  rw [htext, hskip, readAs, pieceOf]
  cases charsOf? units <;> rfl

end Strings

section Numbers

variable {s token rest : List Char}

theorem Digits.readDigits_eq (h : Digits s) (hrest : ∀ c ∈ rest.head?, isDigit c = false) :
    readDigits (s ++ rest) = .ok (s, rest) :=
  readDigits_append h.nonempty h.digit hrest

theorem Digits.exists_cons (h : Digits s) : ∃ c t, s = c :: t ∧ isDigit c = true := by
  obtain ⟨c, t, rfl⟩ := List.exists_cons_of_ne_nil h.nonempty
  exact ⟨c, t, rfl, h.digit c List.mem_cons_self⟩

theorem ExponentToken.readExponent_eq {exponent : Option (Bool × List Char)}
    (h : ExponentToken exponent s) (hrest : Ends rest) :
    readExponent (s ++ rest) = .ok (exponent, rest) := by
  cases h with
  | none => exact readExponent_of_ends hrest
  | @bare e digits mark some =>
      obtain ⟨c, t, rfl, hc⟩ := some.exists_cons
      have hread := some.readDigits_eq hrest.notDigit
      have hminus : c ≠ '-' := by
        rintro rfl
        cases hc
      have hplus : c ≠ '+' := by
        rintro rfl
        cases hc
      rw [List.cons_append] at hread ⊢
      simp [readExponent, mark, hread, hminus, hplus, bind, Except.bind]
  | plus mark some =>
      have hread := some.readDigits_eq hrest.notDigit
      simp [readExponent, mark, hread, bind, Except.bind]
  | minus mark some =>
      have hread := some.readDigits_eq hrest.notDigit
      simp [readExponent, mark, hread, bind, Except.bind]

-- A scale starts with its letter.
theorem ExponentToken.head {exponent : Option (Bool × List Char)} (h : ExponentToken exponent s)
    (hrest : Ends rest) : ∀ c ∈ (s ++ rest).head?, isDigit c = false ∧ c ≠ '.' := by
  cases h with
  | none =>
      intro c hc
      obtain ⟨rest, rfl⟩ := List.head?_eq_some_iff.mp hc
      exact ⟨hrest.head.1, hrest.head.2.1⟩
  | bare mark some =>
      intro c hc
      cases hc
      rcases mark with rfl | rfl <;> decide
  | plus mark some =>
      intro c hc
      cases hc
      rcases mark with rfl | rfl <;> decide
  | minus mark some =>
      intro c hc
      cases hc
      rcases mark with rfl | rfl <;> decide

theorem FractionToken.readFraction_eq {fraction : Option (List Char)} (h : FractionToken fraction s)
    (hrest : ∀ c ∈ rest.head?, isDigit c = false ∧ c ≠ '.') :
    readFraction (s ++ rest) = .ok (fraction, rest) := by
  cases h with
  | none => exact readFraction_of_head? fun c hc => (hrest c hc).2
  | some some =>
      have hread := some.readDigits_eq fun c hc => (hrest c hc).1
      simp [readFraction, hread, bind, Except.bind]

theorem FractionToken.head {fraction : Option (List Char)} (h : FractionToken fraction s)
    (hrest : ∀ c ∈ rest.head?, isDigit c = false ∧ c ≠ '.') :
    ∀ c ∈ (s ++ rest).head?, isDigit c = false := by
  cases h with
  | none => exact fun c hc => (hrest c hc).1
  | some some =>
      intro c hc
      cases hc
      decide

theorem NumberToken.exists_cons {n : Numeral} (h : NumberToken n token) :
    ∃ c t, token = c :: t ∧ (c = '-' ∨ isDigit c = true) := by
  cases h with
  | @mk negative whole fraction exponent s t digits zero behindPoint scale =>
      cases negative with
      | true => exact ⟨'-', _, rfl, Or.inl rfl⟩
      | false =>
          obtain ⟨c, more, rfl, hc⟩ := digits.exists_cons
          exact ⟨c, _, rfl, Or.inr hc⟩

theorem NumberToken.readNumeral_eq {n : Numeral} (h : NumberToken n token) (hrest : Ends rest) :
    readNumeral (token ++ rest) = .ok (n, rest) := by
  cases h with
  | @mk negative whole fraction exponent s t digits zero behindPoint scale =>
      have hscale := scale.head hrest
      have hwhole := digits.readDigits_eq (behindPoint.head hscale)
      have hfraction := behindPoint.readFraction_eq hscale
      have hexponent := scale.readExponent_eq hrest
      have hzero : (decide (whole.length > 1) && whole.head? == some '0') = false := by
        by_cases hhead : whole.head? = some '0'
        · simp [zero hhead]
        · simp [hhead]
      cases negative with
      | true =>
          simp only [if_true, List.append_assoc, List.singleton_append] at *
          simp [readNumeral, readUnsigned, hwhole, hzero, hfraction, hexponent, bind, Except.bind]
      | false =>
          obtain ⟨c, more, rfl, hc⟩ := digits.exists_cons
          have hminus : c ≠ '-' := by
            rintro rfl
            cases hc
          simp only [Bool.false_eq_true, if_false, List.nil_append, List.append_assoc,
            List.cons_append] at *
          simpa [readNumeral, readUnsigned, hminus, hwhole, hfraction, hexponent, bind,
            Except.bind] using hzero

end Numbers

section Values

variable {s rest : List Char}

theorem SpellsItems.of_gap {t : List Char} {items : List Content} (gap : Gap s t)
    (h : SpellsItems t items rest) : SpellsItems s items rest := by
  cases h with
  | last before spelled after => exact .last (gap.trans before) spelled after
  | more before spelled after others => exact .more (gap.trans before) spelled after others

theorem SpellsMember.of_gap {t : List Char} {member : List Nat × Content} (gap : Gap s t)
    (h : SpellsMember t member rest) : SpellsMember s member rest := by
  obtain ⟨before, marks, parted, inside, spelled⟩ := h
  exact .mk (gap.trans before) marks parted inside spelled

theorem SpellsMembers.of_gap {t : List Char} {members : List (List Nat × Content)}
    (gap : Gap s t) (h : SpellsMembers t members rest) : SpellsMembers s members rest := by
  cases h with
  | last spelled after => exact .last (spelled.of_gap gap) after
  | more spelled after others => exact .more (spelled.of_gap gap) after others

-- A value starts with neither white space nor a closing bracket.
theorem Spells.exists_cons {content : Content} (h : Spells s content rest) :
    ∃ c t, s = c :: t ∧ isSpace c = false ∧ c ≠ ']' := by
  cases h with
  | number written =>
      obtain ⟨c, t, rfl, hc⟩ := written.exists_cons
      refine ⟨c, _, rfl, isSpace_of_number hc, ?_⟩
      rintro rfl
      exact absurd hc (by decide)
  | _ => exact ⟨_, _, rfl, by decide, by decide⟩

mutual

theorem Spells.length_lt : ∀ {s : List Char} {content : Content} {rest : List Char},
    Spells s content rest → rest.length < s.length
  | _, _, _, .null => by
      simp only [List.length_append, List.length_cons]
      omega
  | _, _, _, .isTrue => by
      simp only [List.length_append, List.length_cons]
      omega
  | _, _, _, .isFalse => by
      simp only [List.length_append, List.length_cons]
      omega
  | _, _, _, .number written => by
      obtain ⟨c, t, rfl, -⟩ := written.exists_cons
      simp only [List.length_append, List.length_cons]
      omega
  | _, _, _, .string marks => Nat.lt_succ_of_lt marks.length_lt
  | _, _, _, .emptyArray gap => Nat.lt_succ_of_lt gap.length_le
  | _, _, _, .array inside => Nat.lt_succ_of_lt inside.length_lt
  | _, _, _, .emptyObject gap => Nat.lt_succ_of_lt gap.length_le
  | _, _, _, .object inside => Nat.lt_succ_of_lt inside.length_lt

theorem SpellsItems.length_lt : ∀ {s : List Char} {items : List Content} {rest : List Char},
    SpellsItems s items rest → rest.length < s.length
  | _, _, _, .last before spelled after => by
      have hbefore := before.length_le
      have hvalue := spelled.length_lt
      have hafter := after.length_le
      rw [List.length_cons] at hafter
      omega
  | _, _, _, .more before spelled after others => by
      have hbefore := before.length_le
      have hvalue := spelled.length_lt
      have hafter := after.length_le
      have hothers := others.length_lt
      rw [List.length_cons] at hafter
      omega

theorem SpellsMember.length_lt : ∀ {s : List Char} {member : List Nat × Content}
    {rest : List Char}, SpellsMember s member rest → rest.length + 1 < s.length
  | _, _, _, .mk before marks parted gap spelled => by
      have hbefore := before.length_le
      have hmarks := marks.length_lt
      have hparted := parted.length_le
      have hgap := gap.length_le
      have hvalue := spelled.length_lt
      rw [List.length_cons] at hbefore hparted
      omega

theorem SpellsMembers.length_lt : ∀ {s : List Char} {members : List (List Nat × Content)}
    {rest : List Char}, SpellsMembers s members rest → rest.length < s.length
  | _, _, _, .last spelled after => by
      have hafter := after.length_le
      rw [List.length_cons] at hafter
      have hbehind := spelled.length_lt
      omega
  | _, _, _, .more spelled after others => by
      have hafter := after.length_le
      rw [List.length_cons] at hafter
      have hbehind := spelled.length_lt
      have hothers := others.length_lt
      omega

end

theorem SpellsItems.skipSpace_eq {items : List Content} (h : SpellsItems s items rest) :
    ∃ c t, skipSpace s = c :: t ∧ c ≠ ']' := by
  have hfirst : ∃ value item behind, Gap s value ∧ Spells value item behind := by
    cases h with
    | last before spelled _ => exact ⟨_, _, _, before, spelled⟩
    | more before spelled _ _ => exact ⟨_, _, _, before, spelled⟩
  obtain ⟨value, item, behind, before, spelled⟩ := hfirst
  obtain ⟨c, t, rfl, hspace, hc⟩ := spelled.exists_cons
  exact ⟨c, t, before.skipSpace_cons hspace, hc⟩

theorem SpellsMembers.skipSpace_eq {members : List (List Nat × Content)}
    (h : SpellsMembers s members rest) : ∃ t, skipSpace s = '"' :: t := by
  have hfirst : ∃ member behind, SpellsMember s member behind := by
    cases h with
    | last spelled _ => exact ⟨_, _, spelled⟩
    | more spelled _ _ => exact ⟨_, _, spelled⟩
  obtain ⟨member, behind, ⟨before, _, _, _, _⟩⟩ := hfirst
  exact ⟨_, before.skipSpace_cons (by decide)⟩

mutual

-- Whatever spells a content is read as that content, by the rules of the grammar. Every character
-- pays for two steps of the reader.
theorem Spells.readNode_eq : ∀ {s : List Char} {content : Content} {rest : List Char} {fuel : Nat},
    Spells s content rest → 2 * s.length < fuel → Ends rest →
    readNode fuel s = (content.node, some rest)
  | _, _, _, 0, _, hfuel, _ => absurd hfuel (Nat.not_lt_zero _)
  | _, _, rest, fuel + 1, .null, _, _ => by
      have hword := readWord_append ['u', 'l', 'l'] .null rest
      simpa [readNode, skipSpace, isSpace, Content.node] using hword
  | _, _, rest, fuel + 1, .isTrue, _, _ => by
      have hword := readWord_append ['r', 'u', 'e'] (.bool true) rest
      simpa [readNode, skipSpace, isSpace, Content.node] using hword
  | _, _, rest, fuel + 1, .isFalse, _, _ => by
      have hword := readWord_append ['a', 'l', 's', 'e'] (.bool false) rest
      simpa [readNode, skipSpace, isSpace, Content.node] using hword
  | _, _, _, fuel + 1, .number written, _, hrest => by
      have hread := written.readNumeral_eq hrest
      obtain ⟨c, t, rfl, hc⟩ := written.exists_cons
      exact readNode_numeral hc hread fuel
  | _, _, _, fuel + 1, .string marks, _, _ => by
      simp [readNode, skipSpace, isSpace, marks.readPiece_eq, Content.node]
  | _, _, _, fuel + 1, .emptyArray gap, _, _ => by
      have hspace : ∀ t, skipSpace ('[' :: t) = '[' :: t := fun _ => rfl
      simp [readNode, hspace, gap.skipSpace_cons (show isSpace ']' = false by decide),
        Content.node, Content.nodes]
  | _, _, _, fuel + 1, .array inside, hfuel, _ => by
      simp only [List.length_cons] at hfuel
      have hread := inside.readItems_eq (show _ < fuel by omega)
      obtain ⟨c, t, hs, hc⟩ := inside.skipSpace_eq
      rw [← readItems_skipSpace, hs] at hread
      exact readNode_array hs hc hread
  | _, _, _, fuel + 1, .emptyObject gap, _, _ => by
      have hspace : ∀ t, skipSpace ('\x7b' :: t) = '\x7b' :: t := fun _ => rfl
      simp [readNode, hspace, gap.skipSpace_cons (show isSpace '\x7d' = false by decide),
        Content.node, Content.memberNodes]
  | _, _, _, fuel + 1, .object inside, hfuel, _ => by
      simp only [List.length_cons] at hfuel
      have hread := inside.readMembers_eq (show _ < fuel by omega)
      obtain ⟨t, hs⟩ := inside.skipSpace_eq
      rw [← readMembers_skipSpace, hs] at hread
      exact readNode_object hs hread

theorem SpellsItems.readItems_eq : ∀ {s : List Char} {items : List Content} {rest : List Char}
    {fuel : Nat}, SpellsItems s items rest → 2 * s.length + 1 < fuel →
    readItems fuel s = (Content.nodes items, none, some rest)
  | _, _, _, 0, _, hfuel => absurd hfuel (Nat.not_lt_zero _)
  | _, _, _, fuel + 1, .last before spelled after, hfuel => by
      have hbefore := before.length_le
      have hread := spelled.readNode_eq (show _ < fuel by omega) (after.ends_cons (by simp))
      rw [← before.readNode_eq] at hread
      exact readItems_last hread (after.skipSpace_cons (by decide))
  | _, _, _, fuel + 1, .more before spelled after others, hfuel => by
      have hbefore := before.length_le
      have hbehind := spelled.length_lt
      have hafter := after.length_le
      rw [List.length_cons] at hafter
      have hread := spelled.readNode_eq (show _ < fuel by omega) (after.ends_cons (by simp))
      have hothers := others.readItems_eq (show _ < fuel by omega)
      rw [← before.readNode_eq] at hread
      exact readItems_more hread (after.skipSpace_cons (by decide)) hothers

theorem SpellsMember.readsMember : ∀ {s : List Char} {member : List Nat × Content}
    {rest : List Char} {fuel : Nat}, SpellsMember s member rest → 2 * s.length + 1 < fuel + 1 →
    Ends rest → ReadsMember fuel s (pieceOf member.1) member.2.node rest
  | _, _, _, fuel, .mk before marks parted gap spelled, hfuel, hrest => by
      have hbefore := before.length_le
      have hmarks := marks.length_lt
      have hparted := parted.length_le
      have hgap := gap.length_le
      rw [List.length_cons] at hbefore hparted
      have hread := spelled.readNode_eq (show _ < fuel by omega) hrest
      rw [← gap.readNode_eq] at hread
      exact ⟨_, _, _, before.skipSpace_cons (by decide), marks.readPiece_eq,
        parted.skipSpace_cons (by decide), hread⟩

theorem SpellsMembers.readMembers_eq : ∀ {s : List Char} {members : List (List Nat × Content)}
    {rest : List Char} {fuel : Nat}, SpellsMembers s members rest → 2 * s.length + 1 < fuel →
    readMembers fuel s = (Content.memberNodes members, none, some rest)
  | _, _, _, 0, _, hfuel => absurd hfuel (Nat.not_lt_zero _)
  | _, _, _, fuel + 1, .last spelled after, hfuel => by
      have hread := spelled.readsMember hfuel (after.ends_cons (by simp))
      exact readMembers_last hread (after.skipSpace_cons (by decide))
  | _, _, _, fuel + 1, .more spelled after others, hfuel => by
      have hbehind := spelled.length_lt
      have hafter := after.length_le
      rw [List.length_cons] at hafter
      have hread := spelled.readsMember hfuel (after.ends_cons (by simp))
      have hothers := others.readMembers_eq (show _ < fuel by omega)
      exact readMembers_more hread (after.skipSpace_cons (by decide)) hothers

end

-- A whole text is read as what it spells.
theorem SpellsText.ofText_eq {content : Content} (h : SpellsText s content) :
    Document.ofText s = ⟨content.node, none⟩ := by
  obtain ⟨value, behind, before, spelled, after⟩ := h
  have hlength := before.length_le
  have hread := spelled.readNode_eq (show _ < 2 * s.length + 2 by omega) after.ends_nil
  rw [← before.readNode_eq] at hread
  have hend : skipSpace behind = [] := by
    rw [after.skipSpace_eq]
    rfl
  simp [Document.ofText, hread, hend]

end Values

end DeclarationWatch.Json
