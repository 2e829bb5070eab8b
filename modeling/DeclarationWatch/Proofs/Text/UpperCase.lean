import DeclarationWatch.Proofs.Text.Blank
import DeclarationWatch.Text.UpperCase

namespace DeclarationWatch.Text

namespace CaseRun

-- The codes between two bounds, as a run that keeps them.
def between (first last : Nat) : CaseRun := ⟨first, last, 1, 0⟩

theorem covers_iff {run : CaseRun} {code : Nat} : run.covers code = true ↔
    run.first ≤ code ∧ code ≤ run.last ∧ (code - run.first) % run.stride = 0 := by
  simp [covers, and_assoc]

theorem covers_between {first last code : Nat} :
    (between first last).covers code = true ↔ first ≤ code ∧ code ≤ last := by
  simp [covers_iff, between, Nat.mod_one]

-- The codes of a run one by one.
def codes (run : CaseRun) : List Nat :=
  (List.range ((run.last - run.first) / run.stride + 1)).map fun i => run.first + run.stride * i

theorem mem_codes_of_covers {run : CaseRun} {code : Nat} (h : run.covers code = true) :
    code ∈ run.codes := by
  obtain ⟨hfirst, hlast, hstride⟩ := covers_iff.mp h
  have hsteps : run.stride * ((code - run.first) / run.stride) = code - run.first :=
    Nat.mul_div_cancel' (Nat.dvd_of_mod_eq_zero hstride)
  have hwithin : (code - run.first) / run.stride ≤ (run.last - run.first) / run.stride :=
    Nat.div_le_div_right (by omega)
  refine List.mem_map.mpr ⟨(code - run.first) / run.stride, List.mem_range.mpr (by omega), ?_⟩
  rw [hsteps]
  omega

-- The codes of runs as the bits of one number, where it does not take long to look for one.
def bits (runs : List CaseRun) : Nat :=
  runs.foldr (fun run bits => run.codes.foldr (fun code bits => bits ||| 1 <<< code) bits) 0

theorem testBit_foldr {codes : List Nat} {bits code : Nat} :
    (codes.foldr (fun code bits => bits ||| 1 <<< code) bits).testBit code = true ↔
      code ∈ codes ∨ bits.testBit code = true := by
  induction codes with
  | nil => simp
  | cons first rest ih =>
      rw [List.foldr_cons, Nat.testBit_or, Bool.or_eq_true, ih, Nat.one_shiftLeft,
        Nat.testBit_two_pow, List.mem_cons, decide_eq_true_iff, eq_comm (a := code)]
      exact or_comm.trans or_assoc.symm

theorem testBit_bits {runs : List CaseRun} {code : Nat} :
    (bits runs).testBit code = true ↔ ∃ run ∈ runs, code ∈ run.codes := by
  induction runs with
  | nil => simp [bits]
  | cons run rest ih =>
      rw [bits, List.foldr_cons, testBit_foldr]
      exact (or_congr_right ih).trans (by simp)

theorem covers_of_testBit_bits {runs : List CaseRun} {code : Nat}
    (h : (bits runs).testBit code = false) : ∀ run ∈ runs, run.covers code = false := by
  intro run hrun
  rw [← Bool.not_eq_true] at h ⊢
  exact fun hcovers => h (testBit_bits.mpr ⟨run, hrun, mem_codes_of_covers hcovers⟩)

end CaseRun

-- The codes beyond ASCII of characters that have another upper case.
def foreignRuns : List CaseRun :=
  (upperExpansions.map fun entry => .between entry.1 entry.1) ++ upperRuns

def movedRuns : List CaseRun := .between 0x61 0x7A :: foreignRuns

def blankRuns : List CaseRun := blankRanges.map fun range => .between range.1 range.2

-- The character is its own upper case.
def Stays (code : Nat) : Prop := ∀ run ∈ movedRuns, run.covers code = false

-- What upper case is made of: characters that are their own upper case, and no blanks.
def Settled (code : Nat) : Prop := ∀ run ∈ movedRuns ++ blankRuns, run.covers code = false

theorem settled_iff {code : Nat} :
    Settled code ↔ Stays code ∧ inRanges blankRanges code = false := by
  have hblank : (∀ run ∈ blankRuns, run.covers code = false) ↔
      inRanges blankRanges code = false := by
    simp only [blankRuns, List.forall_mem_map, ← Bool.not_eq_true, CaseRun.covers_between,
      inRanges, List.any_eq_true, Bool.and_eq_true, decide_eq_true_eq, not_exists, not_and]
  rw [← hblank]
  exact List.forall_mem_append

theorem stays_iff {code : Nat} : Stays code ↔ ¬(0x61 ≤ code ∧ code ≤ 0x7A) ∧
    upperExpansions.lookup code = none ∧ ∀ run ∈ upperRuns, run.covers code = false := by
  have hlookup : (∀ run ∈ upperExpansions.map fun entry => CaseRun.between entry.1 entry.1,
      run.covers code = false) ↔ upperExpansions.lookup code = none := by
    rw [List.forall_mem_map, List.lookup_eq_none_iff]
    refine forall₂_congr fun entry _ => ?_
    rw [← Bool.not_eq_true, CaseRun.covers_between, bne_iff_ne]
    omega
  rw [← hlookup, Stays, movedRuns, foreignRuns, List.forall_mem_cons, List.forall_mem_append,
    ← Bool.not_eq_true, CaseRun.covers_between]

-- The tables, checked in one go: what they take a character to stays as it is, and so do blanks.
theorem tables_settle :
    (∀ run ∈ foreignRuns, 128 ≤ run.first) ∧
      (∀ run ∈ upperRuns, ∀ code ∈ run.codes,
        (CaseRun.bits (movedRuns ++ blankRuns)).testBit (code + run.shift).toNat = false) ∧
      (∀ entry ∈ upperExpansions, entry.2 ≠ [] ∧ ∀ code ∈ entry.2,
        (CaseRun.bits (movedRuns ++ blankRuns)).testBit code = false) ∧
      ∀ run ∈ blankRuns, ∀ code ∈ run.codes, (CaseRun.bits movedRuns).testBit code = false := by
  decide +kernel

theorem stays_of_ascii {code : Nat} (h : code < 128) (hlower : ¬(0x61 ≤ code ∧ code ≤ 0x7A)) :
    Stays code := by
  refine List.forall_mem_cons.mpr ⟨?_, fun run hrun => ?_⟩
  · rwa [← Bool.not_eq_true, CaseRun.covers_between]
  · have hfirst := tables_settle.1 run hrun
    rw [← Bool.not_eq_true, CaseRun.covers_iff]
    omega

theorem settled_toNat_ofNat {code : Nat} (h : Settled code) : Settled (Char.ofNat code).toNat := by
  unfold Char.ofNat
  by_cases hvalid : code.isValidChar
  · rw [dif_pos hvalid]
    exact h
  · rw [dif_neg hvalid]
    exact settled_iff.mpr ⟨stays_of_ascii (by decide) (by decide), rfl⟩

theorem upperChar_of_stays {c : Char} (h : Stays c.toNat) : upperChar c = [c] := by
  obtain ⟨hlower, hlookup, hruns⟩ := stays_iff.mp h
  unfold upperChar
  split
  · have hsame : c.toUpper = c := by
      unfold Char.toUpper
      rw [dif_neg]
      rintro ⟨hlow, hhigh⟩
      exact hlower ⟨hlow, hhigh⟩
    rw [hsame]
  · have hnone : upperRuns.find? (·.covers c.toNat) = none :=
      List.find?_eq_none.mpr fun run hrun => by simp [hruns run hrun]
    simp only [hlookup, CaseRun.apply, hnone]

theorem stays_of_isBlank {c : Char} (h : isBlank c = true) : Stays c.toNat := by
  obtain ⟨range, hrange, hwithin⟩ := List.any_eq_true.mp h
  have hcovers : (CaseRun.between range.1 range.2).covers c.toNat = true := by
    rw [CaseRun.covers_between]
    simpa using hwithin
  obtain ⟨-, -, -, hstays⟩ := tables_settle
  exact CaseRun.covers_of_testBit_bits
    (hstays _ (List.mem_map_of_mem hrange) _ (CaseRun.mem_codes_of_covers hcovers))

section Ascii

-- The characters that have their upper case without a table.
theorem ascii_cases {c : Char} (hc : c.toNat < 128) :
    upperChar c.toLower = upperChar c ∧ isBlank c.toLower = isBlank c ∧
      isBlank c.toUpper = isBlank c ∧ c.toUpper.toNat < 128 ∧
      ¬(0x61 ≤ c.toUpper.toNat ∧ c.toUpper.toNat ≤ 0x7A) := by
  have hall : ∀ code ∈ List.range 128, let c := Char.ofNat code
      upperChar c.toLower = upperChar c ∧ isBlank c.toLower = isBlank c ∧
        isBlank c.toUpper = isBlank c ∧ c.toUpper.toNat < 128 ∧
        ¬(0x61 ≤ c.toUpper.toNat ∧ c.toUpper.toNat ≤ 0x7A) := by decide +kernel
  have hchar := hall c.toNat (List.mem_range.mpr hc)
  rwa [Char.ofNat_toNat] at hchar

theorem toLower_of_foreign {c : Char} (h : ¬c.toNat < 128) : c.toLower = c := by
  unfold Char.toLower
  rw [dif_neg]
  rintro ⟨-, hhigh⟩
  have hhigh : c.toNat ≤ 90 := hhigh
  omega

theorem upperChar_toLower (c : Char) : upperChar c.toLower = upperChar c := by
  by_cases hc : c.toNat < 128
  · exact (ascii_cases hc).1
  · rw [toLower_of_foreign hc]

theorem isBlank_toLower (c : Char) : isBlank c.toLower = isBlank c := by
  by_cases hc : c.toNat < 128
  · exact (ascii_cases hc).2.1
  · rw [toLower_of_foreign hc]

theorem settled_toUpper {c : Char} (hc : c.toNat < 128) (hblank : isBlank c = false) :
    Settled c.toUpper.toNat := by
  obtain ⟨-, -, hupper, hascii, hlower⟩ := ascii_cases hc
  exact settled_iff.mpr ⟨stays_of_ascii hascii hlower, hupper.trans hblank⟩

end Ascii

theorem mem_of_lookup {code : Nat} {codes : List Nat}
    (h : upperExpansions.lookup code = some codes) : (code, codes) ∈ upperExpansions := by
  obtain ⟨before, after, hsplit, -⟩ := List.lookup_eq_some_iff.mp h
  rw [hsplit]
  exact List.mem_append_right _ List.mem_cons_self

theorem settled_apply {c : Char} (hc : isBlank c = false) (hforeign : ¬c.toNat < 128)
    (hlookup : upperExpansions.lookup c.toNat = none) :
    Settled (CaseRun.apply upperRuns c).toNat := by
  unfold CaseRun.apply
  split
  · rename_i run hfind
    have hrun : run ∈ upperRuns := List.mem_of_find?_eq_some hfind
    have hcovers : run.covers c.toNat = true := by simpa using List.find?_some hfind
    obtain ⟨-, hsettles, -, -⟩ := tables_settle
    apply settled_toNat_ofNat
    exact CaseRun.covers_of_testBit_bits
      (hsettles run hrun _ (CaseRun.mem_codes_of_covers hcovers))
  · rename_i hnone
    refine settled_iff.mpr ⟨stays_iff.mpr ⟨by omega, hlookup, fun run hrun => ?_⟩, hc⟩
    simpa using List.find?_eq_none.mp hnone run hrun

theorem settled_of_mem_upperChar {c d : Char} (hc : isBlank c = false) (hd : d ∈ upperChar c) :
    Settled d.toNat := by
  unfold upperChar at hd
  split at hd
  · rename_i hascii
    rw [List.mem_singleton.mp hd]
    exact settled_toUpper hascii hc
  split at hd
  · rename_i codes hlookup
    obtain ⟨code, hcode, rfl⟩ := List.mem_map.mp hd
    obtain ⟨-, -, hsettles, -⟩ := tables_settle
    exact settled_toNat_ofNat
      (CaseRun.covers_of_testBit_bits ((hsettles _ (mem_of_lookup hlookup)).2 code hcode))
  · rename_i hforeign _ hlookup
    rw [List.mem_singleton.mp hd]
    exact settled_apply hc hforeign hlookup

theorem upperChar_ne_nil (c : Char) : upperChar c ≠ [] := by
  unfold upperChar
  split
  · nofun
  split
  · rename_i codes hlookup
    obtain ⟨-, -, hsettles, -⟩ := tables_settle
    simpa using (hsettles _ (mem_of_lookup hlookup)).1
  · nofun

theorem upperCase_of_forall {s : List Char} (h : ∀ c ∈ s, upperChar c = [c]) :
    upperCase s = s := by
  induction s with
  | nil => rfl
  | cons c rest ih =>
      rw [upperCase_cons, h c List.mem_cons_self, ih fun d hd => h d (List.mem_cons_of_mem _ hd),
        List.singleton_append]

theorem upperCase_upperChar (c : Char) : upperCase (upperChar c) = upperChar c := by
  apply upperCase_of_forall
  intro d hd
  cases hc : isBlank c with
  | true =>
      have hself := upperChar_of_stays (stays_of_isBlank hc)
      rw [hself] at hd
      rwa [List.mem_singleton.mp hd]
  | false => exact upperChar_of_stays (settled_iff.mp (settled_of_mem_upperChar hc hd)).1

-- Upper case stays as it is.
theorem upperCase_upperCase (s : List Char) : upperCase (upperCase s) = upperCase s := by
  induction s with
  | nil => rfl
  | cons c rest ih => rw [upperCase_cons, upperCase_append, upperCase_upperChar, ih]

theorem upperCase_map_toLower (s : List Char) : upperCase (s.map Char.toLower) = upperCase s := by
  induction s with
  | nil => rfl
  | cons c rest ih => rw [List.map_cons, upperCase_cons, upperChar_toLower, ih, upperCase_cons]

section Trim

theorem isBlank_of_mem_upperChar {c d : Char} (hc : isBlank c = false) (hd : d ∈ upperChar c) :
    isBlank d = false :=
  (settled_iff.mp (settled_of_mem_upperChar hc hd)).2

-- What is no blank becomes no blank, so the ends stay free of them.
theorem Tight.upperCase {s : List Char} (h : Tight s) : Tight (upperCase s) where
  first := by
    cases s with
    | nil => exact h.first
    | cons c rest =>
        intro d hd
        rw [upperCase_cons, List.head?_append_of_ne_nil _ (upperChar_ne_nil c)] at hd
        exact isBlank_of_mem_upperChar (h.first c rfl) (List.mem_of_mem_head? hd)
  last := by
    rcases List.eq_nil_or_concat s with rfl | ⟨front, c, rfl⟩
    · exact h.last
    · intro d hd
      rw [List.concat_eq_append, upperCase_append, upperCase_cons, upperCase_nil, List.append_nil,
        List.getLast?_append_of_ne_nil _ (upperChar_ne_nil c)] at hd
      exact isBlank_of_mem_upperChar (h.last c (by simp)) (List.mem_of_mem_getLast? hd)

theorem AllBlank.upperCase {s : List Char} (h : AllBlank s) : upperCase s = s :=
  upperCase_of_forall fun c hc => upperChar_of_stays (stays_of_isBlank (h c hc))

theorem trim_upperCase (s : List Char) : trim (upperCase s) = upperCase (trim s) := by
  obtain ⟨before, after, hbefore, hafter, hsplit⟩ := exists_eq_append_trim s
  refine trim_eq_iff.mpr ⟨(tight_trim s).upperCase, before, after, hbefore, hafter, ?_⟩
  calc upperCase s
      = upperCase (before ++ trim s ++ after) := by rw [← hsplit]
    _ = before ++ upperCase (trim s) ++ after := by
        rw [upperCase_append, upperCase_append, hbefore.upperCase, hafter.upperCase]

theorem AllBlank.map_toLower {s : List Char} (h : AllBlank s) : AllBlank (s.map Char.toLower) := by
  intro c hc
  obtain ⟨d, hd, rfl⟩ := List.mem_map.mp hc
  rw [isBlank_toLower]
  exact h d hd

theorem Tight.map_toLower {s : List Char} (h : Tight s) : Tight (s.map Char.toLower) where
  first := by
    simpa [List.head?_map, isBlank_toLower] using h.first
  last := by
    simpa [List.getLast?_map, isBlank_toLower] using h.last

theorem trim_map_toLower (s : List Char) :
    trim (s.map Char.toLower) = (trim s).map Char.toLower := by
  obtain ⟨before, after, hbefore, hafter, hsplit⟩ := exists_eq_append_trim s
  refine trim_eq_iff.mpr ⟨(tight_trim s).map_toLower, before.map Char.toLower,
    after.map Char.toLower, hbefore.map_toLower, hafter.map_toLower, ?_⟩
  rw [← List.map_append, ← List.map_append, ← hsplit]

end Trim

end DeclarationWatch.Text
