import DeclarationWatch.Mrn
import DeclarationWatch.Proofs.Text.UpperCase
import Mathlib.Logic.Relation

namespace DeclarationWatch.Mrn

-- Two digits of the year, two letters of the country, fourteen letters or digits, and no more.
def HasForm (s : List Char) : Prop :=
  ∃ year country serial, s = year ++ (country ++ serial) ∧
    (year.length = 2 ∧ ∀ c ∈ year, Text.isDecimalDigit c = true) ∧
    (country.length = 2 ∧ ∀ c ∈ country, 'A' ≤ c ∧ c ≤ 'Z') ∧
    (serial.length = 14 ∧ ∀ c ∈ serial, ('A' ≤ c ∧ c ≤ 'Z') ∨ ('0' ≤ c ∧ c ≤ '9'))

-- Two spellings of one reference: one has more blanks around it, or ASCII letters are in another
-- case.
inductive Respelled : List Char → List Char → Prop where
  | padded (before s after : List Char) (hbefore : Text.AllBlank before)
      (hafter : Text.AllBlank after) : Respelled s (before ++ s ++ after)
  | recased {s t : List Char} (h : s.map Char.toLower = t.map Char.toLower) : Respelled s t

theorem isUpper_iff {c : Char} : isUpper c = true ↔ 'A' ≤ c ∧ c ≤ 'Z' := by
  simp [isUpper]

theorem isUpperOrDigit_iff {c : Char} :
    isUpperOrDigit c = true ↔ ('A' ≤ c ∧ c ≤ 'Z') ∨ ('0' ≤ c ∧ c ≤ '9') := by
  simp [isUpperOrDigit, isUpper_iff]

theorem isWellFormed_iff {s : List Char} : isWellFormed s = true ↔ HasForm s := by
  simp only [isWellFormed, Bool.and_eq_true, beq_iff_eq, List.all_eq_true, isUpper_iff,
    isUpperOrDigit_iff]
  constructor
  · rintro ⟨⟨⟨hlength, hyear⟩, hcountry⟩, hserial⟩
    refine ⟨s.take 2, (s.drop 2).take 2, s.drop 4, ?_, ⟨?_, hyear⟩, ⟨?_, hcountry⟩, ?_, hserial⟩
    · have hdrop : s.drop 4 = (s.drop 2).drop 2 := by rw [List.drop_drop]
      rw [hdrop, List.take_append_drop, List.take_append_drop]
    · simp [hlength]
    · simp [hlength]
    · simp [hlength]
  · rintro ⟨year, country, serial, rfl, ⟨hyears, hyear⟩, ⟨hcountries, hcountry⟩, hserials, hserial⟩
    have hrest : (year ++ (country ++ serial)).drop 2 = country ++ serial := List.drop_left' hyears
    refine ⟨⟨⟨?_, ?_⟩, ?_⟩, ?_⟩
    · simp [hyears, hcountries, hserials]
    · rwa [List.take_left' hyears]
    · rwa [hrest, List.take_left' hcountries]
    · have hdrop : (year ++ (country ++ serial)).drop 4 =
          ((year ++ (country ++ serial)).drop 2).drop 2 := by rw [List.drop_drop]
      rwa [hdrop, hrest, List.drop_left' hcountries]

-- What is canonical is trimmed and in upper case, and stays so.
theorem canonicalChars_canonicalChars (s : List Char) :
    canonicalChars (canonicalChars s) = canonicalChars s := by
  rw [canonicalChars, canonicalChars, Text.trim_upperCase, Text.trim_of_self (Text.tight_trim s),
    Text.upperCase_upperCase]

theorem canonical_canonical (raw : String) : canonical (canonical raw) = canonical raw := by
  simp only [canonical, String.toList_ofList, canonicalChars_canonicalChars]

theorem canonicalChars_map_toLower (s : List Char) :
    canonicalChars (s.map Char.toLower) = canonicalChars s := by
  rw [canonicalChars, Text.trim_map_toLower, Text.upperCase_map_toLower, canonicalChars]

theorem Respelled.canonicalChars_eq {s t : List Char} (h : Respelled s t) :
    canonicalChars t = canonicalChars s := by
  cases h with
  | padded before _ after hbefore hafter =>
      rw [canonicalChars, Text.trim_padded hbefore hafter, canonicalChars]
  | recased h => rw [← canonicalChars_map_toLower, ← h, canonicalChars_map_toLower]

-- All spellings of a reference, however far they are from each other, are the same in the end.
theorem canonicalChars_of_eqvGen {s t : List Char} (h : Relation.EqvGen Respelled s t) :
    canonicalChars t = canonicalChars s := by
  induction h with
  | rel _ _ h => exact h.canonicalChars_eq
  | refl _ => rfl
  | symm _ _ _ ih => exact ih.symm
  | trans _ _ _ _ _ ih ih' => exact ih'.trans ih

theorem ofText_eq_ok_iff {raw : String} {mrn : Mrn} :
    ofText raw = .ok mrn ↔ mrn.text = canonical raw := by
  unfold ofText
  split
  · rename_i hform
    rw [Except.ok.injEq, eq_comm, Mrn.mk.injEq]
  · rename_i hform
    refine ⟨nofun, fun htext => absurd ?_ hform⟩
    rw [← htext]
    exact mrn.wellFormed

theorem exists_ofText_eq_ok_iff {raw : String} :
    (∃ mrn, ofText raw = .ok mrn) ↔ HasForm (canonical raw).toList := by
  simp only [ofText_eq_ok_iff, ← isWellFormed_iff]
  constructor
  · rintro ⟨mrn, htext⟩
    rw [← htext]
    exact mrn.wellFormed
  · exact fun hform => ⟨⟨canonical raw, hform⟩, rfl⟩

theorem ofText_of_not_hasForm {raw : String} (h : ¬HasForm (canonical raw).toList) :
    ofText raw = .error (malformed raw) := by
  rw [ofText, dif_neg (by rwa [isWellFormed_iff])]

-- The canonical form is a normal form: it is its own, all spellings of a reference have the same
-- one, and it alone decides whether the reference is a movement reference number, and which.
theorem canonical_normalizes (raw : String) :
    canonical (canonical raw) = canonical raw ∧
      ((∃ mrn, ofText raw = .ok mrn) ↔ HasForm (canonical raw).toList) ∧
      (∀ mrn, ofText raw = .ok mrn → mrn.text = canonical raw ∧ ofText mrn.text = .ok mrn) ∧
      ∀ other : String, Relation.EqvGen Respelled raw.toList other.toList →
        canonical other = canonical raw ∧ ∀ mrn, ofText other = .ok mrn ↔ ofText raw = .ok mrn := by
  refine ⟨canonical_canonical raw, exists_ofText_eq_ok_iff, fun mrn hmrn => ?_,
    fun other hsame => ?_⟩
  · have htext := ofText_eq_ok_iff.mp hmrn
    exact ⟨htext, ofText_eq_ok_iff.mpr (by rw [htext, canonical_canonical])⟩
  · have hcanonical : canonical other = canonical raw := by
      rw [canonical, canonicalChars_of_eqvGen hsame, canonical]
    refine ⟨hcanonical, fun mrn => ?_⟩
    rw [ofText_eq_ok_iff, ofText_eq_ok_iff, hcanonical]

-- A sharp s becomes two letters, with which the reference has its form.
theorem canonical_normalizes_sharpS :
    let raw := " 24gbabcdefghijkß1"
    ∃ mrn, ofText raw = .ok mrn ∧ mrn.text = "24GBABCDEFGHIJKSS1" ∧ ofText mrn.text = .ok mrn ∧
      ofText "24GBabcdefghijkß1\u3000" = .ok mrn := by
  intro raw
  have hcanonical : canonical raw = "24GBABCDEFGHIJKSS1" := by decide
  obtain ⟨-, hform, hself, hsame⟩ := canonical_normalizes raw
  obtain ⟨mrn, hmrn⟩ := hform.mpr (isWellFormed_iff.mp (by rw [hcanonical]; decide))
  obtain ⟨htext, hagain⟩ := hself mrn hmrn
  have hbare : Respelled "24gbabcdefghijkß1".toList raw.toList := by
    have hraw : raw.toList = [' '] ++ "24gbabcdefghijkß1".toList ++ [] := by decide
    rw [hraw]
    exact .padded _ _ _ (by decide) (by decide)
  have hcase : Respelled "24gbabcdefghijkß1".toList "24GBabcdefghijkß1".toList :=
    .recased (by decide)
  have hpadded : Respelled "24GBabcdefghijkß1".toList "24GBabcdefghijkß1\u3000".toList := by
    have hother : "24GBabcdefghijkß1\u3000".toList =
        [] ++ "24GBabcdefghijkß1".toList ++ ['\u3000'] := by decide
    rw [hother]
    exact .padded _ _ _ (by decide) (by decide)
  have hchain : Relation.EqvGen Respelled raw.toList "24GBabcdefghijkß1\u3000".toList :=
    .trans _ _ _ (.symm _ _ (.rel _ _ hbare)) (.trans _ _ _ (.rel _ _ hcase) (.rel _ _ hpadded))
  exact ⟨mrn, hmrn, htext.trans hcanonical, hagain, ((hsame _ hchain).2 mrn).mpr hmrn⟩

end DeclarationWatch.Mrn
