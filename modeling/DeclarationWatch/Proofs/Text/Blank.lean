import DeclarationWatch.Text.Blank
import Mathlib.Data.List.Basic
import Mathlib.Data.List.TakeWhile

namespace DeclarationWatch.Text

def AllBlank (s : List Char) : Prop := ∀ c ∈ s, isBlank c = true

instance : DecidablePred AllBlank := fun s =>
  List.decidableBAll (fun c => isBlank c = true) s

-- A text with no blank at its ends.
structure Tight (s : List Char) : Prop where
  first : ∀ c ∈ s.head?, isBlank c = false
  last : ∀ c ∈ s.getLast?, isBlank c = false

theorem AllBlank.append {s t : List Char} (hs : AllBlank s) (ht : AllBlank t) :
    AllBlank (s ++ t) :=
  List.forall_mem_append.mpr ⟨hs, ht⟩

theorem AllBlank.reverse {s : List Char} (h : AllBlank s) : AllBlank s.reverse :=
  fun c hc => h c (List.mem_reverse.mp hc)

theorem Tight.of_forall {s : List Char} (h : ∀ c ∈ s, isBlank c = false) : Tight s where
  first := fun c hc => h c (List.mem_of_mem_head? hc)
  last := fun c hc => h c (List.mem_of_mem_getLast? hc)

theorem allBlank_takeWhile (s : List Char) : AllBlank (s.takeWhile isBlank) :=
  fun _ hc => List.mem_takeWhile_imp hc

theorem trimStart_eq_self {s : List Char} (h : ∀ c ∈ s.head?, isBlank c = false) :
    trimStart s = s := by
  cases s with
  | nil => rfl
  | cons c rest => simp [trimStart, h c rfl]

theorem trimStart_append {before : List Char} (h : AllBlank before) (s : List Char) :
    trimStart (before ++ s) = trimStart s :=
  List.dropWhile_append_of_pos h

theorem first_trimStart (s : List Char) : ∀ c ∈ (trimStart s).head?, isBlank c = false := by
  intro c hc
  have hhead := List.head?_dropWhile_not isBlank s
  rw [trimStart] at hc
  rw [Option.mem_def.mp hc] at hhead
  simpa using hhead

theorem trimEnd_eq_self {s : List Char} (h : ∀ c ∈ s.getLast?, isBlank c = false) :
    trimEnd s = s := by
  rw [trimEnd, trimStart_eq_self (by simpa using h), List.reverse_reverse]

theorem trimEnd_append {after : List Char} (h : AllBlank after) (s : List Char) :
    trimEnd (s ++ after) = trimEnd s := by
  rw [trimEnd, List.reverse_append, trimStart_append h.reverse, trimEnd]

theorem exists_eq_trimEnd_append (s : List Char) :
    ∃ after, AllBlank after ∧ s = trimEnd s ++ after := by
  refine ⟨(s.reverse.takeWhile isBlank).reverse, (allBlank_takeWhile _).reverse, ?_⟩
  rw [trimEnd, trimStart, ← List.reverse_append, List.takeWhile_append_dropWhile,
    List.reverse_reverse]

-- Dropping blanks at the end leaves the first character, unless it leaves nothing.
theorem tight_trim (s : List Char) : Tight (trim s) where
  first := by
    intro c hc
    obtain ⟨after, -, hsplit⟩ := exists_eq_trimEnd_append (trimStart s)
    apply first_trimStart s c
    rw [hsplit]
    exact List.mem_head?_append_of_mem_head? hc
  last := by
    rw [trim, trimEnd, List.getLast?_reverse]
    exact first_trimStart _

-- A text is what is left of it between the blanks at its ends.
theorem exists_eq_append_trim (s : List Char) :
    ∃ before after, AllBlank before ∧ AllBlank after ∧ s = before ++ trim s ++ after := by
  obtain ⟨after, hafter, hsplit⟩ := exists_eq_trimEnd_append (trimStart s)
  refine ⟨s.takeWhile isBlank, after, allBlank_takeWhile s, hafter, ?_⟩
  rw [List.append_assoc, trim, ← hsplit, trimStart, List.takeWhile_append_dropWhile]

theorem trim_of_tight {before s after : List Char} (hbefore : AllBlank before)
    (hafter : AllBlank after) (h : Tight s) : trim (before ++ s ++ after) = s := by
  rw [List.append_assoc, trim, trimStart_append hbefore]
  cases s with
  | nil =>
      have hnone : trimStart after = [] := List.dropWhile_eq_nil_iff.mpr hafter
      rw [List.nil_append, hnone]
      rfl
  | cons c rest =>
      rw [trimStart_eq_self (by simpa using h.first), trimEnd_append hafter,
        trimEnd_eq_self h.last]

theorem trim_eq_iff {s t : List Char} : trim s = t ↔ Tight t ∧
    ∃ before after, AllBlank before ∧ AllBlank after ∧ s = before ++ t ++ after := by
  constructor
  · rintro rfl
    exact ⟨tight_trim s, exists_eq_append_trim s⟩
  · rintro ⟨htight, before, after, hbefore, hafter, rfl⟩
    exact trim_of_tight hbefore hafter htight

theorem trim_of_self {s : List Char} (h : Tight s) : trim s = s :=
  trim_eq_iff.mpr ⟨h, [], [], nofun, nofun, by simp⟩

-- More blanks at the ends make no difference.
theorem trim_padded {before after : List Char} (hbefore : AllBlank before)
    (hafter : AllBlank after) (s : List Char) : trim (before ++ s ++ after) = trim s := by
  obtain ⟨first, last, hfirst, hlast, hsplit⟩ := exists_eq_append_trim s
  refine trim_eq_iff.mpr
    ⟨tight_trim s, before ++ first, last ++ after, hbefore.append hfirst, hlast.append hafter, ?_⟩
  calc before ++ s ++ after
      = before ++ (first ++ trim s ++ last) ++ after := by rw [← hsplit]
    _ = before ++ first ++ trim s ++ (last ++ after) := by simp only [List.append_assoc]

end DeclarationWatch.Text
