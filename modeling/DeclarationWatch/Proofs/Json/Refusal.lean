import DeclarationWatch.Proofs.Json.Acceptance
import DeclarationWatch.Proofs.Json.Reordering

namespace DeclarationWatch.Json

section Skims

theorem skimItems_eq_none : ∀ {items : List Node}, Node.skimItems items = none →
    ∀ item ∈ items, item.skim = none
  | [], _ => by simp
  | item :: items, h => by
      rw [Node.skimItems, Option.or_eq_none_iff] at h
      exact List.forall_mem_cons.mpr ⟨h.1, skimItems_eq_none h.2⟩

theorem skimMembers_eq_none : ∀ {members : List (Piece × Node)}, Node.skimMembers members = none →
    ∀ member ∈ members, member.2.skim = none
  | [], _ => by simp
  | (key, value) :: members, h => by
      rw [Node.skimMembers, Option.or_eq_none_iff, Option.or_eq_none_iff] at h
      exact List.forall_mem_cons.mpr ⟨h.2.1, skimMembers_eq_none h.2.2⟩

-- A broken node cannot even be passed over.
theorem Node.Broken.skim_ne_none {node : Node} (h : node.Broken) : node.skim ≠ none := by
  induction h with
  | absent fault => simp [skim]
  | string _ unended => exact unended
  | openArray items fault => simp [skim]
  | item listed _ ih =>
      intro hskim
      rw [skim, Option.or_eq_none_iff] at hskim
      exact ih (skimItems_eq_none hskim.1 _ listed)
  | openObject members fault => simp [skim]
  | member listed _ ih =>
      intro hskim
      rw [skim, Option.or_eq_none_iff] at hskim
      exact ih (skimMembers_eq_none hskim.1 _ listed)

end Skims

-- Nothing is read from a broken node.
def Decoder.Thorough {α : Type} (decode : Decoder α) : Prop :=
  ∀ {node : Node}, node.Broken → ∀ levels a, decode levels node ≠ .ok a

namespace Field

variable {σ β : Type}

def Thorough (field : Field σ) : Prop :=
  ∀ {node : Node}, node.Broken → ∀ draft levels next, field.store draft levels node ≠ .ok next

theorem Puts.thorough {field : Field σ} {decode : Decoder β} {set : σ → β → σ}
    (h : field.Puts decode set) (hdecode : decode.Thorough) : field.Thorough := by
  intro node hbroken draft levels next hnext
  rw [h] at hnext
  obtain ⟨value, hvalue, -⟩ := Decoder.map_eq_ok.mp hnext
  exact hdecode hbroken levels value hvalue

end Field

namespace Decoder

variable {α σ : Type} {decode : Decoder α} {levels : Nat}

theorem close_some {fault : Fault} {u : Unit} : close (some fault) ≠ .ok u := by
  intro h
  cases h

theorem thorough_string : Thorough string := by
  intro node hbroken levels a h
  cases hbroken with
  | string unread => simp [string, unread] at h
  | _ => cases h

theorem exists_of_listItems {items : List Node} {values : List α}
    (h : listItems decode levels items = .ok values) :
    ∀ item ∈ items, ∃ a, decode levels item = .ok a := by
  induction items generalizing values with
  | nil => simp
  | cons item items ih =>
      simp only [listItems, bind_eq_ok] at h
      obtain ⟨first, hfirst, others, hothers, -⟩ := h
      exact List.forall_mem_cons.mpr ⟨⟨first, hfirst⟩, ih hothers⟩

theorem Thorough.list (h : decode.Thorough) : (list decode).Thorough := by
  intro node hbroken levels values hvalues
  cases levels with
  | zero => cases hbroken <;> cases hvalues
  | succ levels =>
      cases hbroken with
      | openArray items fault =>
          simp only [Decoder.list, bind_eq_ok] at hvalues
          obtain ⟨_, -, _, hclose, -⟩ := hvalues
          exact close_some hclose
      | item listed inside =>
          simp only [Decoder.list, bind_eq_ok] at hvalues
          obtain ⟨decoded, hdecoded, -⟩ := hvalues
          obtain ⟨a, ha⟩ := exists_of_listItems hdecoded _ listed
          exact h inside levels a ha
      | _ => cases hvalues

theorem exists_of_valueMembers {members : List (Piece × Node)} {table last : Keyed Json}
    (h : valueMembers levels table members = .ok last) :
    ∀ member ∈ members, ∃ v, value levels member.2 = .ok v := by
  induction members generalizing table with
  | nil => simp
  | cons member members ih =>
      obtain ⟨key, node⟩ := member
      simp only [valueMembers, bind_eq_ok] at h
      obtain ⟨_, -, v, hv, h⟩ := h
      exact List.forall_mem_cons.mpr ⟨⟨v, hv⟩, ih h⟩

theorem thorough_value : Thorough value := by
  intro node hbroken
  induction hbroken with
  | absent fault =>
      intro levels a h
      simp [value] at h
  | string unread =>
      intro levels a h
      simp [value, unread, Except.map] at h
  | openArray items fault =>
      intro levels a h
      cases levels with
      | zero => simp [value] at h
      | succ levels =>
          simp only [value, bind_eq_ok] at h
          obtain ⟨_, -, _, hclose, -⟩ := h
          exact close_some hclose
  | item listed _ ih =>
      intro levels a h
      cases levels with
      | zero => simp [value] at h
      | succ levels =>
          simp only [value, valueItems_eq, bind_eq_ok] at h
          obtain ⟨values, hvalues, -⟩ := h
          obtain ⟨v, hv⟩ := exists_of_listItems hvalues _ listed
          exact ih levels v hv
  | openObject members fault =>
      intro levels a h
      cases levels with
      | zero => simp [value] at h
      | succ levels =>
          simp only [value, bind_eq_ok] at h
          obtain ⟨_, -, _, hclose, -⟩ := h
          exact close_some hclose
  | member listed _ ih =>
      intro levels a h
      cases levels with
      | zero => simp [value] at h
      | succ levels =>
          simp only [value, bind_eq_ok] at h
          obtain ⟨table, htable, -⟩ := h
          obtain ⟨v, hv⟩ := exists_of_valueMembers htable _ listed
          exact ih levels v hv

section Records

variable {fields : List (Field σ)} {empty : σ}

theorem exists_of_recordMembers {members : List (Piece × Node)} {draft last : σ}
    (h : recordMembers fields levels draft members = .ok last) : ∀ member ∈ members,
      member.2.skim = none ∨
        ∃ field ∈ fields, ∃ draft next, field.store draft levels member.2 = .ok next := by
  induction members generalizing draft with
  | nil => simp
  | cons member members ih =>
      obtain ⟨key, node⟩ := member
      simp only [recordMembers, bind_eq_ok] at h
      obtain ⟨name, -, h⟩ := h
      split at h
      · obtain ⟨_, hskim, h⟩ := bind_eq_ok.mp h
        refine List.forall_mem_cons.mpr ⟨Or.inl ?_, ih h⟩
        cases hnode : node.skim with
        | none => rfl
        | some fault => exact absurd (hnode ▸ hskim) close_some
      · rename_i field hfield
        split at h
        · cases h
        · obtain ⟨next, hnext, h⟩ := bind_eq_ok.mp h
          exact List.forall_mem_cons.mpr
            ⟨Or.inr ⟨field, List.mem_of_find?_eq_some hfield, draft, next, hnext⟩, ih h⟩

theorem exists_of_recordItems {items : List Node} {cut : Option Fault} {draft last : σ}
    (h : recordItems levels cut draft fields items = .ok last) : ∀ item ∈ items,
      ∃ field ∈ fields, ∃ draft next, field.store draft levels item = .ok next := by
  induction fields generalizing items draft with
  | nil =>
      cases items with
      | nil => simp
      | cons item items => cases h
  | cons field fields ih =>
      cases items with
      | nil => simp
      | cons item items =>
          simp only [recordItems, bind_eq_ok] at h
          obtain ⟨next, hnext, h⟩ := h
          refine List.forall_mem_cons.mpr ⟨⟨field, List.mem_cons_self, draft, next, hnext⟩, ?_⟩
          intro other hother
          obtain ⟨later, hlater, hstore⟩ := ih h other hother
          exact ⟨later, List.mem_cons_of_mem _ hlater, hstore⟩

-- Whatever ends the array is looked at, since no item may be left over.
theorem recordItems_ne_ok_of_cut {items : List Node} {fault : Fault} {draft last : σ} :
    recordItems levels (some fault) draft fields items ≠ .ok last := by
  induction fields generalizing items draft with
  | nil => cases items <;> exact fun h => by cases h
  | cons field fields ih =>
      cases items with
      | nil => exact fun h => by cases h
      | cons item items =>
          intro h
          simp only [recordItems, bind_eq_ok] at h
          obtain ⟨next, -, h⟩ := h
          exact ih h

theorem thorough_record (hfields : ∀ field ∈ fields, field.Thorough) :
    (record fields empty).Thorough := by
  intro node hbroken levels last h
  cases levels with
  | zero => cases hbroken <;> cases h
  | succ levels =>
      cases hbroken with
      | openArray items fault => exact recordItems_ne_ok_of_cut h
      | item listed inside =>
          obtain ⟨field, hfield, draft, next, hnext⟩ := exists_of_recordItems h _ listed
          exact hfields field hfield inside draft levels next hnext
      | openObject members fault =>
          simp only [record, recordObject, bind_eq_ok] at h
          obtain ⟨_, -, _, hclose, -⟩ := h
          exact close_some hclose
      | member listed inside =>
          simp only [record, recordObject, bind_eq_ok] at h
          obtain ⟨draft, hmembers, -⟩ := h
          rcases exists_of_recordMembers hmembers _ listed with hskim | hstored
          · exact inside.skim_ne_none hskim
          · obtain ⟨field, hfield, draft, next, hnext⟩ := hstored
            exact hfields field hfield inside draft levels next hnext
      | _ => cases h

end Records

end Decoder

-- A text from which anything is read is one of the grammar.
theorem Decoder.Thorough.exists_spellsText {α : Type} {decode : Decoder α} (h : decode.Thorough)
    {s : String} {a : α} (hread : decodeText decode s = .ok a) :
    ∃ content, SpellsText s.toList content := by
  simp only [decodeText, Decoder.bind_eq_ok] at hread
  obtain ⟨value, hvalue, _, htrailing, -⟩ := hread
  refine exists_spellsText_of_not_broken (fun hbroken => h hbroken _ value hvalue) ?_
  cases hcut : (Document.ofText s.toList).trailing with
  | none => rfl
  | some fault => exact absurd (hcut ▸ htrailing) Decoder.close_some

end DeclarationWatch.Json
