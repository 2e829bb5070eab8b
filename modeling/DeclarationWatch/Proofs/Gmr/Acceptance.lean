import DeclarationWatch.Proofs.Gmr.Reordering
import DeclarationWatch.Proofs.Json.Refusal

namespace DeclarationWatch

open Json (Node Piece)
open Json.Decoder (bind_eq_ok close_some thorough_record thorough_string thorough_value)

namespace Gmr

theorem thorough_fieldFor (key : String) : (fieldFor key).Thorough := by
  rcases fieldFor_cases key with ⟨hmem, -⟩ | hpayload
  · simp only [fields, List.mem_cons, List.not_mem_nil, or_false] at hmem
    rcases hmem with hfield | hfield | hfield
    all_goals
      rw [hfield]
      exact Json.Field.Puts.thorough (fun _ _ _ => rfl) thorough_string
  · rw [hpayload]
    exact Json.Field.Puts.thorough (fun _ _ _ => rfl) thorough_value

theorem exists_of_decodeMembers {levels : Nat} {members : List (Piece × Node)} {draft last : Draft}
    (h : decodeMembers levels draft members = .ok last) : ∀ member ∈ members,
      ∃ key draft next, (fieldFor key).store draft levels member.2 = .ok next := by
  induction members generalizing draft with
  | nil => simp
  | cons member members ih =>
      obtain ⟨piece, node⟩ := member
      simp only [decodeMembers, bind_eq_ok] at h
      obtain ⟨key, -, h⟩ := h
      split at h
      · rename_i field hfield
        split at h
        · cases h
        · obtain ⟨next, hnext, h⟩ := bind_eq_ok.mp h
          have hstore : (fieldFor key).store draft levels node = .ok next := by
            rwa [fieldFor, hfield]
          exact List.forall_mem_cons.mpr ⟨⟨key, draft, next, hstore⟩, ih h⟩
      · rename_i hfield
        obtain ⟨value, hvalue, h⟩ := bind_eq_ok.mp h
        have hstore : (fieldFor key).store draft levels node =
            .ok { draft with payload := draft.payload.insert key value } := by
          rw [fieldFor, hfield, Option.getD_none]
          exact Json.Decoder.map_eq_ok.mpr ⟨value, hvalue, rfl⟩
        exact List.forall_mem_cons.mpr ⟨⟨key, draft, _, hstore⟩, ih h⟩

theorem thorough_decode : Json.Decoder.Thorough decode := by
  intro node hbroken levels gmr h
  cases levels with
  | zero => cases hbroken <;> cases h
  | succ levels =>
      cases hbroken with
      | openObject members fault =>
          simp only [decode, bind_eq_ok] at h
          obtain ⟨_, -, _, hclose, -⟩ := h
          exact close_some hclose
      | member listed inside =>
          simp only [decode, bind_eq_ok] at h
          obtain ⟨last, hlast, -⟩ := h
          obtain ⟨key, draft, next, hstore⟩ := exists_of_decodeMembers hlast _ listed
          exact thorough_fieldFor key inside draft levels next hstore
      | _ => cases h

end Gmr

theorem Association.thorough_decode : Json.Decoder.Thorough Association.decode := by
  intro node hbroken levels association h
  simp only [decode, bind_eq_ok] at h
  obtain ⟨draft, hrecord, -⟩ := h
  refine thorough_record ?_ hbroken levels draft hrecord
  intro field hfield
  simp only [List.mem_cons, List.not_mem_nil, or_false] at hfield
  rcases hfield with rfl | rfl
  · exact Json.Field.Puts.thorough (fun _ _ _ => rfl) thorough_string
  · exact Json.Field.Puts.thorough (fun _ _ _ => rfl) thorough_string.list

theorem SearchAnswer.thorough_decode : Json.Decoder.Thorough SearchAnswer.decode := by
  intro node hbroken levels answer h
  simp only [decode, bind_eq_ok] at h
  obtain ⟨draft, hrecord, -⟩ := h
  refine thorough_record ?_ hbroken levels draft hrecord
  intro field hfield
  simp only [List.mem_cons, List.not_mem_nil, or_false] at hfield
  rcases hfield with rfl | rfl
  · exact Json.Field.Puts.thorough (fun _ _ _ => rfl) Association.thorough_decode.list
  · exact Json.Field.Puts.thorough (fun _ _ _ => rfl) Gmr.thorough_decode.list

-- No answer is read but from a text of the grammar, and such a text says the same as itself.
theorem SearchAnswer.respelled_self {s : String} {answer : SearchAnswer}
    (h : ofText s = .ok answer) : Json.Respelled s s := by
  obtain ⟨content, hspelled⟩ := thorough_decode.exists_spellsText h
  exact ⟨content, content, hspelled, hspelled, .refl⟩

end DeclarationWatch
