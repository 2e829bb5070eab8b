import DeclarationWatch.Gmr.SearchAnswer
import DeclarationWatch.Proofs.Json.Reordering

namespace DeclarationWatch

open Json (Content storeMember)

namespace Gmr

-- Any member without a field keeps its value in the payload.
def payloadField (key : String) : Json.Field Draft :=
  .defaulted key Json.Decoder.value (fun _ => none) fun draft value =>
    { draft with payload := draft.payload.insert key value }

def fieldFor (key : String) : Json.Field Draft :=
  (fields.find? (·.name == key)).getD (payloadField key)

theorem fieldFor_cases (key : String) :
    (fieldFor key ∈ fields ∧ (fieldFor key).name = key) ∨ fieldFor key = payloadField key := by
  unfold fieldFor
  cases hfield : fields.find? (·.name == key) with
  | none => exact Or.inr rfl
  | some field =>
      exact Or.inl ⟨List.mem_of_find?_eq_some hfield, by simpa using List.find?_some hfield⟩

theorem steady_fieldFor (key : String) : (fieldFor key).Steady := by
  rcases fieldFor_cases key with ⟨hmem, -⟩ | hpayload
  · simp only [fields, List.mem_cons, List.not_mem_nil, or_false] at hmem
    rcases hmem with hfield | hfield | hfield
    all_goals
      rw [hfield]
      exact Json.Field.Puts.steady (fun _ _ _ => rfl) Json.Decoder.steady_string
  · rw [hpayload]
    exact Json.Field.Puts.steady (fun _ _ _ => rfl) Json.Decoder.steady_value

theorem allApart_fields : Json.Decoder.AllApart fields := by
  intro first hfirst second hsecond hnames
  simp only [fields, List.mem_cons, List.not_mem_nil, or_false] at hfirst hsecond
  rcases hfirst with rfl | rfl | rfl <;> rcases hsecond with rfl | rfl | rfl
  all_goals first
    | exact absurd rfl hnames
    | exact Json.Field.Puts.apart (fun _ _ _ => rfl) (fun _ _ _ => rfl) (fun _ _ => rfl)
        fun _ _ _ => rfl

section Payload

variable {field : Json.Field Draft} (hfield : field ∈ fields) (key : String)

include hfield

theorem apart_payloadField : field.Apart (payloadField key) := by
  simp only [fields, List.mem_cons, List.not_mem_nil, or_false] at hfield
  rcases hfield with rfl | rfl | rfl
  all_goals
    exact Json.Field.Puts.apart (fun _ _ _ => rfl) (fun _ _ _ => rfl) (fun _ _ => rfl)
      fun _ _ _ => rfl

theorem payloadField_apart : (payloadField key).Apart field := by
  simp only [fields, List.mem_cons, List.not_mem_nil, or_false] at hfield
  rcases hfield with rfl | rfl | rfl
  all_goals
    exact Json.Field.Puts.apart (fun _ _ _ => rfl) (fun _ _ _ => rfl) (fun _ _ => rfl)
      fun _ _ _ => rfl

end Payload

theorem payloadField_apart_payloadField {key other : String} (hne : key ≠ other) :
    (payloadField key).Apart (payloadField other) := by
  refine Json.Field.Puts.apart (fun _ _ _ => rfl) (fun _ _ _ => rfl) (fun _ _ => rfl) ?_
  intro draft v w
  simp only [Keyed.insert_comm hne]

theorem apart_fieldFor {key other : String} (hne : key ≠ other) :
    (fieldFor key).Apart (fieldFor other) := by
  rcases fieldFor_cases key with ⟨hmem, hname⟩ | hpayload
  · rcases fieldFor_cases other with ⟨hmem', hname'⟩ | hpayload'
    · exact allApart_fields _ hmem _ hmem' (by rwa [hname, hname'])
    · rw [hpayload']
      exact apart_payloadField hmem other
  · rcases fieldFor_cases other with ⟨hmem', -⟩ | hpayload'
    · rw [hpayload]
      exact payloadField_apart hmem' key
    · rw [hpayload, hpayload']
      exact payloadField_apart_payloadField hne

theorem decodeMembers_memberNodes (levels : Nat) (draft : Draft)
    (members : List (List Nat × Content)) :
    decodeMembers levels draft (Content.memberNodes members) =
      members.foldlM (storeMember fieldFor levels) draft := by
  induction members generalizing draft with
  | nil => rfl
  | cons member rest ih =>
      obtain ⟨units, content⟩ := member
      rw [List.foldlM_cons]
      cases hkey : (Json.pieceOf units).text with
      | error fault =>
          simp [Content.memberNodes, decodeMembers, storeMember, hkey, bind, Except.bind]
      | ok key =>
          cases hfield : fields.find? (·.name == key) with
          | none =>
              cases hvalue : Json.Decoder.value levels content.node <;>
                simp [Content.memberNodes, decodeMembers, storeMember, fieldFor, hkey, hfield,
                  hvalue, payloadField, Json.Field.defaulted, Json.Field.required, bind,
                  Except.bind, Except.map, ih]
          | some field =>
              cases hset : field.isSet draft with
              | true =>
                  simp [Content.memberNodes, decodeMembers, storeMember, fieldFor, hkey, hfield,
                    hset, bind, Except.bind]
              | false =>
                  cases hstore : field.store draft levels content.node <;>
                    simp [Content.memberNodes, decodeMembers, storeMember, fieldFor, hkey, hfield,
                      hset, hstore, bind, Except.bind, ih]

theorem decode_object {levels : Nat} {members : List (List Nat × Content)} {gmr : Gmr} :
    decode (levels + 1) (Content.object members).node = .ok gmr ↔
      ∃ draft, members.foldlM (storeMember fieldFor levels) ⟨none, none, none, []⟩ = .ok draft ∧
        draft.id = some gmr.id ∧ draft.state.getD "" = gmr.state ∧
        draft.updated.getD "" = gmr.updated ∧ draft.payload = gmr.payload := by
  rw [Content.node, decode, decodeMembers_memberNodes, Json.Decoder.bind_eq_ok]
  refine exists_congr fun draft => and_congr_right fun _ => ?_
  obtain ⟨id, state, updated, payload⟩ := gmr
  obtain ⟨id', state', updated', payload'⟩ := draft
  cases id' <;> simp [Json.Decoder.close, bind, Except.bind]

-- The members of a record may come in any order.
theorem steady_decode : Json.Decoder.Steady decode := by
  intro first second hreorders levels gmr h
  cases hreorders with
  | members unique same =>
      cases levels with
      | zero => simp [decode, Content.node] at h
      | succ levels =>
          obtain ⟨draft, hdraft, hgmr⟩ := decode_object.mp h
          exact decode_object.mpr ⟨draft,
            Json.foldlM_storeMember_perm (fun _ _ => apart_fieldFor) same unique hdraft, hgmr⟩
  | item inside => simp [decode, Content.node] at h
  | member inside =>
      cases levels with
      | zero => simp [decode, Content.node] at h
      | succ levels =>
          obtain ⟨draft, hdraft, hgmr⟩ := decode_object.mp h
          refine decode_object.mpr ⟨draft, Json.foldlM_storeMember_member ?_ hdraft, hgmr⟩
          exact fun name draft next => steady_fieldFor name inside levels draft next

end Gmr

open Json.Decoder (bind_eq_ok steady_record steady_string)

theorem Association.steady_decode : Json.Decoder.Steady Association.decode := by
  intro first second hreorders levels association h
  simp only [decode, bind_eq_ok] at h ⊢
  obtain ⟨draft, hrecord, h⟩ := h
  refine ⟨draft, steady_record ?steady ?apart hreorders levels draft hrecord, h⟩
  case steady =>
    intro field hfield
    simp only [List.mem_cons, List.not_mem_nil, or_false] at hfield
    rcases hfield with rfl | rfl
    · exact Json.Field.Puts.steady (fun _ _ _ => rfl) steady_string
    · exact Json.Field.Puts.steady (fun _ _ _ => rfl) steady_string.list
  case apart =>
    intro one hone two htwo hnames
    simp only [List.mem_cons, List.not_mem_nil, or_false] at hone htwo
    rcases hone with rfl | rfl <;> rcases htwo with rfl | rfl
    all_goals first
      | exact absurd rfl hnames
      | exact Json.Field.Puts.apart (fun _ _ _ => rfl) (fun _ _ _ => rfl) (fun _ _ => rfl)
          fun _ _ _ => rfl

theorem SearchAnswer.steady_decode : Json.Decoder.Steady SearchAnswer.decode := by
  intro first second hreorders levels answer h
  simp only [decode, bind_eq_ok] at h ⊢
  obtain ⟨draft, hrecord, h⟩ := h
  refine ⟨draft, steady_record ?steady ?apart hreorders levels draft hrecord, h⟩
  case steady =>
    intro field hfield
    simp only [List.mem_cons, List.not_mem_nil, or_false] at hfield
    rcases hfield with rfl | rfl
    · exact Json.Field.Puts.steady (fun _ _ _ => rfl) Association.steady_decode.list
    · exact Json.Field.Puts.steady (fun _ _ _ => rfl) Gmr.steady_decode.list
  case apart =>
    intro one hone two htwo hnames
    simp only [List.mem_cons, List.not_mem_nil, or_false] at hone htwo
    rcases hone with rfl | rfl <;> rcases htwo with rfl | rfl
    all_goals first
      | exact absurd rfl hnames
      | exact Json.Field.Puts.apart (fun _ _ _ => rfl) (fun _ _ _ => rfl) (fun _ _ => rfl)
          fun _ _ _ => rfl

-- A text can be read as an answer in any spelling or in none, and it is the same answer.
theorem SearchAnswer.ofText_eq_ok_iff {s t : String} (h : Json.Respelled s t)
    {answer : SearchAnswer} : ofText s = .ok answer ↔ ofText t = .ok answer :=
  ⟨steady_decode.decodeText_respelled h, steady_decode.decodeText_respelled h.symm⟩

end DeclarationWatch
