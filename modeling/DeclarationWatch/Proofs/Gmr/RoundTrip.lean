import DeclarationWatch.Gmr.SearchAnswer
import DeclarationWatch.Proofs.Json.Decoding

namespace DeclarationWatch.Gmr

open Json (Fits)

-- A payload that decoding can bring about: it is in order, holds no member that has a field, and
-- is not nested too deeply.
structure Sound (levels : Nat) (payload : Keyed Json) : Prop where
  ascending : payload.Ascending
  fits : ∀ pair ∈ payload, pair.2.Fits levels
  apart : ∀ pair ∈ payload, fields.find? (·.name == pair.1) = none

-- No number of the record is a float.
def Integral (gmr : Gmr) : Prop := ∀ pair ∈ gmr.payload, pair.2.Whole

-- The numbers of the record come back as they were.
def Exact (gmr : Gmr) : Prop := ∀ pair ∈ gmr.payload, pair.2.Exact

theorem Integral.exact {gmr : Gmr} (h : gmr.Integral) : gmr.Exact :=
  fun pair hpair => (h pair hpair).exact

theorem sound_nil (levels : Nat) : Sound levels [] := ⟨Keyed.ascending_nil, by simp, by simp⟩

theorem integral_of_payload_eq_nil {gmr : Gmr} (h : gmr.payload = []) : gmr.Integral := by
  simp [Integral, h]

theorem Sound.mono {levels more : Nat} {payload : Keyed Json} (h : Sound levels payload)
    (hle : levels ≤ more) : Sound more payload where
  ascending := h.ascending
  fits := fun pair hpair => Json.fits_mono pair.2 levels more hle (h.fits pair hpair)
  apart := h.apart

theorem exact_toJson {gmr : Gmr} (h : gmr.Exact) : gmr.toJson.Exact := by
  have hpayload := (Json.exactMembers_iff gmr.payload).mpr h
  exact ⟨trivial, trivial, trivial, hpayload⟩

-- The members that have fields, as they are written.
def named (gmr : Gmr) : List (String × Json) :=
  [("gmrId", .string gmr.id), ("state", .string gmr.state), ("updatedDateTime", .string gmr.updated)]

theorem toJson_eq (gmr : Gmr) : gmr.toJson = .object (named gmr ++ gmr.payload) := rfl

theorem decodeMembers_named (levels : Nat) (gmr : Gmr) (tail : List (Json.Piece × Json.Node)) :
    decodeMembers levels ⟨none, none, none, []⟩ (Json.membersOf (named gmr) ++ tail) =
      decodeMembers levels ⟨some gmr.id, some gmr.state, some gmr.updated, []⟩ tail := by
  simp [named, Json.membersOf, decodeMembers, fields, Json.Field.required, Json.Field.defaulted,
    Json.nodeOf, Json.Decoder.string, Except.map, bind, Except.bind]

-- The payload after some members: what was there, and the new ones.
theorem decodeMembers_membersOf {levels : Nat} (draft : Draft) {members : List (String × Json)}
    (hasc : Keyed.Ascending (draft.payload ++ members))
    (hfits : ∀ pair ∈ members, pair.2.Fits levels)
    (hapart : ∀ pair ∈ members, fields.find? (·.name == pair.1) = none) :
    decodeMembers levels draft (Json.membersOf members) =
      .ok { draft with payload := draft.payload ++ members } := by
  induction members generalizing draft with
  | nil => simp [decodeMembers, Json.membersOf]
  | cons pair rest ih =>
      obtain ⟨key, v⟩ := pair
      have hinsert := Keyed.insert_of_ascending_append hasc
      have hvalue := Json.Decoder.value_nodeOf levels v (hfits (key, v) List.mem_cons_self)
      have hkey := hapart (key, v) List.mem_cons_self
      have hrest := ih { draft with payload := draft.payload ++ [(key, v)] }
        (by simpa using hasc) (fun pair hpair => hfits pair (List.mem_cons_of_mem _ hpair))
        (fun pair hpair => hapart pair (List.mem_cons_of_mem _ hpair))
      simp [decodeMembers, Json.membersOf, hkey, hvalue, hinsert, hrest, bind, Except.bind]

theorem decode_nodeOf {levels : Nat} {gmr : Gmr} (h : Sound levels gmr.payload) :
    decode (levels + 1) (Json.nodeOf gmr.toJson) = .ok gmr := by
  have hpayload := decodeMembers_membersOf ⟨some gmr.id, some gmr.state, some gmr.updated, []⟩
    h.ascending h.fits h.apart
  rw [toJson_eq, Json.nodeOf, Json.membersOf_append, decode, decodeMembers_named, hpayload]
  simp [Json.Decoder.close, bind, Except.bind]

theorem Sound.insert {levels : Nat} {payload : Keyed Json} (h : Sound levels payload) {key : String}
    {value : Json} (hfits : value.Fits levels) (hapart : fields.find? (·.name == key) = none) :
    Sound levels (payload.insert key value) where
  ascending := h.ascending.insert key value
  fits := fun pair hpair => by
    rcases Keyed.mem_of_mem_insert hpair with rfl | hold
    · exact hfits
    · exact h.fits pair hold
  apart := fun pair hpair => by
    rcases Keyed.mem_of_mem_insert hpair with rfl | hold
    · exact hapart
    · exact h.apart pair hold

-- Fields are kept apart from the payload.
theorem payload_of_store {field : Json.Field Draft} (hfield : field ∈ fields) {levels : Nat}
    {node : Json.Node} {draft next : Draft} (h : field.store draft levels node = .ok next) :
    next.payload = draft.payload := by
  simp only [fields, List.mem_cons, List.not_mem_nil, or_false] at hfield
  rcases hfield with rfl | rfl | rfl
  all_goals
    obtain ⟨value, -, rfl⟩ := Json.Decoder.map_eq_ok.mp h
    rfl

theorem sound_of_decodeMembers {levels : Nat} {members : List (Json.Piece × Json.Node)}
    {draft last : Draft} (hsound : Sound levels draft.payload)
    (h : decodeMembers levels draft members = .ok last) : Sound levels last.payload := by
  induction members generalizing draft with
  | nil =>
      simp only [decodeMembers, Except.ok.injEq] at h
      exact h ▸ hsound
  | cons member rest ih =>
      simp only [decodeMembers, Json.Decoder.bind_eq_ok] at h
      obtain ⟨key, -, h⟩ := h
      split at h
      · rename_i field hfield
        split at h
        · cases h
        · obtain ⟨next, hnext, h⟩ := Json.Decoder.bind_eq_ok.mp h
          have hkept := payload_of_store (List.mem_of_find?_eq_some hfield) hnext
          exact ih (hkept ▸ hsound) h
      · rename_i hapart
        obtain ⟨value, hvalue, h⟩ := Json.Decoder.bind_eq_ok.mp h
        exact ih (hsound.insert (Json.Decoder.fits_of_value levels _ value hvalue) hapart) h

theorem sound_of_decode {levels : Nat} {node : Json.Node} {gmr : Gmr}
    (h : decode (levels + 1) node = .ok gmr) : Sound levels gmr.payload := by
  cases node with
  | object members cut =>
      simp only [decode, Json.Decoder.bind_eq_ok] at h
      obtain ⟨draft, hmembers, -, -, h⟩ := h
      split at h
      · cases h
      · cases h
        exact sound_of_decodeMembers (sound_nil levels) hmembers
  | _ => simp [decode] at h

-- A record is read back from its text.
theorem ofText_text {gmr : Gmr} (hsound : Sound 126 gmr.payload) (hexact : gmr.Exact) :
    ofText gmr.text = .ok gmr := by
  unfold ofText text
  rw [Json.decodeText_text decode gmr.toJson (exact_toJson hexact)]
  exact decode_nodeOf hsound

-- A version that has been read is not read again.
theorem updated_of_decodeMembers {levels : Nat} {members : List (Json.Piece × Json.Node)}
    {draft last : Draft} {updated : String} (hupdated : draft.updated = some updated)
    (h : decodeMembers levels draft members = .ok last) : last.updated = some updated := by
  induction members generalizing draft with
  | nil =>
      simp only [decodeMembers, Except.ok.injEq] at h
      exact h ▸ hupdated
  | cons member rest ih =>
      simp only [decodeMembers, Json.Decoder.bind_eq_ok] at h
      obtain ⟨key, -, h⟩ := h
      split at h
      · rename_i field hfield
        split at h
        · cases h
        · rename_i hunset
          obtain ⟨next, hnext, h⟩ := Json.Decoder.bind_eq_ok.mp h
          refine ih ?_ h
          have hmem := List.mem_of_find?_eq_some hfield
          simp only [fields, List.mem_cons, List.not_mem_nil, or_false] at hmem
          rcases hmem with rfl | rfl | rfl
          · obtain ⟨value, -, rfl⟩ := Json.Decoder.map_eq_ok.mp hnext
            exact hupdated
          · obtain ⟨value, -, rfl⟩ := Json.Decoder.map_eq_ok.mp hnext
            exact hupdated
          · exact absurd (by simp [Json.Field.defaulted, Json.Field.required, hupdated]) hunset
      · obtain ⟨value, -, h⟩ := Json.Decoder.bind_eq_ok.mp h
        refine ih ?_ h
        exact hupdated

-- Whatever the payload, a text that can be read has the version that was written.
theorem updated_of_ofText_text {gmr version : Gmr} (h : ofText gmr.text = .ok version) :
    version.updated = gmr.updated := by
  have hroot : ∃ tail cut, (Json.Document.ofText gmr.toJson.render).root =
      .object (Json.membersOf (named gmr) ++ tail) cut := by
    cases hpayload : gmr.payload with
    | nil =>
        have hexact := exact_toJson (integral_of_payload_eq_nil hpayload).exact
        rw [Json.ofText_render gmr.toJson hexact, toJson_eq, hpayload]
        exact ⟨[], none, by simp [Json.nodeOf]⟩
    | cons pair rest =>
        rw [toJson_eq, hpayload]
        exact Json.exists_root_object ⟨trivial, trivial, trivial, trivial⟩ (List.cons_ne_nil _ _)
  obtain ⟨tail, cut, hroot⟩ := hroot
  have hdecode := Json.decode_of_decodeText h
  rw [text, Json.text, String.toList_ofList, hroot] at hdecode
  simp only [decode, Json.maxDepth, decodeMembers_named, Json.Decoder.bind_eq_ok] at hdecode
  obtain ⟨draft, hmembers, -, -, hversion⟩ := hdecode
  have hupdated := updated_of_decodeMembers rfl hmembers
  split at hversion
  · cases hversion
  · cases hversion
    simp [hupdated]

end DeclarationWatch.Gmr

namespace DeclarationWatch.SearchAnswer

-- The records of an answer stand one list and one record further down than a record of its own.
theorem sound_of_ofText {s : String} {answer : SearchAnswer} (h : ofText s = .ok answer) :
    ∀ gmr ∈ answer.gmrs, Gmr.Sound 124 gmr.payload := by
  have hdecode := Json.decode_of_decodeText h
  simp only [decode, Json.Decoder.bind_eq_ok] at hdecode
  obtain ⟨⟨associations, gmrs⟩, hrecord, hanswer⟩ := hdecode
  cases hanswer
  have hgmrs := Json.Decoder.record_preserves
    (fun draft : Option (List Association) × Option (List Gmr) =>
      ∀ gmr ∈ draft.2.getD [], Gmr.Sound 124 gmr.payload) ?_ (by simp) hrecord
  · exact hgmrs
  intro field hfield part _ draft next hdraft hstore
  simp only [List.mem_cons, List.not_mem_nil, or_false] at hfield
  rcases hfield with rfl | rfl
  · obtain ⟨value, -, rfl⟩ := Json.Decoder.map_eq_ok.mp hstore
    exact hdraft
  · obtain ⟨value, hvalue, rfl⟩ := Json.Decoder.map_eq_ok.mp hstore
    intro gmr hgmr
    obtain ⟨item, -, hitem⟩ := Json.Decoder.mem_of_list hvalue hgmr
    exact Gmr.sound_of_decode hitem

theorem decode_association (levels : Nat) (association : Association) :
    Association.decode (levels + 2) (Json.nodeOf association.toJson) = .ok association := by
  have hids := Json.Decoder.list_nodeOf Json.Decoder.string levels Json.string association.gmrIds
    fun id _ => rfl
  simp only [Json.nodeOf] at hids
  simp [Association.decode, Association.toJson, Json.strings, Json.nodeOf, Json.membersOf,
    Json.Decoder.record, Json.Decoder.recordObject, Json.Decoder.recordMembers, Json.Field.required,
    Json.Field.defaulted, Json.Decoder.string, hids, Json.Decoder.close, Except.map, bind,
    Except.bind]

theorem exact_toJson {answer : SearchAnswer} (h : ∀ gmr ∈ answer.gmrs, gmr.Exact) :
    answer.toJson.Exact := by
  have hids : ∀ association ∈ answer.associations, association.toJson.Exact := by
    intro association _
    refine ⟨trivial, ?_, trivial⟩
    simp [Json.strings, Json.Exact, Json.exactItems_iff]
  have hassociations : Json.Exact (.array (answer.associations.map Association.toJson)) := by
    simpa [Json.Exact, Json.exactItems_iff] using hids
  have hgmrs : Json.Exact (.array (answer.gmrs.map Gmr.toJson)) := by
    simpa [Json.Exact, Json.exactItems_iff] using fun gmr hgmr => Gmr.exact_toJson (h gmr hgmr)
  exact ⟨hassociations, hgmrs, trivial⟩

-- A whole answer is read back from its text.
theorem ofText_text {answer : SearchAnswer}
    (hsound : ∀ gmr ∈ answer.gmrs, Gmr.Sound 124 gmr.payload)
    (hexact : ∀ gmr ∈ answer.gmrs, gmr.Exact) : ofText answer.text = .ok answer := by
  have hassociations := Json.Decoder.list_nodeOf Association.decode 125 Association.toJson
    answer.associations fun association _ => decode_association 123 association
  have hgmrs := Json.Decoder.list_nodeOf Gmr.decode 125 Gmr.toJson answer.gmrs
    fun gmr hgmr => Gmr.decode_nodeOf (hsound gmr hgmr)
  simp only [Json.nodeOf] at hassociations hgmrs
  unfold ofText text
  rw [Json.decodeText_text decode answer.toJson (exact_toJson hexact), Json.maxDepth]
  simp [decode, toJson, Json.nodeOf, Json.membersOf, Json.Decoder.record,
    Json.Decoder.recordObject, Json.Decoder.recordMembers, Json.Field.required,
    Json.Field.defaulted, hassociations, hgmrs, Json.Decoder.close, Except.map, bind, Except.bind]

end DeclarationWatch.SearchAnswer
