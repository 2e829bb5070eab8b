import DeclarationWatch.Proofs.Gmr.RoundTrip
import DeclarationWatch.Proofs.Json.Exactness

namespace DeclarationWatch.Gmr

section Payload

variable {levels : Nat} {node : Json.Node} {members : List (Json.Piece × Json.Node)}
  {draft last : Draft}

-- A payload is made of members and of nothing else.
theorem mem_payload_of_decodeMembers (h : decodeMembers levels draft members = .ok last)
    {pair : String × Json} (hpair : pair ∈ last.payload) :
    pair ∈ draft.payload ∨ ∃ member ∈ members, Json.Decoder.value levels member.2 = .ok pair.2 := by
  induction members generalizing draft with
  | nil =>
      simp only [decodeMembers, Except.ok.injEq] at h
      exact Or.inl (h ▸ hpair)
  | cons member rest ih =>
      simp only [decodeMembers, Json.Decoder.bind_eq_ok] at h
      obtain ⟨key, -, h⟩ := h
      split at h
      · rename_i field hfield
        split at h
        · cases h
        · obtain ⟨next, hnext, h⟩ := Json.Decoder.bind_eq_ok.mp h
          have hkept := payload_of_store (List.mem_of_find?_eq_some hfield) hnext
          rcases ih h with hold | ⟨other, hother, hvalue⟩
          · exact Or.inl (hkept ▸ hold)
          · exact Or.inr ⟨other, List.mem_cons_of_mem _ hother, hvalue⟩
      · obtain ⟨value, hvalue, h⟩ := Json.Decoder.bind_eq_ok.mp h
        rcases ih h with hold | ⟨other, hother, hvalue⟩
        · rcases Keyed.mem_of_mem_insert hold with rfl | hold
          · exact Or.inr ⟨member, List.mem_cons_self, hvalue⟩
          · exact Or.inl hold
        · exact Or.inr ⟨other, List.mem_cons_of_mem _ hother, hvalue⟩

theorem exact_of_decode {gmr : Gmr} (hexact : node.Exact)
    (h : decode (levels + 1) node = .ok gmr) : gmr.Exact := by
  cases node with
  | object members cut =>
      simp only [decode, Json.Decoder.bind_eq_ok] at h
      obtain ⟨draft, hmembers, -, -, h⟩ := h
      split at h
      · cases h
      · cases h
        intro pair hpair
        rcases mem_payload_of_decodeMembers hmembers hpair with hnone | ⟨member, hmember, hvalue⟩
        · exact absurd hnone List.not_mem_nil
        · have hmember := (Json.Node.exactMembers_iff members).mp hexact member hmember
          exact Json.Decoder.exact_of_value levels member.2 pair.2 hmember hvalue
  | _ => simp [decode] at h

-- What is known of a record so far, member by member.
def Draft.member? (draft : Draft) (key : String) : Option Json :=
  if key = "gmrId" then draft.id.map .string
  else if key = "state" then draft.state.map .string
  else if key = "updatedDateTime" then draft.updated.map .string
  else draft.payload.get? key

theorem Draft.member?_of_apart {draft : Draft} {key : String}
    (hapart : fields.find? (·.name == key) = none) :
    draft.member? key = draft.payload.get? key := by
  simp only [fields, List.find?_eq_none, List.mem_cons, List.not_mem_nil, or_false,
    forall_eq_or_imp, forall_eq, Json.Field.required, Json.Field.defaulted, beq_iff_eq] at hapart
  obtain ⟨hid, hstate, hupdated⟩ := hapart
  simp [Draft.member?, Ne.symm hid, Ne.symm hstate, Ne.symm hupdated]

-- A record and an object with any members have been read from the same text so far.
structure Draft.Mirrors (draft : Draft) (table : Keyed Json) : Prop where
  ascending : table.Ascending
  member : ∀ key, table.get? key = draft.member? key

theorem Draft.mirrors_nil : Draft.Mirrors ⟨none, none, none, []⟩ [] where
  ascending := Keyed.ascending_nil
  member := fun key => by simp [Draft.member?]

variable {table : Keyed Json} {key : String}

-- What a field does, seen from the members of a draft: it keeps a text under its name.
structure KeepsText (field : Json.Field Draft) (key : String) : Prop where
  isSet : ∀ draft, field.isSet draft = (draft.member? key).isSome
  isText : ∀ draft : Draft, ∀ value, draft.member? key = some value → ∃ text, value = .string text
  stores : ∀ draft levels text,
    ∃ next, field.store draft levels (Json.nodeOf (.string text)) = .ok next
  stored : ∀ draft levels node next, field.store draft levels node = .ok next →
    ∃ text, Json.Decoder.string levels node = .ok text ∧ ∀ other,
      next.member? other = if other = key then some (.string text) else draft.member? other

theorem keepsText_of_find? {key : String} {field : Json.Field Draft}
    (hfield : fields.find? (·.name == key) = some field) : KeepsText field key := by
  have hname : field.name = key := by simpa using List.find?_some hfield
  have hmem := List.mem_of_find?_eq_some hfield
  simp only [fields, List.mem_cons, List.not_mem_nil, or_false] at hmem
  rcases hmem with rfl | rfl | rfl
  all_goals
    refine ⟨fun draft => ?_, fun draft value h => ?_, fun _ _ _ => ⟨_, rfl⟩,
      fun draft levels node next h => ?_⟩
    · simp [← hname, Draft.member?, Json.Field.required, Json.Field.defaulted]
    · simp only [← hname, Draft.member?, Json.Field.required, Json.Field.defaulted] at h
      obtain ⟨text, -, rfl⟩ := Option.map_eq_some_iff.mp h
      exact ⟨text, rfl⟩
    · obtain ⟨text, htext, rfl⟩ := Json.Decoder.map_eq_ok.mp h
      refine ⟨text, htext, fun other => ?_⟩
      by_cases hother : other = key
      · simp [hother, ← hname, Draft.member?, Json.Field.required, Json.Field.defaulted]
      · rw [if_neg hother]
        simp only [← hname, Json.Field.required, Json.Field.defaulted] at hother
        simp [Draft.member?, hother]

-- A member that has a field is a text.
theorem Draft.Mirrors.store (h : draft.Mirrors table) {field : Json.Field Draft}
    (hfield : fields.find? (·.name == key) = some field) {next : Draft}
    (hnext : field.store draft levels node = .ok next) :
    ∃ text, Json.Decoder.value levels node = .ok (.string text) ∧
      next.Mirrors (table.insert key (.string text)) := by
  obtain ⟨text, htext, hmember⟩ := (keepsText_of_find? hfield).stored draft levels node next hnext
  refine ⟨text, Json.Decoder.value_of_string htext, h.ascending.insert _ _, fun other => ?_⟩
  rw [Keyed.get?_insert, h.member, hmember]

-- Any other member goes to the payload as it is.
theorem Draft.Mirrors.insert (h : draft.Mirrors table)
    (hapart : fields.find? (·.name == key) = none) (value : Json) :
    Draft.Mirrors { draft with payload := draft.payload.insert key value }
      (table.insert key value) := by
  refine ⟨h.ascending.insert key value, fun other => ?_⟩
  rw [Keyed.get?_insert, h.member]
  by_cases hother : other = key
  · subst hother
    simp [Draft.member?_of_apart hapart, Keyed.get?_insert]
  · simp [Draft.member?, Keyed.get?_insert, hother]

-- Whatever is read as a record can be read as an object with any members, by the recursion of
-- the record.
theorem Draft.Mirrors.exists_valueMembers (h : draft.Mirrors table)
    (hread : decodeMembers levels draft members = .ok last) :
    ∃ values, Json.Decoder.valueMembers levels table members = .ok values ∧ last.Mirrors values := by
  induction members generalizing draft table with
  | nil =>
      simp only [decodeMembers, Except.ok.injEq] at hread
      exact ⟨table, rfl, hread ▸ h⟩
  | cons member rest ih =>
      obtain ⟨piece, node⟩ := member
      simp only [decodeMembers, Json.Decoder.bind_eq_ok] at hread
      obtain ⟨key, hkey, hread⟩ := hread
      have hvalues : ∃ value, Json.Decoder.value levels node = .ok value ∧
          ∃ values, Json.Decoder.valueMembers levels (table.insert key value) rest = .ok values ∧
            last.Mirrors values := by
        split at hread
        · rename_i field hfield
          split at hread
          · cases hread
          · obtain ⟨next, hnext, hread⟩ := Json.Decoder.bind_eq_ok.mp hread
            obtain ⟨text, htext, hmirrors⟩ := h.store hfield hnext
            exact ⟨_, htext, ih hmirrors hread⟩
        · rename_i hapart
          obtain ⟨value, hvalue, hread⟩ := Json.Decoder.bind_eq_ok.mp hread
          exact ⟨value, hvalue, ih (h.insert hapart value) hread⟩
      obtain ⟨value, hvalue, values, hrest, hlast⟩ := hvalues
      refine ⟨values, ?_, hlast⟩
      simp [Json.Decoder.valueMembers, hkey, hvalue, hrest, bind, Except.bind]

end Payload

theorem Sound.get?_eq_none {levels : Nat} {payload : Keyed Json} (h : Sound levels payload)
    {key : String} {field : Json.Field Draft} (hfield : fields.find? (·.name == key) = some field) :
    payload.get? key = none := by
  rw [← Option.not_isSome_iff_eq_none, Option.isSome_iff_exists]
  rintro ⟨value, hvalue⟩
  have hapart := h.apart (key, value) (Keyed.mem_of_get? hvalue)
  rw [hfield] at hapart
  cases hapart

-- The members of a record as its text gives them to a reader who knows no fields.
def members (gmr : Gmr) : Keyed Json := Keyed.ofList (named gmr ++ gmr.payload)

theorem mirrors_members {levels : Nat} {gmr : Gmr} (h : Sound levels gmr.payload) :
    Draft.Mirrors ⟨some gmr.id, some gmr.state, some gmr.updated, gmr.payload⟩ gmr.members where
  ascending := Keyed.ascending_ofList _
  member := fun key => by
    have hid := h.get?_eq_none (show fields.find? (·.name == "gmrId") = some _ from rfl)
    have hstate := h.get?_eq_none (show fields.find? (·.name == "state") = some _ from rfl)
    have hupdated :=
      h.get?_eq_none (show fields.find? (·.name == "updatedDateTime") = some _ from rfl)
    unfold members Keyed.ofList Draft.member?
    rw [List.foldl_append, Keyed.get?_foldl_insert h.ascending]
    simp only [named, List.foldl_cons, List.foldl_nil, Keyed.get?_insert, Keyed.get?_nil]
    split
    · simp [*]
    split
    · simp [*]
    split
    · simp [*]
    · simp [*]

-- An object with the member in it, empty if there was none.
def supplied (members : Keyed Json) (key : String) : Keyed Json :=
  if members.contains key then members else members.insert key (.string "")

theorem ascending_supplied {members : Keyed Json} (h : members.Ascending) (key : String) :
    (supplied members key).Ascending := by
  unfold supplied
  split
  · exact h
  · exact h.insert key _

theorem get?_supplied (members : Keyed Json) (key k : String) :
    (supplied members key).get? k =
      if k = key then some ((members.get? key).getD (.string "")) else members.get? k := by
  unfold supplied Keyed.contains
  cases hkey : members.get? key with
  | some value =>
      by_cases hk : k = key
      · simp [hk, hkey]
      · simp [hk]
  | none => simp [Keyed.get?_insert]

-- What an object becomes when it is read as a record: the members that may be missing are there.
def completed (members : Keyed Json) : Keyed Json :=
  supplied (supplied members "state") "updatedDateTime"

theorem Draft.Mirrors.completed_eq {draft : Draft} {table : Keyed Json} (h : draft.Mirrors table)
    {gmr : Gmr} {levels : Nat} (hsound : Sound levels gmr.payload) (hid : draft.id = some gmr.id)
    (hstate : draft.state.getD "" = gmr.state) (hupdated : draft.updated.getD "" = gmr.updated)
    (hpayload : draft.payload = gmr.payload) : completed table = gmr.members := by
  have hmembers := mirrors_members hsound
  refine (ascending_supplied (ascending_supplied h.ascending _) _).ext hmembers.ascending ?_
  intro key
  rw [hmembers.member, get?_supplied, get?_supplied, get?_supplied, h.member, h.member, h.member]
  unfold Draft.member?
  by_cases hk : key = "updatedDateTime"
  · subst hk
    cases hdraft : draft.updated with
    | none => simp [← hupdated, hdraft]
    | some updated => simp [← hupdated, hdraft]
  · by_cases hk' : key = "state"
    · subst hk'
      cases hdraft : draft.state with
      | none => simp [← hstate, hdraft]
      | some state => simp [← hstate, hdraft]
    · simp [hk, hk', hid, hpayload]

-- A record that has been read, seen by a reader who knows no fields: what it was, with all members.
theorem exists_value_of_decode {levels : Nat} {node : Json.Node} {gmr : Gmr}
    (h : decode (levels + 1) node = .ok gmr) :
    ∃ table, Json.Decoder.value (levels + 1) node = .ok (.object table) ∧
      completed table = gmr.members := by
  have hsound := sound_of_decode h
  cases node with
  | object members cut =>
      simp only [decode, Json.Decoder.bind_eq_ok] at h
      obtain ⟨draft, hmembers, _, hclose, h⟩ := h
      obtain ⟨table, htable, hmirrors⟩ := Draft.mirrors_nil.exists_valueMembers hmembers
      refine ⟨table, ?_, ?_⟩
      · simp [Json.Decoder.value, htable, hclose, bind, Except.bind]
      · split at h
        · cases h
        · rename_i id hid
          cases h
          exact hmirrors.completed_eq hsound hid rfl rfl rfl
  | _ => simp [decode] at h

section Written

variable {levels : Nat} {gmr : Gmr} (hfits : ∀ pair ∈ gmr.payload, pair.2.Fits levels)

include hfits

theorem fits_of_mem_named {pair : String × Json} (hpair : pair ∈ named gmr ++ gmr.payload) :
    pair.2.Fits levels := by
  rcases List.mem_append.mp hpair with hnamed | hpayload
  · simp only [named, List.mem_cons, List.not_mem_nil, or_false] at hnamed
    rcases hnamed with rfl | rfl | rfl <;> trivial
  · exact hfits pair hpayload

-- A payload may even hold members that have fields.
theorem value_nodeOf_of_fits :
    Json.Decoder.value (levels + 1) (Json.nodeOf gmr.toJson) = .ok (.object gmr.members) := by
  have hwritten : ∀ pair ∈ named gmr ++ gmr.payload, pair.2.Fits levels :=
    fun _ hpair => fits_of_mem_named hfits hpair
  have hmembers := Json.Decoder.valueMembers_membersOf_foldl hwritten []
  rw [toJson_eq, Json.nodeOf, Json.Decoder.value, hmembers]
  rfl

end Written

theorem value_nodeOf_toJson {levels : Nat} {gmr : Gmr} (h : Sound levels gmr.payload) :
    Json.Decoder.value (levels + 1) (Json.nodeOf gmr.toJson) = .ok (.object gmr.members) :=
  value_nodeOf_of_fits h.fits

section Members

variable {levels : Nat} {draft other : Draft} {table : Keyed Json}

-- What has been read is settled by the object it was read from.
theorem Draft.Mirrors.unique (h : draft.Mirrors table) (hother : other.Mirrors table)
    (hsound : Sound levels draft.payload) (hsoundOther : Sound levels other.payload) :
    draft = other := by
  have hmember : ∀ key, draft.member? key = other.member? key := fun key => by
    rw [← h.member, hother.member]
  have hstring : Function.Injective (Option.map Json.string) :=
    Option.map_injective fun _ _ heq => Json.string.inj heq
  have hid : draft.id = other.id := hstring (hmember "gmrId")
  have hstate : draft.state = other.state := hstring (hmember "state")
  have hupdated : draft.updated = other.updated := hstring (hmember "updatedDateTime")
  have hpayload : draft.payload = other.payload := by
    refine hsound.ascending.ext hsoundOther.ascending fun key => ?_
    cases hfield : fields.find? (·.name == key) with
    | some field => rw [hsound.get?_eq_none hfield, hsoundOther.get?_eq_none hfield]
    | none => simpa only [Draft.member?_of_apart hfield] using hmember key
  obtain ⟨id, state, updated, payload⟩ := draft
  obtain ⟨_, _, _, _⟩ := other
  cases hid
  cases hstate
  cases hupdated
  cases hpayload
  rfl

end Members

end DeclarationWatch.Gmr

namespace DeclarationWatch.SearchAnswer

theorem exact_of_ofText {s : String} {answer : SearchAnswer}
    (hexact : (Json.Document.ofText s.toList).root.Exact) (h : ofText s = .ok answer) :
    ∀ gmr ∈ answer.gmrs, gmr.Exact := by
  have hdecode := Json.decode_of_decodeText h
  simp only [decode, Json.Decoder.bind_eq_ok] at hdecode
  obtain ⟨⟨associations, gmrs⟩, hrecord, hanswer⟩ := hdecode
  cases hanswer
  have hgmrs := Json.Decoder.record_preserves
    (fun draft : Option (List Association) × Option (List Gmr) =>
      ∀ gmr ∈ draft.2.getD [], gmr.Exact) ?_ (by simp) hrecord
  · exact hgmrs
  intro field hfield part hpart draft next hdraft hstore
  simp only [List.mem_cons, List.not_mem_nil, or_false] at hfield
  rcases hfield with rfl | rfl
  · obtain ⟨value, -, rfl⟩ := Json.Decoder.map_eq_ok.mp hstore
    exact hdraft
  · obtain ⟨value, hvalue, rfl⟩ := Json.Decoder.map_eq_ok.mp hstore
    intro gmr hgmr
    obtain ⟨item, hitem, hread⟩ := Json.Decoder.mem_of_list hvalue hgmr
    exact Gmr.exact_of_decode ((hexact.of_mem_parts hpart).of_mem_parts hitem) hread

end DeclarationWatch.SearchAnswer

namespace DeclarationWatch

-- The text of a record, however it was spelled.
def Gmr.normalText (s : String) : Except Json.Fault String := (Gmr.ofText s).map Gmr.text

theorem Gmr.normalText_eq_ok {s t : String} :
    Gmr.normalText s = .ok t ↔ ∃ gmr, Gmr.ofText s = .ok gmr ∧ gmr.text = t :=
  Json.Decoder.map_eq_ok

def SearchAnswer.normalText (s : String) : Except Json.Fault String :=
  (SearchAnswer.ofText s).map SearchAnswer.text

theorem SearchAnswer.normalText_eq_ok {s t : String} :
    SearchAnswer.normalText s = .ok t ↔
      ∃ answer, SearchAnswer.ofText s = .ok answer ∧ answer.text = t :=
  Json.Decoder.map_eq_ok

-- Records and answers outlive their texts. As long as the numbers are integers of 64 bits, minus
-- zero among them, what has been read from a text and is written comes back as the same record or
-- answer, and the new text is the normal one. A reader who knows no fields finds in the new text
-- of a record all that he finds in the old one, with an empty text for a member that may be missing.
theorem normalText_reads_back (s : String) (hexact : (Json.Document.ofText s.toList).root.Exact) :
    (∀ gmr, Gmr.ofText s = .ok gmr → Gmr.ofText gmr.text = .ok gmr ∧
      ∃ members, Json.ofText? s = some (.object members) ∧
        Json.ofText? gmr.text = some (.object (Gmr.completed members))) ∧
    (∀ answer, SearchAnswer.ofText s = .ok answer →
      SearchAnswer.ofText answer.text = .ok answer) ∧
    (∀ t, Gmr.normalText s = .ok t → Gmr.normalText t = .ok t) ∧
    (∀ t, SearchAnswer.normalText s = .ok t → SearchAnswer.normalText t = .ok t) := by
  have hgmr : ∀ gmr, Gmr.ofText s = .ok gmr → Gmr.ofText gmr.text = .ok gmr := by
    intro gmr h
    have hdecode := Json.decode_of_decodeText h
    exact Gmr.ofText_text (Gmr.sound_of_decode hdecode) (Gmr.exact_of_decode hexact hdecode)
  have hanswer : ∀ answer, SearchAnswer.ofText s = .ok answer →
      SearchAnswer.ofText answer.text = .ok answer := by
    intro answer h
    exact SearchAnswer.ofText_text (SearchAnswer.sound_of_ofText h)
      (SearchAnswer.exact_of_ofText hexact h)
  refine ⟨fun gmr h => ⟨hgmr gmr h, ?free⟩, hanswer, fun t h => ?gmr, fun t h => ?answer⟩
  case free =>
    have hdecode := Json.decode_of_decodeText h
    have hsound := Gmr.sound_of_decode hdecode
    obtain ⟨members, hmembers, hcompleted⟩ := Gmr.exists_value_of_decode hdecode
    refine ⟨members, ?_, ?_⟩
    · rw [Json.ofText?, Json.decodeText_of_decodeText h, Json.maxDepth, hmembers]
      rfl
    · have htext := Gmr.exact_toJson (Gmr.exact_of_decode hexact hdecode)
      rw [Json.ofText?, Gmr.text, Json.decodeText_text _ _ htext, Json.maxDepth,
        Gmr.value_nodeOf_toJson hsound, hcompleted]
      rfl
  case gmr =>
    obtain ⟨gmr, hread, rfl⟩ := Gmr.normalText_eq_ok.mp h
    exact Gmr.normalText_eq_ok.mpr ⟨gmr, hgmr gmr hread, rfl⟩
  case answer =>
    obtain ⟨answer, hread, rfl⟩ := SearchAnswer.normalText_eq_ok.mp h
    exact SearchAnswer.normalText_eq_ok.mpr ⟨answer, hanswer answer hread, rfl⟩

-- A text that is a record and an answer at once: a key that comes twice, escapes, the largest
-- integer, minus zero, and no state anywhere.
def doubleText : String :=
  "\x7b\"z\":[1],\"gmrs\":[\x7b\"n\":-0,\"gmrId\":\"G2\"\x7d],\"gmrId\":\"G\\u0031\"," ++
    " \"z\":\x7b\"y\":18446744073709551615,\"x\":\"\\\"\\n\"\x7d\x7d"

def doubleText.asGmr : String :=
  "\x7b\"gmrId\":\"G1\",\"state\":\"\",\"updatedDateTime\":\"\"," ++
    "\"gmrs\":[\x7b\"gmrId\":\"G2\",\"n\":-0.0\x7d]," ++
    "\"z\":\x7b\"x\":\"\\\"\\n\",\"y\":18446744073709551615\x7d\x7d"

def doubleText.asAnswer : String :=
  "\x7b\"gmrByDeclarationId\":[]," ++
    "\"gmrs\":[\x7b\"gmrId\":\"G2\",\"state\":\"\",\"updatedDateTime\":\"\",\"n\":-0.0\x7d]\x7d"

theorem normalText_reads_back_doubleText :
    (Json.Document.ofText doubleText.toList).root.Exact ∧
      Gmr.normalText doubleText = .ok doubleText.asGmr ∧
      Gmr.normalText doubleText.asGmr = .ok doubleText.asGmr ∧
      SearchAnswer.normalText doubleText = .ok doubleText.asAnswer ∧
      SearchAnswer.normalText doubleText.asAnswer = .ok doubleText.asAnswer ∧
      ∃ gmr members, Gmr.ofText doubleText = .ok gmr ∧ Gmr.ofText doubleText.asGmr = .ok gmr ∧
        Json.ofText? doubleText = some (.object members) ∧
        Json.ofText? doubleText.asGmr = some (.object (Gmr.completed members)) := by
  have hgmr : Gmr.normalText doubleText = .ok doubleText.asGmr :=
    Json.Decoder.eq_ok_of_toOption (by decide +kernel)
  have hanswer : SearchAnswer.normalText doubleText = .ok doubleText.asAnswer :=
    Json.Decoder.eq_ok_of_toOption (by decide +kernel)
  obtain ⟨hreads, -, hgmrs, hanswers⟩ := normalText_reads_back doubleText (by decide +kernel)
  obtain ⟨gmr, hgmr', htext⟩ := Gmr.normalText_eq_ok.mp hgmr
  obtain ⟨hback, members, hmembers, hcompleted⟩ := hreads gmr hgmr'
  rw [htext] at hback hcompleted
  exact ⟨by decide +kernel, hgmr, hgmrs _ hgmr, hanswer, hanswers _ hanswer, gmr, members, hgmr',
    hback, hmembers, hcompleted⟩

end DeclarationWatch
