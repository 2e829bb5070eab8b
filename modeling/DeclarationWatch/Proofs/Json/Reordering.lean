import DeclarationWatch.Proofs.Json.Decoding
import DeclarationWatch.Proofs.Json.Grammar
import Mathlib.Logic.Relation

namespace DeclarationWatch.Keyed

variable {α : Type} {key other : String}

theorem insert_comm_of_lt (h : key < other) (v w : α) (pairs : Keyed α) :
    (pairs.insert key v).insert other w = (pairs.insert other w).insert key v := by
  have hother : ¬other < key := String.lt_asymm h
  have hne : other ≠ key := by
    rintro rfl
    exact hother h
  induction pairs with
  | nil => simp [insert, h, hother, hne]
  | cons pair rest ih =>
      obtain ⟨first, x⟩ := pair
      by_cases hlt : key < first
      · by_cases hlt' : other < first
        · simp [insert, hlt, hlt', h, hother, hne]
        · by_cases hsame : other = first
          · subst hsame
            simp [insert, h, hother, hne]
          · simp [insert, hlt, hlt', hsame, hother, hne]
      · have hlt' : ¬other < first := fun hlt' => hlt (String.lt_trans h hlt')
        have hsame' : other ≠ first := fun heq => hlt (heq ▸ h)
        by_cases hsame : key = first
        · simp [insert, hlt', hsame, hsame']
        · simp [insert, hlt, hlt', hsame, hsame', ih]

-- It does not matter which of two keys is written first.
theorem insert_comm (h : key ≠ other) (v w : α) (pairs : Keyed α) :
    (pairs.insert key v).insert other w = (pairs.insert other w).insert key v := by
  by_cases hlt : key < other
  · exact insert_comm_of_lt hlt v w pairs
  · have hlt' : other < key :=
      String.not_le.mp fun hle => h (String.le_antisymm hle (String.not_lt.mp hlt))
    exact (insert_comm_of_lt hlt' w v pairs).symm

end DeclarationWatch.Keyed

namespace DeclarationWatch.Json

namespace Content

-- The members of an object whose keys all differ, in another order, at one place of a content.
inductive Reorders : Content → Content → Prop where
  | members {members others : List (List Nat × Content)}
      (unique : (members.map (·.1)).Nodup) (same : members.Perm others) :
      Reorders (.object members) (.object others)
  | item {before after : List Content} {first second : Content} (inside : Reorders first second) :
      Reorders (.array (before ++ first :: after)) (.array (before ++ second :: after))
  | member {before after : List (List Nat × Content)} {key : List Nat} {first second : Content}
      (inside : Reorders first second) :
      Reorders (.object (before ++ (key, first) :: after))
        (.object (before ++ (key, second) :: after))

mutual

-- A content has no faults.
theorem skim_node : ∀ content : Content, content.node.skim = none
  | .null => rfl
  | .bool _ => rfl
  | .number _ => rfl
  | .string _ => rfl
  | .array items => by simp [node, Node.skim, skimItems_nodes items]
  | .object members => by simp [node, Node.skim, skimMembers_memberNodes members]

theorem skimItems_nodes : ∀ items : List Content, Node.skimItems (nodes items) = none
  | [] => rfl
  | item :: rest => by simp [nodes, Node.skimItems, skim_node item, skimItems_nodes rest]

theorem skimMembers_memberNodes : ∀ members : List (List Nat × Content),
    Node.skimMembers (memberNodes members) = none
  | [] => rfl
  | (key, value) :: rest => by
      simp [memberNodes, Node.skimMembers, pieceOf, skim_node value, skimMembers_memberNodes rest]

end

end Content

theorem pieceOf_inj {key other : List Nat} {text : String} (h : (pieceOf key).text = .ok text)
    (hother : (pieceOf other).text = .ok text) : key = other := by
  have htext : ∀ {units : List Nat}, (pieceOf units).text = .ok text →
      charsOf? units = some text.toList := by
    intro units hunits
    simp only [pieceOf] at hunits
    split at hunits
    · rename_i chars hchars
      cases hunits
      rw [hchars, String.toList_ofList]
    · cases hunits
  rw [← flatMap_unitsOf_of_charsOf? (htext h), ← flatMap_unitsOf_of_charsOf? (htext hother)]

-- What is read of a content is read of it with its members in another order.
def Decoder.Steady {α : Type} (decode : Decoder α) : Prop :=
  ∀ {first second : Content}, Content.Reorders first second → ∀ (levels : Nat) (a : α),
    decode levels first.node = .ok a → decode levels second.node = .ok a

namespace Field

variable {σ β γ : Type} {first second : Field σ}

def Steady (field : Field σ) : Prop :=
  ∀ {first second : Content}, Content.Reorders first second → ∀ (levels : Nat) (draft next : σ),
    field.store draft levels first.node = .ok next → field.store draft levels second.node = .ok next

-- It does not matter which of two fields is stored first, and neither takes the place of the other.
structure Apart (first second : Field σ) : Prop where
  isSet : ∀ {draft next : σ} {levels : Nat} {node : Node},
    first.store draft levels node = .ok next → second.isSet next = second.isSet draft
  store : ∀ {draft next last : σ} {levels : Nat} {node other : Node},
    first.store draft levels node = .ok next → second.store next levels other = .ok last →
    ∃ mid, second.store draft levels other = .ok mid ∧ first.store mid levels node = .ok last

-- A field that decodes a value and puts it into the draft.
def Puts (field : Field σ) (decode : Decoder β) (set : σ → β → σ) : Prop :=
  ∀ draft levels node, field.store draft levels node = (decode levels node).map (set draft)

theorem Puts.steady {field : Field σ} {decode : Decoder β} {set : σ → β → σ}
    (h : field.Puts decode set) (hdecode : decode.Steady) : field.Steady := by
  intro first second hreorders levels draft next hnext
  rw [h] at hnext ⊢
  obtain ⟨value, hvalue, rfl⟩ := Decoder.map_eq_ok.mp hnext
  exact Decoder.map_eq_ok.mpr ⟨value, hdecode hreorders levels value hvalue, rfl⟩

theorem Puts.apart {decode : Decoder β} {set : σ → β → σ} {decode' : Decoder γ} {set' : σ → γ → σ}
    (hfirst : first.Puts decode set) (hsecond : second.Puts decode' set')
    (hset : ∀ draft b, second.isSet (set draft b) = second.isSet draft)
    (hcomm : ∀ draft b c, set' (set draft b) c = set (set' draft c) b) : first.Apart second where
  isSet := by
    intro draft next levels node hnext
    rw [hfirst] at hnext
    obtain ⟨value, -, rfl⟩ := Decoder.map_eq_ok.mp hnext
    exact hset draft value
  store := by
    intro draft next last levels node other hnext hlast
    rw [hfirst] at hnext
    obtain ⟨value, hvalue, rfl⟩ := Decoder.map_eq_ok.mp hnext
    rw [hsecond] at hlast
    obtain ⟨value', hvalue', rfl⟩ := Decoder.map_eq_ok.mp hlast
    refine ⟨set' draft value', ?_, ?_⟩
    · rw [hsecond, hvalue']
      rfl
    · rw [hfirst, hvalue, hcomm]
      rfl

-- What becomes of a member that has no field.
def passed (key : String) : Field σ :=
  .defaulted key (fun _ node => Decoder.close node.skim) (fun _ => none) fun draft _ => draft

theorem steady_passed (key : String) : (passed key : Field σ).Steady := by
  refine Puts.steady (fun _ _ _ => rfl) ?_
  intro first second _ levels a h
  simp only [Content.skim_node] at h ⊢
  exact h

theorem store_passed {key : String} {draft next : σ} {levels : Nat} {node : Node} :
    (passed key).store draft levels node = .ok next ↔ node.skim = none ∧ draft = next := by
  simp only [passed, defaulted, required, Decoder.map_eq_ok]
  cases node.skim <;> simp [Decoder.close]

theorem apart_passed (field : Field σ) (key : String) : field.Apart (passed key) where
  isSet := fun _ => rfl
  store := by
    intro draft next last levels node other hnext hlast
    obtain ⟨hskim, rfl⟩ := store_passed.mp hlast
    exact ⟨draft, store_passed.mpr ⟨hskim, rfl⟩, hnext⟩

theorem passed_apart (key : String) (field : Field σ) : (passed key).Apart field where
  isSet := by
    intro draft next levels node hnext
    rw [(store_passed.mp hnext).2]
  store := by
    intro draft next last levels node other hnext hlast
    obtain ⟨hskim, rfl⟩ := store_passed.mp hnext
    exact ⟨last, hlast, store_passed.mpr ⟨hskim, rfl⟩⟩

end Field

section Members

variable {σ : Type} {fieldOf : String → Field σ} {levels : Nat} {draft last : σ}

-- One member of an object goes to the field of its key.
def storeMember (fieldOf : String → Field σ) (levels : Nat) (draft : σ)
    (member : List Nat × Content) : Except Fault σ := do
  let key ← (pieceOf member.1).text
  if (fieldOf key).isSet draft then .error .wrongShape
  else (fieldOf key).store draft levels member.2.node

theorem storeMember_eq_ok {member : List Nat × Content} {next : σ} :
    storeMember fieldOf levels draft member = .ok next ↔
      ∃ key, (pieceOf member.1).text = .ok key ∧ (fieldOf key).isSet draft = false ∧
        (fieldOf key).store draft levels member.2.node = .ok next := by
  rw [storeMember, Decoder.bind_eq_ok]
  refine exists_congr fun key => and_congr_right fun _ => ?_
  cases (fieldOf key).isSet draft <;> simp

theorem storeMember_comm (hapart : ∀ key other, key ≠ other → (fieldOf key).Apart (fieldOf other))
    {first second : List Nat × Content} (hne : first.1 ≠ second.1) {next : σ}
    (hnext : storeMember fieldOf levels draft first = .ok next)
    (hlast : storeMember fieldOf levels next second = .ok last) :
    ∃ mid, storeMember fieldOf levels draft second = .ok mid ∧
      storeMember fieldOf levels mid first = .ok last := by
  obtain ⟨key, hkey, hunset, hstore⟩ := storeMember_eq_ok.mp hnext
  obtain ⟨other, hother, hunset', hstore'⟩ := storeMember_eq_ok.mp hlast
  have hkeys : key ≠ other := by
    rintro rfl
    exact hne (pieceOf_inj hkey hother)
  have hfirst := hapart key other hkeys
  have hsecond := hapart other key hkeys.symm
  obtain ⟨mid, hmid, hback⟩ := hfirst.store hstore hstore'
  refine ⟨mid, storeMember_eq_ok.mpr ⟨other, hother, ?_, hmid⟩,
    storeMember_eq_ok.mpr ⟨key, hkey, ?_, hback⟩⟩
  · rw [← hfirst.isSet hstore, hunset']
  · rw [hsecond.isSet hmid, hunset]

-- The members of an object may come in any order, by induction on the permutation.
theorem foldlM_storeMember_perm
    (hapart : ∀ key other, key ≠ other → (fieldOf key).Apart (fieldOf other))
    {members others : List (List Nat × Content)} (hsame : members.Perm others)
    (hunique : (members.map (·.1)).Nodup)
    (h : members.foldlM (storeMember fieldOf levels) draft = .ok last) :
    others.foldlM (storeMember fieldOf levels) draft = .ok last := by
  induction hsame generalizing draft with
  | nil => exact h
  | cons member _ ih =>
      rw [List.foldlM_cons] at h ⊢
      obtain ⟨next, hnext, h⟩ := Decoder.bind_eq_ok.mp h
      exact Decoder.bind_eq_ok.mpr ⟨next, hnext, ih (List.nodup_cons.mp hunique).2 h⟩
  | swap second first rest =>
      simp only [List.foldlM_cons, Decoder.bind_eq_ok] at h ⊢
      obtain ⟨next, hnext, mid, hmid, h⟩ := h
      have hne : first.1 ≠ second.1 := by
        rintro heq
        simp [heq] at hunique
      obtain ⟨other, hother, hback⟩ := storeMember_comm hapart hne hnext hmid
      exact ⟨other, hother, mid, hback, h⟩
  | trans hfirst _ ihFirst ihSecond =>
      exact ihSecond ((hfirst.map _).nodup_iff.mp hunique) (ihFirst hunique h)

-- One member may be read in place of another that is not read differently.
theorem foldlM_storeMember_member {before after : List (List Nat × Content)} {key : List Nat}
    {first second : Content}
    (hinside : ∀ name draft next, (fieldOf name).store draft levels first.node = .ok next →
      (fieldOf name).store draft levels second.node = .ok next)
    (h : (before ++ (key, first) :: after).foldlM (storeMember fieldOf levels) draft = .ok last) :
    (before ++ (key, second) :: after).foldlM (storeMember fieldOf levels) draft = .ok last := by
  simp only [List.foldlM_append, List.foldlM_cons, Decoder.bind_eq_ok] at h ⊢
  obtain ⟨mid, hmid, next, hnext, h⟩ := h
  obtain ⟨name, hname, hunset, hstore⟩ := storeMember_eq_ok.mp hnext
  have hsecond : storeMember fieldOf levels mid (key, second) = .ok next :=
    storeMember_eq_ok.mpr ⟨name, hname, hunset, hinside name mid next hstore⟩
  exact ⟨mid, hmid, next, hsecond, h⟩

end Members

namespace Decoder

variable {α σ : Type}

-- A string, a number or a word has no members.
theorem steady_string : Decoder.Steady string := by
  intro first second hreorders levels a h
  cases hreorders <;> simp [string, Content.node] at h

section Values

-- An object with any members keeps each value under its key.
def valueField (key : String) : Field (Keyed Json) :=
  .defaulted key value (fun _ => none) fun table v => table.insert key v

theorem valueMembers_memberNodes (levels : Nat) (table : Keyed Json)
    (members : List (List Nat × Content)) :
    valueMembers levels table (Content.memberNodes members) =
      members.foldlM (storeMember valueField levels) table := by
  induction members generalizing table with
  | nil => rfl
  | cons member rest ih =>
      obtain ⟨units, content⟩ := member
      rw [List.foldlM_cons]
      cases hkey : (pieceOf units).text with
      | error fault =>
          simp [Content.memberNodes, valueMembers, storeMember, hkey, bind, Except.bind]
      | ok key =>
          cases hvalue : value levels content.node with
          | error fault =>
              simp [Content.memberNodes, valueMembers, storeMember, hkey, hvalue, valueField,
                Field.defaulted, Field.required, bind, Except.bind, Except.map]
          | ok v =>
              simp [Content.memberNodes, valueMembers, storeMember, hkey, hvalue, valueField,
                Field.defaulted, Field.required, bind, Except.bind, Except.map, ih]

theorem apart_valueField {key other : String} (h : key ≠ other) :
    (valueField key).Apart (valueField other) :=
  Field.Puts.apart (fun _ _ _ => rfl) (fun _ _ _ => rfl) (fun _ _ => rfl)
    fun table v w => Keyed.insert_comm h v w table

theorem value_object {levels : Nat} {members : List (List Nat × Content)} {a : Json} :
    value (levels + 1) (Content.object members).node = .ok a ↔
      ∃ table, members.foldlM (storeMember valueField levels) [] = .ok table ∧
        .object table = a := by
  rw [Content.node, value, valueMembers_memberNodes, bind_eq_ok]
  refine exists_congr fun table => and_congr_right fun _ => ?_
  simp [close, bind, Except.bind]

theorem valueItems_eq (levels : Nat) (nodes : List Node) :
    valueItems levels nodes = listItems value levels nodes := by
  induction nodes with
  | nil => rfl
  | cons node rest ih => rw [valueItems, listItems, ih]

theorem value_array {levels : Nat} {items : List Content} {a : Json} :
    value (levels + 1) (Content.array items).node = .ok a ↔
      ∃ values, listItems value levels (Content.nodes items) = .ok values ∧ .array values = a := by
  rw [Content.node, value, valueItems_eq, bind_eq_ok]
  refine exists_congr fun values => and_congr_right fun _ => ?_
  simp [close, bind, Except.bind]

end Values

section Lists

variable {decode : Decoder α} {levels : Nat}

-- One item may be read in place of another that is not read differently.
theorem listItems_item {before after : List Content} {first second : Content} {values : List α}
    (hinside : ∀ a, decode levels first.node = .ok a → decode levels second.node = .ok a)
    (h : listItems decode levels (Content.nodes (before ++ first :: after)) = .ok values) :
    listItems decode levels (Content.nodes (before ++ second :: after)) = .ok values := by
  induction before generalizing values with
  | nil =>
      simp only [List.nil_append, Content.nodes, listItems, bind_eq_ok] at h ⊢
      obtain ⟨a, ha, rest⟩ := h
      exact ⟨a, hinside a ha, rest⟩
  | cons item before ih =>
      simp only [List.cons_append, Content.nodes, listItems, bind_eq_ok] at h ⊢
      obtain ⟨a, ha, others, hothers, heq⟩ := h
      exact ⟨a, ha, others, ih hothers, heq⟩

theorem Steady.list (h : decode.Steady) : (list decode).Steady := by
  intro first second hreorders levels values hread
  cases hreorders with
  | item inside =>
      cases levels with
      | zero => simp [Decoder.list, Content.node] at hread
      | succ levels =>
          simp only [Decoder.list, Content.node, bind_eq_ok] at hread ⊢
          obtain ⟨decoded, hdecoded, rest⟩ := hread
          exact ⟨decoded, listItems_item (fun a => h inside levels a) hdecoded, rest⟩
  | _ => simp [Decoder.list, Content.node] at hread

end Lists

-- Values are steady, by induction on the place where members change their order.
theorem steady_value : Decoder.Steady value := by
  intro first second hreorders
  induction hreorders with
  | members unique same =>
      intro levels a h
      cases levels with
      | zero => simp [value, Content.node] at h
      | succ levels =>
          obtain ⟨table, htable, ha⟩ := value_object.mp h
          exact value_object.mpr ⟨table,
            foldlM_storeMember_perm (fun _ _ => apart_valueField) same unique htable, ha⟩
  | item inside ih =>
      intro levels a h
      cases levels with
      | zero => simp [value, Content.node] at h
      | succ levels =>
          obtain ⟨values, hvalues, ha⟩ := value_array.mp h
          exact value_array.mpr ⟨values, listItems_item (ih levels) hvalues, ha⟩
  | member inside ih =>
      intro levels a h
      cases levels with
      | zero => simp [value, Content.node] at h
      | succ levels =>
          obtain ⟨table, htable, ha⟩ := value_object.mp h
          refine value_object.mpr ⟨table, foldlM_storeMember_member ?_ htable, ha⟩
          intro name draft next hstore
          obtain ⟨v, hv, hnext⟩ := map_eq_ok.mp hstore
          exact map_eq_ok.mpr ⟨v, ih levels v hv, hnext⟩

section Records

variable {fields : List (Field σ)} {empty : σ} {levels : Nat}

-- The field of a key, if there is one.
def fieldFor (fields : List (Field σ)) (key : String) : Field σ :=
  (fields.find? (·.name == key)).getD (.passed key)

-- No two fields of a record disturb each other.
def AllApart (fields : List (Field σ)) : Prop :=
  ∀ first ∈ fields, ∀ second ∈ fields, first.name ≠ second.name → first.Apart second

theorem fieldFor_cases (fields : List (Field σ)) (key : String) :
    (fieldFor fields key ∈ fields ∧ (fieldFor fields key).name = key) ∨
      fieldFor fields key = .passed key := by
  unfold fieldFor
  cases hfield : fields.find? (·.name == key) with
  | none => exact Or.inr rfl
  | some field =>
      exact Or.inl ⟨List.mem_of_find?_eq_some hfield, by simpa using List.find?_some hfield⟩

theorem AllApart.fieldFor (h : AllApart fields) {key other : String} (hne : key ≠ other) :
    (fieldFor fields key).Apart (fieldFor fields other) := by
  rcases fieldFor_cases fields key with ⟨hmem, hname⟩ | hpassed
  · rcases fieldFor_cases fields other with ⟨hmem', hname'⟩ | hpassed'
    · exact h _ hmem _ hmem' (by rwa [hname, hname'])
    · rw [hpassed']
      exact Field.apart_passed _ other
  · rw [hpassed]
    exact Field.passed_apart key _

theorem steady_fieldFor (h : ∀ field ∈ fields, field.Steady) (key : String) :
    (fieldFor fields key).Steady := by
  rcases fieldFor_cases fields key with ⟨hmem, -⟩ | hpassed
  · exact h _ hmem
  · rw [hpassed]
    exact Field.steady_passed key

theorem recordMembers_memberNodes (draft : σ) (members : List (List Nat × Content)) :
    recordMembers fields levels draft (Content.memberNodes members) =
      members.foldlM (storeMember (fieldFor fields) levels) draft := by
  induction members generalizing draft with
  | nil => rfl
  | cons member rest ih =>
      obtain ⟨units, content⟩ := member
      rw [List.foldlM_cons]
      cases hkey : (pieceOf units).text with
      | error fault =>
          simp [Content.memberNodes, recordMembers, storeMember, hkey, bind, Except.bind]
      | ok key =>
          cases hfield : fields.find? (·.name == key) with
          | none =>
              simp [Content.memberNodes, recordMembers, storeMember, fieldFor, hkey, hfield,
                Content.skim_node, Field.passed, Field.defaulted, Field.required, close, bind,
                Except.bind, Except.map, ih]
          | some field =>
              cases hset : field.isSet draft with
              | true =>
                  simp [Content.memberNodes, recordMembers, storeMember, fieldFor, hkey, hfield,
                    hset, bind, Except.bind]
              | false =>
                  cases hstore : field.store draft levels content.node <;>
                    simp [Content.memberNodes, recordMembers, storeMember, fieldFor, hkey, hfield,
                      hset, hstore, bind, Except.bind, ih]

theorem recordItems_item (hsteady : ∀ field ∈ fields, field.Steady) {before after : List Content}
    {first second : Content} (inside : Content.Reorders first second) {cut : Option Fault}
    {draft last : σ}
    (h : recordItems levels cut draft fields (Content.nodes (before ++ first :: after)) = .ok last) :
    recordItems levels cut draft fields (Content.nodes (before ++ second :: after)) = .ok last := by
  induction fields generalizing before draft with
  | nil => cases before <;> simp [recordItems, Content.nodes] at h
  | cons field fields ih =>
      cases before with
      | nil =>
          simp only [List.nil_append, Content.nodes, recordItems, bind_eq_ok] at h ⊢
          obtain ⟨next, hnext, rest⟩ := h
          exact ⟨next, hsteady field List.mem_cons_self inside levels draft next hnext, rest⟩
      | cons item before =>
          simp only [List.cons_append, Content.nodes, recordItems, bind_eq_ok] at h ⊢
          obtain ⟨next, hnext, rest⟩ := h
          exact ⟨next, hnext, ih (fun field hfield => hsteady field (List.mem_cons_of_mem _ hfield))
            rest⟩

theorem recordObject_object {members : List (List Nat × Content)} {last : σ} :
    recordObject fields empty (levels + 1) (Content.object members).node = .ok last ↔
      members.foldlM (storeMember (fieldFor fields) levels) empty = .ok last ∧
        fields.all (fun field => field.mayLack || field.isSet last) = true := by
  rw [Content.node, recordObject, recordMembers_memberNodes, bind_eq_ok]
  constructor
  · rintro ⟨draft, hdraft, h⟩
    simp only [close, bind, Except.bind] at h
    split at h
    · rename_i hall
      cases h
      exact ⟨hdraft, hall⟩
    · cases h
  · rintro ⟨hlast, hall⟩
    exact ⟨last, hlast, by simp only [close, bind, Except.bind, hall, if_true]⟩

-- A record may be given with its members in any order, as an object at any place of it.
theorem steady_record (hsteady : ∀ field ∈ fields, field.Steady) (hapart : AllApart fields) :
    (record fields empty).Steady := by
  intro first second hreorders levels last h
  cases hreorders with
  | members unique same =>
      cases levels with
      | zero => simp [record, recordObject, Content.node] at h
      | succ levels =>
          obtain ⟨hmembers, hall⟩ := recordObject_object.mp h
          exact recordObject_object.mpr
            ⟨foldlM_storeMember_perm (fun _ _ => hapart.fieldFor) same unique hmembers, hall⟩
  | item inside =>
      cases levels with
      | zero => simp [record, Content.node] at h
      | succ levels =>
          simp only [record, Content.node] at h ⊢
          exact recordItems_item hsteady inside h
  | member inside =>
      cases levels with
      | zero => simp [record, recordObject, Content.node] at h
      | succ levels =>
          obtain ⟨hmembers, hall⟩ := recordObject_object.mp h
          refine recordObject_object.mpr ⟨foldlM_storeMember_member ?_ hmembers, hall⟩
          exact fun name draft next => steady_fieldFor hsteady name inside levels draft next

end Records

end Decoder

theorem Content.Reorders.symm {first second : Content} (h : Content.Reorders first second) :
    Content.Reorders second first := by
  induction h with
  | members unique same => exact .members ((same.map _).nodup_iff.mp unique) same.symm
  | item _ ih => exact .item ih
  | member _ ih => exact .member ih

instance : Std.Symm Content.Reorders := ⟨fun _ _ => Content.Reorders.symm⟩

-- Texts that say the same. They differ in white space between tokens, in the way the characters of
-- strings are written, and in the order of members that all have different keys.
def Respelled (s t : String) : Prop :=
  ∃ first second, SpellsText s.toList first ∧ SpellsText t.toList second ∧
    Relation.ReflTransGen Content.Reorders first second

section Texts

variable {α : Type} {decode : Decoder α} {s t : String}

theorem Respelled.symm (h : Respelled s t) : Respelled t s := by
  obtain ⟨first, second, hfirst, hsecond, hsame⟩ := h
  exact ⟨second, first, hsecond, hfirst, Std.Symm.symm _ _ hsame⟩

theorem Decoder.Steady.of_reflTransGen (h : decode.Steady) {first second : Content}
    (hsame : Relation.ReflTransGen Content.Reorders first second) {levels : Nat} {a : α}
    (hread : decode levels first.node = .ok a) : decode levels second.node = .ok a := by
  induction hsame with
  | refl => exact hread
  | tail _ hstep ih => exact h hstep levels a ih

theorem decodeText_of_spellsText {content : Content} (h : SpellsText s.toList content) :
    decodeText decode s = decode maxDepth content.node := by
  unfold decodeText
  rw [h.ofText_eq]
  cases hdecode : decode maxDepth content.node <;>
    simp [hdecode, Decoder.close, bind, Except.bind]

theorem Decoder.Steady.decodeText_respelled (h : decode.Steady) (hsame : Respelled s t) {a : α}
    (hread : decodeText decode s = .ok a) : decodeText decode t = .ok a := by
  obtain ⟨first, second, hfirst, hsecond, hreorders⟩ := hsame
  rw [decodeText_of_spellsText hfirst] at hread
  rw [decodeText_of_spellsText hsecond]
  exact h.of_reflTransGen hreorders hread

end Texts

end DeclarationWatch.Json
