import DeclarationWatch.Json.Decoder
import DeclarationWatch.Json.Record
import DeclarationWatch.Proofs.Json.Writing
import DeclarationWatch.Proofs.Keyed

namespace DeclarationWatch.Json

mutual

-- The keys of every object ascend, and no more arrays and objects than given are inside each other.
def Fits : Nat → Json → Prop
  | levels, .array items =>
      match levels with
      | 0 => False
      | levels + 1 => FitsItems levels items
  | levels, .object members =>
      match levels with
      | 0 => False
      | levels + 1 => Keyed.Ascending members ∧ FitsMembers levels members
  | _, _ => True

def FitsItems : Nat → List Json → Prop
  | _, [] => True
  | levels, item :: rest => Fits levels item ∧ FitsItems levels rest

def FitsMembers : Nat → List (String × Json) → Prop
  | _, [] => True
  | levels, (_, value) :: rest => Fits levels value ∧ FitsMembers levels rest

end

theorem fitsMembers_iff (levels : Nat) (members : List (String × Json)) :
    FitsMembers levels members ↔ ∀ pair ∈ members, pair.2.Fits levels := by
  induction members with
  | nil => simp [FitsMembers]
  | cons pair rest ih => simp [FitsMembers, ih]

theorem exactMembers_iff (members : List (String × Json)) :
    ExactMembers members ↔ ∀ pair ∈ members, pair.2.Exact := by
  induction members with
  | nil => simp [ExactMembers]
  | cons pair rest ih => simp [ExactMembers, ih]

theorem exactItems_iff (items : List Json) : ExactItems items ↔ ∀ item ∈ items, item.Exact := by
  induction items with
  | nil => simp [ExactItems]
  | cons item rest ih => simp [ExactItems, ih]

theorem membersOf_append (members more : List (String × Json)) :
    membersOf (members ++ more) = membersOf members ++ membersOf more := by
  induction members with
  | nil => rfl
  | cons pair rest ih => simp [membersOf, ih]

mutual

theorem fits_mono : ∀ (v : Json) (levels more : Nat), levels ≤ more → v.Fits levels → v.Fits more
  | .null, _, _ => fun _ _ => trivial
  | .bool _, _, _ => fun _ _ => trivial
  | .number _, _, _ => fun _ _ => trivial
  | .string _, _, _ => fun _ _ => trivial
  | .array _, 0, _ => fun _ h => absurd h id
  | .array _, levels + 1, 0 => fun hle _ => absurd hle (Nat.not_succ_le_zero levels)
  | .array items, levels + 1, more + 1 => fun hle h =>
      fitsItems_mono items levels more (Nat.le_of_succ_le_succ hle) h
  | .object _, 0, _ => fun _ h => absurd h id
  | .object _, levels + 1, 0 => fun hle _ => absurd hle (Nat.not_succ_le_zero levels)
  | .object members, levels + 1, more + 1 => fun hle h =>
      ⟨h.1, fitsMembers_mono members levels more (Nat.le_of_succ_le_succ hle) h.2⟩

theorem fitsItems_mono : ∀ (items : List Json) (levels more : Nat), levels ≤ more →
    FitsItems levels items → FitsItems more items
  | [], _, _, _, _ => trivial
  | item :: rest, levels, more, hle, h =>
      ⟨fits_mono item levels more hle h.1, fitsItems_mono rest levels more hle h.2⟩

theorem fitsMembers_mono : ∀ (members : List (String × Json)) (levels more : Nat), levels ≤ more →
    FitsMembers levels members → FitsMembers more members
  | [], _, _, _, _ => trivial
  | (_, value) :: rest, levels, more, hle, h =>
      ⟨fits_mono value levels more hle h.1, fitsMembers_mono rest levels more hle h.2⟩

end

-- What stands one level further down.
def Node.parts : Node → List Node
  | .array items _ => items
  | .object members _ => members.map (·.2)
  | _ => []

namespace Decoder

theorem bind_eq_ok {α β : Type} {x : Except Fault α} {f : α → Except Fault β} {b : β} :
    (x >>= f) = .ok b ↔ ∃ a, x = .ok a ∧ f a = .ok b := by
  cases x with
  | error fault => simp [bind, Except.bind]
  | ok a => simp [bind, Except.bind]

theorem map_eq_ok {α β : Type} {x : Except Fault α} {f : α → β} {b : β} :
    x.map f = .ok b ↔ ∃ a, x = .ok a ∧ f a = b := by
  cases x with
  | error fault => simp [Except.map]
  | ok a => simp [Except.map]

theorem eq_ok_of_toOption {α : Type} {x : Except Fault α} {a : α} (h : x.toOption = some a) :
    x = .ok a := by
  cases x with
  | error fault => cases h
  | ok b => exact congrArg Except.ok (Option.some.inj h)

mutual

-- A value that is written and fits is decoded as itself, by the recursion of the decoder.
theorem value_nodeOf : ∀ (levels : Nat) (v : Json), v.Fits levels →
    value levels (nodeOf v) = .ok v
  | _, .null, _ => by simp [value, nodeOf]
  | _, .bool _, _ => by simp [value, nodeOf]
  | _, .number _, _ => by simp [value, nodeOf, Except.map]
  | _, .string _, _ => by simp [value, nodeOf, Except.map]
  | 0, .array _, h => absurd h id
  | levels + 1, .array items, h => by
      have hitems := valueItems_nodesOf levels items h
      simp [value, nodeOf, hitems, close, bind, Except.bind]
  | 0, .object _, h => absurd h id
  | levels + 1, .object members, h => by
      have hmembers := valueMembers_membersOf levels [] members h.1 h.2
      simp [value, nodeOf, hmembers, close, bind, Except.bind]

theorem valueItems_nodesOf : ∀ (levels : Nat) (items : List Json), FitsItems levels items →
    valueItems levels (nodesOf items) = .ok items
  | _, [], _ => by simp [valueItems, nodesOf]
  | levels, item :: rest, h => by
      simp [valueItems, nodesOf, value_nodeOf levels item h.1, valueItems_nodesOf levels rest h.2,
        bind, Except.bind]

theorem valueMembers_membersOf : ∀ (levels : Nat) (table : Keyed Json)
    (members : List (String × Json)), Keyed.Ascending (table ++ members) →
    FitsMembers levels members →
    valueMembers levels table (membersOf members) = .ok (table ++ members)
  | _, table, [], _, _ => by simp [valueMembers, membersOf]
  | levels, table, (key, v) :: rest, hasc, h => by
      have hinsert := Keyed.insert_of_ascending_append hasc
      have hrest := valueMembers_membersOf levels (table ++ [(key, v)]) rest (by
        simpa using hasc) h.2
      simp [valueMembers, membersOf, value_nodeOf levels v h.1, hinsert, hrest, bind, Except.bind]

end

-- A text is the same, whatever is expected in its place.
theorem value_of_string {levels : Nat} {node : Node} {s : String}
    (h : string levels node = .ok s) : value levels node = .ok (.string s) := by
  cases node with
  | string piece =>
      have htext : piece.text = .ok s := h
      simp [value, htext, Except.map]
  | _ => simp [string] at h

-- The members of a written object come back in the order of their keys.
theorem valueMembers_membersOf_foldl {levels : Nat} {members : List (String × Json)}
    (h : ∀ pair ∈ members, pair.2.Fits levels) (table : Keyed Json) :
    valueMembers levels table (membersOf members) =
      .ok (members.foldl (fun table pair => table.insert pair.1 pair.2) table) := by
  induction members generalizing table with
  | nil => rfl
  | cons pair rest ih =>
      obtain ⟨key, v⟩ := pair
      have hvalue := value_nodeOf levels v (h (key, v) List.mem_cons_self)
      have hrest := ih (fun pair hpair => h pair (List.mem_cons_of_mem _ hpair))
        (table.insert key v)
      simp [valueMembers, membersOf, hvalue, hrest, bind, Except.bind]

mutual

-- Whatever is decoded fits.
theorem fits_of_value : ∀ (levels : Nat) (node : Node) (v : Json),
    value levels node = .ok v → v.Fits levels
  | _, .null, v, h => by
      simp only [value, Except.ok.injEq] at h
      simp [← h, Fits]
  | _, .bool _, v, h => by
      simp only [value, Except.ok.injEq] at h
      simp [← h, Fits]
  | _, .number _, v, h => by
      simp only [value] at h
      obtain ⟨n, -, rfl⟩ := map_eq_ok.mp h
      simp [Fits]
  | _, .string _, v, h => by
      simp only [value] at h
      obtain ⟨text, -, rfl⟩ := map_eq_ok.mp h
      simp [Fits]
  | 0, .array _ _, _, h => by simp [value] at h
  | levels + 1, .array items cut, v, h => by
      simp only [value, bind_eq_ok] at h
      obtain ⟨values, hvalues, -, -, hv⟩ := h
      cases hv
      exact fits_of_valueItems levels items values hvalues
  | 0, .object _ _, _, h => by simp [value] at h
  | levels + 1, .object members cut, v, h => by
      simp only [value, bind_eq_ok] at h
      obtain ⟨values, hvalues, -, -, hv⟩ := h
      cases hv
      have hfits := fits_of_valueMembers levels [] members values hvalues Keyed.ascending_nil
        (by simp)
      exact ⟨hfits.1, (fitsMembers_iff levels values).mpr hfits.2⟩
  | _, .absent _, _, h => by simp [value] at h

theorem fits_of_valueItems : ∀ (levels : Nat) (items : List Node) (values : List Json),
    valueItems levels items = .ok values → FitsItems levels values
  | _, [], values, h => by
      simp only [valueItems, Except.ok.injEq] at h
      simp [← h, FitsItems]
  | levels, item :: rest, values, h => by
      simp only [valueItems, bind_eq_ok] at h
      obtain ⟨first, hfirst, others, hothers, hvalues⟩ := h
      cases hvalues
      exact ⟨fits_of_value levels item first hfirst, fits_of_valueItems levels rest others hothers⟩

theorem fits_of_valueMembers : ∀ (levels : Nat) (table : Keyed Json)
    (members : List (Piece × Node)) (values : Keyed Json),
    valueMembers levels table members = .ok values → table.Ascending →
    (∀ pair ∈ table, pair.2.Fits levels) →
    values.Ascending ∧ ∀ pair ∈ values, pair.2.Fits levels
  | _, table, [], values, h, hasc, hfits => by
      simp only [valueMembers, Except.ok.injEq] at h
      exact h ▸ ⟨hasc, hfits⟩
  | levels, table, (key, node) :: rest, values, h, hasc, hfits => by
      simp only [valueMembers, bind_eq_ok] at h
      obtain ⟨key, -, member, hmember, hrest⟩ := h
      refine fits_of_valueMembers levels (table.insert key member) rest values hrest
        (hasc.insert key member) fun pair hpair => ?_
      rcases Keyed.mem_of_mem_insert hpair with rfl | hold
      · exact fits_of_value levels node member hmember
      · exact hfits pair hold

end

section Containers

variable {α σ : Type} {decode : Decoder α} {levels : Nat} {node : Node}

theorem mem_of_listItems {items : List Node} {values : List α}
    (h : listItems decode levels items = .ok values) {v : α} (hv : v ∈ values) :
    ∃ item ∈ items, decode levels item = .ok v := by
  induction items generalizing values with
  | nil =>
      simp only [listItems, Except.ok.injEq] at h
      simp [← h] at hv
  | cons item rest ih =>
      simp only [listItems, bind_eq_ok] at h
      obtain ⟨first, hfirst, others, hothers, hvalues⟩ := h
      cases hvalues
      rcases List.mem_cons.mp hv with rfl | hrest
      · exact ⟨item, List.mem_cons_self, hfirst⟩
      · obtain ⟨other, hother, hdecode⟩ := ih hothers hrest
        exact ⟨other, List.mem_cons_of_mem _ hother, hdecode⟩

-- The values of a list are decoded one level further down.
theorem mem_of_list {values : List α} (h : list decode (levels + 1) node = .ok values) {v : α}
    (hv : v ∈ values) : ∃ item ∈ node.parts, decode levels item = .ok v := by
  cases node with
  | array items cut =>
      simp only [list, bind_eq_ok] at h
      obtain ⟨decoded, hdecoded, -, -, heq⟩ := h
      cases heq
      exact mem_of_listItems hdecoded hv
  | _ => simp [list] at h

-- A list is decoded as itself if its elements are.
theorem list_nodeOf (decode : Decoder α) (levels : Nat) (toJson : α → Json) (values : List α)
    (h : ∀ a ∈ values, decode levels (nodeOf (toJson a)) = .ok a) :
    list decode (levels + 1) (nodeOf (.array (values.map toJson))) = .ok values := by
  have hitems : listItems decode levels (nodesOf (values.map toJson)) = .ok values := by
    induction values with
    | nil => rfl
    | cons a rest ih =>
        have hrest := ih fun b hb => h b (List.mem_cons_of_mem _ hb)
        simp [listItems, nodesOf, h a List.mem_cons_self, hrest, bind, Except.bind]
  simp [list, nodeOf, hitems, close, bind, Except.bind]

-- Pairs that are written in the order of their keys join those that stand before them.
theorem tableMembers_membersOf (toJson : α → Json) (table : Keyed α) {pairs : Keyed α}
    (hasc : Keyed.Ascending (table ++ pairs))
    (h : ∀ pair ∈ pairs, decode levels (nodeOf (toJson pair.2)) = .ok pair.2) :
    tableMembers decode levels table (membersOf (pairs.map fun pair => (pair.1, toJson pair.2))) =
      .ok (table ++ pairs) := by
  induction pairs generalizing table with
  | nil => simp [tableMembers, membersOf]
  | cons pair rest ih =>
      obtain ⟨key, v⟩ := pair
      have hinsert := Keyed.insert_of_ascending_append hasc
      have hvalue := h (key, v) List.mem_cons_self
      have hrest := ih (table ++ [(key, v)]) (by simpa using hasc)
        fun pair hpair => h pair (List.mem_cons_of_mem _ hpair)
      simp [tableMembers, membersOf, hvalue, hinsert, hrest, bind, Except.bind]

-- A table is decoded as itself if its values are.
theorem table_nodeOf (decode : Decoder α) (levels : Nat) (toJson : α → Json) {pairs : Keyed α}
    (hasc : pairs.Ascending)
    (h : ∀ pair ∈ pairs, decode levels (nodeOf (toJson pair.2)) = .ok pair.2) :
    table decode (levels + 1) (nodeOf (.object (pairs.map fun pair => (pair.1, toJson pair.2)))) =
      .ok pairs := by
  have hmembers := tableMembers_membersOf toJson [] hasc h
  simp [table, nodeOf, hmembers, close, bind, Except.bind]

theorem ascending_of_tableMembers {members : List (Piece × Node)} {pairs values : Keyed α}
    (hasc : pairs.Ascending) (h : tableMembers decode levels pairs members = .ok values) :
    values.Ascending := by
  induction members generalizing pairs with
  | nil =>
      simp only [tableMembers, Except.ok.injEq] at h
      exact h ▸ hasc
  | cons member rest ih =>
      simp only [tableMembers, bind_eq_ok] at h
      obtain ⟨key, -, value, -, h⟩ := h
      exact ih (hasc.insert key value) h

theorem ascending_of_table {values : Keyed α} (h : table decode levels node = .ok values) :
    values.Ascending := by
  cases node with
  | object members cut =>
      cases levels with
      | zero => simp [table] at h
      | succ levels =>
          simp only [table, bind_eq_ok] at h
          obtain ⟨pairs, hpairs, -, -, heq⟩ := h
          cases heq
          exact ascending_of_tableMembers Keyed.ascending_nil hpairs
  | _ => simp [table] at h

theorem recordMembers_preserves {fields : List (Field σ)} (P : σ → Prop)
    {members : List (Piece × Node)}
    (hstore : ∀ field ∈ fields, ∀ member ∈ members, ∀ draft next, P draft →
      field.store draft levels member.2 = .ok next → P next)
    {empty draft : σ} (hempty : P empty)
    (h : recordMembers fields levels empty members = .ok draft) : P draft := by
  induction members generalizing empty with
  | nil =>
      simp only [recordMembers, Except.ok.injEq] at h
      exact h ▸ hempty
  | cons member rest ih =>
      have hrest := fun field hfield other hother =>
        hstore field hfield other (List.mem_cons_of_mem member hother)
      simp only [recordMembers, bind_eq_ok] at h
      obtain ⟨key, -, h⟩ := h
      split at h
      · obtain ⟨-, -, h⟩ := bind_eq_ok.mp h
        exact ih hrest hempty h
      · rename_i field hfield
        split at h
        · cases h
        · obtain ⟨next, hnext, h⟩ := bind_eq_ok.mp h
          exact ih hrest (hstore field (List.mem_of_find?_eq_some hfield) member
            List.mem_cons_self _ next hempty hnext) h

theorem recordItems_preserves {fields : List (Field σ)} (P : σ → Prop) {items : List Node}
    (hstore : ∀ field ∈ fields, ∀ item ∈ items, ∀ draft next, P draft →
      field.store draft levels item = .ok next → P next)
    {cut : Option Fault} {empty draft : σ} (hempty : P empty)
    (h : recordItems levels cut empty fields items = .ok draft) : P draft := by
  induction fields generalizing empty items with
  | nil =>
      cases items with
      | nil =>
          simp only [recordItems, bind_eq_ok] at h
          obtain ⟨-, -, heq⟩ := h
          cases heq
          exact hempty
      | cons item rest => simp [recordItems] at h
  | cons field fields ih =>
      cases items with
      | nil =>
          simp only [recordItems, bind_eq_ok] at h
          obtain ⟨-, -, h⟩ := h
          split at h
          · exact ih (fun _ _ _ hitem => absurd hitem List.not_mem_nil) hempty h
          · cases h
      | cons item rest =>
          simp only [recordItems, bind_eq_ok] at h
          obtain ⟨next, hnext, h⟩ := h
          have hrest := fun other hother part hpart => hstore other
            (List.mem_cons_of_mem field hother) part (List.mem_cons_of_mem item hpart)
          exact ih hrest
            (hstore field List.mem_cons_self item List.mem_cons_self empty next hempty hnext) h

-- What no field of a record breaks holds of the finished draft.
theorem record_preserves {fields : List (Field σ)} {empty draft : σ} (P : σ → Prop)
    (hstore : ∀ field ∈ fields, ∀ part ∈ node.parts, ∀ draft next, P draft →
      field.store draft levels part = .ok next → P next)
    (hempty : P empty) (h : record fields empty (levels + 1) node = .ok draft) : P draft := by
  cases node with
  | array items cut =>
      simp only [record] at h
      exact recordItems_preserves P hstore hempty h
  | object members cut =>
      simp only [record, recordObject, bind_eq_ok] at h
      obtain ⟨last, hmembers, -, -, hlast⟩ := h
      split at hlast
      · cases hlast
        refine recordMembers_preserves P (fun field hfield member hmember => ?_) hempty hmembers
        exact hstore field hfield member.2 (List.mem_map_of_mem hmember)
      · cases hlast
  | _ => simp [record, recordObject] at h

end Containers

end Decoder

-- What is read from a text comes from its first value.
theorem decode_of_decodeText {α : Type} {decode : Decoder α} {s : String} {a : α}
    (h : decodeText decode s = .ok a) : decode maxDepth (Document.ofText s.toList).root = .ok a := by
  simp only [decodeText, Decoder.bind_eq_ok] at h
  obtain ⟨value, hvalue, -, -, heq⟩ := h
  cases heq
  exact hvalue

-- A text that can be read as one thing holds nothing behind it.
theorem decodeText_of_decodeText {α β : Type} {decode : Decoder α} {s : String} {a : α}
    (h : decodeText decode s = .ok a) (other : Decoder β) :
    decodeText other s = other maxDepth (Document.ofText s.toList).root := by
  simp only [decodeText, Decoder.bind_eq_ok] at h
  obtain ⟨value, -, trailing, htrailing, -⟩ := h
  unfold decodeText
  cases hother : other maxDepth (Document.ofText s.toList).root <;>
    simp [hother, htrailing, bind, Except.bind]

-- The text of a value is read as that value is seen.
theorem decodeText_text {α : Type} (decode : Decoder α) (v : Json) (hexact : v.Exact) :
    decodeText decode v.text = decode maxDepth (nodeOf v) := by
  unfold decodeText Json.text
  rw [String.toList_ofList, ofText_render v hexact]
  cases hdecode : decode maxDepth (nodeOf v) <;> simp [hdecode, Decoder.close, bind, Except.bind]

end DeclarationWatch.Json
