import DeclarationWatch.Proofs.Json.Decoding

namespace DeclarationWatch.Json

mutual

-- The numbers that stand in a text are integers of 64 bits, or minus zero.
def Node.Exact : Node → Prop
  | .number (.ok n) => n.Exact
  | .number (.error _) => False
  | .array items _ => Node.ExactItems items
  | .object members _ => Node.ExactMembers members
  | _ => True

def Node.ExactItems : List Node → Prop
  | [] => True
  | item :: rest => item.Exact ∧ Node.ExactItems rest

def Node.ExactMembers : List (Piece × Node) → Prop
  | [] => True
  | (_, value) :: rest => value.Exact ∧ Node.ExactMembers rest

end

namespace Node

theorem exactItems_iff (items : List Node) : ExactItems items ↔ ∀ item ∈ items, item.Exact := by
  induction items with
  | nil => simp [ExactItems]
  | cons item rest ih => simp [ExactItems, ih]

theorem exactMembers_iff (members : List (Piece × Node)) :
    ExactMembers members ↔ ∀ member ∈ members, member.2.Exact := by
  induction members with
  | nil => simp [ExactMembers]
  | cons member rest ih => simp [ExactMembers, ih]

mutual

def decideExact : (node : Node) → Decidable node.Exact
  | .number (.ok n) => inferInstanceAs (Decidable n.Exact)
  | .number (.error _) => inferInstanceAs (Decidable False)
  | .array items _ => decideExactItems items
  | .object members _ => decideExactMembers members
  | .null | .bool _ | .string _ | .absent _ => inferInstanceAs (Decidable True)

def decideExactItems : (items : List Node) → Decidable (ExactItems items)
  | [] => inferInstanceAs (Decidable True)
  | item :: rest => @instDecidableAnd _ _ (decideExact item) (decideExactItems rest)

def decideExactMembers : (members : List (Piece × Node)) → Decidable (ExactMembers members)
  | [] => inferInstanceAs (Decidable True)
  | (_, value) :: rest => @instDecidableAnd _ _ (decideExact value) (decideExactMembers rest)

end

instance (node : Node) : Decidable node.Exact := decideExact node

theorem Exact.of_mem_parts {node part : Node} (h : node.Exact) (hpart : part ∈ node.parts) :
    part.Exact := by
  cases node with
  | array items cut => exact (exactItems_iff items).mp h part hpart
  | object members cut =>
      obtain ⟨member, hmember, rfl⟩ := List.mem_map.mp hpart
      exact (exactMembers_iff members).mp h member hmember
  | _ => exact absurd hpart List.not_mem_nil

end Node

namespace Decoder

mutual

-- Numbers are decoded as they stand.
theorem exact_of_value : ∀ (levels : Nat) (node : Node) (v : Json), node.Exact →
    value levels node = .ok v → v.Exact
  | _, .null, v, _, h => by
      simp only [value, Except.ok.injEq] at h
      simp [← h, Exact]
  | _, .bool _, v, _, h => by
      simp only [value, Except.ok.injEq] at h
      simp [← h, Exact]
  | _, .number (.ok n), v, hexact, h => by
      simp only [value] at h
      obtain ⟨m, hm, rfl⟩ := map_eq_ok.mp h
      cases hm
      exact hexact
  | _, .number (.error _), _, hexact, _ => absurd hexact id
  | _, .string _, v, _, h => by
      simp only [value] at h
      obtain ⟨text, -, rfl⟩ := map_eq_ok.mp h
      simp [Exact]
  | 0, .array _ _, _, _, h => by simp [value] at h
  | levels + 1, .array items cut, v, hexact, h => by
      simp only [value, bind_eq_ok] at h
      obtain ⟨values, hvalues, -, -, hv⟩ := h
      cases hv
      exact exact_of_valueItems levels items values hexact hvalues
  | 0, .object _ _, _, _, h => by simp [value] at h
  | levels + 1, .object members cut, v, hexact, h => by
      simp only [value, bind_eq_ok] at h
      obtain ⟨values, hvalues, -, -, hv⟩ := h
      cases hv
      have hvalues := exact_of_valueMembers levels [] members values hexact (by simp) hvalues
      exact (exactMembers_iff values).mpr hvalues
  | _, .absent _, _, _, h => by simp [value] at h

theorem exact_of_valueItems : ∀ (levels : Nat) (items : List Node) (values : List Json),
    Node.ExactItems items → valueItems levels items = .ok values → ExactItems values
  | _, [], values, _, h => by
      simp only [valueItems, Except.ok.injEq] at h
      simp [← h, ExactItems]
  | levels, item :: rest, values, hexact, h => by
      simp only [valueItems, bind_eq_ok] at h
      obtain ⟨first, hfirst, others, hothers, hvalues⟩ := h
      cases hvalues
      exact ⟨exact_of_value levels item first hexact.1 hfirst,
        exact_of_valueItems levels rest others hexact.2 hothers⟩

theorem exact_of_valueMembers : ∀ (levels : Nat) (table : Keyed Json)
    (members : List (Piece × Node)) (values : Keyed Json), Node.ExactMembers members →
    (∀ pair ∈ table, pair.2.Exact) → valueMembers levels table members = .ok values →
    ∀ pair ∈ values, pair.2.Exact
  | _, table, [], values, _, htable, h => by
      simp only [valueMembers, Except.ok.injEq] at h
      exact h ▸ htable
  | levels, table, (key, node) :: rest, values, hexact, htable, h => by
      simp only [valueMembers, bind_eq_ok] at h
      obtain ⟨key, -, member, hmember, hrest⟩ := h
      refine exact_of_valueMembers levels (table.insert key member) rest values hexact.2
        (fun pair hpair => ?_) hrest
      rcases Keyed.mem_of_mem_insert hpair with rfl | hold
      · exact exact_of_value levels node member hexact.1 hmember
      · exact htable pair hold

end

end Decoder

end DeclarationWatch.Json
