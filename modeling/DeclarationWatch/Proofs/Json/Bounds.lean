import DeclarationWatch.Proofs.Json.Decoding

namespace DeclarationWatch.Json

variable {fuel : Nat} {s : List Char} {n : Int}

theorem inRange_of_value {numeral : Numeral} (h : numeral.value = .ok (.integer n)) :
    InRange n := by
  have hreal : ∀ {x : Except Fault Float} {f : Float → Float},
      x.map (fun y => Number.real (f y)) ≠ .ok (.integer n) := by
    intro x f hx
    obtain ⟨y, -, hy⟩ := Decoder.map_eq_ok.mp hx
    cases hy
  unfold Numeral.value at h
  simp only at h
  split at h
  · split at h
    · split at h
      · exact absurd h hreal
      · rename_i hfits
        cases h
        simp only [Bool.or_eq_true, decide_eq_true_eq, not_or] at hfits
        simp only [InRange, Width.words64]
        omega
    · split at h
      · rename_i hfits
        cases h
        simp only [InRange, Width.signed64]
        omega
      · exact absurd h hreal
  · exact absurd h hreal

-- An integer that stands here has 64 bits, with a sign or without.
def Node.Bounded (node : Node) : Prop := ∀ n, node = .number (.ok (.integer n)) → InRange n

theorem bounded_readNode {node : Node} {left : Option (List Char)}
    (h : readNode fuel s = (node, left)) : node.Bounded := by
  intro n hn
  subst hn
  cases fuel with
  | zero => cases h
  | succ fuel =>
      generalize hnode : Node.number (.ok (.integer n)) = node at h
      cases nodeStep_of_readNode h with
      | number read => exact inRange_of_value (Node.number.inj hnode).symm
      | _ => cases hnode

theorem bounded_of_mem_readItems {nodes : List Node} {cut : Option Fault}
    {left : Option (List Char)} (h : readItems fuel s = (nodes, cut, left)) :
    ∀ item ∈ nodes, item.Bounded := by
  induction fuel generalizing s nodes with
  | zero =>
      cases h
      simp
  | succ fuel ih =>
      cases itemsStep_of_readItems h with
      | broken read => exact List.forall_mem_singleton.mpr (bounded_readNode read)
      | cut read => exact List.forall_mem_singleton.mpr (bounded_readNode read)
      | last read close => exact List.forall_mem_singleton.mpr (bounded_readNode read)
      | more read comma others =>
          exact List.forall_mem_cons.mpr ⟨bounded_readNode read, ih others⟩

theorem bounded_of_readsMember {key : Piece} {value : Node} {behind : List Char}
    (h : ReadsMember fuel s key value behind) : value.Bounded := by
  obtain ⟨_, _, _, -, -, -, read⟩ := h
  exact bounded_readNode read

theorem bounded_of_mem_readMembers {members : List (Piece × Node)} {cut : Option Fault}
    {left : Option (List Char)} (h : readMembers fuel s = (members, cut, left)) :
    ∀ member ∈ members, member.2.Bounded := by
  induction fuel generalizing s members with
  | zero =>
      cases h
      simp
  | succ fuel ih =>
      cases membersStep_of_readMembers h with
      | noKey => simp
      | noValue fault => simp [Node.Bounded]
      | broken read => exact List.forall_mem_singleton.mpr (bounded_readNode read)
      | cut read => exact List.forall_mem_singleton.mpr (bounded_of_readsMember read)
      | last read close => exact List.forall_mem_singleton.mpr (bounded_of_readsMember read)
      | more read comma others =>
          exact List.forall_mem_cons.mpr ⟨bounded_of_readsMember read, ih others⟩

-- The integers that a text holds one level down have 64 bits.
theorem bounded_of_mem_parts {part : Node} (h : part ∈ (Document.ofText s).root.parts) :
    part.Bounded := by
  rw [Document.ofText] at h
  generalize hread : readNode (2 * s.length + 2) s = read at h
  obtain ⟨root, left⟩ := read
  cases nodeStep_of_readNode hread with
  | array start read => exact bounded_of_mem_readItems read part h
  | object start read =>
      obtain ⟨member, hmember, rfl⟩ := List.mem_map.mp h
      exact bounded_of_mem_readMembers read member hmember
  | _ => exact absurd h List.not_mem_nil

theorem fits_of_int64 {node : Node} {levels : Nat} (hbounded : node.Bounded)
    (h : Decoder.int64 levels node = .ok n) : Width.fitsSigned64 n = true := by
  unfold Decoder.int64 at h
  split at h
  · rename_i whole
    split at h
    · rename_i hlt
      cases h
      exact (Width.fitsSigned64_iff n).mpr ⟨(hbounded n rfl).1, hlt⟩
    · cases h
  · cases h

end DeclarationWatch.Json
