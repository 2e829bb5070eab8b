import DeclarationWatch.Proofs.Json.Grammar

namespace DeclarationWatch.Json

mutual

-- What a reader sees of a value that has been written.
def nodeOf : Json → Node
  | .null => .null
  | .bool b => .bool b
  | .number n => .number (.ok n)
  | .string s => .string ⟨.ok s, none⟩
  | .array items => .array (nodesOf items) none
  | .object members => .object (membersOf members) none

def nodesOf : List Json → List Node
  | [] => []
  | item :: rest => nodeOf item :: nodesOf rest

def membersOf : List (String × Json) → List (Piece × Node)
  | [] => []
  | (key, value) :: rest => (⟨.ok key, none⟩, nodeOf value) :: membersOf rest

end

mutual

-- The numbers in a value are integers of 64 bits. No other number is sure to come back as it was.
def Whole : Json → Prop
  | .number (.integer n) => InRange n
  | .number (.real _) => False
  | .array items => WholeItems items
  | .object members => WholeMembers members
  | _ => True

def WholeItems : List Json → Prop
  | [] => True
  | item :: rest => item.Whole ∧ WholeItems rest

def WholeMembers : List (String × Json) → Prop
  | [] => True
  | (_, value) :: rest => value.Whole ∧ WholeMembers rest

end

mutual

-- The numbers in a value come back as they were: integers of 64 bits, and minus zero.
def Exact : Json → Prop
  | .number n => n.Exact
  | .array items => ExactItems items
  | .object members => ExactMembers members
  | _ => True

def ExactItems : List Json → Prop
  | [] => True
  | item :: rest => item.Exact ∧ ExactItems rest

def ExactMembers : List (String × Json) → Prop
  | [] => True
  | (_, value) :: rest => value.Exact ∧ ExactMembers rest

end

mutual

theorem Whole.exact : ∀ {v : Json}, v.Whole → v.Exact
  | .null, _ => trivial
  | .bool _, _ => trivial
  | .number (.integer _), h => h
  | .number (.real _), h => absurd h id
  | .string _, _ => trivial
  | .array _, h => WholeItems.exact h
  | .object _, h => WholeMembers.exact h

theorem WholeItems.exact : ∀ {items : List Json}, WholeItems items → ExactItems items
  | [], _ => trivial
  | _ :: _, h => ⟨h.1.exact, WholeItems.exact h.2⟩

theorem WholeMembers.exact : ∀ {members : List (String × Json)}, WholeMembers members →
    ExactMembers members
  | [], _ => trivial
  | (_, _) :: _, h => ⟨h.1.exact, WholeMembers.exact h.2⟩

end

mutual

-- What the text of a value says.
def contentOf : Json → Content
  | .null => .null
  | .bool b => .bool b
  | .number n => .number n.numeral
  | .string s => .string (s.toList.flatMap unitsOf)
  | .array items => .array (contentsOf items)
  | .object members => .object (memberContentsOf members)

def contentsOf : List Json → List Content
  | [] => []
  | item :: rest => contentOf item :: contentsOf rest

def memberContentsOf : List (String × Json) → List (List Nat × Content)
  | [] => []
  | (key, value) :: rest => (key.toList.flatMap unitsOf, contentOf value) :: memberContentsOf rest

end

theorem pieceOf_flatMap_unitsOf (s : String) :
    pieceOf (s.toList.flatMap unitsOf) = ⟨.ok s, none⟩ := by
  have hchars : ∀ text : List Char, charsOf? (text.flatMap unitsOf) = some text := by
    intro text
    induction text with
    | nil => rfl
    | cons c text ih => rw [List.flatMap_cons, charsOf?_unitsOf, ih, Option.map_some]
  simp [pieceOf, hchars]

mutual

theorem node_contentOf : ∀ {v : Json}, v.Exact → (contentOf v).node = nodeOf v
  | .null, _ => rfl
  | .bool _, _ => rfl
  | .number _, h => congrArg Node.number (Number.Exact.value_numeral h)
  | .string s, _ => congrArg Node.string (pieceOf_flatMap_unitsOf s)
  | .array _, h => congrArg (Node.array · none) (nodes_contentsOf h)
  | .object _, h => congrArg (Node.object · none) (memberNodes_memberContentsOf h)

theorem nodes_contentsOf : ∀ {items : List Json}, ExactItems items →
    Content.nodes (contentsOf items) = nodesOf items
  | [], _ => rfl
  | _ :: _, h => by
      rw [contentsOf, Content.nodes, node_contentOf h.1, nodes_contentsOf h.2, nodesOf]

theorem memberNodes_memberContentsOf : ∀ {members : List (String × Json)}, ExactMembers members →
    Content.memberNodes (memberContentsOf members) = membersOf members
  | [], _ => rfl
  | (key, _) :: _, h => by
      rw [memberContentsOf, Content.memberNodes, pieceOf_flatMap_unitsOf, node_contentOf h.1,
        memberNodes_memberContentsOf h.2, membersOf]

end

section Lexemes

variable {s rest : List Char} {units : List Nat}

theorem Marks.escapeChar (c : Char) (more : Marks s units rest) :
    Marks (escapeChar c ++ s) (unitsOf c ++ units) rest := by
  unfold Json.escapeChar
  split
  · rename_i hc
    subst hc
    exact .letter rfl more
  split
  · rename_i hc
    subst hc
    exact .letter rfl more
  split
  · rename_i hcontrol
    split
    · rename_i letter hletter
      exact .letter (letterEscape?_escapeLetter? hletter).2 more
    · have hhigh := hexValue?_hexDigit (c.toNat / 16) (by omega)
      have hlow := hexValue?_hexDigit (c.toNat % 16) (by omega)
      have hunit : unitsOf c = [((0 * 16 + 0) * 16 + c.toNat / 16) * 16 + c.toNat % 16] := by
        rw [unitsOf, if_pos (by omega)]
        congr 1
        omega
      rw [hunit]
      exact .code rfl rfl hhigh hlow more
  · rename_i hquote hslash hprinted
    exact .plain hquote hslash (Nat.le_of_not_lt hprinted) more

-- A text in its written form spells its characters.
theorem Marks.flatMap_escapeChar (text rest : List Char) :
    Marks (text.flatMap Json.escapeChar ++ '"' :: rest) (text.flatMap unitsOf) rest := by
  induction text with
  | nil => exact .close
  | cons c text ih =>
      rw [List.flatMap_cons, List.flatMap_cons, List.append_assoc]
      exact ih.escapeChar c

theorem numberToken_integer (n : Int) : NumberToken (numeralOf n) (Number.integer n).render := by
  have hdigits : Digits (Nat.toDigits 10 n.natAbs) :=
    ⟨Nat.toDigits_ne_nil, fun c hc => isDigit_of_mem_toDigits hc⟩
  have hzero : (Nat.toDigits 10 n.natAbs).head? = some '0' →
      (Nat.toDigits 10 n.natAbs).length = 1 := by
    intro hhead
    rcases Nat.eq_zero_or_pos n.natAbs with hn | hpos
    · rw [hn]
      rfl
    · exact absurd hhead (head?_toDigits_ne hpos)
  have htoken : NumberToken (numeralOf n) _ := .mk hdigits hzero .none .none
  by_cases hneg : n < 0 <;> simpa [Number.render, hneg] using htoken

theorem Number.Exact.numberToken {n : Number} (h : n.Exact) : NumberToken n.numeral n.render := by
  cases n with
  | integer n => exact numberToken_integer n
  | real x =>
      obtain rfl : x = minusZero := h
      have hzero : Digits ['0'] := ⟨List.cons_ne_nil _ _, List.forall_mem_singleton.mpr rfl⟩
      rw [render_minusZero]
      exact .mk hzero (fun _ => rfl) (.some hzero) .none

end Lexemes

section Values

theorem spells_renderString (s : String) (rest : List Char) :
    Spells (renderString s ++ rest) (.string (s.toList.flatMap unitsOf)) rest := by
  simpa [renderString] using Spells.string (Marks.flatMap_escapeChar s.toList rest)

theorem SpellsMember.renderString (key : String) {s rest : List Char} {content : Content}
    (spelled : Spells s content rest) : SpellsMember (Json.renderString key ++ ':' :: s)
      (key.toList.flatMap unitsOf, content) rest := by
  have hmarks := Marks.flatMap_escapeChar key.toList (':' :: s)
  simpa [Json.renderString] using SpellsMember.mk .none hmarks .none .none spelled

mutual

-- A written value is a spelling of it, without white space.
theorem spells_render : ∀ {v : Json} (rest : List Char), v.Exact →
    Spells (v.render ++ rest) (contentOf v) rest
  | .null, _, _ => .null
  | .bool true, _, _ => .isTrue
  | .bool false, _, _ => .isFalse
  | .number _, _, h => .number (Number.Exact.numberToken h)
  | .string s, rest, _ => spells_renderString s rest
  | .array [], _, _ => .emptyArray .none
  | .array (item :: items), rest, h => by
      have hinside := spellsItems_render rest (List.cons_ne_nil item items) h
      simpa [render, contentOf] using Spells.array hinside
  | .object [], _, _ => .emptyObject .none
  | .object (member :: members), rest, h => by
      have hinside := spellsMembers_render rest (List.cons_ne_nil member members) h
      simpa [render, contentOf] using Spells.object hinside

theorem spellsItems_render : ∀ {items : List Json} (rest : List Char), items ≠ [] →
    ExactItems items → SpellsItems (renderItems items ++ ']' :: rest) (contentsOf items) rest
  | [], _, hne, _ => absurd rfl hne
  | [_], _, _, h => .last .none (spells_render _ h.1) .none
  | item :: next :: items, rest, _, h => by
      have hspelled := spells_render (',' :: (renderItems (next :: items) ++ ']' :: rest)) h.1
      have hothers := spellsItems_render rest (List.cons_ne_nil next items) h.2
      simpa [renderItems, contentsOf] using SpellsItems.more .none hspelled .none hothers

theorem spellsMembers_render : ∀ {members : List (String × Json)} (rest : List Char),
    members ≠ [] → ExactMembers members →
    SpellsMembers (renderMembers members ++ '\x7d' :: rest) (memberContentsOf members) rest
  | [], _, hne, _ => absurd rfl hne
  | [(key, _)], rest, _, h => by
      have hspelled := SpellsMember.renderString key (spells_render ('\x7d' :: rest) h.1)
      simpa [renderMembers, memberContentsOf] using SpellsMembers.last hspelled .none
  | (key, _) :: next :: members, rest, _, h => by
      have hspelled := SpellsMember.renderString key
        (spells_render (',' :: (renderMembers (next :: members) ++ '\x7d' :: rest)) h.1)
      have hothers := spellsMembers_render rest (List.cons_ne_nil next members) h.2
      simpa [renderMembers, memberContentsOf] using SpellsMembers.more hspelled .none hothers

end

-- The first members of a written object are read back whatever becomes of those behind them.
theorem exists_readMembers_append (members more : List (String × Json)) (hmore : more ≠ [])
    (hexact : ExactMembers members) (s : List Char) {fuel : Nat}
    (hfuel : 2 * (renderMembers (members ++ more) ++ s).length + 1 < fuel) :
    ∃ tail cut left, readMembers fuel (renderMembers (members ++ more) ++ s) =
      (membersOf members ++ tail, cut, left) := by
  induction members generalizing fuel with
  | nil => exact ⟨_, _, _, rfl⟩
  | cons member members ih =>
      obtain ⟨key, value⟩ := member
      obtain ⟨fuel, rfl⟩ := Nat.exists_eq_succ_of_ne_zero (Nat.ne_of_gt (Nat.zero_lt_of_lt hfuel))
      obtain ⟨next, others, hnext⟩ := List.exists_cons_of_ne_nil
        (show members ++ more ≠ [] by simp [hmore])
      have htext : renderMembers ((key, value) :: (members ++ more)) ++ s =
          renderString key ++ ':' :: (value.render ++
            ',' :: (renderMembers (members ++ more) ++ s)) := by
        simp [hnext, renderMembers]
      rw [List.cons_append, htext] at hfuel ⊢
      have hspelled := SpellsMember.renderString key
        (spells_render (',' :: (renderMembers (members ++ more) ++ s)) hexact.1)
      have hread := hspelled.readsMember hfuel (by simp [Ends])
      simp only [List.length_append, List.length_cons] at hfuel ih
      obtain ⟨tail, cut, left, htail⟩ := ih hexact.2 (show _ < fuel by omega)
      refine ⟨tail, cut, left, ?_⟩
      rw [readMembers_more hread rfl htail, pieceOf_flatMap_unitsOf, node_contentOf hexact.1]
      rfl

theorem exists_head_renderMembers {members : List (String × Json)} (h : members ≠ []) :
    ∃ s, renderMembers members = '"' :: s := by
  match members with
  | [] => exact absurd rfl h
  | [_] => exact ⟨_, rfl⟩
  | _ :: _ :: _ => exact ⟨_, rfl⟩

theorem exists_root_object {members more : List (String × Json)} (hexact : ExactMembers members)
    (hmore : more ≠ []) : ∃ tail cut, (Document.ofText (object (members ++ more)).render).root =
      .object (membersOf members ++ tail) cut := by
  obtain ⟨s, hs⟩ := exists_head_renderMembers (show members ++ more ≠ [] by simp [hmore])
  obtain ⟨tail, cut, left, hmembers⟩ := exists_readMembers_append members more hmore hexact ['\x7d']
    (show _ < 2 * (object (members ++ more)).render.length + 1 by simp [render])
  have hread : readNode (2 * (object (members ++ more)).render.length + 2)
      (object (members ++ more)).render = (.object (membersOf members ++ tail) cut, left) := by
    rw [render, List.cons_append, hs] at *
    exact readNode_object rfl hmembers
  exact ⟨tail, cut, by rw [Document.ofText, hread]⟩

theorem spellsText_render {v : Json} (h : v.Exact) : SpellsText v.render (contentOf v) :=
  ⟨_, _, .none, by simpa using spells_render [] h, .none⟩

-- A written value, as a whole text.
theorem ofText_render (v : Json) (hexact : v.Exact) :
    Document.ofText v.render = ⟨nodeOf v, none⟩ := by
  rw [(spellsText_render hexact).ofText_eq, node_contentOf hexact]

end Values

end DeclarationWatch.Json
