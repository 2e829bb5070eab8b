import DeclarationWatch.Proofs.Json.Decoding
import DeclarationWatch.Proofs.Json.Grammar

namespace DeclarationWatch.Json

section Strings

variable {s rest : List Char}

theorem gap_skipSpace (s : List Char) : Gap s (skipSpace s) := by
  induction s with
  | nil => exact .none
  | cons c s ih =>
      rw [skipSpace, List.dropWhile_cons]
      split
      · rename_i hspace
        exact .space hspace ih
      · exact .none

theorem hexEscape_eq_ok {unit : Nat} (h : hexEscape s = .ok (unit, rest)) :
    ∃ a b c d high upper lower low, s = a :: b :: c :: d :: rest ∧ hexValue? a = some high ∧
      hexValue? b = some upper ∧ hexValue? c = some lower ∧ hexValue? d = some low ∧
      unit = ((high * 16 + upper) * 16 + lower) * 16 + low := by
  unfold hexEscape at h
  split at h
  · rename_i a b c d _
    split at h
    · rename_i high upper lower low hhigh hupper hlower hlow
      cases h
      exact ⟨a, b, c, d, high, upper, lower, low, rfl, hhigh, hupper, hlower, hlow, rfl⟩
    · cases h
  · split at h <;> cases h

theorem Marks.of_hexEscape {unit : Nat} {digits : List Char} {units : List Nat}
    (h : hexEscape digits = .ok (unit, s)) (more : Marks s units rest) :
    Marks ('\\' :: 'u' :: digits) (unit :: units) rest := by
  obtain ⟨a, b, c, d, high, upper, lower, low, rfl, first, second, third, fourth, rfl⟩ :=
    hexEscape_eq_ok h
  exact .code first second third fourth more

-- What can be passed over is a string of the grammar.
theorem exists_marks_of_skipText {fuel : Nat} (h : skipText fuel s = .ok rest) :
    ∃ units, Marks s units rest := by
  induction fuel generalizing s with
  | zero => cases h
  | succ fuel ih =>
      cases s with
      | nil => cases h
      | cons c s =>
          rw [skipText.eq_def] at h
          simp only at h
          split at h
          · rename_i hquote
            cases h
            exact ⟨[], hquote ▸ .close⟩
          rename_i hquote
          split at h
          · rename_i hslash
            subst hslash
            split at h
            · cases h
            · obtain ⟨⟨unit, more⟩, hunit, h⟩ := Decoder.bind_eq_ok.mp h
              obtain ⟨units, hmore⟩ := ih h
              exact ⟨_, Marks.of_hexEscape hunit hmore⟩
            · split at h
              · rename_i hletter
                obtain ⟨named, hnamed⟩ := Option.isSome_iff_exists.mp hletter
                obtain ⟨units, hmore⟩ := ih h
                exact ⟨_, .letter hnamed hmore⟩
              · cases h
          · rename_i hslash
            split at h
            · cases h
            · rename_i hprinted
              obtain ⟨units, hmore⟩ := ih h
              exact ⟨_, .plain hquote hslash (Nat.le_of_not_lt hprinted) hmore⟩

-- An escape that names a character can be passed over, in one step or in two.
theorem skipText_of_escapedChar {digits : List Char} {c : Char}
    (h : escapedChar digits = .ok (c, s)) {fuel : Nat} (hskip : skipText fuel s = .ok rest) :
    ∃ fuel, skipText fuel ('\\' :: 'u' :: digits) = .ok rest := by
  obtain ⟨⟨unit, more⟩, hunit, h⟩ := Decoder.bind_eq_ok.mp h
  have hstep : ∀ {fuel}, skipText fuel more = .ok rest →
      ∃ fuel, skipText fuel ('\\' :: 'u' :: digits) = .ok rest := by
    intro fuel hmore
    exact ⟨fuel + 1, by simp [skipText, hunit, hmore, bind, Except.bind]⟩
  simp only at h
  split at h
  · cases h
  split at h
  · cases h
    exact hstep hskip
  · obtain ⟨next, hnext, h⟩ := Decoder.bind_eq_ok.mp h
    obtain ⟨⟨second, behind⟩, hsecond, h⟩ := Decoder.bind_eq_ok.mp h
    simp only at h
    split at h
    · simp only [Except.ok.injEq, Prod.mk.injEq] at h
      obtain ⟨-, rfl⟩ := h
      obtain rfl : more = '\\' :: 'u' :: next := word_eq_ok hnext
      exact hstep (show skipText (fuel + 1) ('\\' :: 'u' :: next) = .ok rest by
        simp [skipText, hsecond, hskip, bind, Except.bind])
    · cases h

theorem exists_skipText_of_readText {fuel : Nat} {text : List Char}
    (h : readText fuel s = .ok (text, rest)) : ∃ fuel, skipText fuel s = .ok rest := by
  induction fuel generalizing s text with
  | zero => cases h
  | succ fuel ih =>
      cases s with
      | nil => cases h
      | cons c s =>
          rw [readText.eq_def] at h
          simp only at h
          split at h
          · rename_i hquote
            cases h
            exact ⟨1, by simp [skipText, hquote]⟩
          rename_i hquote
          split at h
          · rename_i hslash
            subst hslash
            split at h
            · cases h
            · obtain ⟨⟨named, more⟩, hnamed, h⟩ := Decoder.bind_eq_ok.mp h
              obtain ⟨⟨read, behind⟩, hread, h⟩ := Decoder.bind_eq_ok.mp h
              cases h
              obtain ⟨fuel, hskip⟩ := ih hread
              exact skipText_of_escapedChar hnamed hskip
            · split at h
              · cases h
              · rename_i letter more hu named hnamed
                obtain ⟨⟨read, behind⟩, hread, h⟩ := Decoder.bind_eq_ok.mp h
                cases h
                obtain ⟨fuel, hskip⟩ := ih hread
                exact ⟨fuel + 1, by simp [skipText, hnamed, hskip]⟩
          · rename_i hslash
            split at h
            · cases h
            · rename_i hprinted
              obtain ⟨⟨read, behind⟩, hread, h⟩ := Decoder.bind_eq_ok.mp h
              cases h
              obtain ⟨fuel, hskip⟩ := ih hread
              exact ⟨fuel + 1, by simp [skipText, hquote, hslash, hprinted, hskip]⟩

theorem exists_marks_of_readPiece {piece : Piece} (h : readPiece s = (piece, some rest)) :
    ∃ units, Marks s units rest ∧ pieceOf units = piece := by
  have hmarks : ∃ units, Marks s units rest := by
    unfold readPiece at h
    split at h
    · rename_i text behind hread
      cases h
      obtain ⟨fuel, hskip⟩ := exists_skipText_of_readText hread
      exact exists_marks_of_skipText hskip
    · split at h
      · rename_i behind hskip
        cases h
        exact exists_marks_of_skipText hskip
      · cases h
  obtain ⟨units, hmarks⟩ := hmarks
  have hread := hmarks.readPiece_eq.symm.trans h
  cases hread
  exact ⟨units, hmarks, rfl⟩

end Strings

section Numbers

variable {s rest : List Char}

theorem readDigits_eq_ok {digits : List Char} (h : readDigits s = .ok (digits, rest)) :
    Digits digits ∧ s = digits ++ rest := by
  unfold readDigits at h
  split at h
  · cases h
  · rename_i hne
    cases h
    exact ⟨⟨hne, List.all_eq_true.mp List.all_takeWhile⟩, List.takeWhile_append_dropWhile.symm⟩

theorem readFraction_eq_ok {fraction : Option (List Char)}
    (h : readFraction s = .ok (fraction, rest)) :
    ∃ token, FractionToken fraction token ∧ s = token ++ rest := by
  unfold readFraction at h
  split at h
  · obtain ⟨⟨digits, behind⟩, hdigits, h⟩ := Decoder.bind_eq_ok.mp h
    cases h
    obtain ⟨htoken, rfl⟩ := readDigits_eq_ok hdigits
    exact ⟨_, .some htoken, rfl⟩
  · cases h
    exact ⟨[], .none, rfl⟩

theorem readExponent_eq_ok {exponent : Option (Bool × List Char)}
    (h : readExponent s = .ok (exponent, rest)) :
    ∃ token, ExponentToken exponent token ∧ s = token ++ rest := by
  unfold readExponent at h
  split at h
  · rename_i c s
    split at h
    · rename_i hmark
      have hmark : c = 'e' ∨ c = 'E' := by simpa using hmark
      obtain ⟨⟨digits, behind⟩, hdigits, h⟩ := Decoder.bind_eq_ok.mp h
      cases h
      split at hdigits
      · obtain ⟨htoken, rfl⟩ := readDigits_eq_ok hdigits
        exact ⟨_, .minus hmark htoken, rfl⟩
      · obtain ⟨htoken, rfl⟩ := readDigits_eq_ok hdigits
        exact ⟨_, .plus hmark htoken, rfl⟩
      · obtain ⟨htoken, rfl⟩ := readDigits_eq_ok hdigits
        exact ⟨_, .bare hmark htoken, rfl⟩
    · cases h
      exact ⟨[], .none, rfl⟩
  · cases h
    exact ⟨[], .none, rfl⟩

theorem readUnsigned_eq_ok {negative : Bool} {n : Numeral}
    (h : readUnsigned negative s = .ok (n, rest)) :
    ∃ token, NumberToken n ((if negative then ['-'] else []) ++ token) ∧ s = token ++ rest := by
  obtain ⟨⟨whole, behind⟩, hwhole, h⟩ := Decoder.bind_eq_ok.mp h
  simp only at h
  split at h
  · cases h
  rename_i hzero
  obtain ⟨⟨fraction, behind⟩, hfraction, h⟩ := Decoder.bind_eq_ok.mp h
  obtain ⟨⟨exponent, behind⟩, hexponent, h⟩ := Decoder.bind_eq_ok.mp h
  cases h
  obtain ⟨hdigits, rfl⟩ := readDigits_eq_ok hwhole
  obtain ⟨point, hpoint, rfl⟩ := readFraction_eq_ok hfraction
  obtain ⟨scale, hscale, rfl⟩ := readExponent_eq_ok hexponent
  refine ⟨whole ++ point ++ scale, ?_, by simp only [List.append_assoc]⟩
  have hlength := List.length_pos_iff.mpr hdigits.nonempty
  have htoken : NumberToken ⟨negative, whole, fraction, exponent⟩ _ :=
    .mk hdigits (fun hhead => by simp [hhead] at hzero; omega) hpoint hscale
  simpa only [List.append_assoc] using htoken

theorem readNumeral_eq_ok {n : Numeral} (h : readNumeral s = .ok (n, rest)) :
    ∃ token, NumberToken n token ∧ s = token ++ rest := by
  unfold readNumeral at h
  split at h
  · obtain ⟨token, htoken, rfl⟩ := readUnsigned_eq_ok h
    exact ⟨_, htoken, rfl⟩
  · obtain ⟨token, htoken, rfl⟩ := readUnsigned_eq_ok h
    exact ⟨_, htoken, rfl⟩

end Numbers

section Values

theorem gap_of_skipSpace_eq {s rest : List Char} (h : skipSpace s = rest) : Gap s rest :=
  h ▸ gap_skipSpace s

mutual

-- Whatever is read to its end is a value of the grammar, by the steps of the reader.
theorem exists_spells_of_readNode : ∀ {fuel : Nat} {s rest : List Char} {node : Node},
    readNode fuel s = (node, some rest) →
    ∃ value content, Gap s value ∧ Spells value content rest ∧ content.node = node
  | 0, _, _, _, h => by cases h
  | fuel + 1, s, rest, node, h => by
      cases nodeStep_of_readNode h with
      | isNull start => exact ⟨_, _, gap_of_skipSpace_eq start, .null, rfl⟩
      | isTrue start => exact ⟨_, _, gap_of_skipSpace_eq start, .isTrue, rfl⟩
      | isFalse start => exact ⟨_, _, gap_of_skipSpace_eq start, .isFalse, rfl⟩
      | number read =>
          obtain ⟨token, htoken, start⟩ := readNumeral_eq_ok read
          exact ⟨_, _, gap_of_skipSpace_eq start, .number htoken, rfl⟩
      | string start read =>
          obtain ⟨units, hmarks, rfl⟩ := exists_marks_of_readPiece read
          exact ⟨_, _, gap_of_skipSpace_eq start, .string hmarks, rfl⟩
      | emptyArray start close =>
          exact ⟨_, _, gap_of_skipSpace_eq start, .emptyArray (gap_of_skipSpace_eq close), rfl⟩
      | @array t _ _ _ start read =>
          obtain ⟨rfl, items, hspelled, rfl⟩ := exists_spells_of_readItems read
          exact ⟨_, _, gap_of_skipSpace_eq start, .array (hspelled.of_gap (gap_skipSpace t)), rfl⟩
      | emptyObject start close =>
          exact ⟨_, _, gap_of_skipSpace_eq start, .emptyObject (gap_of_skipSpace_eq close), rfl⟩
      | @object t _ _ _ start read =>
          obtain ⟨rfl, members, hspelled, rfl⟩ := exists_spells_of_readMembers read
          exact ⟨_, _, gap_of_skipSpace_eq start, .object (hspelled.of_gap (gap_skipSpace t)), rfl⟩

theorem exists_spells_of_readItems : ∀ {fuel : Nat} {s rest : List Char} {nodes : List Node}
    {cut : Option Fault}, readItems fuel s = (nodes, cut, some rest) →
    cut = none ∧ ∃ items, SpellsItems s items rest ∧ Content.nodes items = nodes
  | 0, _, _, _, _, h => by cases h
  | fuel + 1, s, rest, nodes, cut, h => by
      cases itemsStep_of_readItems h with
      | last read close =>
          obtain ⟨value, content, before, spelled, rfl⟩ := exists_spells_of_readNode read
          exact ⟨rfl, [content], .last before spelled (gap_of_skipSpace_eq close), rfl⟩
      | more read comma others =>
          obtain ⟨value, content, before, spelled, rfl⟩ := exists_spells_of_readNode read
          obtain ⟨hcut, items, hspelled, rfl⟩ := exists_spells_of_readItems others
          exact ⟨hcut, content :: items, .more before spelled (gap_of_skipSpace_eq comma) hspelled,
            rfl⟩

theorem exists_spells_of_readsMember : ∀ {fuel : Nat} {s rest : List Char} {key : Piece}
    {node : Node}, ReadsMember fuel s key node rest →
    ∃ member, SpellsMember s member rest ∧ (pieceOf member.1, member.2.node) = (key, node)
  | fuel, s, rest, key, node, ⟨name, colon, value, hopen, hkey, hcolon, hread⟩ => by
      obtain ⟨units, hmarks, rfl⟩ := exists_marks_of_readPiece hkey
      obtain ⟨value, content, before, spelled, rfl⟩ := exists_spells_of_readNode hread
      exact ⟨(units, content), .mk (gap_of_skipSpace_eq hopen) hmarks (gap_of_skipSpace_eq hcolon)
        before spelled, rfl⟩

theorem exists_spells_of_readMembers : ∀ {fuel : Nat} {s rest : List Char}
    {nodes : List (Piece × Node)} {cut : Option Fault},
    readMembers fuel s = (nodes, cut, some rest) →
    cut = none ∧ ∃ members, SpellsMembers s members rest ∧ Content.memberNodes members = nodes
  | 0, _, _, _, _, h => by cases h
  | fuel + 1, s, rest, nodes, cut, h => by
      cases membersStep_of_readMembers h with
      | last read close =>
          obtain ⟨member, hmember, hnode⟩ := exists_spells_of_readsMember read
          exact ⟨rfl, [member], .last hmember (gap_of_skipSpace_eq close), by
            rw [Content.memberNodes, hnode, Content.memberNodes]⟩
      | more read comma others =>
          obtain ⟨member, hmember, hnode⟩ := exists_spells_of_readsMember read
          obtain ⟨hcut, members, hspelled, rfl⟩ := exists_spells_of_readMembers others
          exact ⟨hcut, member :: members, .more hmember (gap_of_skipSpace_eq comma) hspelled, by
            rw [Content.memberNodes, hnode]⟩

end

end Values

section Breaks

-- A node whose text stops being JSON before the node ends.
inductive Node.Broken : Node → Prop where
  | absent (fault : Fault) : Broken (.absent fault)
  | string {piece : Piece} {fault : Fault} (unread : piece.text = .error fault)
      (unended : piece.cut ≠ none) : Broken (.string piece)
  | openArray (items : List Node) (fault : Fault) : Broken (.array items (some fault))
  | item {items : List Node} {cut : Option Fault} {item : Node} (listed : item ∈ items)
      (inside : Broken item) : Broken (.array items cut)
  | openObject (members : List (Piece × Node)) (fault : Fault) :
      Broken (.object members (some fault))
  | member {members : List (Piece × Node)} {cut : Option Fault} {member : Piece × Node}
      (listed : member ∈ members) (inside : Broken member.2) : Broken (.object members cut)

theorem Node.Broken.array_cons {items : List Node} {cut : Option Fault}
    (h : (Node.array items cut).Broken) (item : Node) :
    (Node.array (item :: items) cut).Broken := by
  cases h with
  | openArray _ fault => exact .openArray _ fault
  | item listed inside => exact .item (List.mem_cons_of_mem _ listed) inside

theorem Node.Broken.object_cons {members : List (Piece × Node)} {cut : Option Fault}
    (h : (Node.object members cut).Broken) (member : Piece × Node) :
    (Node.object (member :: members) cut).Broken := by
  cases h with
  | openObject _ fault => exact .openObject _ fault
  | member listed inside => exact .member (List.mem_cons_of_mem _ listed) inside

theorem broken_of_readPiece {s : List Char} {piece : Piece} (h : readPiece s = (piece, none)) :
    (Node.string piece).Broken := by
  unfold readPiece at h
  split at h
  · cases h
  · split at h
    · cases h
    · cases h
      exact .string rfl (Option.some_ne_none _)

mutual

-- Where nothing is left to go on from, the node is broken.
theorem broken_of_readNode : ∀ {fuel : Nat} {s : List Char} {node : Node},
    readNode fuel s = (node, none) → node.Broken
  | 0, _, _, h => by
      cases h
      exact .absent _
  | fuel + 1, s, node, h => by
      cases nodeStep_of_readNode h with
      | absent fault => exact .absent fault
      | string start read => exact broken_of_readPiece read
      | openArray fault => exact .openArray [] fault
      | array start read => exact broken_of_readItems read
      | openObject fault => exact .openObject [] fault
      | object start read => exact broken_of_readMembers read

theorem broken_of_readItems : ∀ {fuel : Nat} {s : List Char} {nodes : List Node}
    {cut : Option Fault}, readItems fuel s = (nodes, cut, none) → (Node.array nodes cut).Broken
  | 0, _, _, _, h => by
      cases h
      exact .openArray [] _
  | fuel + 1, s, nodes, cut, h => by
      cases itemsStep_of_readItems h with
      | broken read => exact .item List.mem_cons_self (broken_of_readNode read)
      | cut read fault => exact .openArray _ fault
      | more read comma others => exact (broken_of_readItems others).array_cons _

theorem broken_of_readMembers : ∀ {fuel : Nat} {s : List Char} {members : List (Piece × Node)}
    {cut : Option Fault}, readMembers fuel s = (members, cut, none) →
    (Node.object members cut).Broken
  | 0, _, _, _, h => by
      cases h
      exact .openObject [] _
  | fuel + 1, s, members, cut, h => by
      cases membersStep_of_readMembers h with
      | noKey fault => exact .openObject [] fault
      | noValue fault => exact .member List.mem_cons_self (.absent fault)
      | broken read => exact .member List.mem_cons_self (broken_of_readNode read)
      | cut read fault => exact .openObject _ fault
      | more read comma others => exact (broken_of_readMembers others).object_cons _

end

-- A text with no fault in it and behind it is one of the grammar.
theorem exists_spellsText_of_not_broken {s : List Char} (h : ¬(Document.ofText s).root.Broken)
    (htrailing : (Document.ofText s).trailing = none) : ∃ content, SpellsText s content := by
  rw [Document.ofText] at h htrailing
  generalize hread : readNode (2 * s.length + 2) s = read at h htrailing
  obtain ⟨root, left⟩ := read
  cases left with
  | none => exact absurd (broken_of_readNode hread) h
  | some rest =>
      obtain ⟨value, content, before, spelled, -⟩ := exists_spells_of_readNode hread
      refine ⟨content, value, rest, before, spelled, gap_of_skipSpace_eq ?_⟩
      cases hrest : skipSpace rest with
      | nil => rfl
      | cons c more => simp [hrest] at htrailing

end Breaks

end DeclarationWatch.Json
