import DeclarationWatch.Proofs.Json.Lexeme

namespace DeclarationWatch.Json

theorem isSpace_of_number {c : Char} (h : c = '-' ∨ isDigit c = true) : isSpace c = false := by
  rcases h with rfl | h
  · decide
  · have hne : ∀ d, isDigit d = false → c ≠ d := fun d hd heq => by simp [heq, hd] at h
    simp [isSpace, hne ' ' (by decide), hne '\t' (by decide), hne '\n' (by decide),
      hne '\r' (by decide)]

theorem readNode_numeral {c : Char} {s rest : List Char} {numeral : Numeral}
    (hc : c = '-' ∨ isDigit c = true) (hread : readNumeral (c :: s) = .ok (numeral, rest))
    (fuel : Nat) : readNode (fuel + 1) (c :: s) = (.number numeral.value, some rest) := by
  have hspace := isSpace_of_number hc
  have hne : ∀ d, isDigit d = false → d ≠ '-' → c ≠ d := by
    rintro d hd hminus rfl
    rcases hc with rfl | hc
    · exact hminus rfl
    · simp [hd] at hc
  have hstart : (c = '-' || isDigit c) = true := by simpa using hc
  rw [readNode]
  simp only [skipSpace, List.dropWhile_cons, hspace, hne '[' (by decide) (by decide),
    hne '\x7b' (by decide) (by decide), hne '"' (by decide) (by decide),
    hne 'n' (by decide) (by decide), hne 't' (by decide) (by decide),
    hne 'f' (by decide) (by decide), hstart, hread, if_true, if_false, Bool.false_eq_true]

section Steps

variable {fuel : Nat} {s behind more rest : List Char} {node : Node} {cut : Option Fault}
  {left : Option (List Char)}

theorem readNode_array {c : Char} {nodes : List Node} (hopen : skipSpace s = c :: more)
    (hc : c ≠ ']') (hread : readItems fuel (c :: more) = (nodes, cut, left)) :
    readNode (fuel + 1) ('[' :: s) = (.array nodes cut, left) := by
  have hspace : skipSpace ('[' :: s) = '[' :: s := rfl
  rw [readNode]
  simp [hspace, hopen, hc, hread]

theorem readItems_last (hread : readNode fuel s = (node, some behind))
    (hclose : skipSpace behind = ']' :: rest) :
    readItems (fuel + 1) s = ([node], none, some rest) := by
  rw [readItems, hread]
  simp [hclose]

theorem readItems_more {nodes : List Node} (hread : readNode fuel s = (node, some behind))
    (hcomma : skipSpace behind = ',' :: more) (hmore : readItems fuel more = (nodes, cut, left)) :
    readItems (fuel + 1) s = (node :: nodes, cut, left) := by
  rw [readItems, hread]
  simp [hcomma, hmore]

theorem readNode_object {members : List (Piece × Node)} (hopen : skipSpace s = '"' :: more)
    (hread : readMembers fuel ('"' :: more) = (members, cut, left)) :
    readNode (fuel + 1) ('\x7b' :: s) = (.object members cut, left) := by
  have hspace : skipSpace ('\x7b' :: s) = '\x7b' :: s := rfl
  rw [readNode]
  simp [hspace, hopen, hread]

-- A key, its colon and its value stand in front of what is behind them.
def ReadsMember (fuel : Nat) (s : List Char) (piece : Piece) (node : Node) (behind : List Char) :
    Prop :=
  ∃ name colon value, skipSpace s = '"' :: name ∧ readPiece name = (piece, some colon) ∧
    skipSpace colon = ':' :: value ∧ readNode fuel value = (node, some behind)

theorem readMembers_last {piece : Piece} (hread : ReadsMember fuel s piece node behind)
    (hclose : skipSpace behind = '\x7d' :: rest) :
    readMembers (fuel + 1) s = ([(piece, node)], none, some rest) := by
  obtain ⟨name, colon, value, hopen, hkey, hcolon, hvalue⟩ := hread
  rw [readMembers]
  simp [hopen, hkey, hcolon, hvalue, hclose]

theorem readMembers_more {piece : Piece} {members : List (Piece × Node)}
    (hread : ReadsMember fuel s piece node behind) (hcomma : skipSpace behind = ',' :: more)
    (hmore : readMembers fuel more = (members, cut, left)) :
    readMembers (fuel + 1) s = ((piece, node) :: members, cut, left) := by
  obtain ⟨name, colon, value, hopen, hkey, hcolon, hvalue⟩ := hread
  rw [readMembers]
  simp [hopen, hkey, hcolon, hvalue, hcomma, hmore]

end Steps

theorem readWord_append (ending : List Char) (node : Node) (rest : List Char) :
    readWord ending node (ending ++ rest) = (node, some rest) := by
  have hword : word ending (ending ++ rest) = .ok rest := by
    induction ending with
    | nil => rfl
    | cons c ending ih => simpa [word] using ih
  unfold readWord
  rw [hword]

section Inversion

variable {fuel : Nat} {s rest : List Char} {cut : Option Fault} {left : Option (List Char)}

-- What one step of the reader can come to.
inductive NodeStep (fuel : Nat) (s : List Char) : Node → Option (List Char) → Prop where
  | absent (fault : Fault) : NodeStep fuel s (.absent fault) none
  | isNull {rest : List Char} (start : skipSpace s = ['n', 'u', 'l', 'l'] ++ rest) :
      NodeStep fuel s .null (some rest)
  | isTrue {rest : List Char} (start : skipSpace s = ['t', 'r', 'u', 'e'] ++ rest) :
      NodeStep fuel s (.bool true) (some rest)
  | isFalse {rest : List Char} (start : skipSpace s = ['f', 'a', 'l', 's', 'e'] ++ rest) :
      NodeStep fuel s (.bool false) (some rest)
  | number {n : Numeral} {rest : List Char} (read : readNumeral (skipSpace s) = .ok (n, rest)) :
      NodeStep fuel s (.number n.value) (some rest)
  | string {t : List Char} {piece : Piece} {left : Option (List Char)}
      (start : skipSpace s = '"' :: t) (read : readPiece t = (piece, left)) :
      NodeStep fuel s (.string piece) left
  | openArray (fault : Fault) : NodeStep fuel s (.array [] (some fault)) none
  | emptyArray {t rest : List Char} (start : skipSpace s = '[' :: t)
      (close : skipSpace t = ']' :: rest) : NodeStep fuel s (.array [] none) (some rest)
  | array {t : List Char} {nodes : List Node} {cut : Option Fault} {left : Option (List Char)}
      (start : skipSpace s = '[' :: t) (read : readItems fuel (skipSpace t) = (nodes, cut, left)) :
      NodeStep fuel s (.array nodes cut) left
  | openObject (fault : Fault) : NodeStep fuel s (.object [] (some fault)) none
  | emptyObject {t rest : List Char} (start : skipSpace s = '\x7b' :: t)
      (close : skipSpace t = '\x7d' :: rest) : NodeStep fuel s (.object [] none) (some rest)
  | object {t : List Char} {members : List (Piece × Node)} {cut : Option Fault}
      {left : Option (List Char)} (start : skipSpace s = '\x7b' :: t)
      (read : readMembers fuel (skipSpace t) = (members, cut, left)) :
      NodeStep fuel s (.object members cut) left

theorem word_eq_ok {ending : List Char} (h : word ending s = .ok rest) : s = ending ++ rest := by
  induction ending generalizing s with
  | nil => exact Except.ok.inj h
  | cons w ending ih =>
      cases s with
      | nil => cases h
      | cons c s =>
          rw [word] at h
          split at h
          · rename_i hc
            rw [ih h, hc, List.cons_append]
          · cases h

theorem nodeStep_readWord {c : Char} {ending t : List Char} {node : Node}
    (hs : skipSpace s = c :: t)
    (h : ∀ rest, skipSpace s = c :: (ending ++ rest) → NodeStep fuel s node (some rest)) :
    NodeStep fuel s (readWord ending node t).1 (readWord ending node t).2 := by
  unfold readWord
  split
  · rename_i rest hword
    exact h rest (word_eq_ok hword ▸ hs)
  · exact .absent _

theorem nodeStep_of_readNode {node : Node} (h : readNode (fuel + 1) s = (node, left)) :
    NodeStep fuel s node left := by
  rw [← show (readNode (fuel + 1) s).1 = node by rw [h],
    ← show (readNode (fuel + 1) s).2 = left by rw [h], readNode]
  split
  · exact .absent _
  rename_i c t hs
  split
  · rename_i hc
    subst hc
    split
    · exact .openArray _
    · rename_i rest hclose
      exact .emptyArray hs hclose
    · exact .array hs rfl
  split
  · rename_i hc
    subst hc
    split
    · exact .openObject _
    · rename_i rest hclose
      exact .emptyObject hs hclose
    · exact .object hs rfl
  split
  · rename_i hc
    subst hc
    exact .string hs rfl
  split
  · rename_i hc
    subst hc
    exact nodeStep_readWord hs fun rest => .isNull
  split
  · rename_i hc
    subst hc
    exact nodeStep_readWord hs fun rest => .isTrue
  split
  · rename_i hc
    subst hc
    exact nodeStep_readWord hs fun rest => .isFalse
  split
  · split
    · rename_i n rest hread
      exact .number (hs ▸ hread)
    · exact .absent _
  · exact .absent _

inductive ItemsStep (fuel : Nat) (s : List Char) :
    List Node → Option Fault → Option (List Char) → Prop where
  | broken {item : Node} (read : readNode fuel s = (item, none)) : ItemsStep fuel s [item] none none
  | cut {item : Node} {behind : List Char} (read : readNode fuel s = (item, some behind))
      (fault : Fault) : ItemsStep fuel s [item] (some fault) none
  | last {item : Node} {behind rest : List Char} (read : readNode fuel s = (item, some behind))
      (close : skipSpace behind = ']' :: rest) : ItemsStep fuel s [item] none (some rest)
  | more {item : Node} {behind next : List Char} {nodes : List Node} {cut : Option Fault}
      {left : Option (List Char)} (read : readNode fuel s = (item, some behind))
      (comma : skipSpace behind = ',' :: next) (others : readItems fuel next = (nodes, cut, left)) :
      ItemsStep fuel s (item :: nodes) cut left

theorem itemsStep_of_readItems {nodes : List Node}
    (h : readItems (fuel + 1) s = (nodes, cut, left)) : ItemsStep fuel s nodes cut left := by
  rw [readItems] at h
  split at h
  · rename_i item hread
    cases h
    exact .broken hread
  · rename_i item behind hread
    split at h
    · rename_i rest hclose
      cases h
      exact .last hread hclose
    · rename_i next hcomma
      cases h
      exact .more hread hcomma rfl
    · cases h
      exact .cut hread _

inductive MembersStep (fuel : Nat) (s : List Char) :
    List (Piece × Node) → Option Fault → Option (List Char) → Prop where
  | noKey (fault : Fault) : MembersStep fuel s [] (some fault) none
  | noValue {key : Piece} (fault : Fault) : MembersStep fuel s [(key, .absent fault)] none none
  | broken {key : Piece} {value : Node} {t : List Char} (read : readNode fuel t = (value, none)) :
      MembersStep fuel s [(key, value)] none none
  | cut {key : Piece} {value : Node} {behind : List Char}
      (read : ReadsMember fuel s key value behind) (fault : Fault) :
      MembersStep fuel s [(key, value)] (some fault) none
  | last {key : Piece} {value : Node} {behind rest : List Char}
      (read : ReadsMember fuel s key value behind) (close : skipSpace behind = '\x7d' :: rest) :
      MembersStep fuel s [(key, value)] none (some rest)
  | more {key : Piece} {value : Node} {behind next : List Char} {members : List (Piece × Node)}
      {cut : Option Fault} {left : Option (List Char)} (read : ReadsMember fuel s key value behind)
      (comma : skipSpace behind = ',' :: next)
      (others : readMembers fuel next = (members, cut, left)) :
      MembersStep fuel s ((key, value) :: members) cut left

theorem membersStep_of_readMembers {members : List (Piece × Node)}
    (h : readMembers (fuel + 1) s = (members, cut, left)) : MembersStep fuel s members cut left := by
  rw [readMembers.eq_def] at h
  simp only at h
  split at h
  · rename_i name hopen
    split at h
    · cases h
      exact .noValue _
    rename_i key colon hkey
    split at h
    · rename_i t hcolon
      split at h
      · rename_i value hread
        cases h
        exact .broken hread
      rename_i value behind hread
      have hmember : ReadsMember fuel s key value behind :=
        ⟨name, colon, t, hopen, hkey, hcolon, hread⟩
      split at h
      · rename_i rest hclose
        cases h
        exact .last hmember hclose
      · rename_i next hcomma
        cases h
        exact .more hmember hcomma rfl
      · cases h
        exact .cut hmember _
    · cases h
      exact .noValue _
  · cases h
    exact .noKey _

end Inversion

end DeclarationWatch.Json
