import DeclarationWatch.Movement.Service
import DeclarationWatch.Proofs.Cycle.Redundancy
import DeclarationWatch.Proofs.Gmr.Acceptance
import DeclarationWatch.Proofs.Gmr.RoundTrip
import DeclarationWatch.Publish.Entry

namespace DeclarationWatch

-- The text of a reply, if all of it has arrived.
def Movement.Received.text? (received : Movement.Received) : Option String :=
  if received.complete then some (Net.bodyText received.contentType received.body) else none

theorem Movement.Service.searchAnswerOf_of_text? {received : Movement.Received} {s : String}
    (h : received.text? = some s) :
    searchAnswerOf received = (SearchAnswer.ofText s).mapError .undecodable := by
  unfold Movement.Received.text? at h
  split at h
  · rename_i hcomplete
    cases h
    rw [searchAnswerOf, if_pos hcomplete]
  · cases h

namespace Cycle.Round

variable {τ : Type}

-- The round in which the movement service answers with this reply, whatever it is asked for.
def hearing (round : Round τ) (received : Movement.Received) : Round τ :=
  { round with search := fun _ => .answered (Movement.Service.searchAnswerOf received) }

-- What a cycle hands over, as it is published: ids and payloads.
def entries (round : Round τ) (policy : Policy) (ledger : Ledger) : List Publish.Entry :=
  (round.handed policy ledger).map Publish.Entry.ofSighting

-- Two replies that say the same in different spellings have the same effect: on the items and the
-- snapshot texts that are stored, on the entries in their order, and on the result. No reply that
-- is read is left out: it is a spelling of what it says.
theorem outcome_of_respelling (round : Round τ) (policy : Policy) (ledger : Ledger)
    {first : Movement.Received} {s : String} (hfirst : first.text? = some s)
    {answer : SearchAnswer} (hread : SearchAnswer.ofText s = .ok answer) :
    Json.Respelled s s ∧
    ∀ {second : Movement.Received} {t : String}, second.text? = some t → Json.Respelled s t →
      SearchAnswer.ofText t = .ok answer ∧
      (round.hearing second).outcome policy ledger = (round.hearing first).outcome policy ledger ∧
      (round.hearing second).entries policy ledger =
        (round.hearing first).entries policy ledger := by
  refine ⟨SearchAnswer.respelled_self hread, ?_⟩
  intro second t hsecond hsame
  have hread' := (SearchAnswer.ofText_eq_ok_iff hsame).mp hread
  have hheard : Movement.Service.searchAnswerOf second = Movement.Service.searchAnswerOf first := by
    rw [Movement.Service.searchAnswerOf_of_text? hfirst,
      Movement.Service.searchAnswerOf_of_text? hsecond, hread, hread']
  have hround : round.hearing second = round.hearing first := by
    rw [hearing, hheard, hearing]
  rw [hround]
  exact ⟨hread', rfl, rfl⟩

section Runs

open Json (Content Gap Marks NumberToken Spells SpellsMember SpellsMembers SpellsText unitsOf)

def hauled : Gmr := ⟨"G", "OPEN", "u1", [("z", .object [("a", .string "/"), ("b", .int 1)])]⟩

def heard : SearchAnswer := ⟨[⟨"MRN-C", ["G"]⟩], [hauled]⟩

theorem exact_hauled : hauled.Exact := by
  simp [Gmr.Exact, hauled, Json.Exact, Json.ExactMembers, Json.int, Json.Number.Exact, Json.InRange,
    Width.signed64, Width.words64]

theorem sound_hauled : Gmr.Sound 124 hauled.payload where
  ascending := List.pairwise_singleton _ _
  fits := List.forall_mem_singleton.mpr
    ⟨List.pairwise_pair.mpr (show "a" < "b" by decide), trivial, trivial, trivial⟩
  apart := by simp [hauled, Gmr.fields, Json.Field.required, Json.Field.defaulted]

-- The same answer from the last member to the first, with blanks and escapes that nobody needs.
def untidyRecord : String :=
  "\x7b\"z\":\x7b\"b\":1, \"a\":\"\\/\"\x7d,\"updatedDateTime\":\"u1\",\"state\":\"OPEN\"," ++
    "\"gmrId\":\"\\u0047\"\x7d"

def untidy : String :=
  "\x7b \"gmrs\" : [" ++ (untidyRecord ++
    "],\n\"gmrByDeclarationId\":[\x7b\"gmrs\":[\"G\"],\"dec\":\"MRN-C\"\x7d]\x7d ")

def unitsIn (s : String) : List Nat := s.toList.flatMap unitsOf

def association : List (List Nat × Content) :=
  [(unitsIn "dec", .string (unitsIn "MRN-C")), (unitsIn "gmrs", .array [.string (unitsIn "G")])]

def extra : List (List Nat × Content) :=
  [(unitsIn "a", .string (unitsIn "/")), (unitsIn "b", .number (Json.numeralOf 1))]

def record (extra : List (List Nat × Content)) : List (List Nat × Content) :=
  [(unitsIn "gmrId", .string (unitsIn "G")), (unitsIn "state", .string (unitsIn "OPEN")),
    (unitsIn "updatedDateTime", .string (unitsIn "u1")), (unitsIn "z", .object extra)]

def answerOf (association record : List (List Nat × Content)) : List (List Nat × Content) :=
  [(unitsIn "gmrByDeclarationId", .array [.object association]),
    (unitsIn "gmrs", .array [.object record])]

theorem spellsText_heard :
    SpellsText heard.text.toList (.object (answerOf association (record extra))) := by
  have hexact : heard.toJson.Exact := SearchAnswer.exact_toJson fun gmr hgmr => by
    rw [List.mem_singleton.mp hgmr]
    exact exact_hauled
  rw [SearchAnswer.text, Json.text, String.toList_ofList]
  exact Json.spellsText_render hexact

theorem gap_blank (s : List Char) : Gap (' ' :: s) s := .space rfl .none

theorem gap_line (s : List Char) : Gap ('\n' :: s) s := .space rfl .none

theorem marks_solidus (rest : List Char) :
    Marks ('\\' :: '/' :: '"' :: rest) (unitsIn "/") rest := .letter rfl .close

theorem marks_code (rest : List Char) :
    Marks ('\\' :: 'u' :: '0' :: '0' :: '4' :: '7' :: '"' :: rest) (unitsIn "G") rest :=
  show Marks _ [((0 * 16 + 0) * 16 + 4) * 16 + 7] rest from .code rfl rfl rfl rfl .close

theorem spells_untidyRecord (rest : List Char) :
    Spells (untidyRecord.toList ++ rest) (.object (record extra.reverse).reverse) rest := by
  have hextra : ∀ rest, SpellsMembers _ extra.reverse rest := fun rest =>
    .more (.renderString "b" (.number (Json.numberToken_integer 1))) .none
      (.last ((SpellsMember.renderString "a" (.string (marks_solidus _))).of_gap (gap_blank _))
        .none)
  exact .object (.more (.renderString "z" (.object (hextra _))) .none
    (.more (.renderString "updatedDateTime" (Json.spells_renderString "u1" _)) .none
      (.more (.renderString "state" (Json.spells_renderString "OPEN" _)) .none
        (.last (.renderString "gmrId" (.string (marks_code _))) .none))))

theorem spellsText_untidy : SpellsText untidy.toList
    (.object (answerOf association.reverse (record extra.reverse).reverse).reverse) := by
  have hassociation : ∀ rest, SpellsMembers _ association.reverse rest := fun rest =>
    .more (.renderString "gmrs" (.array (.last .none (Json.spells_renderString "G" _) .none))) .none
      (.last (.renderString "dec" (Json.spells_renderString "MRN-C" _)) .none)
  rw [untidy, String.toList_append, String.toList_append]
  exact ⟨_, _, .none, .object (.more
    (.mk (gap_blank _) (Marks.flatMap_escapeChar "gmrs".toList _) (gap_blank _) (gap_blank _)
      (.array (.last .none (spells_untidyRecord _) .none))) .none
    (.last ((SpellsMember.renderString "gmrByDeclarationId" (.array (.last .none
      (.object (hassociation _)) .none))).of_gap (gap_line _)) .none)), gap_blank _⟩

theorem respelled_untidy : Json.Respelled heard.text untidy := by
  have hturned : ∀ {members : List (List Nat × Content)}, (members.map (·.1)).Nodup →
      Content.Reorders (.object members) (.object members.reverse) := fun unique =>
    .members unique (List.reverse_perm _).symm
  have hextra : Content.Reorders (.object (record extra)) (.object (record extra.reverse)) :=
    @Content.Reorders.member [_, _, _] [] _ _ _ (hturned (by decide))
  have hrecords : ∀ {first second}, Content.Reorders (.object first) (.object second) →
      Content.Reorders (.object (answerOf association first))
        (.object (answerOf association second)) := fun h =>
    @Content.Reorders.member [_] [] _ _ _ (@Content.Reorders.item [] [] _ _ h)
  have hassociations : ∀ record, Content.Reorders (.object (answerOf association record))
      (.object (answerOf association.reverse record)) := fun _ =>
    @Content.Reorders.member [] [_] _ _ _ (@Content.Reorders.item [] [] _ _ (hturned (by decide)))
  exact ⟨_, _, spellsText_heard, spellsText_untidy,
    .tail (.tail (.tail (.single (hrecords hextra)) (hrecords (hturned (by decide))))
      (hassociations _)) (hturned (by decide))⟩

def replyOf (s : String) : Movement.Received := ⟨none, Text.Utf8.encode s.toList, true⟩

theorem ofText_heard : SearchAnswer.ofText heard.text = .ok heard := by
  refine SearchAnswer.ofText_text (fun gmr hgmr => ?_) fun gmr hgmr => ?_
  · rw [List.mem_singleton.mp hgmr]
    exact sound_hauled
  · rw [List.mem_singleton.mp hgmr]
    exact exact_hauled

-- A text that starts with a brace arrives without a mark in front, and as it was sent.
theorem text?_replyOf {s : String} {t : List Char} (h : s.toList = '\x7b' :: t) :
    (replyOf s).text? = some s := by
  have hannounced : Net.Charset.announced none = .utf8 := by decide +kernel
  have hmark : Net.Charset.ofMark .utf8 (Text.Utf8.encode s.toList) =
      (.utf8, Text.Utf8.encode s.toList) := by
    rw [h]
    rfl
  simp [replyOf, Movement.Received.text?, Net.bodyText, hannounced, hmark, Net.Charset.decode,
    Text.Utf8.decodeLossy, Text.Utf8.scan_encode]

-- Whichever text the service sends, one entry goes out, with its members in order.
theorem outcome_of_respelling_untidy :
    SearchAnswer.ofText heard.text = .ok heard ∧ SearchAnswer.ofText untidy = .ok heard ∧
      (calm.hearing (replyOf untidy)).outcome {} shelf =
        (calm.hearing (replyOf heard.text)).outcome {} shelf ∧
      (calm.hearing (replyOf untidy)).entries {} shelf = [⟨"MRN-C-G",
        "\x7b\"mrn\":\"MRN-C\",\"gmr\":\x7b\"gmrId\":\"G\",\"state\":\"OPEN\"," ++
          "\"updatedDateTime\":\"u1\",\"z\":\x7b\"a\":\"/\",\"b\":1\x7d\x7d\x7d"⟩] := by
  have htidy : (replyOf heard.text).text? = some heard.text :=
    text?_replyOf String.toList_ofList
  obtain ⟨-, hrespelled⟩ := outcome_of_respelling calm {} shelf htidy ofText_heard
  obtain ⟨hread, houtcome, hentries⟩ :=
    hrespelled (text?_replyOf String.toList_append) respelled_untidy
  have hwrites : (calm.hearing (replyOf heard.text)).Writes {} shelf heard := by
    refine ⟨rfl, due_shelf, ?_, rfl⟩
    simp only [hearing, Movement.Service.searchAnswerOf_of_text? htidy, ofText_heard]
    rfl
  refine ⟨ofText_heard, hread, houtcome, ?_⟩
  have hselected : selected {} shelf heard = [⟨"MRN-C", hauled⟩] := by
    rw [selected, findIncomplete_shelf]
    rfl
  rw [hentries, entries, hwrites.handed_eq, hselected]
  decide +kernel

end Runs

end Cycle.Round

end DeclarationWatch
