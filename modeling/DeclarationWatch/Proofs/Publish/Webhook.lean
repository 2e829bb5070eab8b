import DeclarationWatch.Proofs.Publish.Accounting
import DeclarationWatch.Publish.Webhook

namespace DeclarationWatch.Publish

open Net (Peer Reply)

namespace Webhook

-- The text acknowledges the entry: it is blank, or it can be read and names the entry at most to
-- blame it.
def Acknowledges (text : String) (entry : Entry) : Prop :=
  Text.trim text.toList = [] ∨
    ∃ rejections, Acknowledgement.ofText text = .ok rejections ∧
      ∀ rejection ∈ rejections, rejection.id = entry.id → rejection.callerFault = true

-- The reply ends the entry's way: a success that has arrived whole acknowledges it, or the request
-- is refused for its sender's fault.
def Confirms : Reply → Entry → Prop
  | .nothing, _ => False
  | .answer status contentType body complete, entry =>
      (200 ≤ status ∧ status < 300 ∧ complete = true ∧
        Acknowledges (Net.bodyText contentType body) entry) ∨
      (400 ≤ status ∧ status < 500)

-- The reply says nothing about any entry: there is none, a success is cut off or cannot be read, or
-- the status is neither a success nor a refusal.
def Fails : Reply → Prop
  | .nothing => True
  | .answer status contentType body complete =>
      let text := Net.bodyText contentType body
      (200 ≤ status ∧ status < 300 ∧
        (complete = false ∨
          (Text.trim text.toList ≠ [] ∧ ∃ fault, Acknowledgement.ofText text = .error fault))) ∨
      status < 200 ∨ (300 ≤ status ∧ status < 400) ∨ 500 ≤ status

section Replies

variable {text : String} {reply : Reply} {entry : Entry}

theorem asksAgain_ok {rejections : List Rejection} : asksAgain (.ok rejections) entry = false ↔
    ∀ rejection ∈ rejections, rejection.id = entry.id → rejection.callerFault = true := by
  rw [asksAgain, List.any_eq_false]
  constructor
  · intro h rejection hmem hid
    by_contra hfault
    exact h rejection hmem (by simp [hid, hfault])
  · intro h rejection hmem hagain
    simp only [Bool.and_eq_true, Bool.not_eq_true', beq_iff_eq] at hagain
    rw [h rejection hmem hagain.2] at hagain
    cases hagain.1

theorem isGenuine_acknowledgementOf (text : String) : IsGenuine (acknowledgementOf text) := by
  unfold acknowledgementOf
  split
  · trivial
  · cases Acknowledgement.ofText text <;> trivial

theorem asksAgain_acknowledgementOf :
    asksAgain (acknowledgementOf text) entry = false ↔ Acknowledges text entry := by
  unfold acknowledgementOf Acknowledges
  split
  · rename_i hblank
    simp [List.isEmpty_iff.mp hblank, asksAgain]
  · rename_i hblank
    rw [List.isEmpty_iff] at hblank
    cases hread : Acknowledgement.ofText text with
    | error fault => simp [hblank, Except.mapError, unread, asksAgain]
    | ok rejections => simp [hblank, Except.mapError, asksAgain_ok]

-- A webhook fails in no other way than a receiver does.
theorem isGenuine_answerOf (reply : Reply) : IsGenuine (answerOf reply) := by
  cases reply with
  | nothing => trivial
  | answer status contentType body complete =>
      simp only [answerOf]
      split
      · split
        · exact isGenuine_acknowledgementOf _
        · trivial
      · trivial

-- What keeps an entry from being sent again is its confirmation and nothing else.
theorem asksAgain_answerOf : asksAgain (answerOf reply) entry = false ↔ Confirms reply entry := by
  cases reply with
  | nothing => simp [answerOf, unread, asksAgain, Confirms]
  | answer status contentType body complete =>
      simp only [answerOf, Confirms]
      by_cases hsuccess : Net.isSuccess status = true
      · have hrange : 200 ≤ status ∧ status < 300 := by simpa [Net.isSuccess] using hsuccess
        have hfault : ¬(400 ≤ status ∧ status < 500) := by omega
        cases complete with
        | true => simp [hsuccess, hrange, hfault, asksAgain_acknowledgementOf]
        | false => simp [hsuccess, hfault, unread, asksAgain]
      · have hrange : ¬(200 ≤ status ∧ status < 300) := by simpa [Net.isSuccess] using hsuccess
        rw [if_neg hsuccess]
        simp only [asksAgain, Net.isCallerFault, Bool.not_eq_false', Bool.and_eq_true,
          decide_eq_true_eq]
        constructor
        · exact Or.inr
        · rintro (⟨hlow, hhigh, -⟩ | hfault)
          · exact absurd ⟨hlow, hhigh⟩ hrange
          · exact hfault

theorem not_confirms_of_fails (h : Fails reply) : ¬Confirms reply entry := by
  cases reply with
  | nothing => exact id
  | answer status contentType body complete =>
      rintro (⟨hlow, hhigh, hcomplete, hread⟩ | hfault)
      · rcases h with ⟨-, -, hcut | ⟨hblank, fault, hillegible⟩⟩ | hstatus
        · rw [hcomplete] at hcut
          cases hcut
        · rcases hread with hempty | ⟨rejections, hlegible, -⟩
          · exact hblank hempty
          · rw [hillegible] at hlegible
            cases hlegible
        · omega
      · rcases h with ⟨hlow, hhigh, -⟩ | hstatus <;> omega

theorem asksAgain_of_fails (h : Fails reply) : asksAgain (answerOf reply) entry = true := by
  rw [← Bool.not_eq_false, asksAgain_answerOf]
  exact not_confirms_of_fails h

end Replies

variable {σ : Type}

-- What comes back for the entries: nothing where the endpoint is none that can be asked.
def hear (webhook : Webhook) (peer : Peer σ) (entries : List Entry) (wire : σ) : Reply × σ :=
  match webhook.request? entries with
  | none => (.nothing, wire)
  | some request => peer request wire

theorem publishBatch_eq (webhook : Webhook) (peer : Peer σ) (entries : List Entry) (wire : σ) :
    webhook.publishBatch peer entries wire =
      (answerOf (webhook.hear peer entries wire).1, (webhook.hear peer entries wire).2) := by
  unfold publishBatch hear
  cases webhook.request? entries <;> rfl

end Webhook

-- A request of one of the chunks, with what came back for it.
structure Exchange where
  index : Nat
  entries : List Entry
  reply : Reply
  deriving Repr, DecidableEq

-- A publication over a webhook: its moves and exchanges so far, and what the other side remembers.
structure Transfer (σ : Type) where
  moves : List Move
  exchanges : List Exchange
  wire : σ

namespace Transfer

variable {σ : Type}

-- Nobody calls the publication off.
def course (transfer : Transfer σ) : Course := ⟨false, transfer.moves⟩

def exchangesOf (transfer : Transfer σ) (index : Nat) : List Exchange :=
  transfer.exchanges.filter (·.index == index)

section Turns

variable (config : Config) (webhook : Webhook) (peer : Peer σ) (sightings : List Sighting)

-- A chunk does the next thing that it has to do: it sends what is pending, it takes what comes
-- back, or it ends its rest.
def turn (transfer : Transfer σ) (index : Nat) : Transfer σ :=
  match (transfer.course.last config sightings).states[index]? with
  | some (.ready _ _) => { transfer with moves := transfer.moves ++ [.chunk index .send] }
  | some (.waiting _ pending) =>
      let (answer, wire) := webhook.publishBatch peer pending transfer.wire
      let reply := (webhook.hear peer pending transfer.wire).1
      { moves := transfer.moves ++ [.chunk index (.answer answer)]
        exchanges := transfer.exchanges ++ [⟨index, pending, reply⟩]
        wire := wire }
  | some (.backoff _ _) => { transfer with moves := transfer.moves ++ [.chunk index .wake] }
  | some (.settled _) | none => transfer

-- The chunks take turns in any order.
def run (wire : σ) (turns : List Nat) : Transfer σ :=
  turns.foldl (turn config webhook peer sightings) ⟨[], [], wire⟩

end Turns

variable {config : Config} {webhook : Webhook} {peer : Peer σ} {sightings : List Sighting}
  {transfer : Transfer σ} {wire : σ}

theorem run_append_singleton (turns : List Nat) (index : Nat) :
    run config webhook peer sightings wire (turns ++ [index]) =
      (run config webhook peer sightings wire turns).turn config webhook peer sightings index := by
  simp [run]

-- All that one turn can do. A move of a chunk gets it nearer to its end.
inductive Effect (config : Config) (sightings : List Sighting) (transfer : Transfer σ)
    (index : Nat) : Transfer σ → Prop where
  | nothing (ended : ∀ state, (transfer.course.last config sightings).states[index]? = some state →
      ∃ result, state = .settled result) : Effect config sightings transfer index transfer
  | moved {state : ChunkState} {event : ChunkState.Event}
      (stands : (transfer.course.last config sightings).states[index]? = some state)
      (plain : event.IsPlain) (silent : state.answer? event = none)
      (nearer : (state.step config event).remaining config < state.remaining config) :
      Effect config sightings transfer index
        { transfer with moves := transfer.moves ++ [.chunk index event] }
  | answered {attempt : Nat} {pending : List Entry} {reply : Reply} {wire : σ}
      (stands : (transfer.course.last config sightings).states[index]? =
        some (.waiting attempt pending)) :
      Effect config sightings transfer index
        { moves := transfer.moves ++ [.chunk index (.answer (Webhook.answerOf reply))]
          exchanges := transfer.exchanges ++ [⟨index, pending, reply⟩]
          wire := wire }

variable (webhook peer) in
theorem effect_turn (index : Nat) :
    transfer.Effect config sightings index
      (transfer.turn config webhook peer sightings index) := by
  unfold turn
  cases hstate : (transfer.course.last config sightings).states[index]? with
  | none => exact .nothing fun state hsome => by rw [hstate] at hsome; cases hsome
  | some state =>
      cases state with
      | ready attempt pending =>
          exact .moved hstate trivial rfl (by simp [ChunkState.step, ChunkState.remaining])
      | waiting attempt pending =>
          simp only [Webhook.publishBatch_eq]
          exact .answered hstate
      | backoff attempt pending =>
          refine .moved hstate trivial rfl ?_
          simp only [ChunkState.step, ChunkState.remaining]
          omega
      | settled result =>
          refine .nothing fun state hsome => ⟨result, ?_⟩
          rw [hstate] at hsome
          exact (Option.some.inj hsome).symm

-- The exchanges of each chunk are what it asked for and was answered.
structure Mirrors (config : Config) (sightings : List Sighting) (transfer : Transfer σ) :
    Prop where
  plain : transfer.course.IsPlain
  answers : ∀ index, transfer.course.answers config sightings index =
    (transfer.exchangesOf index).map fun exchange => Webhook.answerOf exchange.reply
  entries : ∀ index piece, (Course.pieces config sightings)[index]? = some piece →
    ∀ k exchange, (transfer.exchangesOf index)[k]? = some exchange →
      exchange.entries = left piece ((transfer.course.answers config sightings index).take k)

theorem answers_append (moves : List Move) (index other : Nat) (event : ChunkState.Event)
    {state : ChunkState}
    (h : (Course.last config sightings ⟨false, moves⟩).states[index]? = some state) :
    Course.answers config sightings ⟨false, moves ++ [.chunk index event]⟩ other =
      Course.answers config sightings ⟨false, moves⟩ other ++
        if index = other then (state.answer? event).toList else [] := by
  unfold Course.answers
  rw [Dispatch.seen_append_singleton]
  by_cases hother : index = other
  · subst hother
    have hstate : ((Course.start config sightings ⟨false, moves⟩).after config
        moves).states[index]? = some state := h
    simp only [Dispatch.seen?, if_true]
    exact congrArg _ (congrArg Option.toList (congrArg (Option.bind · _) hstate))
  · simp only [Dispatch.seen?, if_neg hother, Option.toList_none]
    rfl

theorem isPlain_append {moves : List Move} {last : Move} (h : Course.IsPlain ⟨false, moves⟩)
    (hlast : last.IsPlain) : Course.IsPlain ⟨false, moves ++ [last]⟩ :=
  ⟨rfl, List.forall_mem_append.mpr ⟨h.moves, List.forall_mem_singleton.mpr hlast⟩⟩

theorem exchangesOf_append (transfer : Transfer σ) (exchange : Exchange) (moves : List Move)
    (wire : σ) (index : Nat) :
    Transfer.exchangesOf ⟨moves, transfer.exchanges ++ [exchange], wire⟩ index =
      transfer.exchangesOf index ++ if exchange.index = index then [exchange] else [] := by
  by_cases hindex : exchange.index = index <;> simp [exchangesOf, hindex]

theorem mirrors_start (wire : σ) : Mirrors config sightings (⟨[], [], wire⟩ : Transfer σ) where
  plain := ⟨rfl, by simp [course]⟩
  answers := fun _ => rfl
  entries := by simp [exchangesOf]

theorem Mirrors.length_answers (h : Mirrors config sightings transfer) (index : Nat) :
    (transfer.course.answers config sightings index).length =
      (transfer.exchangesOf index).length := by
  rw [h.answers, List.length_map]

-- What a chunk waits for is the answer to all that its answers so far have left.
theorem Mirrors.pending_eq (h : Mirrors config sightings transfer) {index attempt : Nat}
    {pending piece : List Entry} (hpiece : (Course.pieces config sightings)[index]? = some piece)
    (hstate : (transfer.course.last config sightings).states[index]? =
      some (.waiting attempt pending)) :
    pending = left piece (transfer.course.answers config sightings index) := by
  obtain ⟨state, hlast, hstands, -⟩ := Course.books h.plain hpiece
  rw [hstate] at hlast
  cases hlast
  exact hstands.1

theorem Mirrors.effect {index : Nat} {next : Transfer σ} (h : Mirrors config sightings transfer)
    (heffect : transfer.Effect config sightings index next) : Mirrors config sightings next := by
  cases heffect with
  | nothing => exact h
  | @moved state event stands plain silent nearer =>
      have hsame : ∀ other, Course.answers config sightings
          ⟨false, transfer.moves ++ [.chunk index event]⟩ other =
            transfer.course.answers config sightings other := by
        intro other
        rw [answers_append transfer.moves index other event stands, silent]
        simp [course]
      constructor
      case plain => exact isPlain_append h.plain plain
      case answers => exact fun other => (hsame other).trans (h.answers other)
      case entries =>
        intro other piece hpiece k exchange hexchange
        exact (h.entries other piece hpiece k exchange hexchange).trans
          (congrArg (fun answers => left piece (answers.take k)) (hsame other).symm)
  | @answered attempt pending reply wire stands =>
      have hanswers : ∀ other, Course.answers config sightings
          ⟨false, transfer.moves ++ [.chunk index (.answer (Webhook.answerOf reply))]⟩ other =
            transfer.course.answers config sightings other ++
              if index = other then [Webhook.answerOf reply] else [] := fun other =>
        answers_append transfer.moves index other (.answer (Webhook.answerOf reply)) stands
      constructor
      case plain => exact isPlain_append h.plain (Webhook.isGenuine_answerOf reply)
      case answers =>
        intro other
        refine (hanswers other).trans ?_
        rw [exchangesOf_append, List.map_append, ← h.answers other]
        by_cases hother : index = other <;> simp [hother]
      case entries =>
        intro other piece hpiece k exchange hexchange
        rw [exchangesOf_append] at hexchange
        refine Eq.trans ?_ (congrArg (fun answers => left piece (answers.take k))
          (hanswers other).symm)
        have hlength := h.length_answers other
        rcases Nat.lt_or_ge k (transfer.exchangesOf other).length with hk | hk
        · rw [List.getElem?_append_left hk] at hexchange
          rw [h.entries other piece hpiece k exchange hexchange,
            List.take_append_of_le_length (by omega)]
        · rw [List.getElem?_append_right hk] at hexchange
          by_cases hother : index = other
          · subst hother
            rw [if_pos rfl, List.getElem?_singleton] at hexchange
            obtain ⟨hzero, hlast⟩ := Option.ite_none_right_eq_some.mp hexchange
            rw [← Option.some.inj hlast, h.pending_eq hpiece stands, List.take_append_of_le_length,
              List.take_of_length_le]
            all_goals omega
          · simp [hother] at hexchange

variable (config webhook peer sightings wire) in
theorem mirrors_run (turns : List Nat) :
    Mirrors config sightings (run config webhook peer sightings wire turns) := by
  induction turns using List.reverseRecOn with
  | nil => exact mirrors_start wire
  | append_singleton turns index ih =>
      rw [run_append_singleton]
      exact ih.effect (effect_turn webhook peer index)

section Progress

theorem getElem?_last_append (moves : List Move) (index other : Nat) (event : ChunkState.Event)
    {state : ChunkState}
    (h : (Course.last config sightings ⟨false, moves⟩).states[other]? = some state) :
    (Course.last config sightings ⟨false, moves ++ [.chunk index event]⟩).states[other]? =
      some (if index = other then state.step config event else state) := by
  have hstate : ((Course.start config sightings ⟨false, moves⟩).after config
      moves).states[other]? = some state := h
  refine (congrArg (fun dispatch : Dispatch => dispatch.states[other]?)
    (Dispatch.after_append_singleton config _ moves _)).trans ?_
  by_cases hother : index = other
  · subst hother
    simp only [Dispatch.move, List.getElem?_modify_eq, if_true]
    exact congrArg (Option.map _) hstate
  · simp only [Dispatch.move, List.getElem?_modify_ne _ _ hother, if_neg hother]
    exact hstate

-- A turn gets its chunk on unless it is settled, and it leaves the others where they are.
theorem Effect.progress {index other : Nat} {next : Transfer σ} {state : ChunkState}
    (heffect : transfer.Effect config sightings index next)
    (hstate : (transfer.course.last config sightings).states[other]? = some state) :
    ∃ reached, (next.course.last config sightings).states[other]? = some reached ∧
      (reached = state ∧ (index = other → ∃ result, state = .settled result) ∨
        index = other ∧ reached.remaining config < state.remaining config) := by
  cases heffect with
  | nothing ended =>
      refine ⟨state, hstate, Or.inl ⟨rfl, ?_⟩⟩
      rintro rfl
      exact ended state hstate
  | @moved mover event stands plain silent nearer =>
      refine ⟨_, getElem?_last_append transfer.moves index other event hstate, ?_⟩
      by_cases hother : index = other
      · subst hother
        rw [hstate] at stands
        cases stands
        exact Or.inr ⟨rfl, by simpa using nearer⟩
      · exact Or.inl ⟨if_neg hother, fun h => absurd h hother⟩
  | @answered attempt pending reply wire stands =>
      refine ⟨_, getElem?_last_append transfer.moves index other _ hstate, ?_⟩
      by_cases hother : index = other
      · subst hother
        rw [hstate] at stands
        cases stands
        refine Or.inr ⟨rfl, ?_⟩
        rw [if_pos rfl]
        exact ChunkState.remaining_receive config attempt pending (Webhook.answerOf reply)
      · exact Or.inl ⟨if_neg hother, fun h => absurd h hother⟩

variable (webhook peer wire) in
-- The turns of a chunk that is not settled are used up.
theorem settled_or_spent (turns : List Nat) {index : Nat} {piece : List Entry}
    (hpiece : (Course.pieces config sightings)[index]? = some piece) :
    ∃ state, ((run config webhook peer sightings wire turns).course.last config
        sightings).states[index]? = some state ∧
      ((∃ result, state = .settled result) ∨
        state.remaining config + turns.count index ≤ 3 * config.attempts + 2) := by
  induction turns using List.reverseRecOn with
  | nil =>
      refine ⟨_, Course.getElem?_start hpiece, Or.inr ?_⟩
      simp [ChunkState.start, ChunkState.remaining]
  | append_singleton turns last ih =>
      obtain ⟨state, hstate, hprogress⟩ := ih
      rw [run_append_singleton]
      obtain ⟨reached, hreached, ⟨rfl, hover⟩ | ⟨rfl, hnearer⟩⟩ :=
        (effect_turn webhook peer last).progress hstate
      · refine ⟨reached, hreached, ?_⟩
        by_cases hlast : last = index
        · exact Or.inl (hover hlast)
        · rwa [List.count_append, List.count_singleton, beq_false_of_ne hlast]
      · refine ⟨reached, hreached, ?_⟩
        rcases hprogress with ⟨result, rfl⟩ | hspent
        · exact absurd hnearer (Nat.not_lt_zero _)
        · refine Or.inr ?_
          simp only [List.count_append, List.count_singleton_self]
          omega

-- The publication returns once each of its chunks has had its turns.
theorem exists_yields (turns : List Nat)
    (h : ∀ index, index < (Course.pieces config sightings).length →
      3 * config.attempts + 2 ≤ turns.count index) :
    ∃ result, (run config webhook peer sightings wire turns).course.Yields config sightings
      result := by
  have hplain := (mirrors_run config webhook peer sightings wire turns).plain
  have hsettled : ∀ state ∈ ((run config webhook peer sightings wire turns).course.last config
      sightings).states, ∃ result, state = .settled result := by
    intro state hmem
    obtain ⟨index, hindex⟩ := List.mem_iff_getElem?.mp hmem
    obtain ⟨piece, hpiece⟩ := Course.exists_piece hindex
    obtain ⟨reached, hreached, hprogress⟩ := settled_or_spent webhook peer wire turns hpiece
    rw [hindex] at hreached
    cases hreached
    rcases hprogress with hover | hspent
    · exact hover
    · have hturns := h index (List.getElem?_eq_some_iff.mp hpiece).1
      cases state with
      | settled result => exact ⟨result, rfl⟩
      | _ =>
          simp only [ChunkState.remaining] at hspent
          omega
  obtain ⟨settlements, hstates⟩ := Dispatch.exists_settlements hsettled
  exact ⟨_, Dispatch.possible_of_isPlain hplain.moves hplain.running, settlements, hstates, rfl⟩

end Progress

section Soundness

variable {index k : Nat} {piece : List Entry} {exchange : Exchange} {entry : Entry}
  {result : Except PublishFailure Unit}

section Mirrored

variable (h : Mirrors config sightings transfer)

include h

theorem Mirrors.getElem?_answers (index k : Nat) :
    (transfer.course.answers config sightings index)[k]? =
      (transfer.exchangesOf index)[k]?.map fun exchange => Webhook.answerOf exchange.reply := by
  rw [h.answers, List.getElem?_map]

theorem Mirrors.exists_piece (hexchange : (transfer.exchangesOf index)[k]? = some exchange) :
    ∃ piece, (Course.pieces config sightings)[index]? = some piece := by
  rw [← Option.isSome_iff_exists, Option.isSome_iff_ne_none]
  intro hnone
  have hanswers : transfer.course.answers config sightings index = [] := by
    refine Dispatch.seen_eq_nil _ _ _ ?_
    rw [Course.length_pieces]
    exact List.getElem?_eq_none_iff.mp hnone
  have hlength := h.length_answers index
  rw [hanswers, List.length_nil, eq_comm, List.length_eq_zero_iff] at hlength
  simp [hlength] at hexchange

-- After a reply that fails the same entries are left as before it.
theorem Mirrors.left_of_fails (hpiece : (Course.pieces config sightings)[index]? = some piece)
    (hexchange : (transfer.exchangesOf index)[k]? = some exchange)
    (hfails : Webhook.Fails exchange.reply) :
    left piece ((transfer.course.answers config sightings index).take (k + 1)) =
      exchange.entries := by
  rw [List.take_add_one, h.getElem?_answers, hexchange, Option.map_some, Option.toList_some,
    left_append_singleton, ← h.entries index piece hpiece k exchange hexchange]
  exact List.filter_eq_self.mpr fun entry _ => Webhook.asksAgain_of_fails hfails

-- An entry that is not left was confirmed by the last reply that it was waiting for.
theorem Mirrors.exists_confirmation
    (hpiece : (Course.pieces config sightings)[index]? = some piece) (hentry : entry ∈ piece)
    (hgone : entry ∉ left piece (transfer.course.answers config sightings index)) :
    ∃ (k : Nat) (exchange : Exchange), (transfer.exchangesOf index)[k]? = some exchange ∧
      entry ∈ exchange.entries ∧
      (∀ (l : Nat) later, k < l → (transfer.exchangesOf index)[l]? = some later →
        entry ∉ later.entries) ∧
      Webhook.Confirms exchange.reply entry := by
  cases hfind : (transfer.course.answers config sightings index).find?
      fun answer => !asksAgain answer entry with
  | none =>
      refine absurd (mem_left_iff.mpr ⟨hentry, fun answer hmem => ?_⟩) hgone
      simpa using List.find?_eq_none.mp hfind answer hmem
  | some answer =>
      obtain ⟨hlast, before, after, hsplit, hbefore⟩ := List.find?_eq_some_iff_append.mp hfind
      simp only [Bool.not_eq_true', Bool.not_not] at hlast hbefore
      have hanswer : (transfer.course.answers config sightings index)[before.length]? =
          some answer := by simp [hsplit]
      have hread := h.getElem?_answers index before.length
      rw [hanswer, eq_comm, Option.map_eq_some_iff] at hread
      obtain ⟨exchange, hexchange, rfl⟩ := hread
      refine ⟨before.length, exchange, hexchange, ?_, ?_, Webhook.asksAgain_answerOf.mp hlast⟩
      · rw [h.entries index piece hpiece _ _ hexchange, hsplit, List.take_left]
        exact mem_left_iff.mpr ⟨hentry, hbefore⟩
      · intro l later hl hlater hagain
        rw [h.entries index piece hpiece _ _ hlater] at hagain
        have hmem : Webhook.answerOf exchange.reply ∈
            (transfer.course.answers config sightings index).take l :=
          List.mem_iff_getElem?.mpr
            ⟨before.length, by rw [List.getElem?_take_of_lt hl, hanswer]⟩
        rw [(mem_left_iff.mp hagain).2 _ hmem] at hlast
        cases hlast

theorem Mirrors.lt_attempts (hexchange : (transfer.exchangesOf index)[k]? = some exchange) :
    k < config.attempts ∧ exchange.entries ≠ [] := by
  obtain ⟨piece, hpiece⟩ := h.exists_piece hexchange
  obtain ⟨-, -, -, haccounts⟩ := Course.books h.plain hpiece
  have hk : k < (transfer.course.requests config sightings index).length := by
    have hlength := h.length_answers index
    have hlast := (List.getElem?_eq_some_iff.mp hexchange).1
    have hanswered := haccounts.answered
    omega
  refine ⟨Nat.lt_of_lt_of_le hk haccounts.bounded, ?_⟩
  have hrequest := List.getElem?_eq_getElem hk
  rw [h.entries index piece hpiece k exchange hexchange, ← (haccounts.getElem?_requests hrequest).2]
  exact haccounts.nonempty _ (List.mem_of_getElem? hrequest)

-- A reply that fails is no reason to stop before the attempts have run out, and then the entries
-- are given up.
theorem Mirrors.outcome_of_fails (hyields : transfer.course.Yields config sightings result)
    (hexchange : (transfer.exchangesOf index)[k]? = some exchange)
    (hfails : Webhook.Fails exchange.reply) :
    (k + 1 < config.attempts → ∃ next, (transfer.exchangesOf index)[k + 1]? = some next) ∧
    (k + 1 = config.attempts →
      ∀ entry ∈ exchange.entries, transfer.course.Undelivered config sightings index entry) := by
  obtain ⟨piece, hpiece⟩ := h.exists_piece hexchange
  obtain ⟨haccounts, -, -, hattempts⟩ := Course.books_of_yields h.plain hyields hpiece
  obtain ⟨_, -, hstands⟩ := Course.settled_of_yields h.plain hyields hpiece
  have hrequests := ChunkState.length_requests_of_stands hstands
  have hlength := h.length_answers index
  -- Where this is the last reply, the entries are what is left in the end.
  have hleft : (transfer.exchangesOf index).length ≤ k + 1 →
      left piece (transfer.course.answers config sightings index) = exchange.entries := by
    intro hlast
    rw [← h.left_of_fails hpiece hexchange hfails, List.take_of_length_le (by omega)]
  constructor
  · intro hmore
    rw [← Option.isSome_iff_exists, Option.isSome_iff_ne_none, Ne, List.getElem?_eq_none_iff]
    intro hlast
    have hspent := hattempts (hleft hlast ▸ (h.lt_attempts hexchange).2)
    omega
  · intro hspent entry hentry
    have hbounded := haccounts.bounded
    rw [Course.undelivered_iff h.plain hyields hpiece, hleft (by omega)]
    exact hentry

end Mirrored

-- A publication over a webhook that nobody calls off, whatever comes back for its requests and in
-- whatever order its chunks take their turns. It returns once they have had enough of them. Where
-- it succeeds, the last request with an entry brought its confirmation. What fails confirms
-- nothing: the same entries are sent again until the attempts have run out, and then they are
-- reported.
theorem webhook_publication_sound (config : Config) (webhook : Webhook) (peer : Peer σ) (wire : σ)
    (sightings : List Sighting) (turns : List Nat) :
    let transfer := run config webhook peer sightings wire turns
    let yields := transfer.course.Yields config sightings
    ((∀ index, index < (Course.pieces config sightings).length →
        3 * config.attempts + 2 ≤ turns.count index) → ∃ result, yields result) ∧
    (yields (.ok ()) → ∀ (index : Nat) piece,
      (Course.pieces config sightings)[index]? = some piece → ∀ entry ∈ piece,
        ∃ (k : Nat) (exchange : Exchange), (transfer.exchangesOf index)[k]? = some exchange ∧
          entry ∈ exchange.entries ∧
          (∀ (l : Nat) later, k < l → (transfer.exchangesOf index)[l]? = some later →
            entry ∉ later.entries) ∧
          Webhook.Confirms exchange.reply entry) ∧
    ∀ (index k : Nat) exchange, (transfer.exchangesOf index)[k]? = some exchange →
      Webhook.Fails exchange.reply →
      (∀ entry, ¬Webhook.Confirms exchange.reply entry) ∧ k < config.attempts ∧
      (∀ next, (transfer.exchangesOf index)[k + 1]? = some next →
        next.entries = exchange.entries) ∧
      ∀ result, yields result →
        (k + 1 < config.attempts → ∃ next, (transfer.exchangesOf index)[k + 1]? = some next) ∧
        (k + 1 = config.attempts → ∃ ids, result = .error (.retriesExhausted ids) ∧
          ∀ entry ∈ exchange.entries, entry.id ∈ ids) := by
  intro transfer yields
  have hmirrors : Mirrors config sightings transfer :=
    mirrors_run config webhook peer sightings wire turns
  refine ⟨exists_yields turns, ?confirmed, ?failed⟩
  case confirmed =>
    intro hyields index piece hpiece entry hentry
    refine hmirrors.exists_confirmation hpiece hentry ?_
    rw [← Course.undelivered_iff hmirrors.plain hyields hpiece]
    exact (Course.balanced_of_yields hmirrors.plain hyields).succeeds.mp rfl index entry
  case failed =>
    intro index k exchange hexchange hfails
    obtain ⟨piece, hpiece⟩ := hmirrors.exists_piece hexchange
    obtain ⟨hattempt, hnonempty⟩ := hmirrors.lt_attempts hexchange
    refine ⟨fun entry => Webhook.not_confirms_of_fails hfails, hattempt, ?_, ?_⟩
    · intro next hnext
      rw [hmirrors.entries index piece hpiece _ _ hnext]
      exact hmirrors.left_of_fails hpiece hexchange hfails
    · intro result hyields
      obtain ⟨hnext, hgiven⟩ := hmirrors.outcome_of_fails hyields hexchange hfails
      refine ⟨hnext, fun hspent => ?_⟩
      have hreported : ∀ entry ∈ exchange.entries,
          entry.id ∈ (transfer.course.unsent config sightings).flatten.map (·.id) := by
        intro entry hentry
        obtain ⟨given, hindex, hmem⟩ := hgiven hspent entry hentry
        exact List.mem_map_of_mem (List.mem_flatten.mpr ⟨given, List.mem_of_getElem? hindex, hmem⟩)
      obtain ⟨entry, hentry⟩ := List.exists_mem_of_ne_nil _ hnonempty
      refine ⟨_, ?_, hreported⟩
      rw [Course.result_of_yields hmirrors.plain hyields,
        if_neg (List.ne_nil_of_mem (hreported entry hentry))]

-- A receiver that is busy at first.
def busyThen (reply : Reply) : Peer Nat := fun _ asked =>
  (if asked = 0 then .answer 503 none [] true else reply, asked + 1)

-- Two records in one request. Its repetition is acknowledged, with the blame on one of them, or the
-- acknowledgement is cut off.
theorem webhook_publication_sound_busy :
    let config : Config := { maxAttempts := 2 }
    let taken : Sighting := ⟨"MRN-A", ⟨"G1", "OPEN", "v1", []⟩⟩
    let blamed : Sighting := ⟨"MRN-B", ⟨"G2", "OPEN", "v1", []⟩⟩
    let blame : Reply := .answer 200 none (Text.Utf8.encode
      "\x7b\"failed\":[\x7b\"id\":\"MRN-B-G2\",\"callerFault\":true\x7d]\x7d".toList) true
    let cut : Reply := .answer 200 none [] false
    let relay := fun reply => run config ⟨"http://localhost/publish"⟩ (busyThen reply)
      [taken, blamed] 0 (List.replicate 8 0)
    ((relay blame).course.Yields config [taken, blamed] (.ok ()) ∧
      ∃ (k : Nat) (exchange : Exchange), ((relay blame).exchangesOf 0)[k]? = some exchange ∧
        Webhook.Confirms exchange.reply (.ofSighting taken)) ∧
    (Webhook.Fails cut ∧ (∃ result, (relay cut).course.Yields config [taken, blamed] result) ∧
      ∀ result, (relay cut).course.Yields config [taken, blamed] result →
        ∃ ids, result = .error (.retriesExhausted ids) ∧ "MRN-A-G1" ∈ ids) := by
  intro config taken blamed blame cut relay
  have hpieces : Course.pieces config [taken, blamed] =
      [[.ofSighting taken, .ofSighting blamed]] := by
    simp [Course.pieces, chunks, config, Config.ceiling]
  have hplain : ∀ reply, (relay reply).course.IsPlain := fun reply =>
    (mirrors_run config _ (busyThen reply) [taken, blamed] 0 (List.replicate 8 0)).plain
  have hyields : (relay blame).course.Yields config [taken, blamed] (.ok ()) := by
    have hsettled : ((relay blame).course.last config [taken, blamed]).states =
        [ChunkState.settled .done] := by decide +kernel
    exact ⟨Dispatch.possible_of_isPlain (hplain blame).moves (hplain blame).running, [.done],
      hsettled, rfl⟩
  obtain ⟨-, hconfirmed, -⟩ := webhook_publication_sound config ⟨"http://localhost/publish"⟩
    (busyThen blame) 0 [taken, blamed] (List.replicate 8 0)
  obtain ⟨hreturns, -, hfailed⟩ := webhook_publication_sound config ⟨"http://localhost/publish"⟩
    (busyThen cut) 0 [taken, blamed] (List.replicate 8 0)
  obtain ⟨k, exchange, hexchange, -, -, hconfirms⟩ :=
    hconfirmed hyields 0 _ (by rw [hpieces]; rfl) (.ofSighting taken) (by simp)
  have hfails : Webhook.Fails cut := Or.inl ⟨by decide, by decide, Or.inl rfl⟩
  have hlast : ((relay cut).exchangesOf 0)[1]? =
      some ⟨0, [.ofSighting taken, .ofSighting blamed], cut⟩ := by decide +kernel
  refine ⟨⟨hyields, k, exchange, hexchange, hconfirms⟩, hfails, hreturns ?_, ?_⟩
  · rw [hpieces]
    intro index hindex
    obtain rfl : index = 0 := by simpa using hindex
    decide
  · intro result hresult
    obtain ⟨-, -, -, hends⟩ := hfailed 0 1 _ hlast hfails
    obtain ⟨ids, hreported, hnamed⟩ := (hends result hresult).2 rfl
    exact ⟨ids, hreported, hnamed (.ofSighting taken) (by simp)⟩

end Soundness

end Transfer

end DeclarationWatch.Publish
