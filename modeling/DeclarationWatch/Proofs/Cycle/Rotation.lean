import DeclarationWatch.Proofs.History
import DeclarationWatch.Proofs.Ledger.Order
import Mathlib.Algebra.Order.Floor.Div
import Mathlib.Data.List.Perm.Basic

namespace DeclarationWatch.Cycle

variable {τ : Type} {policy : Policy} {ledger : Ledger} {round : Round τ} {id : String}

-- The ledger after some cycles, one after the other.
def afterRounds (policy : Policy) (ledger : Ledger) (rounds : List (Round τ)) : Ledger :=
  replay policy ledger (rounds.map .cycle)

-- The ids that a cycle asks for.
def Round.batch (round : Round τ) (policy : Policy) (ledger : Ledger) : List String :=
  (round.outcome policy ledger).requests.flatten

-- The ids that some cycles ask for, one cycle after the other.
def asked (policy : Policy) (ledger : Ledger) : List (Round τ) → List String
  | [] => []
  | round :: rest =>
      round.batch policy ledger ++ asked policy (round.outcome policy ledger).ledger rest

-- If there are pending items the cycle gets its answer and writes.
def Round.Succeeds (round : Round τ) (policy : Policy) (ledger : Ledger) : Prop :=
  ledger.pending ≠ [] → ∃ answer, round.Writes policy ledger answer

def AllSucceed (policy : Policy) (ledger : Ledger) (rounds : List (Round τ)) : Prop :=
  ∀ before round after, rounds = before ++ round :: after →
    round.Succeeds policy (afterRounds policy ledger before)

section Rounds

variable {rounds : List (Round τ)}

@[simp] theorem afterRounds_append_singleton :
    afterRounds policy ledger (rounds ++ [round]) =
      (round.outcome policy (afterRounds policy ledger rounds)).ledger := by
  simp [afterRounds, replay_append, Act.perform]

theorem asked_append_singleton : asked policy ledger (rounds ++ [round]) =
    asked policy ledger rounds ++ round.batch policy (afterRounds policy ledger rounds) := by
  induction rounds generalizing ledger with
  | nil => simp [asked, afterRounds]
  | cons first rest ih => simp [asked, ih, afterRounds, Act.perform]

theorem mem_asked_iff : id ∈ asked policy ledger rounds ↔
    ∃ before round after, rounds = before ++ round :: after ∧
      id ∈ round.batch policy (afterRounds policy ledger before) := by
  induction rounds generalizing ledger with
  | nil => simp [asked]
  | cons first rest ih =>
      rw [asked, List.mem_append, ih]
      constructor
      · rintro (hfirst | ⟨before, round, after, rfl, hround⟩)
        · exact ⟨[], first, rest, rfl, hfirst⟩
        · exact ⟨first :: before, round, after, rfl, hround⟩
      · rintro ⟨before, round, after, heq, hround⟩
        rcases List.cons_eq_append_iff.mp heq with ⟨rfl, hsame⟩ | ⟨before, rfl, rfl⟩
        · cases hsame
          exact Or.inl hround
        · exact Or.inr ⟨before, round, after, rfl, hround⟩

theorem AllSucceed.of_append {more : List (Round τ)}
    (h : AllSucceed policy ledger (rounds ++ more)) : AllSucceed policy ledger rounds := by
  rintro before round after rfl
  exact h before round (after ++ more) (by simp)

-- The readings of all the cycles are later than the polls that pending items have had.
def AllLater (ledger : Ledger) (rounds : List (Round τ)) : Prop :=
  ∀ item ∈ ledger.pending, ∀ polled, item.lastPolled = some polled →
    ∀ round ∈ rounds, polled.before round.now = true

theorem AllLater.of_append {more : List (Round τ)} (h : AllLater ledger (rounds ++ more)) :
    AllLater ledger rounds := by
  intro item hitem polled hpolled round hround
  exact h item hitem polled hpolled round (List.mem_append_left _ hround)

end Rounds

namespace Round

-- What a cycle does not ask for it leaves alone.
theorem find?_outcome_of_notMem_batch (h : id ∉ round.batch policy ledger) :
    (round.outcome policy ledger).ledger.find? id = ledger.find? id := by
  rcases round.writes_or_not policy ledger with ⟨answer, hwrites⟩ | hno
  · rw [batch, hwrites.requests_eq, List.flatten_singleton] at h
    rw [hwrites.ledger_eq, find?_rewritten_of_notMem answer h]
  · rw [ledger_of_not_writes hno]

section Batch

variable (hsucceeds : round.Succeeds policy ledger)

include hsucceeds

theorem batch_eq : round.batch policy ledger = dueIds policy ledger := by
  by_cases hdue : dueIds policy ledger = []
  · have hnone : ∀ ids ∈ (round.outcome policy ledger).requests, ids = [] := fun ids hids =>
      (mem_requests hids).1.trans hdue
    rw [batch, hdue, List.flatten_eq_nil_iff]
    exact hnone
  · obtain ⟨id, hid⟩ := List.exists_mem_of_ne_nil _ hdue
    obtain ⟨item, hitem, -⟩ := List.mem_map.mp hid
    obtain ⟨answer, h⟩ := hsucceeds
      (List.ne_nil_of_mem (Ledger.mem_pending_of_mem_findIncomplete hitem))
    rw [batch, h.requests_eq, List.flatten_singleton]

-- What it asks for it revises.
theorem find?_outcome_of_mem_batch (h : id ∈ round.batch policy ledger) :
    ∃ read answer, read ∈ ledger.findIncomplete policy.maxPollSize ∧ read.id = id ∧
      (round.outcome policy ledger).ledger.find? id =
        some (read.apply (revision policy round.now answer read)) := by
  rw [batch_eq hsucceeds] at h
  obtain ⟨read, hread, rfl⟩ := List.mem_map.mp h
  obtain ⟨answer, hanswer⟩ := hsucceeds
    (List.ne_nil_of_mem (Ledger.mem_pending_of_mem_findIncomplete hread))
  refine ⟨read, answer, hread, rfl, ?_⟩
  rw [hanswer.ledger_eq, find?_rewritten_of_mem answer hread]

end Batch

end Round

-- What some cycles have made of the items, by whether they have asked for them.
structure Rotated (policy : Policy) (ledger : Ledger) (rounds : List (Round τ)) : Prop where
  untouched : ∀ id, id ∉ asked policy ledger rounds →
    (afterRounds policy ledger rounds).find? id = ledger.find? id
  polled : ∀ item, (afterRounds policy ledger rounds).find? item.id = some item →
    item.id ∈ asked policy ledger rounds → ∃ round ∈ rounds, item.lastPolled = some round.now
  expired : (∀ item ∈ ledger.pending, ∀ round ∈ rounds, item.expiry.before round.now = true) →
    ∀ item, (afterRounds policy ledger rounds).find? item.id = some item →
      item.id ∈ asked policy ledger rounds → item.complete = true

section Rotated

variable {rounds : List (Round τ)}

theorem Rotated.mem_pending_iff (h : Rotated policy ledger rounds) {item : Item}
    (hnew : item.id ∉ asked policy ledger rounds) :
    item ∈ (afterRounds policy ledger rounds).pending ↔ item ∈ ledger.pending := by
  rw [Ledger.mem_pending_iff_find?, Ledger.mem_pending_iff_find?, h.untouched item.id hnew]

theorem Rotated.append_singleton (h : Rotated policy ledger rounds)
    (hsucceeds : round.Succeeds policy (afterRounds policy ledger rounds)) :
    Rotated policy ledger (rounds ++ [round]) := by
  constructor
  · intro id hnew
    rw [asked_append_singleton, List.mem_append, not_or] at hnew
    rw [afterRounds_append_singleton, Round.find?_outcome_of_notMem_batch hnew.2,
      h.untouched id hnew.1]
  · intro item hitem hasked
    rw [afterRounds_append_singleton] at hitem
    by_cases hbatch : item.id ∈ round.batch policy (afterRounds policy ledger rounds)
    · obtain ⟨read, answer, -, -, hrevised⟩ := Round.find?_outcome_of_mem_batch hsucceeds hbatch
      rw [hrevised] at hitem
      obtain rfl := Option.some.inj hitem
      exact ⟨round, by simp, rfl⟩
    · rw [Round.find?_outcome_of_notMem_batch hbatch] at hitem
      rw [asked_append_singleton, List.mem_append, or_iff_left hbatch] at hasked
      obtain ⟨earlier, hearlier, hpolled⟩ := h.polled item hitem hasked
      exact ⟨earlier, List.mem_append_left _ hearlier, hpolled⟩
  · intro hlate item hitem hasked
    rw [afterRounds_append_singleton] at hitem
    have hearlier := h.expired fun item hitem round hround =>
      hlate item hitem round (List.mem_append_left _ hround)
    by_cases hbatch : item.id ∈ round.batch policy (afterRounds policy ledger rounds)
    · obtain ⟨read, answer, hread, hid, hrevised⟩ :=
        Round.find?_outcome_of_mem_batch hsucceeds hbatch
      rw [hrevised] at hitem
      obtain rfl := Option.some.inj hitem
      have hopen := (Ledger.mem_of_mem_findIncomplete hread).2
      -- A read item is pending, so no earlier cycle can have asked for it.
      have hnew : read.id ∉ asked policy ledger rounds := by
        intro hagain
        rw [hearlier read (Ledger.find?_of_mem_findIncomplete hread) hagain] at hopen
        cases hopen
      have hpending := (h.mem_pending_iff hnew).mp (Ledger.mem_pending_of_mem_findIncomplete hread)
      rw [(revised_apply policy round.now answer hopen).complete]
      exact Or.inr (hlate read hpending round (by simp))
    · rw [Round.find?_outcome_of_notMem_batch hbatch] at hitem
      rw [asked_append_singleton, List.mem_append, or_iff_left hbatch] at hasked
      exact hearlier item hitem hasked

theorem rotated (hsucceed : AllSucceed policy ledger rounds) : Rotated policy ledger rounds := by
  induction rounds using List.reverseRecOn with
  | nil => exact ⟨fun _ _ => rfl, by simp [asked], by simp [asked]⟩
  | append_singleton rounds round ih =>
      exact (ih hsucceed.of_append).append_singleton (hsucceed rounds round [] rfl)

-- While an item that nobody has asked for stays behind, all that is found is new as well.
theorem Rotated.notMem_asked_of_left (h : Rotated policy ledger rounds)
    (hlater : AllLater ledger rounds) {left item : Item}
    (hleft : left ∈ (afterRounds policy ledger rounds).pending)
    (hnew : left.id ∉ asked policy ledger rounds)
    (hout : left ∉ (afterRounds policy ledger rounds).findIncomplete policy.maxPollSize)
    (hitem : item ∈ (afterRounds policy ledger rounds).findIncomplete policy.maxPollSize) :
    item.id ∉ asked policy ledger rounds := by
  intro hagain
  obtain ⟨round, hround, hpolled⟩ :=
    h.polled item (Ledger.find?_of_mem_findIncomplete hitem) hagain
  have hfirst := (Ledger.isDueBefore_of_notMem_findIncomplete hleft hout).1 item hitem
  refine Item.not_isDueBefore_of_polled hpolled (fun earlier hearlier => ?_) hfirst
  exact hlater left ((h.mem_pending_iff hnew).mp hleft) earlier hearlier round hround

-- The pending items that the cycles have not asked for.
def waiting (policy : Policy) (ledger : Ledger) (rounds : List (Round τ)) : List Item :=
  ledger.pending.filter fun item => item.id ∉ asked policy ledger rounds

theorem mem_waiting_iff {item : Item} : item ∈ waiting policy ledger rounds ↔
    item ∈ ledger.pending ∧ item.id ∉ asked policy ledger rounds := by
  simp [waiting]

theorem waiting_append_singleton
    (hsucceeds : round.Succeeds policy (afterRounds policy ledger rounds)) :
    waiting policy ledger (rounds ++ [round]) = (waiting policy ledger rounds).filter
      fun item => item.id ∉ dueIds policy (afterRounds policy ledger rounds) := by
  rw [waiting, waiting, List.filter_filter, asked_append_singleton, Round.batch_eq hsucceeds]
  simp [not_or, Bool.and_comm]

-- A cycle that leaves any of them behind has its batch full of them.
theorem Rotated.length_waiting_append_singleton (h : Rotated policy ledger rounds)
    (hlater : AllLater ledger rounds)
    (hsucceeds : round.Succeeds policy (afterRounds policy ledger rounds))
    (hleft : waiting policy ledger (rounds ++ [round]) ≠ []) :
    (waiting policy ledger (rounds ++ [round])).length + policy.maxPollSize.toNat ≤
      (waiting policy ledger rounds).length := by
  let found := (afterRounds policy ledger rounds).findIncomplete policy.maxPollSize
  rw [waiting_append_singleton hsucceeds] at hleft ⊢
  obtain ⟨left, hmem⟩ := List.exists_mem_of_ne_nil _ hleft
  obtain ⟨hwaiting, hnotDue⟩ : left ∈ waiting policy ledger rounds ∧
      left.id ∉ dueIds policy (afterRounds policy ledger rounds) := by
    simpa using hmem
  obtain ⟨hpending, hnew⟩ := mem_waiting_iff.mp hwaiting
  have hpresent := (h.mem_pending_iff hnew).mpr hpending
  have hout : left ∉ found := fun hfound => hnotDue (List.mem_map.mpr ⟨left, hfound, rfl⟩)
  have hfull : found.length = policy.maxPollSize.toNat :=
    (Ledger.isDueBefore_of_notMem_findIncomplete hpresent hout).2
  have hsub : found ⊆ (waiting policy ledger rounds).filter
      fun item => item.id ∈ dueIds policy (afterRounds policy ledger rounds) := by
    intro item hitem
    have hunasked := h.notMem_asked_of_left hlater hpresent hnew hout hitem
    have hopen := Ledger.mem_pending_of_mem_findIncomplete hitem
    rw [List.mem_filter, mem_waiting_iff, decide_eq_true_eq]
    exact ⟨⟨(h.mem_pending_iff hunasked).mp hopen, hunasked⟩, List.mem_map.mpr ⟨item, hitem, rfl⟩⟩
  have hnodup : found.Nodup := (Ledger.nodup_findIncomplete _ _).of_map _
  have hle := (hnodup.subperm hsub).length_le
  have hsplit := List.length_eq_length_filter_add
    (l := waiting policy ledger rounds)
    fun item => decide (item.id ∈ dueIds policy (afterRounds policy ledger rounds))
  simp only [decide_not]
  omega

theorem length_waiting (hsucceed : AllSucceed policy ledger rounds) (hlater : AllLater ledger rounds)
    (hleft : waiting policy ledger rounds ≠ []) :
    (waiting policy ledger rounds).length + policy.maxPollSize.toNat * rounds.length ≤
      ledger.pending.length := by
  induction rounds using List.reverseRecOn with
  | nil => simp [waiting, asked]
  | append_singleton rounds round ih =>
      have hstep := (rotated hsucceed.of_append).length_waiting_append_singleton hlater.of_append
        (hsucceed rounds round [] rfl) hleft
      have hwaiting : waiting policy ledger rounds ≠ [] := by
        rw [← List.length_pos_iff] at hleft ⊢
        omega
      have hsum := ih hsucceed.of_append hlater.of_append hwaiting
      rw [List.length_append, List.length_singleton, Nat.mul_succ]
      omega

-- Enough cycles leave nobody waiting.
theorem waiting_eq_nil (hlimit : 1 ≤ policy.maxPollSize)
    (hsucceed : AllSucceed policy ledger rounds) (hlater : AllLater ledger rounds)
    (hcount : ledger.pending.length ⌈/⌉ policy.maxPollSize.toNat ≤ rounds.length) :
    waiting policy ledger rounds = [] := by
  by_contra hleft
  have hsum := length_waiting hsucceed hlater hleft
  have hlimitNat : 0 < policy.maxPollSize.toNat := by omega
  have hcovered := (ceilDiv_le_iff_le_mul hlimitNat).mp hcount
  have hpos := List.length_pos_iff.mpr hleft
  omega

end Rotated

-- Cycles in a row, with a limit on their batches, and with nobody else at the ledger. None of them
-- asks for an item again while it leaves a pending one behind that none has asked for. As many
-- cycles as there are full batches of pending items get round to all of these, and if all were
-- over by then, nothing is pending in the end.
theorem rounds_cover_pending (policy : Policy) (ledger : Ledger) (rounds : List (Round τ))
    (hlimit : 1 ≤ policy.maxPollSize) (hsucceed : AllSucceed policy ledger rounds)
    (hlater : AllLater ledger rounds) :
    (∀ before round after, rounds = before ++ round :: after →
      let present := afterRounds policy ledger before
      (∃ id ∈ round.batch policy present, id ∈ asked policy ledger before) →
        ∀ item ∈ present.pending, item.id ∉ asked policy ledger before →
          item.id ∈ round.batch policy present) ∧
    (ledger.pending.length ⌈/⌉ policy.maxPollSize.toNat ≤ rounds.length →
      (∀ item ∈ ledger.pending, ∃ before round after, rounds = before ++ round :: after ∧
        item.id ∈ round.batch policy (afterRounds policy ledger before)) ∧
      ((∀ item ∈ ledger.pending, ∀ round ∈ rounds, item.expiry.before round.now = true) →
        (afterRounds policy ledger rounds).pending = [])) := by
  refine ⟨?_, fun hcount => ?_⟩
  · rintro before round after rfl present ⟨id, hbatch, hagain⟩ left hleft hnew
    rw [Round.batch_eq (hsucceed before round after rfl)] at hbatch ⊢
    obtain ⟨item, hitem, rfl⟩ := List.mem_map.mp hbatch
    by_contra hnotDue
    have hout : left ∉ present.findIncomplete policy.maxPollSize := fun hfound =>
      hnotDue (List.mem_map.mpr ⟨left, hfound, rfl⟩)
    exact (rotated hsucceed.of_append).notMem_asked_of_left hlater.of_append hleft hnew hout hitem
      hagain
  · have hnone := waiting_eq_nil hlimit hsucceed hlater hcount
    have hcovered : ∀ item ∈ ledger.pending, item.id ∈ asked policy ledger rounds := by
      intro item hitem
      by_contra hnew
      have hwaits : item ∈ waiting policy ledger rounds := mem_waiting_iff.mpr ⟨hitem, hnew⟩
      rw [hnone] at hwaits
      cases hwaits
    refine ⟨fun item hitem => mem_asked_iff.mp (hcovered item hitem), fun hlate => ?_⟩
    rw [List.eq_nil_iff_forall_not_mem]
    intro item hitem
    have hrotated := rotated hsucceed
    by_cases hasked : item.id ∈ asked policy ledger rounds
    · obtain ⟨hfind, hopen⟩ := Ledger.mem_pending_iff_find?.mp hitem
      rw [hrotated.expired hlate item hfind hasked] at hopen
      cases hopen
    · exact hasked (hcovered item ((hrotated.mem_pending_iff hasked).mp hitem))

-- Three items, two of them at a time, and two cycles that come too late for all of them.
theorem rounds_cover_three :
    let items : List Item := [⟨"MRN-A", [], false, ⟨0, 0⟩, ⟨5000, 0⟩, some ⟨30, 0⟩⟩,
      ⟨"MRN-B", [], false, ⟨0, 0⟩, ⟨6000, 0⟩, none⟩,
      ⟨"MRN-C", [], false, ⟨0, 0⟩, ⟨7000, 0⟩, some ⟨20, 0⟩⟩]
    let ledger : Ledger := ⟨items, [], by decide⟩
    let policy : Policy := { maxPollSize := 2 }
    let first : Round Unit :=
      ⟨⟨8000, 0⟩, {}, fun _ => .answered (.ok ⟨[], []⟩), fun _ => (.ok (), ())⟩
    let second := { first with now := ⟨9000, 0⟩ }
    (∀ item ∈ items, item.id ∈ first.batch policy ledger ∨
      item.id ∈ second.batch policy (first.outcome policy ledger).ledger) ∧
    (afterRounds policy ledger [first, second]).pending = [] := by
  intro items ledger policy first second
  have hsucceed : AllSucceed policy ledger [first, second] := by
    intro before round after heq hpending
    have hdue : (afterRounds policy ledger before).findIncomplete policy.maxPollSize ≠ [] :=
      Ledger.findIncomplete_ne_nil (by decide) hpending
    have hround : round ∈ [first, second] := by simp [heq]
    simp only [List.mem_cons, List.not_mem_nil, or_false] at hround
    rcases hround with rfl | rfl
    · exact ⟨⟨[], []⟩, rfl, hdue, rfl, rfl⟩
    · exact ⟨⟨[], []⟩, rfl, hdue, rfl, rfl⟩
  have hlater : AllLater ledger [first, second] := by
    simp [AllLater, Ledger.pending, ledger, items, first, second, Time.Instant.before]
  obtain ⟨-, hcover⟩ := rounds_cover_pending policy ledger [first, second] (by decide) hsucceed hlater
  obtain ⟨hasked, hdrained⟩ := hcover (by decide)
  refine ⟨fun item hitem => ?_, hdrained ?_⟩
  · have hmem := mem_asked_iff.mpr (hasked item hitem)
    simpa [asked] using hmem
  · decide

end DeclarationWatch.Cycle
