import DeclarationWatch.Proofs.Keyed
import DeclarationWatch.Proofs.Time.Order
import DeclarationWatch.Schedule.Job
import Mathlib.Data.List.Chain

namespace DeclarationWatch.Schedule

-- What a loop meets. Its work may fail in any way, but it comes back.
inductive Turn where
  -- A reading of the clock, and the occurrence that the schedule has after it.
  | look (now : Time.Instant) (next : Option Time.Instant)
  -- The sleep is over, with another reading of the clock.
  | woke (now : Time.Instant)
  -- The answer about the token. A failure is none.
  | answered (claim : Option Claim)
  | finished (failure : Option Failure)
  | stop

def Turn.event : Turn → LoopEvent
  | .look _ next => .look next
  | .woke _ => .slept
  | .answered claim => .claimed claim
  | .finished failure => .finished failure
  | .stop => .stop

-- What a loop does and what it is told, in order.
inductive Deed where
  | starts
  | looked (now : Time.Instant) (next : Option Time.Instant)
  | sleeps (occurrence : Time.Instant)
  | asks (occurrence now : Time.Instant)
  | answered (occurrence : Time.Instant) (claim : Option Claim)
  | works (occurrence : Time.Instant)
  | finished (occurrence : Time.Instant) (failure : Option Failure)
  | returns

-- What a loop makes of a turn. It hears only what it waits for, and it does not look at the clock
-- once it is told to stop.
def Loop.hears (loop : Loop) : Turn → List Deed
  | .look now next =>
      match loop with
      | ⟨.idle, false⟩ => [.looked now next]
      | _ => []
  | .answered claim =>
      match loop.phase with
      | .claiming occurrence => [.answered occurrence claim]
      | _ => []
  | .finished failure =>
      match loop.phase with
      | .running occurrence => [.finished occurrence failure]
      | _ => []
  | .woke _ | .stop => []

-- What a loop does as it comes to a phase.
def Phase.begins (turn : Turn) : Phase → List Deed
  | .idle => []
  | .sleeping occurrence => [.sleeps occurrence]
  | .claiming occurrence =>
      match turn with
      | .woke now => [.asks occurrence now]
      | _ => []
  | .running occurrence => [.works occurrence]
  | .ended => [.returns]

-- A loop and its deeds so far.
structure Diary where
  loop : Loop
  log : List Deed

namespace Diary

def start : Diary := ⟨.start, [.starts]⟩

def turn (diary : Diary) (turn : Turn) : Diary :=
  let loop := diary.loop.step turn.event
  let begun := if loop.phase = diary.loop.phase then [] else loop.phase.begins turn
  ⟨loop, diary.log ++ (diary.loop.hears turn ++ begun)⟩

def kept (turns : List Turn) : Diary := turns.foldl turn start

end Diary

-- All that one turn can do to a loop.
inductive Move : Loop → Turn → Loop → List Deed → Prop where
  | ignored {loop turn} (h : turn ≠ .stop) : Move loop turn loop []
  | told {phase told} (h : ∀ occurrence, phase ≠ .sleeping occurrence) :
      Move ⟨phase, told⟩ .stop ⟨phase, true⟩ []
  | interrupted {occurrence told} :
      Move ⟨.sleeping occurrence, told⟩ .stop ⟨.ended, true⟩ [.returns]
  | returns {now next} : Move ⟨.idle, true⟩ (.look now next) ⟨.ended, true⟩ [.returns]
  | exhausted {now} :
      Move ⟨.idle, false⟩ (.look now none) ⟨.ended, false⟩ [.looked now none, .returns]
  | sleeps {now occurrence} :
      Move ⟨.idle, false⟩ (.look now (some occurrence)) ⟨.sleeping occurrence, false⟩
        [.looked now (some occurrence), .sleeps occurrence]
  | wakes {occurrence told now} :
      Move ⟨.sleeping occurrence, told⟩ (.woke now) ⟨.claiming occurrence, told⟩
        [.asks occurrence now]
  | works {occurrence told} :
      Move ⟨.claiming occurrence, told⟩ (.answered (some .acquired)) ⟨.running occurrence, told⟩
        [.answered occurrence (some .acquired), .works occurrence]
  | skips {occurrence told claim} (h : claim ≠ some .acquired) :
      Move ⟨.claiming occurrence, told⟩ (.answered claim) ⟨.idle, told⟩
        [.answered occurrence claim]
  | cancelled {occurrence failure} :
      Move ⟨.running occurrence, true⟩ (.finished failure) ⟨.ended, true⟩
        [.finished occurrence failure, .returns]
  | finishes {occurrence told failure} :
      Move ⟨.running occurrence, told⟩ (.finished failure) ⟨.idle, told⟩
        [.finished occurrence failure]

-- A turn that brings a loop nowhere else.
theorem begun_of_phase_eq {loop : Loop} {turn : Turn}
    (h : (loop.step turn.event).phase = loop.phase) :
    (if (loop.step turn.event).phase = loop.phase then []
      else (loop.step turn.event).phase.begins turn) = [] := if_pos h

theorem exists_move (diary : Diary) (turn : Turn) :
    ∃ after deeds, Move diary.loop turn after deeds ∧
      diary.turn turn = ⟨after, diary.log ++ deeds⟩ := by
  refine ⟨_, _, ?_, rfl⟩
  obtain ⟨⟨phase, told⟩, log⟩ := diary
  cases turn with
  | look now next =>
      cases phase with
      | idle =>
          cases told with
          | true => exact .returns
          | false =>
              cases next with
              | none => exact .exhausted
              | some occurrence => exact .sleeps
      | _ =>
          rw [begun_of_phase_eq rfl]
          exact .ignored nofun
  | woke now =>
      cases phase with
      | sleeping occurrence => exact .wakes
      | _ =>
          rw [begun_of_phase_eq rfl]
          exact .ignored nofun
  | answered claim =>
      cases phase with
      | claiming occurrence =>
          rcases claim with _ | _ | _
          · exact .skips nofun
          · exact .works
          · exact .skips nofun
      | _ =>
          rw [begun_of_phase_eq rfl]
          exact .ignored nofun
  | finished failure =>
      cases phase with
      | running occurrence =>
          simp only [Turn.event, Loop.step, Loop.hears]
          split
          · rename_i hends
            rw [Bool.and_eq_true] at hends
            rw [hends.1]
            exact .cancelled
          · exact .finishes
      | _ =>
          rw [begun_of_phase_eq rfl]
          exact .ignored nofun
  | stop =>
      cases phase with
      | sleeping occurrence => exact .interrupted
      | _ =>
          rw [begun_of_phase_eq rfl]
          exact .told nofun

-- After such a deed a loop stands where it began. The tick is over, however it went.
def Deed.LeavesIdle : Deed → Prop
  | .starts => True
  | .answered _ claim => claim ≠ some .acquired
  | .finished _ _ => True
  | _ => False

-- What may come next after a deed.
inductive Leads (stopped : Prop) : Deed → Deed → Prop where
  | looks {deed now next} (h : deed.LeavesIdle) : Leads stopped deed (.looked now next)
  | exhausted {now} : Leads stopped (.looked now none) .returns
  | sleeps {now occurrence} :
      Leads stopped (.looked now (some occurrence)) (.sleeps occurrence)
  | asks {occurrence now} : Leads stopped (.sleeps occurrence) (.asks occurrence now)
  | hears {occurrence now claim} :
      Leads stopped (.asks occurrence now) (.answered occurrence claim)
  | works {occurrence} :
      Leads stopped (.answered occurrence (some .acquired)) (.works occurrence)
  | finishes {occurrence failure} :
      Leads stopped (.works occurrence) (.finished occurrence failure)
  | interrupted {occurrence} (h : stopped) : Leads stopped (.sleeps occurrence) .returns
  | returns {deed} (h : stopped) (hidle : deed.LeavesIdle) : Leads stopped deed .returns

theorem Leads.mono {stopped later : Prop} (himp : stopped → later) {deed next : Deed}
    (h : Leads stopped deed next) : Leads later deed next := by
  cases h with
  | looks h => exact .looks h
  | exhausted => exact .exhausted
  | sleeps => exact .sleeps
  | asks => exact .asks
  | hears => exact .hears
  | works => exact .works
  | finishes => exact .finishes
  | interrupted h => exact .interrupted (himp h)
  | returns h hidle => exact .returns (himp h) hidle

-- The last deed of a loop, by where it stands.
def Phase.Follows : Phase → Deed → Prop
  | .idle, deed => deed.LeavesIdle
  | .sleeping occurrence, deed => deed = .sleeps occurrence
  | .claiming occurrence, deed => ∃ now, deed = .asks occurrence now
  | .running occurrence, deed => deed = .works occurrence
  | .ended, deed => deed = .returns

theorem Phase.eq_idle_of_leavesIdle {phase : Phase} {deed : Deed} (h : phase.Follows deed)
    (hidle : deed.LeavesIdle) : phase = .idle := by
  cases phase with
  | idle => rfl
  | claiming occurrence =>
      obtain ⟨now, rfl⟩ := h
      cases hidle
  | _ =>
      cases h
      cases hidle

-- A loop never rests after it has looked, nor after it has acquired a token.
theorem Phase.not_follows_looked (phase : Phase) (now : Time.Instant) (next : Option Time.Instant) :
    ¬phase.Follows (.looked now next) := by
  cases phase <;> simp [Follows, Deed.LeavesIdle]

theorem Phase.not_follows_acquired (phase : Phase) (occurrence : Time.Instant) :
    ¬phase.Follows (.answered occurrence (some .acquired)) := by
  cases phase <;> simp [Follows, Deed.LeavesIdle]

-- What is true of a diary after some turns.
structure Sound (turns : List Turn) (diary : Diary) : Prop where
  told : diary.loop.told = true ↔ .stop ∈ turns
  first : diary.log.head? = some .starts
  last : ∃ front deed, diary.log = front ++ [deed] ∧ diary.loop.phase.Follows deed
  chain : diary.log.IsChain (Leads (.stop ∈ turns))

theorem sound_start : Sound [] .start where
  told := by simp [Diary.start, Loop.start]
  first := rfl
  last := ⟨[], .starts, rfl, trivial⟩
  chain := .singleton _

section Sound

variable {turns : List Turn} {loop after : Loop} {log deeds : List Deed} {turn : Turn}

-- The deeds of one turn have to fit behind the last one before it.
theorem Sound.append (h : Sound turns ⟨loop, log⟩)
    (htold : after.told = true ↔ .stop ∈ turns ++ [turn])
    (hdeeds : ∀ deed, loop.phase.Follows deed →
      (deed :: deeds).IsChain (Leads (.stop ∈ turns ++ [turn])) ∧
        ∃ front last, deed :: deeds = front ++ [last] ∧ after.phase.Follows last) :
    Sound (turns ++ [turn]) ⟨after, log ++ deeds⟩ := by
  obtain ⟨front, deed, hlog, hfollows⟩ := h.last
  obtain ⟨hchain, middle, last, hlast, hafter⟩ := hdeeds deed hfollows
  simp only at hlog
  subst hlog
  have hsplit : front ++ [deed] ++ deeds = front ++ deed :: deeds := by simp
  refine ⟨htold, ?first, ?last, ?chain⟩
  case first =>
    have hfirst := h.first
    simp only [List.head?_append] at hfirst ⊢
    rw [hfirst]
    rfl
  case last => exact ⟨front ++ middle, last, by simp [hsplit, hlast], hafter⟩
  case chain =>
    simp only [hsplit]
    refine List.isChain_split.mpr ⟨?_, hchain⟩
    exact h.chain.imp fun _ _ => Leads.mono fun hstop => List.mem_append_left _ hstop

theorem Sound.move (h : Sound turns ⟨loop, log⟩) (hmove : Move loop turn after deeds) :
    Sound (turns ++ [turn]) ⟨after, log ++ deeds⟩ := by
  have htold := h.told
  have hstop : .stop ∈ turns ++ [.stop] := by simp
  cases hmove with
  | ignored hturn =>
      refine h.append (by simpa [hturn.symm] using htold) fun deed hdeed => ?_
      exact ⟨.singleton _, [], deed, rfl, hdeed⟩
  | told hawake =>
      refine h.append (by simp) fun deed hdeed => ?_
      exact ⟨.singleton _, [], deed, rfl, hdeed⟩
  | interrupted =>
      refine h.append (by simp) ?_
      rintro _ rfl
      exact ⟨.cons_cons (.interrupted hstop) (.singleton _), [_], .returns, rfl, rfl⟩
  | @returns now next =>
      refine h.append (by simpa using htold) fun deed hdeed => ?_
      have hstopped : .stop ∈ turns ++ [.look now next] :=
        List.mem_append_left _ (htold.mp rfl)
      exact ⟨.cons_cons (.returns hstopped hdeed) (.singleton _), [_], .returns, rfl, rfl⟩
  | exhausted =>
      refine h.append (by simpa using htold) fun deed hdeed => ?_
      exact ⟨.cons_cons (.looks hdeed) (.cons_cons .exhausted (.singleton _)), [_, _], .returns,
        rfl, rfl⟩
  | sleeps =>
      refine h.append (by simpa using htold) fun deed hdeed => ?_
      exact ⟨.cons_cons (.looks hdeed) (.cons_cons .sleeps (.singleton _)), [_, _], _, rfl, rfl⟩
  | wakes =>
      refine h.append (by simpa using htold) ?_
      rintro _ rfl
      exact ⟨.cons_cons .asks (.singleton _), [_], _, rfl, _, rfl⟩
  | works =>
      refine h.append (by simpa using htold) ?_
      rintro _ ⟨now, rfl⟩
      exact ⟨.cons_cons .hears (.cons_cons .works (.singleton _)), [_, _], _, rfl, rfl⟩
  | skips hclaim =>
      refine h.append (by simpa using htold) ?_
      rintro _ ⟨now, rfl⟩
      exact ⟨.cons_cons .hears (.singleton _), [_], _, rfl, hclaim⟩
  | @cancelled occurrence failure =>
      refine h.append (by simpa using htold) ?_
      rintro _ rfl
      have hstopped : .stop ∈ turns ++ [.finished failure] :=
        List.mem_append_left _ (htold.mp rfl)
      exact ⟨.cons_cons .finishes (.cons_cons (.returns hstopped trivial) (.singleton _)), [_, _],
        .returns, rfl, rfl⟩
  | finishes =>
      refine h.append (by simpa using htold) ?_
      rintro _ rfl
      exact ⟨.cons_cons .finishes (.singleton _), [_], _, rfl, trivial⟩

theorem kept_append_singleton (turns : List Turn) (turn : Turn) :
    Diary.kept (turns ++ [turn]) = (Diary.kept turns).turn turn := by
  simp [Diary.kept]

theorem sound_kept (turns : List Turn) : Sound turns (Diary.kept turns) := by
  induction turns using List.reverseRecOn with
  | nil => exact sound_start
  | append_singleton turns turn ih =>
      obtain ⟨after, deeds, hmove, hnext⟩ := exists_move (Diary.kept turns) turn
      rw [kept_append_singleton, hnext]
      exact ih.move hmove

end Sound

section Neighbours

variable {turns : List Turn} {diary : Diary} {before after : List Deed} {deed : Deed}

theorem Sound.exists_prior (h : Sound turns diary) (hsplit : diary.log = before ++ deed :: after)
    (hdeed : deed ≠ .starts) :
    ∃ front prior, before = front ++ [prior] ∧ Leads (.stop ∈ turns) prior deed := by
  have hfirst := h.first
  have hchain := h.chain
  rw [hsplit] at hfirst hchain
  rcases List.eq_nil_or_concat before with rfl | ⟨front, prior, rfl⟩
  · exact absurd (Option.some.inj hfirst) hdeed
  · rw [List.concat_eq_append, List.append_assoc] at hchain
    exact ⟨front, prior, List.concat_eq_append, (List.isChain_append_cons_cons.mp hchain).2.1⟩

theorem Sound.exists_next (h : Sound turns diary) (hsplit : diary.log = before ++ deed :: after) :
    (after = [] ∧ diary.loop.phase.Follows deed) ∨
      ∃ next rest, after = next :: rest ∧ Leads (.stop ∈ turns) deed next := by
  cases after with
  | nil =>
      obtain ⟨front, last, hlog, hfollows⟩ := h.last
      obtain ⟨-, hsame⟩ := List.append_inj' (hsplit.symm.trans hlog) rfl
      rw [List.singleton_inj.mp hsame]
      exact Or.inl ⟨rfl, hfollows⟩
  | cons next rest =>
      have hchain := h.chain
      rw [hsplit] at hchain
      exact Or.inr ⟨next, rest, rfl, (List.isChain_append_cons_cons.mp hchain).2.1⟩

end Neighbours

-- All readings of the clock, in order.
def readings (log : List Deed) : List Time.Instant :=
  log.filterMap fun
    | .looked now _ => some now
    | .asks _ now => some now
    | _ => none

-- The occurrences for which a loop asks for the token, in order.
def attempts (log : List Deed) : List Time.Instant :=
  log.filterMap fun
    | .asks occurrence _ => some occurrence
    | _ => none

-- The clock does not go back, what the schedule has next lies ahead, and no sleep ends early.
structure Timely (log : List Deed) : Prop where
  clock : (readings log).Pairwise fun earlier later => earlier.notAfter later = true
  ahead : ∀ now occurrence, .looked now (some occurrence) ∈ log → now.before occurrence = true
  sleeps : ∀ occurrence now, .asks occurrence now ∈ log → occurrence.notAfter now = true

theorem Timely.of_append {log more : List Deed} (h : Timely (log ++ more)) : Timely log where
  clock := by
    have hclock := h.clock
    rw [readings, List.filterMap_append] at hclock
    exact (List.pairwise_append.mp hclock).1
  ahead := fun now occurrence hmem => h.ahead now occurrence (List.mem_append_left _ hmem)
  sleeps := fun occurrence now hmem => h.sleeps occurrence now (List.mem_append_left _ hmem)

theorem attempts_append (log more : List Deed) :
    attempts (log ++ more) = attempts log ++ attempts more := List.filterMap_append

-- The attempts so far come in order, and before what a loop sleeps for.
structure Ascends (diary : Diary) : Prop where
  ordered : (attempts diary.log).Pairwise fun earlier later => earlier.before later = true
  ahead : ∀ occurrence, diary.loop.phase = .sleeping occurrence →
    ∀ earlier ∈ attempts diary.log, earlier.before occurrence = true

theorem Ascends.of_no_attempt {loop after : Loop} {log deeds : List Deed}
    (h : Ascends ⟨loop, log⟩) (hnone : attempts deeds = [])
    (hahead : ∀ occurrence, after.phase = .sleeping occurrence →
      ∀ earlier ∈ attempts log, earlier.before occurrence = true) :
    Ascends ⟨after, log ++ deeds⟩ := by
  have hsame : attempts (log ++ deeds) = attempts log := by
    rw [attempts_append, hnone, List.append_nil]
  constructor
  · rw [hsame]
    exact h.ordered
  · rw [hsame]
    exact hahead

-- An attempt is made after its time, and the next occurrence is one after a later reading.
theorem before_of_attempted {log : List Deed} {now occurrence earlier : Time.Instant}
    (h : Timely (log ++ [.looked now (some occurrence), .sleeps occurrence]))
    (hearlier : earlier ∈ attempts log) : earlier.before occurrence = true := by
  obtain ⟨deed, hdeed, hasks⟩ := List.mem_filterMap.mp hearlier
  cases deed with
  | asks other reading =>
      cases hasks
      have hslept : earlier.notAfter reading = true :=
        h.sleeps earlier reading (List.mem_append_left _ hdeed)
      have hclock : reading.notAfter now = true := by
        have hclock := h.clock
        rw [readings, List.filterMap_append] at hclock
        refine (List.pairwise_append.mp hclock).2.2 reading ?_ now (by simp)
        exact List.mem_filterMap.mpr ⟨_, hdeed, rfl⟩
      have hahead : now.before occurrence = true := h.ahead now occurrence (by simp)
      exact Time.Instant.before_of_notAfter_of_before
        (Time.Instant.notAfter_trans hslept hclock) hahead
  | _ => cases hasks

theorem Ascends.move {loop after : Loop} {log deeds : List Deed} {turn : Turn}
    (h : Ascends ⟨loop, log⟩) (hmove : Move loop turn after deeds) (htimely : Timely (log ++ deeds)) :
    Ascends ⟨after, log ++ deeds⟩ := by
  cases hmove with
  | ignored hturn => exact h.of_no_attempt rfl h.ahead
  | told hawake => exact h.of_no_attempt rfl h.ahead
  | sleeps =>
      refine h.of_no_attempt rfl ?_
      rintro _ ⟨⟩ earlier hearlier
      exact before_of_attempted htimely hearlier
  | @wakes occurrence told now =>
      constructor
      · rw [attempts_append, List.pairwise_append]
        refine ⟨h.ordered, List.pairwise_singleton _ _, fun earlier hearlier later hlater => ?_⟩
        rw [List.mem_singleton.mp hlater]
        exact h.ahead occurrence rfl earlier hearlier
      · rintro _ ⟨⟩
  | _ => exact h.of_no_attempt rfl nofun

theorem ascends_kept {turns : List Turn} (htimely : Timely (Diary.kept turns).log) :
    Ascends (Diary.kept turns) := by
  induction turns using List.reverseRecOn with
  | nil => exact ⟨.nil, nofun⟩
  | append_singleton turns turn ih =>
      obtain ⟨after, deeds, hmove, hnext⟩ := exists_move (Diary.kept turns) turn
      rw [kept_append_singleton, hnext] at htimely ⊢
      exact (ih htimely.of_append).move hmove htimely

-- A loop whose work and whose store answer as they like. It returns if it was told to stop or the
-- schedule has nothing more for it, and for no other reason. It works once after each token that
-- it acquires, for the occurrence that it has slept for, and never otherwise. However a tick ends,
-- as long as the loop is not told to stop it reads the clock again and sleeps until the next
-- occurrence. And it never asks twice for an occurrence, nor for an earlier one.
theorem loop_endures (turns : List Turn) :
    let diary := Diary.kept turns
    (diary.loop.phase = .ended → .stop ∈ turns ∨ ∃ now, .looked now none ∈ diary.log) ∧
    (∀ before occurrence after, diary.log = before ++ .works occurrence :: after →
      ∃ front now, before =
        front ++ [.sleeps occurrence, .asks occurrence now, .answered occurrence (some .acquired)]) ∧
    (∀ before occurrence after,
      diary.log = before ++ .answered occurrence (some .acquired) :: after →
        ∃ rest, after = .works occurrence :: rest) ∧
    (∀ before occurrence now after, diary.log = before ++ .asks occurrence now :: after →
      ∃ front reading,
        before = front ++ [.looked reading (some occurrence), .sleeps occurrence]) ∧
    (.stop ∉ turns → ∀ before deed after, deed.LeavesIdle → diary.log = before ++ deed :: after →
      (∃ now next rest, after = .looked now next :: next.elim .returns .sleeps :: rest) ∨
        after = [] ∧ ∀ now next, (diary.turn (.look now next)).log =
          diary.log ++ [.looked now next, next.elim .returns .sleeps]) ∧
    (Timely diary.log →
      (attempts diary.log).Pairwise fun earlier later => earlier.before later = true) := by
  intro diary
  have h : Sound turns diary := sound_kept turns
  refine ⟨?returns, ?worked, ?works, ?asks, ?goesOn, fun htimely => (ascends_kept htimely).ordered⟩
  case returns =>
    intro hended
    obtain ⟨front, deed, hlog, hfollows⟩ := h.last
    rw [hended] at hfollows
    obtain rfl : deed = .returns := hfollows
    obtain ⟨before, prior, rfl, hleads⟩ := h.exists_prior hlog nofun
    cases hleads with
    | @exhausted now => exact Or.inr ⟨now, by simp [hlog]⟩
    | interrupted hstop => exact Or.inl hstop
    | returns hstop _ => exact Or.inl hstop
  case worked =>
    intro before occurrence after hlog
    obtain ⟨before, answer, rfl, hleads⟩ := h.exists_prior hlog nofun
    cases hleads
    rw [List.append_assoc] at hlog
    obtain ⟨before, asking, rfl, hleads⟩ := h.exists_prior hlog nofun
    cases hleads with
    | @hears _ now =>
        rw [List.append_assoc] at hlog
        obtain ⟨before, sleep, rfl, hleads⟩ := h.exists_prior hlog nofun
        cases hleads
        exact ⟨before, now, by simp⟩
  case works =>
    intro before occurrence after hlog
    rcases h.exists_next hlog with ⟨-, hfollows⟩ | ⟨next, rest, rfl, hleads⟩
    · exact absurd hfollows (Phase.not_follows_acquired _ _)
    · cases hleads with
      | looks hidle => exact absurd rfl hidle
      | works => exact ⟨rest, rfl⟩
      | returns _ hidle => exact absurd rfl hidle
  case asks =>
    intro before occurrence now after hlog
    obtain ⟨before, sleep, rfl, hleads⟩ := h.exists_prior hlog nofun
    cases hleads
    rw [List.append_assoc] at hlog
    obtain ⟨before, look, rfl, hleads⟩ := h.exists_prior hlog nofun
    cases hleads with
    | @sleeps reading => exact ⟨before, reading, by simp⟩
  case goesOn =>
    intro hstop before deed after hidle hlog
    rcases h.exists_next hlog with ⟨rfl, hfollows⟩ | ⟨next, rest, rfl, hleads⟩
    · have hloop : diary.loop = ⟨.idle, false⟩ := by
        have htold : diary.loop.told = false := by
          rw [← Bool.not_eq_true, h.told]
          exact hstop
        rw [← Phase.eq_idle_of_leavesIdle hfollows hidle, ← htold]
      refine Or.inr ⟨rfl, fun now next => ?_⟩
      rw [Diary.turn, hloop]
      cases next <;> rfl
    · cases hleads with
      | @looks _ now next =>
          refine Or.inl ⟨now, next, ?_⟩
          rw [List.append_cons] at hlog
          rcases h.exists_next hlog with ⟨-, hfollows⟩ | ⟨second, rest, rfl, hleads⟩
          · exact absurd hfollows (Phase.not_follows_looked _ _ _)
          · cases hleads with
            | exhausted => exact ⟨rest, rfl⟩
            | sleeps => exact ⟨rest, rfl⟩
            | looks hidle => cases hidle
            | returns _ hidle => cases hidle
      | returns hstopped _ => exact absurd hstopped hstop
      | interrupted hstopped => exact absurd hstopped hstop
      | works => exact absurd rfl hidle
      | _ => cases hidle

-- A store that fails, a piece of work that is called off for no reason, and a token that is taken.
theorem loop_endures_three :
    let turns : List Turn := [.look ⟨0, 0⟩ (some ⟨10, 0⟩), .woke ⟨10, 0⟩, .answered none,
      .look ⟨11, 0⟩ (some ⟨20, 0⟩), .woke ⟨20, 5⟩, .answered (some .acquired),
      .finished (some .cancelled), .look ⟨21, 0⟩ (some ⟨30, 0⟩), .woke ⟨30, 0⟩,
      .answered (some .alreadyClaimed)]
    let diary := Diary.kept turns
    attempts diary.log = [⟨10, 0⟩, ⟨20, 0⟩, ⟨30, 0⟩] ∧
      ((attempts diary.log).Pairwise fun earlier later => earlier.before later = true) ∧
      diary.loop.phase ≠ .ended ∧
      ∀ now next, (diary.turn (.look now next)).log =
        diary.log ++ [.looked now next, next.elim .returns .sleeps] := by
  intro turns diary
  let before : List Deed := [.starts, .looked ⟨0, 0⟩ (some ⟨10, 0⟩), .sleeps ⟨10, 0⟩,
    .asks ⟨10, 0⟩ ⟨10, 0⟩, .answered ⟨10, 0⟩ none,
    .looked ⟨11, 0⟩ (some ⟨20, 0⟩), .sleeps ⟨20, 0⟩, .asks ⟨20, 0⟩ ⟨20, 5⟩,
    .answered ⟨20, 0⟩ (some .acquired), .works ⟨20, 0⟩, .finished ⟨20, 0⟩ (some .cancelled),
    .looked ⟨21, 0⟩ (some ⟨30, 0⟩), .sleeps ⟨30, 0⟩, .asks ⟨30, 0⟩ ⟨30, 0⟩]
  have hlog : diary.log = before ++ [.answered ⟨30, 0⟩ (some .alreadyClaimed)] := rfl
  have htimely : Timely diary.log := by
    rw [hlog]
    constructor
    · decide
    · intro now occurrence hmem
      have hlooks : now = ⟨0, 0⟩ ∧ occurrence = ⟨10, 0⟩ ∨ now = ⟨11, 0⟩ ∧ occurrence = ⟨20, 0⟩ ∨
          now = ⟨21, 0⟩ ∧ occurrence = ⟨30, 0⟩ := by simpa [before] using hmem
      rcases hlooks with ⟨rfl, rfl⟩ | ⟨rfl, rfl⟩ | ⟨rfl, rfl⟩ <;> decide
    · intro occurrence now hmem
      have hasks : occurrence = ⟨10, 0⟩ ∧ now = ⟨10, 0⟩ ∨ occurrence = ⟨20, 0⟩ ∧ now = ⟨20, 5⟩ ∨
          occurrence = ⟨30, 0⟩ ∧ now = ⟨30, 0⟩ := by simpa [before] using hmem
      rcases hasks with ⟨rfl, rfl⟩ | ⟨rfl, rfl⟩ | ⟨rfl, rfl⟩ <;> decide
  have hstop : .stop ∉ turns := by simp [turns]
  obtain ⟨hreturns, -, -, -, hgoesOn, hordered⟩ := loop_endures turns
  refine ⟨rfl, hordered htimely, fun hended => ?_, ?_⟩
  · rcases hreturns hended with hstopped | ⟨now, hnone⟩
    · exact hstop hstopped
    · simp [diary, hlog, before] at hnone
  · have hskipped : (Deed.answered ⟨30, 0⟩ (some .alreadyClaimed)).LeavesIdle := by
      simp [Deed.LeavesIdle]
    rcases hgoesOn hstop before _ [] hskipped hlog with ⟨now, next, rest, hmore⟩ | ⟨-, hnext⟩
    · cases hmore
    · exact hnext

end DeclarationWatch.Schedule
