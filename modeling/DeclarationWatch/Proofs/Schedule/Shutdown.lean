import DeclarationWatch.Proofs.Schedule.Endurance

namespace DeclarationWatch.Schedule

-- What a loop that has been told to stop still does, by where it stands. It is never asleep.
inductive Winds : Phase → List Deed → Prop where
  | rests {phase} : Winds phase []
  | returns : Winds .idle [.returns]
  | skips {occurrence claim rest} (h : claim ≠ some .acquired) (hrest : Winds .idle rest) :
      Winds (.claiming occurrence) (.answered occurrence claim :: rest)
  | works {occurrence rest} (hrest : Winds (.running occurrence) rest) :
      Winds (.claiming occurrence)
        (.answered occurrence (some .acquired) :: .works occurrence :: rest)
  | finishes {occurrence failure rest} (hrest : Winds .idle rest) :
      Winds (.running occurrence) (.finished occurrence failure :: rest)

theorem Winds.eq_nil_of_ended {rest : List Deed} (h : Winds .ended rest) : rest = [] := by
  cases h
  rfl

section Move

variable {phase : Phase} {turn : Turn} {after : Loop} {deeds : List Deed}
  (hawake : ∀ occurrence, phase ≠ .sleeping occurrence) (hmove : Move ⟨phase, true⟩ turn after deeds)

include hawake hmove

theorem Move.told_awake :
    after.told = true ∧ ∀ occurrence, after.phase ≠ .sleeping occurrence := by
  cases hmove with
  | ignored => exact ⟨rfl, hawake⟩
  | told => exact ⟨rfl, hawake⟩
  | interrupted => exact absurd rfl (hawake _)
  | wakes => exact absurd rfl (hawake _)
  | _ => exact ⟨rfl, nofun⟩

theorem Move.winds {rest : List Deed} (hrest : Winds after.phase rest) :
    Winds phase (deeds ++ rest) := by
  cases hmove with
  | ignored => exact hrest
  | told => exact hrest
  | interrupted => exact absurd rfl (hawake _)
  | wakes => exact absurd rfl (hawake _)
  | returns =>
      rw [hrest.eq_nil_of_ended]
      exact .returns
  | works => exact .works hrest
  | skips hclaim => exact .skips hclaim hrest
  | cancelled =>
      rw [hrest.eq_nil_of_ended]
      exact .finishes .returns
  | finishes => exact .finishes hrest

end Move

-- Whatever a loop meets once it has been told, it only winds down. By induction on the turns, each
-- of which leaves it told and awake.
theorem exists_winds (turns : List Turn) (phase : Phase) (log : List Deed)
    (hawake : ∀ occurrence, phase ≠ .sleeping occurrence) :
    ∃ rest, Winds phase rest ∧
      (turns.foldl Diary.turn ⟨⟨phase, true⟩, log⟩).log = log ++ rest := by
  induction turns generalizing phase log with
  | nil => exact ⟨[], .rests, by simp⟩
  | cons turn turns ih =>
      obtain ⟨after, deeds, hmove, hnext⟩ := exists_move ⟨⟨phase, true⟩, log⟩ turn
      obtain ⟨htold, hstill⟩ := hmove.told_awake hawake
      obtain ⟨rest, hrest, hlog⟩ := ih after.phase (log ++ deeds) hstill
      have hafter : after = ⟨after.phase, true⟩ := by rw [← htold]
      refine ⟨deeds ++ rest, hmove.winds hawake hrest, ?_⟩
      rw [List.foldl_cons, hnext, hafter, hlog, List.append_assoc]

-- The occurrences for which a loop starts to work, in order.
def workings (log : List Deed) : List Time.Instant :=
  log.filterMap fun
    | .works occurrence => some occurrence
    | _ => none

theorem Winds.workings_of_idle {rest : List Deed} (h : Winds .idle rest) : workings rest = [] := by
  cases h <;> rfl

theorem Winds.workings_of_running {occurrence : Time.Instant} {rest : List Deed}
    (h : Winds (.running occurrence) rest) : workings rest = [] := by
  cases h with
  | rests => rfl
  | finishes hrest => exact hrest.workings_of_idle

theorem Winds.workings_eq {phase : Phase} {rest : List Deed} (h : Winds phase rest) :
    workings rest = [] ∨ ∃ occurrence, phase = .claiming occurrence ∧
      .answered occurrence (some .acquired) ∈ rest ∧ workings rest = [occurrence] := by
  cases h with
  | rests => exact Or.inl rfl
  | returns => exact Or.inl rfl
  | skips hclaim hrest => exact Or.inl hrest.workings_of_idle
  | works hrest =>
      exact Or.inr ⟨_, rfl, List.mem_cons_self, congrArg _ hrest.workings_of_running⟩
  | finishes hrest => exact Or.inl hrest.workings_of_idle

theorem Winds.readings_eq_nil {phase : Phase} {rest : List Deed} (h : Winds phase rest) :
    readings rest = [] := by
  induction h with
  | rests => rfl
  | returns => rfl
  | skips _ _ ih => exact ih
  | works _ ih => exact ih
  | finishes _ ih => exact ih

theorem Winds.attempts_eq_nil {phase : Phase} {rest : List Deed} (h : Winds phase rest) :
    attempts rest = [] := by
  induction h with
  | rests => rfl
  | returns => rfl
  | skips _ _ ih => exact ih
  | works _ ih => exact ih
  | finishes _ ih => exact ih

theorem Diary.turn_stop_of_sleeping {diary : Diary} {occurrence : Time.Instant}
    (h : diary.loop.phase = .sleeping occurrence) :
    diary.turn .stop = ⟨⟨.ended, true⟩, diary.log ++ [.returns]⟩ := by
  obtain ⟨⟨phase, told⟩, log⟩ := diary
  obtain rfl : phase = .sleeping occurrence := h
  rfl

theorem Diary.turn_stop_of_awake {diary : Diary}
    (h : ∀ occurrence, diary.loop.phase ≠ .sleeping occurrence) :
    diary.turn .stop = ⟨⟨diary.loop.phase, true⟩, diary.log⟩ := by
  obtain ⟨⟨phase, told⟩, log⟩ := diary
  cases phase with
  | sleeping occurrence => exact absurd rfl (h occurrence)
  | _ => simp [turn, Turn.event, Loop.step, Loop.hears]

-- A loop that is told to stop ends its sleep, looks at no clock and asks for no token any more. It
-- starts to work at most once, and only if it was told while it asked for the token of that
-- occurrence, and has got it.
theorem stopped_loop_winds_down (before after : List Turn) :
    let diary := Diary.kept before
    ∃ rest, (Diary.kept (before ++ .stop :: after)).log = diary.log ++ rest ∧
      ((∃ occurrence, diary.loop.phase = .sleeping occurrence) → rest = [.returns]) ∧
      readings rest = [] ∧ attempts rest = [] ∧
      (workings rest = [] ∨ ∃ occurrence, diary.loop.phase = .claiming occurrence ∧
        .answered occurrence (some .acquired) ∈ rest ∧ workings rest = [occurrence]) := by
  intro diary
  have hkept : Diary.kept (before ++ .stop :: after) =
      after.foldl Diary.turn (diary.turn .stop) := by
    simp [Diary.kept, diary]
  rw [hkept]
  by_cases hsleeping : ∃ occurrence, diary.loop.phase = .sleeping occurrence
  · obtain ⟨occurrence, hphase⟩ := hsleeping
    rw [Diary.turn_stop_of_sleeping hphase]
    obtain ⟨rest, hrest, hlog⟩ := exists_winds after .ended (diary.log ++ [.returns]) (by simp)
    rw [hrest.eq_nil_of_ended, List.append_nil] at hlog
    exact ⟨[.returns], hlog, fun _ => rfl, rfl, rfl, Or.inl rfl⟩
  · have hawake := not_exists.mp hsleeping
    rw [Diary.turn_stop_of_awake hawake]
    obtain ⟨rest, hrest, hlog⟩ := exists_winds after diary.loop.phase diary.log hawake
    exact ⟨rest, hlog, fun hphase => absurd hphase hsleeping, hrest.readings_eq_nil,
      hrest.attempts_eq_nil, hrest.workings_eq⟩

-- Such a loop does start to work.
theorem works_after_stop {before : List Turn} {occurrence : Time.Instant}
    (hclaiming : (Diary.kept before).loop.phase = .claiming occurrence) :
    (Diary.kept (before ++ [.stop, .answered (some .acquired)])).log =
      (Diary.kept before).log ++ [.answered occurrence (some .acquired), .works occurrence] := by
  have hkept : Diary.kept (before ++ [.stop, .answered (some .acquired)]) =
      ((Diary.kept before).turn .stop).turn (.answered (some .acquired)) := by
    simp [Diary.kept]
  rw [hkept, Diary.turn_stop_of_awake (by simp [hclaiming]), hclaiming]
  rfl

end DeclarationWatch.Schedule
