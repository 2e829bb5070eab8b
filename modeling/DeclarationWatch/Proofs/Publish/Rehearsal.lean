import DeclarationWatch.Proofs.Publish.Alone
import DeclarationWatch.Rehearsal.Publication
import Mathlib.Logic.Relation

namespace DeclarationWatch.Publish

namespace ChunkState

-- How many moments there can still be at which a chunk has something to do. A chunk that wakes up
-- sends at the same moment.
def moments (config : Config) : ChunkState → Nat
  | .ready attempt _ => 2 * (config.attempts + 1 - attempt) + 2
  | .waiting attempt _ => 2 * (config.attempts + 1 - attempt) + 1
  | .backoff attempt _ => 2 * (config.attempts - attempt) + 2
  | .settled _ => 0

variable {config : Config} {attempt : Nat} {pending : List Entry} {answer : Answer}

theorem moments_receive (config : Config) (attempt : Nat) (pending : List Entry)
    (answer : Answer) :
    (receive config attempt pending answer).moments config <
      (waiting attempt pending).moments config := by
  rcases receive_cases config attempt pending answer with
    ⟨-, hdone | hafter⟩ | ⟨-, hcancelled⟩ | ⟨failure, -, -, hfailed⟩
  · simp [hdone, moments]
  · rw [hafter]
    rcases afterAttempt_cases config attempt (pending.filter (asksAgain answer)) with
      ⟨hmore, hrests⟩ | ⟨-, hspent⟩
    · simp only [hrests, moments]
      omega
    · simp [hspent, moments]
  · simp [hcancelled, moments]
  · simp [hfailed, moments]

theorem receive_ne_waiting {other : Nat} {entries : List Entry} :
    receive config attempt pending answer ≠ .waiting other entries := by
  intro hwaiting
  rcases receive_cases config attempt pending answer with
    ⟨-, hdone | hafter⟩ | ⟨-, hcancelled⟩ | ⟨failure, -, -, hfailed⟩
  · cases hdone.symm.trans hwaiting
  · rcases afterAttempt_cases config attempt (pending.filter (asksAgain answer)) with
      ⟨-, hrests⟩ | ⟨-, hspent⟩
    · cases (hafter.trans hrests).symm.trans hwaiting
    · cases (hafter.trans hspent).symm.trans hwaiting
  · cases hcancelled.symm.trans hwaiting
  · cases hfailed.symm.trans hwaiting

end ChunkState

namespace Dispatch

-- The requests on the way from one place of a publication to another.
inductive Leads (config : Config) : Dispatch → List (List Entry) → Dispatch → Prop
  | refl (dispatch : Dispatch) : Leads config dispatch [] dispatch
  | step {dispatch last : Dispatch} {next : Move} {sent : List (List Entry)}
      (allowed : dispatch.Allows next) (rest : Leads config (dispatch.move config next) sent last) :
      Leads config dispatch ((dispatch.sent? next).toList ++ sent) last

variable {config : Config} {first second third : Dispatch} {sent more : List (List Entry)}

theorem Leads.single {next : Move} (hallowed : first.Allows next) :
    Leads config first (first.sent? next).toList (first.move config next) := by
  simpa using Leads.step hallowed (.refl _)

theorem Leads.trans (h : Leads config first sent second) (hmore : Leads config second more third) :
    Leads config first (sent ++ more) third := by
  induction h with
  | refl dispatch => exact hmore
  | step hallowed _ ih =>
      rw [List.append_assoc]
      exact .step hallowed (ih hmore)

theorem Leads.exists_moves (h : Leads config first sent second) :
    ∃ moves, first.Possible config moves ∧ first.after config moves = second ∧
      first.seen config sent? moves = sent := by
  induction h with
  | refl dispatch => exact ⟨[], possible_nil config dispatch, rfl, rfl⟩
  | @step dispatch last next sent hallowed _ ih =>
      obtain ⟨moves, hpossible, hafter, hsent⟩ := ih
      refine ⟨next :: moves, (possible_cons config dispatch next moves).mpr ⟨hallowed, hpossible⟩,
        hafter, ?_⟩
      rw [seen, hsent]

-- Where the publication has not been called off in the end, nobody has done it on the way.
theorem isOwn_of_running {moves : List Move} (hpossible : first.Possible config moves)
    (hrunning : (first.after config moves).calledOff = false) :
    ∀ move ∈ moves, move.isOwn = true := by
  intro next hmem
  obtain ⟨before, later, rfl⟩ := List.append_of_mem hmem
  rw [← Bool.not_eq_true, calledOff_after_iff] at hrunning
  cases next with
  | callOff => exact absurd (Or.inr hmem) hrunning
  | chunk index event =>
      refine Move.isOwn_chunk_iff.mpr ?_
      rintro rfl
      have hoff : (first.after config before).calledOff = true := hpossible before _ later rfl
      rw [calledOff_after_iff] at hoff
      exact hrunning (hoff.imp_right (List.mem_append_left _))

end Dispatch

end DeclarationWatch.Publish

namespace DeclarationWatch.Rehearsal

open Publish

variable {ω : Type}

-- The chunks of a rehearsal, as those of a publication.
def Scene.dispatch (scene : Scene ω) (tracks : List Track) : Dispatch :=
  ⟨tracks.map (·.state), scene.cancelled⟩

-- The answer that a chunk waits for is on its way, and a chunk has no more to do than in the
-- beginning.
structure Track.Sound (config : Config) (track : Track) : Prop where
  replied : ∀ attempt pending, track.state = .waiting attempt pending →
    ∃ reply, track.reply = some reply
  bounded : track.state.remaining config ≤ 3 * config.attempts + 2

-- The chunk has nothing to do at this moment.
def Idle (place : Scene ω × Track) : Prop :=
  match place.2.state with
  | .ready _ _ => False
  | .settled _ => True
  | _ => place.1.cancelled = false ∧ place.1.now < place.2.due

-- All that a chunk can do at one moment.
inductive Turn (config : Config) (respond : Respondent ω) :
    Scene ω × Track → Scene ω × Track → Prop
  | breakOff {scene : Scene ω} {track : Track} (cancelled : scene.cancelled = true)
      (unsettled : track.isSettled = false) :
      Turn config respond (scene, track)
        (scene, { track with state := track.state.step config .cancel })
  | send {scene : Scene ω} {attempt : Nat} {pending : List Entry} {due : Nat}
      {reply : Option (Reaction × Answer)} {reaction : Reaction} {answer : Answer} {world : ω}
      (running : scene.cancelled = false)
      (given : respond scene.now pending scene.world = (reaction, answer, world)) :
      Turn config respond (scene, ⟨.ready attempt pending, due, reply⟩)
        ({ scene with world }, ⟨.waiting attempt pending, scene.now + reaction.delayMillis,
          some (reaction, answer)⟩)
  | deliver {scene : Scene ω} {attempt : Nat} {pending : List Entry} {due : Nat}
      {reaction : Reaction} {answer : Answer} (arrived : due ≤ scene.now) :
      Turn config respond (scene, ⟨.waiting attempt pending, due, some (reaction, answer)⟩)
        (deliver config scene ⟨.waiting attempt pending, due, some (reaction, answer)⟩ reaction
          answer)
  | wake {scene : Scene ω} {attempt : Nat} {pending : List Entry} {due : Nat}
      {reply : Option (Reaction × Answer)} (rested : due ≤ scene.now) :
      Turn config respond (scene, ⟨.backoff attempt pending, due, reply⟩)
        (scene, ⟨.ready (attempt + 1) pending, due, reply⟩)

variable {config : Config} {respond : Respondent ω} {place next : Scene ω × Track}

namespace Turn

theorem now_eq (h : Turn config respond place next) : next.1.now = place.1.now := by
  cases h <;> rfl

theorem cancelled (h : Turn config respond place next) (hcancelled : place.1.cancelled = true) :
    next.1.cancelled = true := by
  cases h with
  | deliver _ => exact Bool.or_eq_true_iff.mpr (Or.inl hcancelled)
  | _ => exact hcancelled

theorem remaining_lt (h : Turn config respond place next) :
    next.2.state.remaining config < place.2.state.remaining config := by
  cases h with
  | @breakOff scene track _ hopen =>
      obtain ⟨state, due, reply⟩ := track
      cases state with
      | settled result => cases hopen
      | _ => simp [ChunkState.step, ChunkState.remaining]
  | send _ _ => simp [ChunkState.remaining]
  | @deliver scene attempt pending due reaction answer _ =>
      exact ChunkState.remaining_receive config attempt pending answer
  | wake _ =>
      simp only [ChunkState.remaining]
      omega

theorem sound (h : Turn config respond place next) (hsound : place.2.Sound config) :
    next.2.Sound config := by
  refine ⟨?_, (Nat.le_of_lt h.remaining_lt).trans hsound.bounded⟩
  cases h with
  | @breakOff scene track _ hopen =>
      intro attempt pending hwaiting
      obtain ⟨state, due, reply⟩ := track
      cases state <;> cases hwaiting
  | send _ _ => exact fun _ _ _ => ⟨_, rfl⟩
  | deliver _ => exact fun _ _ hwaiting => absurd hwaiting ChunkState.receive_ne_waiting
  | wake _ => exact fun _ _ hwaiting => by cases hwaiting

-- A chunk that has woken up is not idle yet. All else brings it closer to its end.
theorem moments_lt (h : Turn config respond place next) :
    next.2.state.moments config < place.2.state.moments config ∨
      next.2.state.moments config = place.2.state.moments config ∧ ¬Idle next := by
  cases h with
  | @breakOff scene track _ hopen =>
      refine Or.inl ?_
      obtain ⟨state, due, reply⟩ := track
      cases state with
      | settled result => cases hopen
      | _ => simp [ChunkState.step, ChunkState.moments]
  | send _ _ => exact Or.inl (by simp [ChunkState.moments])
  | @deliver scene attempt pending due reaction answer _ =>
      exact Or.inl (ChunkState.moments_receive config attempt pending answer)
  | wake _ =>
      refine Or.inr ⟨?_, id⟩
      simp only [ChunkState.moments]
      omega

end Turn

theorem advance_of_idle {scene : Scene ω} {track : Track} (h : Idle (scene, track)) (fuel : Nat) :
    track.advance config respond fuel scene = (scene, track) := by
  obtain ⟨state, due, reply⟩ := track
  cases fuel with
  | zero => rfl
  | succ fuel =>
      cases state with
      | settled result => rfl
      | ready attempt pending => exact absurd h id
      | waiting attempt pending =>
          obtain ⟨hrunning, hearly⟩ : scene.cancelled = false ∧ scene.now < due := h
          cases reply with
          | none => simp [Track.advance, hrunning]
          | some reply => simp [Track.advance, hrunning, hearly]
      | backoff attempt pending =>
          obtain ⟨hrunning, hearly⟩ : scene.cancelled = false ∧ scene.now < due := h
          simp [Track.advance, hrunning, hearly]

-- A chunk that is not idle takes a turn or two, and goes on from there.
theorem exists_turns_advance {scene : Scene ω} {track : Track} (hsound : track.Sound config)
    (hbusy : ¬Idle (scene, track)) (fuel : Nat) :
    ∃ next, Relation.TransGen (Turn config respond) (scene, track) next ∧
      track.advance config respond (fuel + 1) scene =
        next.2.advance config respond fuel next.1 := by
  obtain ⟨state, due, reply⟩ := track
  cases hcancelled : scene.cancelled with
  | true =>
      have hover : Idle (scene, (⟨.settled .cancelled, due, reply⟩ : Track)) := trivial
      cases state with
      | settled result => exact absurd trivial hbusy
      | _ =>
          refine ⟨_, .single (.breakOff hcancelled rfl), ?_⟩
          refine Eq.trans ?_ (advance_of_idle hover fuel).symm
          simp [Track.advance, hcancelled, ChunkState.step]
  | false =>
      cases state with
      | settled result => exact absurd trivial hbusy
      | ready attempt pending =>
          rcases hgiven : respond scene.now pending scene.world with ⟨reaction, answer, world⟩
          have hsend := @Turn.send ω config respond scene attempt pending due reply reaction answer
            world hcancelled hgiven
          -- An answer without a delay comes back at once, and the chunk goes on from there.
          by_cases hdelay : reaction.delayMillis = 0
          · refine ⟨_, (Relation.TransGen.single hsend).tail (.deliver ?_), ?_⟩
            · simp [hdelay]
            · simp [Track.advance, hcancelled, hgiven, hdelay, ChunkState.step]
          · refine ⟨_, .single hsend, ?_⟩
            have hrests : Idle (({ scene with world } : Scene ω),
                (⟨.waiting attempt pending, scene.now + reaction.delayMillis,
                  some (reaction, answer)⟩ : Track)) :=
              ⟨hcancelled, Nat.lt_add_of_pos_right (Nat.pos_of_ne_zero hdelay)⟩
            refine Eq.trans ?_ (advance_of_idle hrests fuel).symm
            simp [Track.advance, hcancelled, hgiven, hdelay, ChunkState.step]
      | waiting attempt pending =>
          obtain ⟨⟨reaction, answer⟩, rfl⟩ := hsound.replied attempt pending rfl
          have harrived : due ≤ scene.now :=
            Nat.le_of_not_lt fun hearly => hbusy ⟨hcancelled, hearly⟩
          refine ⟨_, .single (.deliver harrived), ?_⟩
          simp [Track.advance, hcancelled, Nat.not_lt_of_le harrived]
      | backoff attempt pending =>
          have hrested : due ≤ scene.now :=
            Nat.le_of_not_lt fun hearly => hbusy ⟨hcancelled, hearly⟩
          refine ⟨_, .single (.wake hrested), ?_⟩
          simp [Track.advance, hcancelled, Nat.not_lt_of_le hrested, ChunkState.step]

section Turns

open Relation (ReflTransGen TransGen)

theorem now_eq_of_turns (h : ReflTransGen (Turn config respond) place next) :
    next.1.now = place.1.now := by
  induction h with
  | refl => rfl
  | tail _ hlast ih => exact hlast.now_eq.trans ih

theorem cancelled_of_turns (h : ReflTransGen (Turn config respond) place next)
    (hcancelled : place.1.cancelled = true) : next.1.cancelled = true := by
  induction h with
  | refl => exact hcancelled
  | tail _ hlast ih => exact hlast.cancelled ih

theorem sound_of_turns (h : ReflTransGen (Turn config respond) place next)
    (hsound : place.2.Sound config) : next.2.Sound config := by
  induction h with
  | refl => exact hsound
  | tail _ hlast ih => exact hlast.sound ih

theorem remaining_lt_of_turns (h : TransGen (Turn config respond) place next) :
    next.2.state.remaining config < place.2.state.remaining config := by
  induction h with
  | single hturn => exact hturn.remaining_lt
  | tail _ hlast ih => exact hlast.remaining_lt.trans ih

theorem moments_le_of_turns (h : ReflTransGen (Turn config respond) place next) :
    next.2.state.moments config ≤ place.2.state.moments config := by
  induction h with
  | refl => exact Nat.le_refl _
  | tail _ hlast ih =>
      rcases hlast.moments_lt with hless | ⟨hsame, -⟩
      · exact (Nat.le_of_lt hless).trans ih
      · exact hsame.le.trans ih

-- A chunk that comes to rest is closer to its end.
theorem moments_lt_of_turns (h : ReflTransGen (Turn config respond) place next)
    (hbusy : ¬Idle place) (hidle : Idle next) :
    next.2.state.moments config < place.2.state.moments config := by
  -- From the first turn on: one that lowers nothing is a waking, which leaves the chunk busy.
  induction h using ReflTransGen.head_induction_on with
  | refl => exact absurd hidle hbusy
  | head hfirst hrest ih =>
      rcases hfirst.moments_lt with hless | ⟨hsame, hstill⟩
      · exact (moments_le_of_turns hrest).trans_lt hless
      · exact hsame ▸ ih hstill

-- The fuel of a chunk lasts until it comes to rest.
theorem turns_advance {fuel : Nat} {scene : Scene ω} {track : Track}
    (hfuel : track.state.remaining config < fuel) (hsound : track.Sound config) :
    ReflTransGen (Turn config respond) (scene, track)
        (track.advance config respond fuel scene) ∧
      Idle (track.advance config respond fuel scene) := by
  induction fuel generalizing scene track with
  | zero => exact absurd hfuel (Nat.not_lt_zero _)
  | succ fuel ih =>
      by_cases hidle : Idle (scene, track)
      · rw [advance_of_idle hidle]
        exact ⟨.refl, hidle⟩
      · obtain ⟨next, hturns, hnext⟩ := @exists_turns_advance _ config respond _ _ hsound hidle fuel
        have hless : next.2.state.remaining config < track.state.remaining config :=
          remaining_lt_of_turns hturns
        obtain ⟨hrest, hlast⟩ :=
          @ih next.1 next.2 (by omega) (sound_of_turns hturns.to_reflTransGen hsound)
        rw [hnext]
        exact ⟨hturns.to_reflTransGen.trans hrest, hlast⟩

end Turns

-- Each chunk in its turn goes on until it comes to rest.
inductive Sweep (config : Config) (respond : Respondent ω) :
    Scene ω × List Track → Scene ω × List Track → Prop
  | nil (scene : Scene ω) : Sweep config respond (scene, []) (scene, [])
  | cons {scene : Scene ω} {track : Track} {next : Scene ω × Track} {rest : List Track}
      {last : Scene ω × List Track}
      (turns : Relation.ReflTransGen (Turn config respond) (scene, track) next) (idle : Idle next)
      (others : Sweep config respond (next.1, rest) last) :
      Sweep config respond (scene, track :: rest) (last.1, next.2 :: last.2)

def moments (config : Config) (tracks : List Track) : Nat :=
  tracks.foldr (fun track rest => track.state.moments config + rest) 0

variable {first last : Scene ω × List Track}

theorem sweep_pass {scene : Scene ω} {tracks : List Track}
    (hsound : ∀ track ∈ tracks, track.Sound config) :
    Sweep config respond (scene, tracks) (pass config respond scene tracks) := by
  induction tracks generalizing scene with
  | nil => exact .nil scene
  | cons track rest ih =>
      obtain ⟨htrack, hrest⟩ := List.forall_mem_cons.mp hsound
      obtain ⟨hturns, hidle⟩ := @turns_advance _ config respond (3 * config.attempts + 3) scene
        track (Nat.lt_succ_of_le htrack.bounded) htrack
      exact .cons hturns hidle (ih hrest)

namespace Sweep

theorem sound (h : Sweep config respond first last)
    (hsound : ∀ track ∈ first.2, track.Sound config) : ∀ track ∈ last.2, track.Sound config := by
  induction h with
  | nil scene => exact hsound
  | cons hturns _ _ ih =>
      obtain ⟨htrack, hrest⟩ := List.forall_mem_cons.mp hsound
      exact List.forall_mem_cons.mpr ⟨sound_of_turns hturns htrack, ih hrest⟩

theorem moments_le (h : Sweep config respond first last) :
    moments config last.2 ≤ moments config first.2 := by
  induction h with
  | nil scene => exact Nat.le_refl _
  | cons hturns _ _ ih =>
      have htrack := moments_le_of_turns hturns
      simp only [moments, List.foldr_cons] at ih htrack ⊢
      omega

theorem idle_of_turns {scene : Scene ω} {track other : Track} {next : Scene ω × Track}
    (h : Relation.ReflTransGen (Turn config respond) (scene, track) next)
    (hidle : Idle (next.1, other)) : Idle (scene, other) := by
  obtain ⟨state, due, reply⟩ := other
  have hrunning : next.1.cancelled = false → scene.cancelled = false := by
    intro hrunning
    cases hcancelled : scene.cancelled with
    | false => rfl
    | true => cases (cancelled_of_turns h hcancelled).symm.trans hrunning
  have hnow : next.1.now = scene.now := now_eq_of_turns h
  cases state with
  | settled result => trivial
  | ready attempt pending => exact hidle
  | waiting attempt pending => exact ⟨hrunning hidle.1, hnow ▸ hidle.2⟩
  | backoff attempt pending => exact ⟨hrunning hidle.1, hnow ▸ hidle.2⟩

-- A chunk that has something to do brings the publication closer to its end.
theorem moments_lt (h : Sweep config respond first last) {track : Track}
    (hmem : track ∈ first.2) (hbusy : ¬Idle (first.1, track)) :
    moments config last.2 < moments config first.2 := by
  induction h with
  | nil scene => cases hmem
  | @cons scene head next rest last hturns hidle hothers ih =>
      have hhead := moments_le_of_turns hturns
      have hrest := hothers.moments_le
      rcases List.mem_cons.mp hmem with rfl | hmem
      · have hless := moments_lt_of_turns hturns hbusy hidle
        simp only [moments, List.foldr_cons] at hrest hless ⊢
        omega
      -- The turns of the head leave the other chunks as busy as they were.
      · have hless := ih hmem (mt (idle_of_turns hturns) hbusy)
        simp only [moments, List.foldr_cons] at hless hhead ⊢
        omega

end Sweep

-- What can happen in a rehearsal: a sweep, some time that passes, an interruption.
inductive Happening (config : Config) (respond : Respondent ω) :
    Scene ω × List Track → Scene ω × List Track → Prop
  | sweep {first last : Scene ω × List Track} (swept : Sweep config respond first last) :
      Happening config respond first last
  | pause (scene : Scene ω) (tracks : List Track) (now : Nat) :
      Happening config respond (scene, tracks) ({ scene with now }, tracks)
  | interruption (scene : Scene ω) (tracks : List Track) (now : Nat) :
      Happening config respond (scene, tracks) ({ scene with now, cancelled := true }, tracks)

section Playing

open Relation (ReflTransGen)

theorem happenings_settle {scene : Scene ω} {tracks : List Track}
    (hsound : ∀ track ∈ tracks, track.Sound config) :
    ReflTransGen (Happening config respond) (scene, tracks) (settle config respond scene tracks) ∧
      (∀ track ∈ (settle config respond scene tracks).2, track.Sound config) ∧
      moments config (settle config respond scene tracks).2 ≤ moments config tracks ∧
      ((∃ track ∈ tracks, ¬Idle (scene, track)) →
        moments config (settle config respond scene tracks).2 < moments config tracks) := by
  have hfirst := @sweep_pass _ config respond scene _ hsound
  have hless : (∃ track ∈ tracks, ¬Idle (scene, track)) →
      moments config (pass config respond scene tracks).2 < moments config tracks :=
    fun ⟨_, hmem, hbusy⟩ => hfirst.moments_lt hmem hbusy
  have hsound' := hfirst.sound hsound
  have hle := hfirst.moments_le
  simp only [settle]
  split
  · have hsecond := @sweep_pass _ config respond (pass config respond scene tracks).1 _ hsound'
    exact ⟨.tail (.single (.sweep hfirst)) (.sweep hsecond), hsecond.sound hsound',
      hsecond.moments_le.trans hle, fun hbusy => hsecond.moments_le.trans_lt (hless hbusy)⟩
  · exact ⟨.single (.sweep hfirst), hsound', hle, hless⟩

theorem earliest_eq_min? (dues : List Nat) : earliest dues = dues.min? := by
  cases dues <;> rfl

theorem not_idle {scene : Scene ω} {track : Track} (hopen : track.isSettled = false)
    (hnow : scene.cancelled = true ∨ track.due ≤ scene.now) : ¬Idle (scene, track) := by
  obtain ⟨state, due, reply⟩ := track
  have hbusy : ¬(scene.cancelled = false ∧ scene.now < due) := by
    rintro ⟨hrunning, hearly⟩
    rcases hnow with hcancelled | hdue
    · cases hcancelled.symm.trans hrunning
    · exact absurd hearly (Nat.not_lt_of_le hdue)
  cases state with
  | settled result => cases hopen
  | ready attempt pending => exact id
  | _ => exact hbusy

-- A rehearsal goes on to a moment at which some chunk has something to do, unless all are settled.
theorem exists_play (interruption : Interruption) (fuel : Nat) (scene : Scene ω)
    (tracks : List Track) :
    (play config respond interruption (fuel + 1) scene tracks =
        settle config respond scene tracks ∧
      ∀ track ∈ (settle config respond scene tracks).2, track.isSettled = true) ∨
    ∃ next, Happening config respond (settle config respond scene tracks)
        (next, (settle config respond scene tracks).2) ∧
      (∃ track ∈ (settle config respond scene tracks).2, ¬Idle (next, track)) ∧
      play config respond interruption (fuel + 1) scene tracks =
        play config respond interruption fuel next (settle config respond scene tracks).2 := by
  rcases hsettled : settle config respond scene tracks with ⟨reached, moved⟩
  simp only [play, hsettled, earliest_eq_min?]
  cases hdue : ((moved.filter (!·.isSettled)).map (·.due)).min? with
  | none =>
      refine Or.inl ⟨rfl, fun track hmem => ?_⟩
      rw [List.min?_eq_none_iff, List.map_eq_nil_iff, List.filter_eq_nil_iff] at hdue
      simpa using hdue track hmem
  | some due =>
      obtain ⟨track, hmem, rfl⟩ := List.mem_map.mp (List.min?_mem hdue)
      obtain ⟨hmem, hopen⟩ := List.mem_filter.mp hmem
      rw [Bool.not_eq_true'] at hopen
      have hpause : Happening config respond (reached, moved)
          ({ reached with now := track.due }, moved) := .pause reached moved track.due
      have hbusy : ∃ other ∈ moved, ¬Idle ({ reached with now := track.due }, other) :=
        ⟨track, hmem, not_idle hopen (Or.inr (Nat.le_refl _))⟩
      cases interruption with
      | after millis =>
          refine Or.inr ?_
          simp only
          split
          · exact ⟨_, .interruption reached moved (max reached.now millis),
              ⟨track, hmem, not_idle hopen (Or.inl rfl)⟩, rfl⟩
          · exact ⟨_, hpause, hbusy, rfl⟩
      | _ => exact Or.inr ⟨_, hpause, hbusy, rfl⟩

-- The fuel of a rehearsal lasts until all its chunks are settled.
theorem happenings_play {interruption : Interruption} {fuel : Nat} {scene : Scene ω}
    {tracks : List Track} (hsound : ∀ track ∈ tracks, track.Sound config)
    (hfuel : moments config tracks + 1 < fuel ∨
      moments config tracks < fuel ∧ ∃ track ∈ tracks, ¬Idle (scene, track)) :
    ReflTransGen (Happening config respond) (scene, tracks)
        (play config respond interruption fuel scene tracks) ∧
      ∀ track ∈ (play config respond interruption fuel scene tracks).2,
        track.isSettled = true := by
  induction fuel generalizing scene tracks with
  | zero => omega
  | succ fuel ih =>
      obtain ⟨hsettle, hsound', hle, hless⟩ :=
        @happenings_settle _ config respond scene _ hsound
      rcases @exists_play _ config respond interruption fuel scene tracks with
        ⟨hplay, hover⟩ | ⟨next, hnext, hbusy, hplay⟩
      · rw [hplay]
        exact ⟨hsettle, hover⟩
      · have hfuel' : moments config (settle config respond scene tracks).2 < fuel := by
          rcases hfuel with hfuel | ⟨hfuel, hsome⟩
          · omega
          · have hstrict := hless hsome
            omega
        obtain ⟨hrest, hover⟩ := @ih next _ hsound' (Or.inr ⟨hfuel', hbusy⟩)
        rw [hplay]
        exact ⟨(hsettle.tail hnext).trans hrest, hover⟩

end Playing

section Following

open Relation (ReflTransGen)

-- The respondent remembers its requests, and the log tells them in their order.
def Respondent.Records (respond : Respondent ω) (log : ω → List (List Entry)) : Prop :=
  ∀ now entries world, log (respond now entries world).2.2 = log world ++ [entries]

-- The chunks move as those of a publication do, and the log has got their requests.
def Follows (config : Config) (log : ω → List (List Entry))
    (first last : Scene ω × List Track) : Prop :=
  ∃ sent, log last.1.world = log first.1.world ++ sent ∧
    Dispatch.Leads config (first.1.dispatch first.2) sent (last.1.dispatch last.2)

variable {log : ω → List (List Entry)} {second : Scene ω × List Track}

theorem Follows.refl (place : Scene ω × List Track) : Follows config log place place :=
  ⟨[], (List.append_nil _).symm, .refl _⟩

theorem Follows.trans (h : Follows config log first second)
    (hlast : Follows config log second last) : Follows config log first last := by
  obtain ⟨sent, hlog, hleads⟩ := h
  obtain ⟨more, hlog', hleads'⟩ := hlast
  exact ⟨sent ++ more, by rw [hlog', hlog, List.append_assoc], hleads.trans hleads'⟩

theorem modify_append_cons {α : Type} (f : α → α) (before : List α) (a : α) (later : List α) :
    (before ++ a :: later).modify before.length f = before ++ f a :: later := by
  induction before with
  | nil => rfl
  | cons b before ih => simp [ih]

-- A move of one of the chunks, with what it sends.
theorem leads_chunk {scene reached : Scene ω} {track moved : Track} (event : ChunkState.Event)
    (before later : List Track)
    (hallowed : (scene.dispatch (before ++ track :: later)).Allows (.chunk before.length event))
    (hmoved : moved.state = track.state.step config event)
    (hcancelled : reached.cancelled = scene.cancelled) :
    Dispatch.Leads config (scene.dispatch (before ++ track :: later))
      (track.state.request? event).toList (reached.dispatch (before ++ moved :: later)) := by
  have hlength : (before.map (·.state)).length = before.length := List.length_map _
  have hmove : (scene.dispatch (before ++ track :: later)).move config
      (.chunk before.length event) = reached.dispatch (before ++ moved :: later) := by
    simp only [Scene.dispatch, Dispatch.move, List.map_append, List.map_cons, hmoved, hcancelled]
    rw [← hlength, modify_append_cons]
  have hsent : (scene.dispatch (before ++ track :: later)).sent? (.chunk before.length event) =
      track.state.request? event := by
    simp [Scene.dispatch, Dispatch.sent?]
  rw [← hmove, ← hsent]
  exact .single hallowed

theorem Turn.follows (hlog : respond.Records log) (h : Turn config respond place next)
    (before later : List Track) :
    Follows config log (place.1, before ++ place.2 :: later)
      (next.1, before ++ next.2 :: later) := by
  cases h with
  | @breakOff scene track hcancelled hopen =>
      have hquiet : (track.state.request? .cancel).toList = [] := by cases track.state <;> rfl
      refine ⟨[], (List.append_nil _).symm, ?_⟩
      rw [← hquiet]
      exact leads_chunk .cancel before later hcancelled rfl rfl
  | @send scene attempt pending due reply reaction answer world hrunning hgiven =>
      have hworld := hlog scene.now pending scene.world
      rw [hgiven] at hworld
      exact ⟨[pending], hworld, leads_chunk .send before later hrunning rfl rfl⟩
  | @deliver scene attempt pending due reaction answer _ =>
      refine ⟨[], (List.append_nil _).symm, ?_⟩
      cases hcancels : reaction.cancels with
      | false =>
          refine leads_chunk (.answer answer) before later trivial rfl ?_
          simp [Rehearsal.deliver, hcancels]
      | true =>
          let tracks := before ++ ⟨.waiting attempt pending, due, some (reaction, answer)⟩ :: later
          let stopped : Scene ω := { scene with cancelled := true }
          have hoff : Dispatch.Leads config (scene.dispatch tracks) [] (stopped.dispatch tracks) :=
            @Dispatch.Leads.single config (scene.dispatch tracks) .callOff trivial
          refine hoff.trans (leads_chunk (.answer answer) before later trivial rfl ?_)
          simp [Rehearsal.deliver, hcancels, stopped]
  | wake _ => exact ⟨[], (List.append_nil _).symm, leads_chunk .wake before later trivial rfl rfl⟩

theorem follows_of_turns (hlog : respond.Records log)
    (h : ReflTransGen (Turn config respond) place next) (before later : List Track) :
    Follows config log (place.1, before ++ place.2 :: later)
      (next.1, before ++ next.2 :: later) := by
  induction h with
  | refl => exact .refl _
  | tail _ hlast ih => exact ih.trans (hlast.follows hlog before later)

theorem Sweep.follows (hlog : respond.Records log) (h : Sweep config respond first last)
    (before : List Track) :
    Follows config log (first.1, before ++ first.2) (last.1, before ++ last.2) := by
  induction h generalizing before with
  | nil scene => exact .refl _
  | @cons scene track next rest last hturns _ _ ih =>
      have hrest := ih (before ++ [next.2])
      rw [List.append_assoc, List.append_assoc, List.singleton_append,
        List.singleton_append] at hrest
      exact (follows_of_turns hlog hturns before rest).trans hrest

theorem Happening.follows (hlog : respond.Records log) (h : Happening config respond first last) :
    Follows config log first last := by
  cases h with
  | sweep hswept => exact hswept.follows hlog []
  | pause scene tracks now => exact ⟨[], (List.append_nil _).symm, .refl _⟩
  | interruption scene tracks now =>
      exact ⟨[], (List.append_nil _).symm,
        @Dispatch.Leads.single config (scene.dispatch tracks) .callOff trivial⟩

theorem follows_of_happenings (hlog : respond.Records log)
    (h : ReflTransGen (Happening config respond) first last) : Follows config log first last := by
  induction h with
  | refl => exact .refl _
  | tail _ hlast ih => exact ih.trans (hlast.follows hlog)

end Following

section Publications

variable (config) (respond) (world : ω) (interruption : Interruption) (sightings : List Sighting)

def firstTracks : List Track :=
  (chunks config.ceiling (sightings.map Entry.ofSighting)).map fun chunk =>
    ⟨ChunkState.start chunk, 0, none⟩

theorem sound_firstTracks : ∀ track ∈ firstTracks config sightings, track.Sound config := by
  intro track hmem
  obtain ⟨chunk, -, rfl⟩ := List.mem_map.mp hmem
  constructor
  case replied =>
    intro attempt pending hwaiting
    cases hwaiting
  case bounded => simp [ChunkState.start, ChunkState.remaining]

theorem moments_firstTracks : moments config (firstTracks config sightings) =
    (firstTracks config sightings).length * (2 * config.attempts + 2) := by
  unfold firstTracks
  induction chunks config.ceiling (sightings.map Entry.ofSighting) with
  | nil => simp [moments]
  | cons chunk rest ih =>
      have hstart : (ChunkState.start chunk).moments config = 2 * config.attempts + 2 := by
        simp [ChunkState.start, ChunkState.moments]
      simp only [moments, List.map_cons, List.foldr_cons, List.length_cons] at ih ⊢
      rw [ih, hstart, Nat.add_comm]
      exact (Nat.succ_mul _ _).symm

theorem map_state_of_isSettled {tracks : List Track} {settlement? : Track → Option Settlement}
    (hsettlement : ∀ track result, track.state = .settled result →
      settlement? track = some result) (hover : ∀ track ∈ tracks, track.isSettled = true) :
    tracks.map (·.state) = (tracks.filterMap settlement?).map ChunkState.settled := by
  induction tracks with
  | nil => rfl
  | cons track rest ih =>
      obtain ⟨htrack, hrest⟩ := List.forall_mem_cons.mp hover
      obtain ⟨result, hresult⟩ : ∃ result, track.state = .settled result := by
        cases hstate : track.state with
        | settled result => exact ⟨result, rfl⟩
        | _ => simp [Track.isSettled, hstate] at htrack
      rw [List.filterMap_cons_some (hsettlement track result hresult), List.map_cons, List.map_cons,
        hresult, ih hrest]

-- A rehearsal is one of the ways that a publication can go. It ends with all its chunks settled,
-- the respondent has got the requests of that publication, and whether anybody has called it off
-- shows in the end.
theorem publishTo_yields {log : ω → List (List Entry)} (hlog : respond.Records log) :
    ∃ course : Course, course.calledOff = (interruption == .before) ∧
      course.Yields config sightings
        (publishTo config respond world interruption sightings).1 ∧
      log (publishTo config respond world interruption sightings).2.world =
        log world ++ course.sent config sightings ∧
      ((publishTo config respond world interruption sightings).2.cancelled = false →
        course.IsUndisturbed) := by
  have hplayed := @happenings_play ω config respond interruption
    ((firstTracks config sightings).length * (2 * config.attempts + 2) + 2)
    ⟨0, interruption == .before, world⟩ _ (sound_firstTracks config sightings)
    (Or.inl (by rw [moments_firstTracks]; omega))
  rcases hplay : play config respond interruption
    ((firstTracks config sightings).length * (2 * config.attempts + 2) + 2)
    ⟨0, interruption == .before, world⟩ (firstTracks config sightings) with ⟨scene, tracks⟩
  rw [hplay] at hplayed
  obtain ⟨hhappened, hover⟩ := hplayed
  obtain ⟨sent, hworld, hleads⟩ := follows_of_happenings hlog hhappened
  obtain ⟨moves, hpossible, hafter, hsent⟩ := hleads.exists_moves
  let course : Course := ⟨interruption == .before, moves⟩
  have hstart : course.start config sightings =
      (⟨0, interruption == .before, world⟩ : Scene ω).dispatch (firstTracks config sightings) := by
    simp [Course.start, Dispatch.start, Scene.dispatch, firstTracks, course, Function.comp_def]
  rw [← hstart] at hpossible hafter hsent
  simp only [firstTracks] at hplay
  simp only [publishTo, hplay]
  refine ⟨course, rfl, ⟨hpossible, _, ?settled, rfl⟩, ?sent, ?running⟩
  case settled =>
    rw [hafter]
    refine map_state_of_isSettled ?_ hover
    intro track result hresult
    rw [hresult]
  case sent => rw [hworld, ← hsent, Course.sent]
  case running =>
    intro hrunning
    have hlast : ((course.start config sightings).after config moves).calledOff = false := by
      rw [hafter]
      exact hrunning
    have hown := Dispatch.isOwn_of_running hpossible hlast
    rw [Bool.eq_false_iff, ne_eq, Dispatch.calledOff_after_iff, not_or] at hlast
    exact ⟨Bool.eq_false_iff.mpr hlast.1, hown⟩

end Publications

theorem SinkScript.records (script : SinkScript) :
    Respondent.Records script.react fun log => log.calls.reverse.map (·.entries) := by
  intro now entries log
  simp [SinkScript.react]

-- What a scripted receiver is sent and what is reported belong to one of the ways that the
-- publication can go.
theorem publish_yields (config : Config) (script : SinkScript) (interruption : Interruption)
    (sightings : List Sighting) :
    ∃ course : Course, course.calledOff = (interruption == .before) ∧
      course.Yields config sightings (publish config script interruption sightings).result ∧
      ((publish config script interruption sightings).calls.map (·.entries)).Perm
        (course.sent config sightings) := by
  obtain ⟨course, hoff, hyields, hsent, -⟩ :=
    publishTo_yields config script.react {} interruption sightings script.records
  refine ⟨course, hoff, hyields, ?_⟩
  have hlog : course.sent config sightings =
      (publishTo config script.react {} interruption sightings).2.world.calls.reverse.map
        (·.entries) := by
    rw [hsent]
    rfl
  rw [hlog]
  exact (List.mergeSort_perm _ _).map _

end DeclarationWatch.Rehearsal
