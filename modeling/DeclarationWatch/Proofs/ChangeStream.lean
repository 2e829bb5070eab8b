import DeclarationWatch.Proofs.Cycle.Change
import DeclarationWatch.Proofs.Lifecycle

namespace DeclarationWatch

variable {τ : Type} {policy : Policy}

-- The call is a cycle that polls the item and writes what this answer says of it.
def Act.Polls (policy : Policy) (ledger : Ledger) (act : Act τ) (id : String)
    (answer : SearchAnswer) : Prop :=
  ∃ round, act = .cycle round ∧ round.Writes policy ledger answer ∧
    id ∈ Cycle.dueIds policy ledger

-- No call polls the item.
def Unpolled (policy : Policy) (ledger : Ledger) (acts : List (Act τ)) (id : String) : Prop :=
  ∀ before act after, acts = before ++ act :: after →
    ∀ answer, ¬act.Polls policy (replay policy ledger before) id answer

-- The last of the past cycles that polled the item got this answer.
def LastPolled (policy : Policy) (past : List (Act τ)) (id : String) (answer : SearchAnswer) :
    Prop :=
  ∃ before act after, past = before ++ act :: after ∧
    act.Polls policy (replay policy .empty before) id answer ∧
    Unpolled policy (replay policy .empty (before ++ [act])) after id

theorem unpolled_append_singleton {ledger : Ledger} {acts : List (Act τ)} {act : Act τ}
    {id : String} : Unpolled policy ledger (acts ++ [act]) id ↔
      Unpolled policy ledger acts id ∧
        ∀ answer, ¬act.Polls policy (replay policy ledger acts) id answer :=
  forall_split_append_singleton

theorem lastPolled_append_singleton {past : List (Act τ)} {act : Act τ} {id : String}
    {answer : SearchAnswer} : LastPolled policy (past ++ [act]) id answer ↔
      act.Polls policy (replay policy .empty past) id answer ∨
        LastPolled policy past id answer ∧
          ∀ other, ¬act.Polls policy (replay policy .empty past) id other := by
  constructor
  · rintro ⟨before, poll, after, heq, hpolls, hunpolled⟩
    rcases append_singleton_eq_iff.mp heq with ⟨rfl, rfl, -⟩ | ⟨middle, rfl, rfl⟩
    · exact Or.inl hpolls
    · obtain ⟨hmiddle, hact⟩ := unpolled_append_singleton.mp hunpolled
      refine Or.inr ⟨⟨before, poll, middle, rfl, hpolls, hmiddle⟩, ?_⟩
      simpa [← replay_append] using hact
  · rintro (hpolls | ⟨⟨before, poll, after, rfl, hpolls, hunpolled⟩, hact⟩)
    · exact ⟨past, act, [], rfl, hpolls, by simp [Unpolled]⟩
    · refine ⟨before, poll, after ++ [act], by simp, hpolls, ?_⟩
      refine unpolled_append_singleton.mpr ⟨hunpolled, ?_⟩
      simpa [← replay_append] using hact

theorem unpolled_or_lastPolled (policy : Policy) (past : List (Act τ)) (id : String) :
    Unpolled policy .empty past id ∨ ∃ answer, LastPolled policy past id answer := by
  induction past using List.reverseRecOn with
  | nil => exact Or.inl (by simp [Unpolled])
  | append_singleton past act ih =>
      simp only [unpolled_append_singleton, lastPolled_append_singleton]
      by_cases hpolls : ∃ answer, act.Polls policy (replay policy .empty past) id answer
      · obtain ⟨answer, hpolls⟩ := hpolls
        exact Or.inr ⟨answer, Or.inl hpolls⟩
      · rw [not_exists] at hpolls
        rcases ih with hunpolled | ⟨answer, hlast⟩
        · exact Or.inl ⟨hunpolled, hpolls⟩
        · exact Or.inr ⟨answer, Or.inr ⟨hlast, hpolls⟩⟩

-- A call that does not poll an item leaves it, or removes it.
theorem Act.find?_perform_of_not_polls {ledger : Ledger} {act : Act τ} {id : String} {item : Item}
    (hpolls : ∀ answer, ¬act.Polls policy ledger id answer) (hstays : ¬act.Clears)
    (hfind : ledger.find? id = some item) : (act.perform policy ledger).find? id = some item := by
  rcases Act.find?_perform_of_some hstays hfind with h | ⟨-, round, answer, hact, hwrites, hdue, -⟩
  · exact h
  · exact absurd ⟨round, hact, hwrites, hdue⟩ (hpolls answer)

theorem Act.Polls.snapshot_perform {ledger : Ledger} {act : Act τ} {id : String}
    {answer : SearchAnswer} (h : act.Polls policy ledger id answer) :
    ∃ item, (act.perform policy ledger).find? id = some item ∧
      item.snapshot = Cycle.snapshotOf (answer.resolved id) := by
  obtain ⟨round, rfl, hwrites, hdue⟩ := h
  obtain ⟨item, hitem, rfl⟩ := List.mem_map.mp hdue
  refine ⟨item.apply (Cycle.revision policy round.now answer item), ?_, rfl⟩
  rw [Act.perform, hwrites.ledger_eq]
  exact Cycle.Round.find?_rewritten_of_mem answer hitem

-- An item that no cycle has polled has nothing in its snapshot.
theorem snapshot_of_unpolled {past : List (Act τ)} {id : String} {item : Item}
    (hunpolled : Unpolled policy .empty past id)
    (hfind : (replay policy .empty past).find? id = some item) : item.snapshot = [] := by
  induction past using List.reverseRecOn generalizing item with
  | nil => cases hfind
  | append_singleton past act ih =>
      obtain ⟨hpast, hact⟩ := unpolled_append_singleton.mp hunpolled
      rw [replay_append, replay_cons, replay_nil] at hfind
      rcases Act.find?_perform_eq_some hfind with
        ⟨now, expiry, -, rfl⟩ | ⟨hbefore, -⟩ | ⟨earlier, round, answer, -, rfl, hwrites, hdue, -⟩
      · rfl
      · exact ih hpast hbefore
      · exact absurd ⟨round, rfl, hwrites, hdue⟩ (hact answer)

-- The snapshot of any other item is that of the last answer by which it was polled.
theorem snapshot_of_lastPolled {past : List (Act τ)} (hstays : ∀ act ∈ past, ¬act.Clears)
    {id : String} {answer : SearchAnswer} (hlast : LastPolled policy past id answer) :
    ∃ item, (replay policy .empty past).find? id = some item ∧
      item.snapshot = Cycle.snapshotOf (answer.resolved id) := by
  induction past using List.reverseRecOn with
  | nil =>
      obtain ⟨before, act, after, heq, -⟩ := hlast
      simp at heq
  | append_singleton past act ih =>
      rw [replay_append, replay_cons, replay_nil]
      rcases lastPolled_append_singleton.mp hlast with hpolls | ⟨hpast, hact⟩
      · exact hpolls.snapshot_perform
      · have hbefore : ∀ other ∈ past, ¬other.Clears := fun other hother =>
          hstays other (List.mem_append_left _ hother)
        obtain ⟨item, hfind, hsnapshot⟩ := ih hbefore hpast
        exact ⟨item, Act.find?_perform_of_not_polls hact (hstays act (by simp)) hfind, hsnapshot⟩

theorem LastPolled.read {past : List (Act τ)} {id : String} {answer : SearchAnswer}
    (hlast : LastPolled policy past id answer)
    (hread : ∀ earlier, .cycle earlier ∈ past → ∀ ids other,
      earlier.search ids = .answered (.ok other) → other.Read) : answer.Read := by
  obtain ⟨before, act, after, rfl, ⟨round, rfl, hwrites, -⟩, -⟩ := hlast
  exact hread round (by simp) _ answer hwrites.answered

-- The snapshot of a polled item knows the versions of the last answer about it.
theorem isKnown_of_lastPolled {past : List (Act τ)} (hstays : ∀ act ∈ past, ¬act.Clears)
    (hread : ∀ earlier, .cycle earlier ∈ past → ∀ ids other,
      earlier.search ids = .answered (.ok other) → other.Read)
    {id : String} {item : Item} (hfind : (replay policy .empty past).find? id = some item)
    {previous : SearchAnswer} (hlast : LastPolled policy past id previous) (gmr : Gmr) :
    Cycle.isKnown item.snapshot gmr = true ↔
      ∃ old, previous.Resolves id old ∧ old.id = gmr.id ∧ old.updated = gmr.updated := by
  obtain ⟨stored, hstored, hsnapshot⟩ := snapshot_of_lastPolled hstays hlast
  have hsame : item = stored := Option.some.inj (hfind.symm.trans hstored)
  rw [hsame, hsnapshot]
  exact Cycle.isKnown_snapshotOf (hlast.read hread) id gmr

-- What the cycles of a run hand over: of each due item the records that the cycle before, which
-- polled this item, did not get in this version.
theorem handed_iff_changed (policy : Policy) (past : List (Act τ)) (round : Cycle.Round τ)
    (answer : SearchAnswer) (hstays : ∀ act ∈ past, ¬act.Clears)
    (hread : ∀ earlier, .cycle earlier ∈ past → ∀ ids other,
      earlier.search ids = .answered (.ok other) → other.Read)
    (hwrites : round.Writes policy (replay policy .empty past) answer) :
    let ledger := replay policy .empty past
    let due := Cycle.dueIds policy ledger
    let handed := round.handed policy ledger
    (round.outcome policy ledger).published =
        (if handed = [] then none else some (round.publish handed).2) ∧
      (∀ sighting, sighting ∈ handed ↔
        sighting.mrn ∈ due ∧ answer.Resolves sighting.mrn sighting.gmr ∧
          (Unpolled policy .empty past sighting.mrn ∨
            ∃ previous, LastPolled policy past sighting.mrn previous ∧
              ∀ old, previous.Resolves sighting.mrn old → old.id = sighting.gmr.id →
                old.updated ≠ sighting.gmr.updated)) ∧
      (handed.map fun sighting => (sighting.mrn, sighting.gmr.id)).Nodup ∧
      handed.Pairwise (Cycle.Precedes due) ∧
      ((∀ id ∈ due, LastPolled policy past id answer) → handed = []) := by
  intro ledger due handed
  have hhanded : handed = Cycle.selected policy ledger answer := hwrites.handed_eq
  have hordered : handed.Pairwise (Cycle.Precedes due) := hhanded ▸ Cycle.pairwise_selected answer
  refine ⟨Cycle.Round.published_outcome, fun sighting => ?_, ?_, hordered, fun hsame => ?_⟩
  · rw [hhanded, Cycle.mem_selected_iff]
    constructor
    · rintro ⟨item, hitem, hid, hgmr, hnew⟩
      have hfind : ledger.find? sighting.mrn = some item :=
        hid ▸ Ledger.find?_of_mem_findIncomplete hitem
      refine ⟨hid ▸ List.mem_map_of_mem hitem, hgmr, ?_⟩
      rcases unpolled_or_lastPolled policy past sighting.mrn with hunpolled | ⟨previous, hlast⟩
      · exact Or.inl hunpolled
      · refine Or.inr ⟨previous, hlast, ?_⟩
        intro old hold hkey hupdated
        have hknown := (isKnown_of_lastPolled hstays hread hfind hlast sighting.gmr).mpr
          ⟨old, hold, hkey, hupdated⟩
        rw [hnew] at hknown
        cases hknown
    · rintro ⟨hdue, hgmr, hcases⟩
      obtain ⟨item, hitem, hid⟩ := List.mem_map.mp hdue
      have hfind : ledger.find? sighting.mrn = some item :=
        hid ▸ Ledger.find?_of_mem_findIncomplete hitem
      refine ⟨item, hitem, hid, hgmr, ?_⟩
      rcases hcases with hunpolled | ⟨previous, hlast, hchanged⟩
      · rw [snapshot_of_unpolled hunpolled hfind, Cycle.isKnown_nil]
      · rw [← Bool.not_eq_true, isKnown_of_lastPolled hstays hread hfind hlast]
        rintro ⟨old, hold, hkey, hupdated⟩
        exact hchanged old hold hkey hupdated
  · rw [List.Nodup, List.pairwise_map]
    exact hordered.imp fun h => h.ne
  · rw [hhanded, List.eq_nil_iff_forall_not_mem]
    intro sighting hsighting
    obtain ⟨item, hitem, hid, hgmr, hnew⟩ := (Cycle.mem_selected_iff answer sighting).mp hsighting
    have hfind : ledger.find? sighting.mrn = some item :=
      hid ▸ Ledger.find?_of_mem_findIncomplete hitem
    have hlast := hsame sighting.mrn (hid ▸ List.mem_map_of_mem hitem)
    have hknown := (isKnown_of_lastPolled hstays hread hfind hlast sighting.gmr).mpr
      ⟨sighting.gmr, hgmr, rfl, rfl⟩
    rw [hnew] at hknown
    cases hknown

-- A second cycle that gets one of two records in a new version, or the same answer again.
theorem handed_iff_changed_second :
    let gmr (version : String) : Gmr := ⟨"G1", "OPEN", version, [("n", .int 7)]⟩
    let other : Gmr := ⟨"G2", "", "v1", []⟩
    let answer (version : String) : SearchAnswer :=
      ⟨[⟨"MRN-C", ["G1", "G2"]⟩], [gmr version, other]⟩
    let round (version : String) : Cycle.Round Unit :=
      ⟨⟨1, 0⟩, {}, fun _ => .answered (.ok (answer version)), fun _ => (.ok (), ())⟩
    let ledger := replay {} .empty [.watch {} ⟨0, 0⟩ "mrn-c", .cycle (round "v1")]
    ⟨"MRN-C", gmr "v2"⟩ ∈ (round "v2").handed {} ledger ∧
      (round "v1").handed {} ledger = [] := by
  intro gmr other answer round ledger
  have hread : ∀ version, (answer version).Read := by
    intro version
    have hgmrs : ∀ g ∈ (answer version).gmrs, Gmr.Sound 124 g.payload ∧ g.Integral := by
      intro g hg
      rcases List.mem_pair.mp hg with rfl | rfl
      · refine ⟨⟨by simp [gmr, Keyed.Ascending, Keyed.keys], ?_, ?_⟩, ?_⟩
        · simp [gmr, Json.Fits, Json.int]
        · simp [gmr, Gmr.fields, Json.Field.required, Json.Field.defaulted]
        · simp [gmr, Gmr.Integral, Json.Whole, Json.int, Json.InRange, Width.signed64,
            Width.words64]
      · exact ⟨Gmr.sound_nil 124, Gmr.integral_of_payload_eq_nil rfl⟩
    exact SearchAnswer.read_of_sound (fun g hg => (hgmrs g hg).1) fun g hg => (hgmrs g hg).2
  let fresh : Item := ⟨"MRN-C", [], false, ⟨0, 0⟩, ⟨2592000, 0⟩, none⟩
  let first : Ledger := ⟨[fresh], [], by decide⟩
  have hbatch : first.findIncomplete ({} : Policy).maxPollSize = [fresh] :=
    Ledger.findIncomplete_eq_singleton rfl (by decide)
  have hfirst : (round "v1").Writes {} first (answer "v1") := ⟨rfl, by simp [hbatch], rfl, rfl⟩
  have hledger : ledger = (round "v1").rewritten {} first (answer "v1") :=
    (rfl : ledger = ((round "v1").outcome {} first).ledger).trans hfirst.ledger_eq
  let polled : Item := fresh.apply (Cycle.revision {} ⟨1, 0⟩ (answer "v1") fresh)
  have hitems : ledger.items = [polled] := by
    rw [hledger, Cycle.Round.rewritten, hbatch]
    rfl
  have hopen : polled.complete = false := by
    have hrevised : Cycle.Revised {} ⟨1, 0⟩ (answer "v1") fresh polled :=
      Cycle.revised_apply {} ⟨1, 0⟩ (answer "v1") rfl
    rw [← Bool.not_eq_true, hrevised.complete]
    rintro (⟨-, hall⟩ | hlate)
    · have hsame := hall (gmr "v1") ⟨⟨[], [other], rfl, by simp [gmr, other]⟩, _,
        List.mem_singleton_self _, rfl, List.mem_cons_self⟩
      exact absurd hsame (by decide)
    · exact absurd hlate (by decide)
  have hdue : ledger.findIncomplete ({} : Policy).maxPollSize = [polled] :=
    Ledger.findIncomplete_eq_singleton (by simp [hitems, hopen]) (by decide)
  have hpolls : (Act.cycle (round "v1")).Polls {} first "MRN-C" (answer "v1") :=
    ⟨round "v1", rfl, hfirst, by simp [Cycle.dueIds, hbatch, fresh]⟩
  have hlast : LastPolled {} ([.watch {} ⟨0, 0⟩ "mrn-c"] ++ [.cycle (round "v1")]) "MRN-C"
      (answer "v1") := lastPolled_append_singleton.mpr (Or.inl hpolls)
  have hdueIds : Cycle.dueIds {} ledger = ["MRN-C"] := by
    rw [Cycle.dueIds, hdue]
    rfl
  have hwrites : ∀ version, (round version).Writes {} ledger (answer version) := by
    intro version
    exact ⟨rfl, by simp [hdue], rfl, rfl⟩
  have hearlier : ∀ earlier, .cycle earlier ∈
      [.watch {} ⟨0, 0⟩ "mrn-c", Act.cycle (round "v1")] → ∀ ids found,
      earlier.search ids = .answered (.ok found) → found.Read := by
    simp only [List.mem_cons, reduceCtorEq, Act.cycle.injEq, List.not_mem_nil, or_false, false_or]
    rintro earlier rfl ids found heq
    cases heq
    exact hread "v1"
  have hstream := fun version => handed_iff_changed {} _ (round version) (answer version)
    (by simp [Act.Clears]) hearlier (hwrites version)
  constructor
  · refine ((hstream "v2").2.1 ⟨"MRN-C", gmr "v2"⟩).mpr ⟨?_, ⟨?_, ?_⟩, Or.inr ⟨_, hlast, ?_⟩⟩
    · exact hdueIds ▸ List.mem_singleton_self "MRN-C"
    · exact ⟨[], [other], rfl, by simp [gmr, other]⟩
    · exact ⟨_, List.mem_singleton_self _, rfl, List.mem_cons_self⟩
    · intro old hold hid
      rcases List.mem_pair.mp hold.mem with rfl | rfl
      · simp [gmr]
      · simp [gmr, other] at hid
  · refine (hstream "v1").2.2.2.2 ?_
    intro id hid
    rw [show Cycle.dueIds _ _ = _ from hdueIds, List.mem_singleton] at hid
    exact hid ▸ hlast

end DeclarationWatch
