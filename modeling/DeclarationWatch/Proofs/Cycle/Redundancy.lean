import DeclarationWatch.Proofs.Cycle.Round
import Mathlib.Data.Finset.Card
import Mathlib.Logic.Relation

namespace DeclarationWatch

namespace SearchAnswer

-- What may be said twice, in another order or in vain in an answer. To part an association in two
-- is also, the other way round, to join two that mean the same declaration.
inductive Rewording : SearchAnswer → SearchAnswer → Prop where
  | recordAgain {associations : List Association} {before after : List Gmr} {gmr : Gmr}
      (listed : gmr ∈ before ++ after) :
      Rewording ⟨associations, before ++ after⟩ ⟨associations, before ++ gmr :: after⟩
  | reordered {associations others : List Association} {gmrs : List Gmr}
      (same : associations.Perm others) : Rewording ⟨associations, gmrs⟩ ⟨others, gmrs⟩
  | associationAgain {association : Association} {associations : List Association}
      {gmrs : List Gmr} (listed : association ∈ associations) :
      Rewording ⟨associations, gmrs⟩ ⟨association :: associations, gmrs⟩
  | parted {declaration first second : String} {ids more : List String}
      {associations : List Association} {gmrs : List Gmr}
      (alike : Mrn.canonical first = Mrn.canonical declaration)
      (alikeToo : Mrn.canonical second = Mrn.canonical declaration) :
      Rewording ⟨⟨declaration, ids ++ more⟩ :: associations, gmrs⟩
        ⟨⟨first, ids⟩ :: ⟨second, more⟩ :: associations, gmrs⟩
  | idAgain {declaration id : String} {before after : List String}
      {associations : List Association} {gmrs : List Gmr} (listed : id ∈ before ++ after) :
      Rewording ⟨⟨declaration, before ++ after⟩ :: associations, gmrs⟩
        ⟨⟨declaration, before ++ id :: after⟩ :: associations, gmrs⟩
  | idOfNone {declaration id : String} {before after : List String}
      {associations : List Association} {gmrs : List Gmr} (unknown : id ∉ gmrs.map (·.id)) :
      Rewording ⟨⟨declaration, before ++ after⟩ :: associations, gmrs⟩
        ⟨⟨declaration, before ++ id :: after⟩ :: associations, gmrs⟩

-- Records of one id are the same record.
def Consistent (answer : SearchAnswer) : Prop :=
  ∀ a ∈ answer.gmrs, ∀ b ∈ answer.gmrs, a.id = b.id → a = b

-- Both answers list the same records and put them on the same declarations.
structure Agrees (first second : SearchAnswer) : Prop where
  records : ∀ gmr, gmr ∈ first.gmrs ↔ gmr ∈ second.gmrs
  names : ∀ mrn, ∀ gmr ∈ first.gmrs, first.Names mrn gmr.id ↔ second.Names mrn gmr.id

variable {first second third : SearchAnswer} {gmr : Gmr} {mrn id : String}

theorem Agrees.refl (answer : SearchAnswer) : answer.Agrees answer :=
  ⟨fun _ => Iff.rfl, fun _ _ _ => Iff.rfl⟩

theorem Agrees.symm (h : first.Agrees second) : second.Agrees first where
  records := fun gmr => (h.records gmr).symm
  names := fun mrn gmr hmem => (h.names mrn gmr ((h.records gmr).mpr hmem)).symm

theorem Agrees.trans (h : first.Agrees second) (hnext : second.Agrees third) :
    first.Agrees third where
  records := fun gmr => (h.records gmr).trans (hnext.records gmr)
  names := fun mrn gmr hmem =>
    (h.names mrn gmr hmem).trans (hnext.names mrn gmr ((h.records gmr).mp hmem))

theorem names_cons {association : Association} {associations : List Association}
    {gmrs : List Gmr} : Names ⟨association :: associations, gmrs⟩ mrn id ↔
      (Mrn.canonical association.declaration = mrn ∧ id ∈ association.gmrIds) ∨
        Names ⟨associations, gmrs⟩ mrn id := by
  simp [Names]

theorem mem_append_cons_of_listed {α : Type} {before after : List α} {a b : α}
    (listed : a ∈ before ++ after) : b ∈ before ++ a :: after ↔ b ∈ before ++ after := by
  rw [List.perm_middle.mem_iff, List.mem_cons, or_iff_right_of_imp]
  rintro rfl
  exact listed

theorem Rewording.agrees (h : Rewording first second) : first.Agrees second := by
  cases h with
  | recordAgain listed =>
      exact ⟨fun other => (mem_append_cons_of_listed listed).symm, fun mrn other _ => Iff.rfl⟩
  | reordered same =>
      refine ⟨fun other => Iff.rfl, fun mrn other _ => ?_⟩
      simp only [Names, same.mem_iff]
  | associationAgain listed =>
      refine ⟨fun other => Iff.rfl, fun mrn other _ => ?_⟩
      rw [names_cons]
      exact ⟨Or.inr, fun h => h.elim (fun hnames => ⟨_, listed, hnames⟩) id⟩
  | parted alike alikeToo =>
      refine ⟨fun other => Iff.rfl, fun mrn other _ => ?_⟩
      simp only [names_cons, alike, alikeToo, List.mem_append]
      rw [← or_assoc, ← and_or_left]
  | idAgain listed =>
      refine ⟨fun other => Iff.rfl, fun mrn other _ => ?_⟩
      simp only [names_cons, mem_append_cons_of_listed listed]
  | idOfNone unknown =>
      refine ⟨fun other => Iff.rfl, fun mrn other hmem => ?_⟩
      have hother := ne_of_mem_of_not_mem (List.mem_map_of_mem hmem) unknown
      simp only [names_cons, List.mem_append, List.mem_cons, hother, false_or]

theorem agrees_of_eqvGen (h : Relation.EqvGen Rewording first second) : first.Agrees second := by
  induction h with
  | rel first second step => exact step.agrees
  | refl answer => exact Agrees.refl answer
  | symm first second _ ih => exact ih.symm
  | trans first second third _ _ ihFirst ihSecond => exact ihFirst.trans ihSecond

-- Where records of one id are the same, it does not matter which of them counts.
theorem Consistent.lists_iff (hfirst : first.Consistent) : first.Lists gmr ↔ gmr ∈ first.gmrs := by
  constructor
  · rintro ⟨before, after, hgmrs, -⟩
    simp [hgmrs]
  · intro hmem
    obtain ⟨last, hlast, hid⟩ := exists_lists hmem
    obtain ⟨before, after, hgmrs, -⟩ := id hlast
    rwa [hfirst gmr hmem last (by simp [hgmrs]) hid.symm]

theorem Agrees.resolves_iff (h : first.Agrees second) (hfirst : first.Consistent) :
    first.Resolves mrn gmr ↔ second.Resolves mrn gmr := by
  have hsecond : second.Consistent := fun a ha b hb =>
    hfirst a ((h.records a).mpr ha) b ((h.records b).mpr hb)
  unfold Resolves
  rw [hfirst.lists_iff, hsecond.lists_iff, ← h.records]
  exact and_congr_right (h.names mrn gmr)

theorem Agrees.resolved_eq (h : first.Agrees second) (hfirst : first.Consistent) (mrn : String) :
    first.resolved mrn = second.resolved mrn := by
  have hgroups : groupOf first.byDeclaration mrn = groupOf second.byDeclaration mrn := by
    refine (ascending_groupOf _ mrn).ext (ascending_groupOf _ mrn) fun id => Option.ext fun gmr => ?_
    exact (get?_groupOf_byDeclaration first mrn id gmr).trans
      ((and_congr_right fun _ => h.resolves_iff hfirst).trans
        (get?_groupOf_byDeclaration second mrn id gmr).symm)
  exact congrArg Keyed.values hgroups

-- How many records an answer tells apart.
def distinct (answer : SearchAnswer) : Nat := (answer.gmrs.map (·.id)).toFinset.card

theorem length_eq_distinct_iff (answer : SearchAnswer) :
    answer.gmrs.length = answer.distinct ↔ (answer.gmrs.map (·.id)).Nodup := by
  have hnodup : (answer.gmrs.map (·.id)).toFinset.card = (answer.gmrs.map (·.id)).length ↔
      (answer.gmrs.map (·.id)).Nodup := Multiset.toFinset_card_eq_card_iff_nodup
  rw [← hnodup, List.length_map]
  exact eq_comm

theorem Agrees.distinct_eq (h : first.Agrees second) : first.distinct = second.distinct := by
  refine congrArg Finset.card (Finset.ext fun id => ?_)
  simp [h.records]

end SearchAnswer

namespace Cycle

open SearchAnswer (Rewording)

variable {τ : Type} {first second : SearchAnswer}

-- What a cycle makes of two answers that give each declaration the same records differs in one
-- count.
theorem assess_of_resolved_eq (h : ∀ mrn, first.resolved mrn = second.resolved mrn)
    (policy : Policy) (now : Time.Instant) (batch : List Item) :
    let assessment := assess policy now batch first
    assess policy now batch second = { assessment with
      summary := { assessment.summary with uniqueGmrs := second.gmrs.length } } := by
  have hrecords : ∀ id, SearchAnswer.recordsOf second.byDeclaration id =
      SearchAnswer.recordsOf first.byDeclaration id := fun id => (h id).symm
  simp only [assess, SearchAnswer.hasRecords_eq, hrecords]

-- The summary has no part in a cycle but to be its result.
theorem commit_with_summary (outage : Outage)
    (publish : List Sighting → Except PublishFailure Unit × τ) (ledger : Ledger)
    (ids : List String) (assessment : Assessment) (revise : Summary → Summary) :
    let outcome := commit outage publish ledger ids assessment
    commit outage publish ledger ids
        { assessment with summary := revise assessment.summary } =
      { outcome with result := outcome.result.map revise } := by
  intro outcome
  cases hwrite : outage.bulkUpdate with
  | some failure => simp [outcome, commit, hwrite, Except.map]
  | none =>
      cases hchanged : assessment.changed with
      | nil => simp [outcome, commit, hwrite, hchanged, Except.map]
      | cons sighting rest =>
          cases hpublished : (publish (sighting :: rest)).1 <;>
            simp [outcome, commit, hwrite, hchanged, hpublished, Except.map]

namespace Round

-- The round with this answer to its search.
def answering (round : Round τ) (answer : SearchAnswer) : Round τ :=
  { round with search := fun _ => .answered (.ok answer) }

-- The number of records that a cycle reports. It counts what the answer lists.
def reported (policy : Policy) (ledger : Ledger) (answer : SearchAnswer) : Nat :=
  if ledger.findIncomplete policy.maxPollSize = [] then 0 else answer.gmrs.length

theorem outcome_answering (round : Round τ) (policy : Policy) (ledger : Ledger)
    (h : ∀ mrn, first.resolved mrn = second.resolved mrn) :
    let outcome := (round.answering first).outcome policy ledger
    (round.answering second).outcome policy ledger = { outcome with
      result := outcome.result.map fun summary =>
        { summary with uniqueGmrs := reported policy ledger second } } := by
  intro outcome
  cases hfound : round.outage.find with
  | some failure =>
      have hrefused : ∀ answer, (round.answering answer).outcome policy ledger =
          ⟨.error failure, ledger, [], [], none⟩ := fun answer =>
        run_of_refused (show (round.answering answer).outage.find = _ from hfound) _
      simp only [outcome, hrefused]
      rfl
  | none =>
      have hready : ∀ answer, (round.answering answer).outage.find = none := fun _ => hfound
      by_cases hdue : ledger.findIncomplete policy.maxPollSize = []
      · have hidle : ∀ answer, (round.answering answer).outcome policy ledger =
            ⟨.ok {}, ledger, [], [], none⟩ := fun answer => run_of_none_due (hready answer) hdue _
        simp only [outcome, hidle, reported, hdue, if_true]
        rfl
      · have hdone : ∀ answer, (round.answering answer).outcome policy ledger =
            commit round.outage round.publish ledger (dueIds policy ledger)
              (assess policy round.now (ledger.findIncomplete policy.maxPollSize) answer) :=
          fun answer => run_of_due (hready answer) hdue _
        simp only [outcome, hdone, reported, hdue, if_false]
        rw [assess_of_resolved_eq h]
        exact commit_with_summary round.outage round.publish ledger _ _
          fun summary => { summary with uniqueGmrs := second.gmrs.length }

theorem reported_eq_distinct_iff {policy : Policy} {ledger : Ledger} (answer : SearchAnswer)
    (hdue : ledger.findIncomplete policy.maxPollSize ≠ []) :
    reported policy ledger answer = answer.distinct ↔ (answer.gmrs.map (·.id)).Nodup := by
  rw [reported, if_neg hdue]
  exact answer.length_eq_distinct_iff

-- An answer may be put in other words, and a cycle does the same with it. Only the number of
-- records in its summary gives the words away: what is listed twice is counted twice.
theorem outcome_of_rewording (round : Round τ) (policy : Policy) (ledger : Ledger)
    (hfirst : first.Consistent) (hsame : Relation.EqvGen Rewording first second) :
    let one := (round.answering first).outcome policy ledger
    let two := (round.answering second).outcome policy ledger
    (two.ledger = one.ledger ∧ two.requests = one.requests ∧ two.updates = one.updates ∧
      two.published = one.published) ∧
    (round.answering second).handed policy ledger =
      (round.answering first).handed policy ledger ∧
    (∀ summary, one.result = .ok summary →
      summary.uniqueGmrs = reported policy ledger first ∧
      two.result = .ok { summary with uniqueGmrs := reported policy ledger second } ∧
      (two.result = one.result ↔ reported policy ledger first = reported policy ledger second)) ∧
    (∀ failure, one.result = .error failure → two.result = .error failure) ∧
    first.distinct = second.distinct ∧
    (ledger.findIncomplete policy.maxPollSize ≠ [] →
      (reported policy ledger first = first.distinct ↔ (first.gmrs.map (·.id)).Nodup)) := by
  intro one two
  have hagrees := SearchAnswer.agrees_of_eqvGen hsame
  have hresolved := hagrees.resolved_eq hfirst
  have htwo : two = { one with result := one.result.map fun summary =>
      { summary with uniqueGmrs := reported policy ledger second } } :=
    outcome_answering round policy ledger hresolved
  have hone : one.result = one.result.map fun summary =>
      { summary with uniqueGmrs := reported policy ledger first } :=
    congrArg Outcome.result (outcome_answering round policy ledger fun _ => rfl)
  have hhanded := outcome_answering
    ({ round with publish := fun changed => (.ok (), changed) } : Round (List Sighting))
    policy ledger hresolved
  refine ⟨by simp [htwo], congrArg (fun outcome => outcome.published.getD []) hhanded,
    fun summary hok => ?_, fun failure herror => ?_, hagrees.distinct_eq,
    reported_eq_distinct_iff first⟩
  · have hcount : summary.uniqueGmrs = reported policy ledger first := by
      rw [hok] at hone
      exact congrArg Summary.uniqueGmrs (Except.ok.inj hone)
    have hresult : two.result =
        .ok { summary with uniqueGmrs := reported policy ledger second } := by
      rw [htwo, hok]
      rfl
    refine ⟨hcount, hresult, ?_⟩
    rw [hresult, hok, Except.ok.injEq, ← hcount]
    constructor
    · intro hsummary
      exact (congrArg Summary.uniqueGmrs hsummary).symm
    · intro hsame
      rw [← hsame]
  · rw [htwo, herror]
    rfl

section Runs

-- One declaration is due, it has one record, and the publisher takes what it is given.
def lone : Item := ⟨"MRN-C", [], false, ⟨0, 0⟩, ⟨5000, 0⟩, none⟩

def shelf : Ledger := ⟨[lone], [], by decide⟩

def seen : Gmr := ⟨"G1", "OPEN", "u1", []⟩

def calm : Round Unit := ⟨⟨1000, 0⟩, {}, fun _ => .calledOff, fun _ => (.ok (), ())⟩

def plain : SearchAnswer := ⟨[⟨"MRN-C", ["G1"]⟩], [seen]⟩

def doubled : SearchAnswer := ⟨[⟨"MRN-C", ["G1"]⟩], [seen, seen]⟩

theorem consistent_plain : plain.Consistent := by
  simp [SearchAnswer.Consistent, plain]

theorem rewording_doubled : Rewording plain doubled :=
  @Rewording.recordAgain _ [seen] [] seen (List.mem_singleton_self seen)

theorem findIncomplete_shelf : shelf.findIncomplete ({} : Policy).maxPollSize = [lone] :=
  Ledger.findIncomplete_eq_singleton rfl (by decide)

theorem due_shelf : shelf.findIncomplete ({} : Policy).maxPollSize ≠ [] := by
  rw [findIncomplete_shelf]
  exact List.cons_ne_nil _ _

theorem result_calm (answer : SearchAnswer) : ((calm.answering answer).outcome {} shelf).result =
    .ok (assess {} calm.now [lone] answer).summary := by
  have hwrites : (calm.answering answer).Writes {} shelf answer := ⟨rfl, due_shelf, rfl, rfl⟩
  rw [outcome, hwrites.run_eq, commit_of_writes hwrites, findIncomplete_shelf]
  exact ite_self _

-- The same in other words: the record twice, and its declaration in two parts.
theorem outcome_of_rewording_doubled :
    let other : SearchAnswer := ⟨[⟨" mrn-c", ["G1"]⟩, ⟨"MRN-C", ["G1"]⟩], [seen, seen]⟩
    (calm.answering other).handed {} shelf = (calm.answering plain).handed {} shelf ∧
      plain.distinct = other.distinct ∧ reported {} shelf plain = plain.distinct ∧
      ((calm.answering other).outcome {} shelf).result =
        ((calm.answering plain).outcome {} shelf).result.map fun summary =>
          { summary with uniqueGmrs := 2 } := by
  intro other
  have hagain : Rewording doubled ⟨[⟨"MRN-C", ["G1", "G1"]⟩], [seen, seen]⟩ :=
    @Rewording.idAgain "MRN-C" "G1" ["G1"] [] [] [seen, seen] (List.mem_singleton_self _)
  have hparted : Rewording ⟨[⟨"MRN-C", ["G1"] ++ ["G1"]⟩], [seen, seen]⟩ other :=
    Rewording.parted (by decide +kernel) rfl
  have hsame : Relation.EqvGen Rewording plain other :=
    ((Relation.EqvGen.rel _ _ rewording_doubled).trans _ _ _ (.rel _ _ hagain)).trans _ _ _
      (.rel _ _ hparted)
  have hreported : reported {} shelf other = 2 := by
    rw [reported, findIncomplete_shelf]
    rfl
  obtain ⟨-, hhanded, hresult, -, hdistinct, hunique⟩ :=
    outcome_of_rewording calm {} shelf consistent_plain hsame
  refine ⟨hhanded, hdistinct, (hunique due_shelf).mpr (by decide), ?_⟩
  rw [(hresult _ (result_calm plain)).2.1, hreported, result_calm plain]
  rfl

-- The same record twice makes two of it in the summary.
theorem not_forall_result_rewording :
    ¬∀ (round : Round Unit) (policy : Policy) (ledger : Ledger) (first second : SearchAnswer),
      first.Consistent → Relation.EqvGen Rewording first second →
      ((round.answering second).outcome policy ledger).result =
        ((round.answering first).outcome policy ledger).result := by
  intro hall
  have hsame := hall calm {} shelf plain doubled consistent_plain (.rel _ _ rewording_doubled)
  rw [result_calm, result_calm] at hsame
  have hcount := congrArg Summary.uniqueGmrs (Except.ok.inj hsame)
  exact absurd hcount (by decide)

end Runs

end Round

end Cycle

end DeclarationWatch
