import DeclarationWatch.Proofs.Cycle.Change
import DeclarationWatch.Proofs.Ledger.Order
import DeclarationWatch.Proofs.Lifecycle
import DeclarationWatch.Publish.Entry

namespace DeclarationWatch

-- A dash may also stand in what is joined, so the joint need not be where it was.
theorem append_dash_eq_iff (left right more rest : String) :
    left ++ "-" ++ more = right ++ "-" ++ rest ↔
      (left = right ∧ more = rest) ∨
        (∃ middle, right = left ++ "-" ++ middle ∧ more = middle ++ "-" ++ rest) ∨
        ∃ middle, left = right ++ "-" ++ middle ∧ rest = middle ++ "-" ++ more := by
  constructor
  · intro h
    have hchars : left.toList ++ '-' :: more.toList = right.toList ++ '-' :: rest.toList := by
      simpa using congrArg String.toList h
    rcases List.append_eq_append_iff.mp hchars with
      ⟨between, hright, hmore⟩ | ⟨between, hleft, hrest⟩
    · cases between with
      | nil =>
          obtain ⟨-, hmore⟩ := List.cons.inj hmore
          refine Or.inl ⟨String.toList_inj.mp ?_, String.toList_inj.mp hmore⟩
          simpa using hright.symm
      | cons c middle =>
          obtain ⟨rfl, hmore⟩ := List.cons.inj hmore
          refine Or.inr (Or.inl ⟨String.ofList middle, ?_, ?_⟩)
          · exact String.toList_inj.mp (by simpa using hright)
          · exact String.toList_inj.mp (by simpa using hmore)
    · cases between with
      | nil =>
          obtain ⟨-, hrest⟩ := List.cons.inj hrest
          refine Or.inl ⟨String.toList_inj.mp ?_, String.toList_inj.mp hrest.symm⟩
          simpa using hleft
      | cons c middle =>
          obtain ⟨rfl, hrest⟩ := List.cons.inj hrest
          refine Or.inr (Or.inr ⟨String.ofList middle, ?_, ?_⟩)
          · exact String.toList_inj.mp (by simpa using hleft)
          · exact String.toList_inj.mp (by simpa using hrest)
  · rintro (⟨rfl, rfl⟩ | ⟨middle, rfl, rfl⟩ | ⟨middle, rfl, rfl⟩)
    · rfl
    · simp only [String.append_assoc]
    · simp only [String.append_assoc]

theorem ne_append_dash (reference middle : String) : reference ≠ reference ++ "-" ++ middle := by
  intro h
  have hlength := congrArg String.length h
  simp only [String.length_append] at hlength
  have hdash : "-".length = 1 := rfl
  omega

namespace Sighting

-- The second reference goes on after the first, with a dash, and what it has more stands before
-- the record id of the first.
def Shadows (a b : Sighting) : Prop :=
  ∃ middle, b.mrn = a.mrn ++ "-" ++ middle ∧ a.gmr.id = middle ++ "-" ++ b.gmr.id

theorem identifier_eq_iff (a b : Sighting) : a.identifier = b.identifier ↔
    (a.mrn = b.mrn ∧ a.gmr.id = b.gmr.id) ∨ a.Shadows b ∨ b.Shadows a :=
  append_dash_eq_iff a.mrn b.mrn a.gmr.id b.gmr.id

theorem Shadows.mrn_ne {a b : Sighting} (h : a.Shadows b) : a.mrn ≠ b.mrn := by
  obtain ⟨middle, hmrn, -⟩ := h
  rw [hmrn]
  exact ne_append_dash a.mrn middle

end Sighting

-- No dash is in a reference of the right form.
theorem Mrn.dash_notMem_of_isWellFormed {s : List Char} (h : isWellFormed s = true) : '-' ∉ s := by
  simp only [isWellFormed, Bool.and_eq_true, List.all_eq_true] at h
  obtain ⟨⟨⟨-, hyear⟩, hcountry⟩, hrest⟩ := h
  intro hdash
  rw [← List.take_append_drop 2 s, ← List.take_append_drop 2 (s.drop 2), List.drop_drop,
    List.mem_append, List.mem_append] at hdash
  rcases hdash with hdash | hdash | hdash
  · exact absurd (hyear '-' hdash) (by decide)
  · exact absurd (hcountry '-' hdash) (by decide)
  · exact absurd (hrest '-' hdash) (by decide)

namespace Cycle

variable {τ : Type} {policy : Policy}

namespace Round

variable {ledger : Ledger} {round : Round τ}

-- The ids of the entries that a cycle hands to the publisher, in their order.
def entryIds (round : Round τ) (policy : Policy) (ledger : Ledger) : List String :=
  ((round.handed policy ledger).map Publish.Entry.ofSighting).map (·.id)

theorem entryIds_eq :
    round.entryIds policy ledger = (round.handed policy ledger).map Sighting.identifier := by
  rw [entryIds, List.map_map]
  rfl

-- The entries of a cycle have different ids unless one shadows another.
theorem nodup_entryIds_iff : (round.entryIds policy ledger).Nodup ↔
    ∀ a ∈ round.handed policy ledger, ∀ b ∈ round.handed policy ledger, ¬a.Shadows b := by
  rw [entryIds_eq]
  constructor
  · intro hnodup a ha b hb hshadows
    have hsame := (Sighting.identifier_eq_iff a b).mpr (Or.inr (Or.inl hshadows))
    exact hshadows.mrn_ne (congrArg Sighting.mrn (List.inj_on_of_nodup_map hnodup ha hb hsame))
  · intro hclear
    rw [List.Nodup, List.pairwise_map]
    refine pairwise_handed.imp_of_mem ?_
    intro a b ha hb hprecedes hsame
    rcases (Sighting.identifier_eq_iff a b).mp hsame with ⟨hmrn, hid⟩ | hshadows | hshadows
    · exact hprecedes.ne (Prod.ext hmrn hid)
    · exact hclear a ha b hb hshadows
    · exact hclear b hb a ha hshadows

end Round

-- Some reference goes on after another one, with a dash.
def Forked (ids : List String) : Prop :=
  ∃ shorter ∈ ids, ∃ longer ∈ ids, ∃ middle, longer = shorter ++ "-" ++ middle

theorem Forked.exists_dash {ids : List String} (h : Forked ids) : ∃ id ∈ ids, '-' ∈ id.toList := by
  obtain ⟨shorter, -, longer, hlonger, middle, rfl⟩ := h
  exact ⟨_, hlonger, by simp⟩

theorem Round.nodup_entryIds_of_not_forked {ledger : Ledger} {round : Round τ}
    (h : ¬Forked (dueIds policy ledger)) : (round.entryIds policy ledger).Nodup := by
  rw [nodup_entryIds_iff]
  rintro a ha b hb ⟨middle, hmrn, -⟩
  exact h ⟨a.mrn, mrn_mem_of_mem_handed ha, b.mrn, mrn_mem_of_mem_handed hb, middle, hmrn⟩

-- A snapshot knows one version of a record at most.
theorem exists_version_of_isKnown (prior : Snapshot) (id : String) :
    ∃ seen, ∀ gmr : Gmr, gmr.id = id → isKnown prior gmr = true → gmr.updated = seen := by
  by_cases h : ∃ gmr : Gmr, gmr.id = id ∧ isKnown prior gmr = true
  · obtain ⟨seen, hseen, hknown⟩ := h
    refine ⟨seen.updated, fun gmr hgmr hother => ?_⟩
    obtain ⟨stored, previous, hstored, hprevious, hversion⟩ := (isKnown_iff prior seen).mp hknown
    obtain ⟨stored', previous', hstored', hprevious', hversion'⟩ := (isKnown_iff prior gmr).mp hother
    rw [hgmr, ← hseen, hstored] at hstored'
    cases hstored'
    rw [hprevious] at hprevious'
    cases hprevious'
    exact hversion'.symm.trans hversion
  · exact ⟨"", fun gmr hgmr hknown => absurd ⟨gmr, hgmr, hknown⟩ h⟩

-- So there is a version that two snapshots do not know.
theorem exists_version_unknown (prior other : Snapshot) (id otherId : String) :
    ∃ updated, (∀ gmr : Gmr, gmr.id = id → gmr.updated = updated → isKnown prior gmr = false) ∧
      ∀ gmr : Gmr, gmr.id = otherId → gmr.updated = updated → isKnown other gmr = false := by
  obtain ⟨seen, hseen⟩ := exists_version_of_isKnown prior id
  obtain ⟨seen', hseen'⟩ := exists_version_of_isKnown other otherId
  have hlonger : ∀ s, (s = seen ∨ s = seen') → s ≠ seen ++ "+" ++ seen' := by
    intro s hs heq
    have hlength := congrArg String.length heq
    have hplus : "+".length = 1 := rfl
    simp only [String.length_append] at hlength
    rcases hs with rfl | rfl <;> omega
  refine ⟨seen ++ "+" ++ seen', fun gmr hgmr hupdated => ?_, fun gmr hgmr hupdated => ?_⟩
  · rw [Bool.eq_false_iff]
    intro hknown
    exact hlonger _ (Or.inl (hseen gmr hgmr hknown)) hupdated
  · rw [Bool.eq_false_iff]
    intro hknown
    exact hlonger _ (Or.inr (hseen' gmr hgmr hknown)) hupdated

-- What is due has been registered.
theorem exists_watch_of_mem_dueIds {past : List (Act τ)} {id : String}
    (h : id ∈ dueIds policy (replay policy .empty past)) :
    ∃ outage now reference, .watch outage now reference ∈ past ∧ Mrn.canonical reference = id := by
  obtain ⟨item, hitem, rfl⟩ := List.mem_map.mp h
  have hthere : (replay policy .empty past).find? item.id ≠ none := by
    simp [Ledger.find?_of_mem_findIncomplete hitem]
  obtain ⟨before, act, after, rfl, ⟨outage, now, reference, result, rfl, hid, -⟩, -⟩ :=
    (find?_replay_ne_none_iff past item.id).mp hthere
  exact ⟨outage, now, reference, by simp, hid⟩

-- Where a due reference goes on after another, the movement service can answer so that two
-- entries have one id.
theorem exists_clash_of_forked {past : List (Act τ)} (now : Time.Instant)
    (publish : List Sighting → Except PublishFailure Unit × τ)
    (h : Forked (dueIds policy (replay policy .empty past))) :
    ∃ answer, ¬(Round.entryIds ⟨now, {}, fun _ => .answered (.ok answer), publish⟩ policy
      (replay policy .empty past)).Nodup := by
  obtain ⟨shorter, hshorter, longer, hlonger, middle, hmiddle⟩ := h
  obtain ⟨-, -, spelled, -, hspelled⟩ := exists_watch_of_mem_dueIds hshorter
  obtain ⟨-, -, spelled', -, hspelled'⟩ := exists_watch_of_mem_dueIds hlonger
  obtain ⟨item, hitem, hid⟩ := List.mem_map.mp hshorter
  obtain ⟨item', hitem', hid'⟩ := List.mem_map.mp hlonger
  obtain ⟨updated, hnew, hnew'⟩ :=
    exists_version_unknown item.snapshot item'.snapshot (middle ++ "-" ++ "G") "G"
  let gmr : Gmr := ⟨middle ++ "-" ++ "G", "", updated, []⟩
  let gmr' : Gmr := ⟨"G", "", updated, []⟩
  have hne : gmr.id ≠ gmr'.id := by
    intro heq
    have hlength := congrArg String.length heq
    have hdash : "-".length = 1 := rfl
    simp only [gmr, gmr', String.length_append] at hlength
    omega
  let answer : SearchAnswer := ⟨[⟨spelled, [gmr.id]⟩, ⟨spelled', [gmr'.id]⟩], [gmr, gmr']⟩
  have hresolves : answer.Resolves shorter gmr :=
    ⟨⟨[], [gmr'], rfl, by simpa using hne⟩, ⟨spelled, [gmr.id]⟩, by simp [answer], hspelled, by simp⟩
  have hresolves' : answer.Resolves longer gmr' :=
    ⟨⟨[gmr], [], rfl, by simp⟩, ⟨spelled', [gmr'.id]⟩, by simp [answer], hspelled', by simp⟩
  refine ⟨answer, fun hnodup => ?_⟩
  have hwrites : Round.Writes (⟨now, {}, fun _ => .answered (.ok answer), publish⟩ : Round τ) policy
      (replay policy .empty past) answer := ⟨rfl, List.ne_nil_of_mem hitem, rfl, rfl⟩
  rw [Round.nodup_entryIds_iff, hwrites.handed_eq] at hnodup
  refine hnodup ⟨shorter, gmr⟩ ?_ ⟨longer, gmr'⟩ ?_ ⟨middle, hmiddle, rfl⟩
  · exact (mem_selected_iff answer _).mpr ⟨item, hitem, hid, hresolves, hnew gmr rfl rfl⟩
  · exact (mem_selected_iff answer _).mpr ⟨item', hitem', hid', hresolves', hnew' gmr' rfl rfl⟩

-- No cycle hands over a record twice for one declaration. Its entries have different ids unless
-- one shadows another, and no answer brings that about unless a due reference goes on after
-- another one. References of the right form never do.
theorem entryIds_nodup_iff (policy : Policy) (past : List (Act τ)) :
    let ledger := replay policy .empty past
    (∀ round : Round τ,
      (round.handed policy ledger).Pairwise
        (fun a b => (a.mrn, a.gmr.id) ≠ (b.mrn, b.gmr.id)) ∧
      ((round.entryIds policy ledger).Nodup ↔
        ∀ a ∈ round.handed policy ledger, ∀ b ∈ round.handed policy ledger, ¬a.Shadows b)) ∧
    (∀ now (publish : List Sighting → Except PublishFailure Unit × τ),
      (∀ outage search, (Round.entryIds ⟨now, outage, search, publish⟩ policy ledger).Nodup) ↔
        ¬Forked (dueIds policy ledger)) ∧
    ((∀ outage now reference, .watch outage now reference ∈ past →
        Mrn.isWellFormed (Mrn.canonical reference).toList = true) →
      ∀ round : Round τ, (round.entryIds policy ledger).Nodup) := by
  intro ledger
  refine ⟨fun round => ⟨?distinct, Round.nodup_entryIds_iff⟩, fun now publish => ?forked, ?formed⟩
  case distinct =>
    exact Round.pairwise_handed.imp Precedes.ne
  case forked =>
    constructor
    · intro hall hforked
      obtain ⟨answer, hclash⟩ := exists_clash_of_forked now publish hforked
      exact hclash (hall {} _)
    · intro hclear outage search
      exact Round.nodup_entryIds_of_not_forked hclear
  case formed =>
    intro hformed round
    refine Round.nodup_entryIds_of_not_forked fun hforked => ?_
    obtain ⟨id, hid, hdash⟩ := hforked.exists_dash
    obtain ⟨outage, now, reference, hmem, rfl⟩ := exists_watch_of_mem_dueIds hid
    exact Mrn.dash_notMem_of_isWellFormed (hformed outage now reference hmem) hdash

section Runs

-- Two registrations, and a cycle with these associations and these records.
def runOf (first second : String) : List (Act Unit) :=
  [.watch {} ⟨0, 0⟩ first, .watch {} ⟨0, 0⟩ second]

def roundOf (associations : List Association) (gmrs : List Gmr) : Round Unit where
  now := ⟨1, 0⟩
  search := fun _ => .answered (.ok ⟨associations, gmrs⟩)
  publish := fun _ => (.ok (), ())

def watched (id : String) : Item := ⟨id, [], false, ⟨0, 0⟩, ⟨2592000, 0⟩, none⟩

theorem entryIds_roundOf {first second : String} (items : List Item)
    (hitems : (replay {} .empty (runOf first second)).pending = items)
    (hsorted : items.Pairwise fun a b => a.isDueBefore b = true) (hlength : items.length = 2)
    (associations : List Association) (gmrs : List Gmr) :
    (roundOf associations gmrs).entryIds {} (replay {} .empty (runOf first second)) =
      (items.flatMap fun item => changedOf item
        (SearchAnswer.resolved ⟨associations, gmrs⟩ item.id)).map Sighting.identifier := by
  subst hitems
  have hlimit : ((replay {} .empty (runOf first second)).pending.length : Int) ≤
      ({} : Policy).maxPollSize := by simp [hlength]
  have hfound := Ledger.findIncomplete_of_pairwise hsorted hlimit
  have hwrites : (roundOf associations gmrs).Writes {} (replay {} .empty (runOf first second))
      ⟨associations, gmrs⟩ := by
    refine ⟨rfl, ?_, rfl, rfl⟩
    rw [hfound]
    exact List.ne_nil_of_length_pos (by omega)
  rw [Round.entryIds_eq, hwrites.handed_eq, selected, hfound]

-- Two declarations in the right form share a record.
theorem entryIds_nodup_iff_shared :
    let past := runOf "24GBABCDEFGHIJKLM1" " 24gbabcdefghijklm2 "
    let round := roundOf [⟨"24GBABCDEFGHIJKLM1", ["G1"]⟩, ⟨"24GBABCDEFGHIJKLM2", ["G1"]⟩]
      [⟨"G1", "OPEN", "v1", []⟩]
    (∀ outage now reference, .watch outage now reference ∈ past →
        Mrn.isWellFormed (Mrn.canonical reference).toList = true) ∧
      round.entryIds {} (replay {} .empty past) =
        ["24GBABCDEFGHIJKLM1-G1", "24GBABCDEFGHIJKLM2-G1"] ∧
      (round.entryIds {} (replay {} .empty past)).Nodup := by
  intro past round
  have hformed : ∀ outage now reference, .watch outage now reference ∈ past →
      Mrn.isWellFormed (Mrn.canonical reference).toList = true := by
    intro outage now reference hmem
    simp only [past, runOf, List.mem_cons, Act.watch.injEq, List.not_mem_nil, or_false] at hmem
    rcases hmem with ⟨-, -, rfl⟩ | ⟨-, -, rfl⟩ <;> decide +kernel
  refine ⟨hformed, ?_, (entryIds_nodup_iff {} past).2.2 hformed round⟩
  rw [entryIds_roundOf [watched "24GBABCDEFGHIJKLM1", watched "24GBABCDEFGHIJKLM2"]
    (by decide +kernel) (by decide) rfl]
  decide +kernel

-- One reference goes on after the other, and neither has the right form.
theorem not_forall_entryIds_nodup :
    ¬∀ (policy : Policy) (past : List (Act Unit)) (round : Round Unit),
      (round.entryIds policy (replay policy .empty past)).Nodup := by
  intro hall
  let round := roundOf [⟨"MRN", ["A-G"]⟩, ⟨"MRN-A", ["G"]⟩]
    [⟨"A-G", "OPEN", "v1", []⟩, ⟨"G", "OPEN", "v1", []⟩]
  have hids : round.entryIds {} (replay {} .empty (runOf "MRN" "MRN-A")) =
      ["MRN-A-G", "MRN-A-G"] := by
    rw [entryIds_roundOf [watched "MRN", watched "MRN-A"] (by decide +kernel) (by decide) rfl]
    decide +kernel
  have hnodup := hall {} (runOf "MRN" "MRN-A") round
  rw [hids] at hnodup
  exact absurd hnodup (by decide)

end Runs

end Cycle

end DeclarationWatch
