import DeclarationWatch.Gmr.Join
import DeclarationWatch.Proofs.Keyed

namespace DeclarationWatch.SearchAnswer

-- The record that counts for its id: none after it bears the same id.
def Lists (answer : SearchAnswer) (gmr : Gmr) : Prop :=
  ∃ before after, answer.gmrs = before ++ gmr :: after ∧ gmr.id ∉ after.map (·.id)

-- Some association puts the record id on the declaration, however it spells the declaration.
def Names (answer : SearchAnswer) (mrn id : String) : Prop :=
  ∃ association ∈ answer.associations,
    Mrn.canonical association.declaration = mrn ∧ id ∈ association.gmrIds

-- The record belongs to the declaration.
def Resolves (answer : SearchAnswer) (mrn : String) (gmr : Gmr) : Prop :=
  answer.Lists gmr ∧ answer.Names mrn gmr.id

-- The records of a declaration, as a cycle reads them.
def resolved (answer : SearchAnswer) (mrn : String) : List Gmr :=
  recordsOf answer.byDeclaration mrn

-- A group is looked for in one pass and its records are read in another.
theorem hasRecords_eq (groups : Keyed (Keyed Gmr)) (id : String) :
    hasRecords groups id = !(recordsOf groups id).isEmpty := by
  unfold hasRecords recordsOf
  cases groups.get? id <;> rfl

-- Every record of the table stands under its own id.
def OwnKeys (table : Keyed Gmr) : Prop := ∀ id gmr, table.get? id = some gmr → gmr.id = id

theorem get?_recordsById (answer : SearchAnswer) (id : String) (gmr : Gmr) :
    answer.recordsById.get? id = some gmr ↔ gmr.id = id ∧ answer.Lists gmr := by
  unfold recordsById
  rw [Keyed.get?_ofList]
  constructor
  · rintro ⟨before, after, heq, hafter⟩
    obtain ⟨before, rest, hgmrs, rfl, hrest⟩ := List.map_eq_append_iff.mp heq
    obtain ⟨head, after, rfl, hhead, rfl⟩ := List.map_eq_cons_iff.mp hrest
    obtain ⟨rfl, rfl⟩ := Prod.mk.inj hhead
    exact ⟨rfl, before, after, hgmrs, by simpa using hafter⟩
  · rintro ⟨rfl, before, after, hgmrs, hafter⟩
    refine ⟨before.map fun gmr => (gmr.id, gmr), after.map fun gmr => (gmr.id, gmr), ?_, ?_⟩
    · simp [hgmrs]
    · simpa using hafter

-- Of each id that is listed some record counts.
theorem exists_lists {answer : SearchAnswer} {gmr : Gmr} (h : gmr ∈ answer.gmrs) :
    ∃ last, answer.Lists last ∧ last.id = gmr.id := by
  obtain ⟨before, last, after, hgmrs, hid, hafter⟩ :=
    exists_last (P := fun record => record.id = gmr.id) h rfl
  refine ⟨last, ⟨before, after, hgmrs, fun hmem => ?_⟩, hid⟩
  obtain ⟨later, hlater, hsame⟩ := List.mem_map.mp hmem
  exact hafter later hlater (hsame.trans hid)

theorem ownKeys_recordsById (answer : SearchAnswer) : OwnKeys answer.recordsById :=
  fun id gmr h => ((get?_recordsById answer id gmr).mp h).1

section Groups

variable {table : Keyed Gmr}

-- Named records are put into a group without disturbing the ids that are not named.
theorem get?_foldl_named (htable : OwnKeys table) (ids : List String) (group : Keyed Gmr)
    (id : String) (gmr : Gmr) :
    ((ids.filterMap fun id => table.get? id).foldl (fun g gmr => g.insert gmr.id gmr) group).get? id
        = some gmr ↔
      (id ∈ ids ∧ table.get? id = some gmr) ∨
        ((id ∈ ids → table.get? id = none) ∧ group.get? id = some gmr) := by
  induction ids generalizing group with
  | nil => simp
  | cons first ids ih =>
      cases hfirst : table.get? first with
      | none =>
          simp only [List.filterMap_cons, hfirst]
          rw [ih]
          by_cases hid : id = first
          · subst hid
            simp [hfirst]
          · simp [hid]
      | some record =>
          simp only [List.filterMap_cons, hfirst, List.foldl_cons]
          rw [ih, htable first record hfirst, Keyed.get?_insert]
          by_cases hid : id = first
          · subst hid
            by_cases hmem : id ∈ ids <;> simp [hfirst, hmem]
          · simp [hid]

theorem ascending_foldl_insert (gmrs : List Gmr) (group : Keyed Gmr) (h : group.Ascending) :
    (gmrs.foldl (fun g gmr => g.insert gmr.id gmr) group).Ascending := by
  induction gmrs generalizing group with
  | nil => exact h
  | cons gmr gmrs ih => exact ih _ (h.insert gmr.id gmr)

-- The group of a declaration after the associations so far.
def groupOf (groups : Keyed (Keyed Gmr)) (mrn : String) : Keyed Gmr := (groups.get? mrn).getD []

theorem groupOf_addAssociation (groups : Keyed (Keyed Gmr)) (association : Association)
    (mrn : String) :
    groupOf (addAssociation table groups association) mrn =
      if mrn = Mrn.canonical association.declaration then
        (named table association).foldl (fun g gmr => g.insert gmr.id gmr) (groupOf groups mrn)
      else groupOf groups mrn := by
  simp only [groupOf, addAssociation, Keyed.get?_insert]
  by_cases h : mrn = Mrn.canonical association.declaration
  · simp [h]
  · simp [h]

theorem ascending_groupOf (associations : List Association) (mrn : String) :
    (groupOf (associations.foldl (addAssociation table) []) mrn).Ascending := by
  induction associations using List.reverseRecOn with
  | nil => exact Keyed.ascending_nil
  | append_singleton associations association ih =>
      rw [List.foldl_append, List.foldl_cons, List.foldl_nil, groupOf_addAssociation]
      split
      · exact ascending_foldl_insert _ _ ih
      · exact ih

-- A group holds what some association names for its declaration and the table has.
theorem get?_groupOf (htable : OwnKeys table) (associations : List Association)
    (mrn id : String) (gmr : Gmr) :
    (groupOf (associations.foldl (addAssociation table) []) mrn).get? id = some gmr ↔
      table.get? id = some gmr ∧ ∃ association ∈ associations,
        Mrn.canonical association.declaration = mrn ∧ id ∈ association.gmrIds := by
  induction associations using List.reverseRecOn with
  | nil => simp [groupOf]
  | append_singleton associations association ih =>
      rw [List.foldl_append, List.foldl_cons, List.foldl_nil, groupOf_addAssociation]
      simp only [List.mem_append, List.mem_singleton]
      by_cases hmrn : mrn = Mrn.canonical association.declaration
      · simp only [hmrn, if_true]
        rw [named, get?_foldl_named htable, ← hmrn, ih]
        constructor
        · rintro (⟨hid, hget⟩ | ⟨-, hget, other, hother, hrest⟩)
          · exact ⟨hget, association, Or.inr rfl, hmrn.symm, hid⟩
          · exact ⟨hget, other, Or.inl hother, hrest⟩
        · rintro ⟨hget, other, hother | rfl, hrest⟩
          · by_cases hid : id ∈ association.gmrIds
            · exact Or.inl ⟨hid, hget⟩
            · exact Or.inr ⟨fun h => absurd h hid, hget, other, hother, hrest⟩
          · exact Or.inl ⟨hrest.2, hget⟩
      · simp only [hmrn, if_false]
        rw [ih]
        constructor
        · rintro ⟨hget, other, hother, hrest⟩
          exact ⟨hget, other, Or.inl hother, hrest⟩
        · rintro ⟨hget, other, hother | rfl, hrest⟩
          · exact ⟨hget, other, hother, hrest⟩
          · exact absurd hrest.1.symm hmrn

end Groups

theorem get?_groupOf_byDeclaration (answer : SearchAnswer) (mrn id : String) (gmr : Gmr) :
    (groupOf answer.byDeclaration mrn).get? id = some gmr ↔
      gmr.id = id ∧ answer.Resolves mrn gmr := by
  unfold byDeclaration
  rw [get?_groupOf answer.ownKeys_recordsById, get?_recordsById]
  constructor
  · rintro ⟨⟨rfl, hlists⟩, hnames⟩
    exact ⟨rfl, hlists, hnames⟩
  · rintro ⟨rfl, hlists, hnames⟩
    exact ⟨⟨rfl, hlists⟩, hnames⟩

theorem mem_resolved_iff (answer : SearchAnswer) (mrn : String) (gmr : Gmr) :
    gmr ∈ answer.resolved mrn ↔ answer.Resolves mrn gmr := by
  have hasc : (groupOf answer.byDeclaration mrn).Ascending := ascending_groupOf _ mrn
  unfold resolved recordsOf Keyed.values
  rw [List.mem_map]
  constructor
  · rintro ⟨⟨id, record⟩, hmem, rfl⟩
    have hget := (Keyed.get?_eq_some_iff hasc id record).mpr hmem
    exact ((get?_groupOf_byDeclaration answer mrn id record).mp hget).2
  · intro h
    have hget := (get?_groupOf_byDeclaration answer mrn gmr.id gmr).mpr ⟨rfl, h⟩
    exact ⟨(gmr.id, gmr), Keyed.mem_of_get? hget, rfl⟩

-- One record for each id, in the order of the ids.
theorem pairwise_resolved (answer : SearchAnswer) (mrn : String) :
    (answer.resolved mrn).Pairwise fun a b => a.id < b.id := by
  have hasc : (groupOf answer.byDeclaration mrn).Ascending := ascending_groupOf _ mrn
  have hids : ∀ pair ∈ groupOf answer.byDeclaration mrn, pair.2.id = pair.1 := by
    intro pair hmem
    have hget := (Keyed.get?_eq_some_iff hasc pair.1 pair.2).mpr hmem
    exact ((get?_groupOf_byDeclaration answer mrn pair.1 pair.2).mp hget).1
  unfold resolved recordsOf Keyed.values
  rw [List.pairwise_map]
  refine (List.pairwise_map.mp hasc).imp_of_mem ?_
  intro a b ha hb hlt
  rw [hids a ha, hids b hb]
  exact hlt

end DeclarationWatch.SearchAnswer
