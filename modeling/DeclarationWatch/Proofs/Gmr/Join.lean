import DeclarationWatch.Proofs.Resolution
import DeclarationWatch.Proofs.Text.Utf8
import Mathlib.Tactic.Linarith

namespace DeclarationWatch.SearchAnswer

section Tables

-- A table by key that gives back its pairs in an order of its own.
structure Table (τ : Type → Type) where
  empty {α : Type} : τ α
  insert {α : Type} : String → α → τ α → τ α
  get? {α : Type} : String → τ α → Option α
  pairs {α : Type} : τ α → List (String × α)
  get?_empty {α : Type} (k : String) : get? k (empty : τ α) = none
  get?_insert {α : Type} (key k : String) (value : α) (content : τ α) :
    get? k (insert key value content) = if k = key then some value else get? k content
  mem_pairs {α : Type} (k : String) (value : α) (content : τ α) :
    (k, value) ∈ pairs content ↔ get? k content = some value

namespace Table

variable {τ : Type → Type} {α : Type} (table : Table τ)

def ofPairs (pairs : List (String × α)) : τ α :=
  pairs.foldl (fun content pair => table.insert pair.1 pair.2 content) table.empty

def addAssociation (records : τ Gmr) (groups : τ (Keyed Gmr)) (association : Association) :
    τ (Keyed Gmr) :=
  let mrn := Mrn.canonical association.declaration
  let named := association.gmrIds.filterMap fun id => table.get? id records
  let group := (table.get? mrn groups).getD []
  table.insert mrn (named.foldl (fun g gmr => g.insert gmr.id gmr) group) groups

-- The records of each declaration, with such tables for the records and for the groups. The groups
-- are taken out in the order of their table and put into another one.
def join (answer : SearchAnswer) : τ (List Gmr) :=
  let records := table.ofPairs (answer.gmrs.map fun gmr => (gmr.id, gmr))
  let groups := answer.associations.foldl (table.addAssociation records) table.empty
  table.ofPairs ((table.pairs groups).map fun pair => (pair.1, pair.2.values))

theorem get?_ofPairs (pairs : List (String × α)) (k : String) :
    table.get? k (table.ofPairs pairs) = (Keyed.ofList pairs).get? k := by
  unfold ofPairs Keyed.ofList
  induction pairs using List.reverseRecOn with
  | nil => exact table.get?_empty k
  | append_singleton pairs pair ih =>
      simp only [List.foldl_append, List.foldl_cons, List.foldl_nil, table.get?_insert,
        Keyed.get?_insert, ih]

-- Where no key has two values, it does not matter in which order the pairs are put in.
theorem get?_ofPairs_of_functional {pairs : List (String × α)}
    (h : ∀ k v w, (k, v) ∈ pairs → (k, w) ∈ pairs → v = w) (k : String) (v : α) :
    table.get? k (table.ofPairs pairs) = some v ↔ (k, v) ∈ pairs := by
  rw [get?_ofPairs, Keyed.get?_ofList]
  constructor
  · rintro ⟨before, after, rfl, -⟩
    simp
  · intro hmem
    obtain ⟨before, ⟨k, w⟩, after, rfl, rfl, hafter⟩ :=
      exists_last (P := fun pair => pair.1 = k) hmem rfl
    obtain rfl : v = w := h k v w hmem (by simp)
    refine ⟨before, after, rfl, fun hin => ?_⟩
    obtain ⟨later, hlater, hk⟩ := List.mem_map.mp hin
    exact hafter later hlater hk

theorem get?_foldl_addAssociation (answer : SearchAnswer) (associations : List Association)
    (mrn : String) :
    let records := table.ofPairs (answer.gmrs.map fun gmr => (gmr.id, gmr))
    table.get? mrn (associations.foldl (table.addAssociation records) table.empty) =
      (associations.foldl (SearchAnswer.addAssociation answer.recordsById) []).get? mrn := by
  intro records
  have hnamed (association : Association) :
      (association.gmrIds.filterMap fun id => table.get? id records) =
        named answer.recordsById association :=
    congrArg (association.gmrIds.filterMap ·) (funext fun id => table.get?_ofPairs _ id)
  induction associations using List.reverseRecOn generalizing mrn with
  | nil => exact table.get?_empty mrn
  | append_singleton associations association ih =>
      simp only [List.foldl_append, List.foldl_cons, List.foldl_nil, addAssociation,
        SearchAnswer.addAssociation, table.get?_insert, Keyed.get?_insert, hnamed, ih]

-- The tables and their orders leave no trace in the join.
theorem get?_join (answer : SearchAnswer) (mrn : String) :
    table.get? mrn (table.join answer) = (answer.byDeclaration.get? mrn).map Keyed.values := by
  have hgroups : ∀ mrn, _ = answer.byDeclaration.get? mrn :=
    table.get?_foldl_addAssociation answer answer.associations
  refine Option.ext fun gmrs => ?_
  unfold join
  rw [get?_ofPairs_of_functional, ← hgroups]
  · simp only [List.mem_map, Prod.mk.injEq, Prod.exists, Option.map_eq_some_iff, table.mem_pairs]
    constructor
    · rintro ⟨k, group, hgroup, rfl, rfl⟩
      exact ⟨group, hgroup, rfl⟩
    · rintro ⟨group, hgroup, rfl⟩
      exact ⟨mrn, group, hgroup, rfl, rfl⟩
  · intro k v w hv hw
    obtain ⟨⟨k, group⟩, hgroup, hv⟩ := List.mem_map.mp hv
    obtain ⟨⟨k, other⟩, hother, hw⟩ := List.mem_map.mp hw
    cases hv
    cases hw
    have hsame := ((table.mem_pairs _ _ _).mp hgroup).symm.trans ((table.mem_pairs _ _ _).mp hother)
    rw [Option.some.inj hsame]

-- A table that is kept by hash codes is of this kind.
def hashed : Table (fun α => Std.HashMap String α) where
  empty := ∅
  insert key value content := content.insert key value
  get? k content := content[k]?
  pairs content := content.toList
  get?_empty _ := Std.HashMap.getElem?_empty
  get?_insert key k value content := by
    rw [Std.HashMap.getElem?_insert]
    exact if_congr (beq_iff_eq.trans eq_comm) rfl rfl
  mem_pairs _ _ _ := Std.HashMap.mem_toList_iff_getElem?_eq_some

end Table

end Tables

variable {answer : SearchAnswer} {mrn : String} {group : Keyed Gmr}

-- A declaration has a group as soon as some association names it, even if no record is on it.
theorem isSome_get?_byDeclaration (answer : SearchAnswer) (mrn : String) :
    (answer.byDeclaration.get? mrn).isSome ↔
      ∃ association ∈ answer.associations, Mrn.canonical association.declaration = mrn := by
  unfold byDeclaration
  induction answer.associations using List.reverseRecOn with
  | nil => simp
  | append_singleton associations association ih =>
      simp only [List.foldl_append, List.foldl_cons, List.foldl_nil, addAssociation,
        Keyed.get?_insert, List.mem_append, List.mem_singleton]
      by_cases hmrn : mrn = Mrn.canonical association.declaration
      · simp only [hmrn, if_true, Option.isSome_some, true_iff]
        exact ⟨association, Or.inr rfl, rfl⟩
      · simp only [hmrn, if_false, ih]
        constructor
        · rintro ⟨other, hother, hcanonical⟩
          exact ⟨other, Or.inl hother, hcanonical⟩
        · rintro ⟨other, hother | rfl, hcanonical⟩
          · exact ⟨other, hother, hcanonical⟩
          · exact absurd hcanonical.symm hmrn

theorem resolved_of_get?_byDeclaration (h : answer.byDeclaration.get? mrn = some group) :
    answer.resolved mrn = group.values := by
  rw [resolved, recordsOf, h, Option.getD_some]

-- The last record with an id is the only one that counts for it.
theorem Lists.unique {a b : Gmr} (ha : answer.Lists a) (hb : answer.Lists b) (hid : a.id = b.id) :
    a = b := by
  have hfirst := (get?_recordsById answer a.id a).mpr ⟨rfl, ha⟩
  have hsecond := (get?_recordsById answer a.id b).mpr ⟨hid.symm, hb⟩
  exact Option.some.inj (hfirst.symm.trans hsecond)

-- The join is exact and in order. A declaration has an entry exactly if an association means it.
-- The entry ascends by the bytes of the ids, and it has one record for each id that is named for
-- the declaration and listed in the answer: the last one listed with the id. Whatever tables are
-- used on the way, and however they order what they hold, the entry is the same.
theorem byDeclaration_exact (answer : SearchAnswer) (mrn : String) :
    ((answer.byDeclaration.get? mrn).isSome ↔
      ∃ association ∈ answer.associations, Mrn.canonical association.declaration = mrn) ∧
    (∀ group, answer.byDeclaration.get? mrn = some group →
      group.values.Pairwise (fun a b => Text.utf8 a.id < Text.utf8 b.id) ∧
      (∀ gmr ∈ group.values, answer.Lists gmr ∧ answer.Names mrn gmr.id) ∧
      ∀ id, answer.Names mrn id → id ∈ answer.gmrs.map (·.id) →
        ∃! gmr, gmr ∈ group.values ∧ gmr.id = id) ∧
    ∀ (τ : Type → Type) (table : Table τ),
      table.get? mrn (table.join answer) = (answer.byDeclaration.get? mrn).map Keyed.values := by
  refine ⟨isSome_get?_byDeclaration answer mrn, fun group hgroup => ?_,
    fun τ table => table.get?_join answer mrn⟩
  have hmem : ∀ gmr, gmr ∈ group.values ↔ answer.Resolves mrn gmr := fun gmr => by
    rw [← resolved_of_get?_byDeclaration hgroup, mem_resolved_iff]
  refine ⟨?_, fun gmr hgmr => (hmem gmr).mp hgmr, fun id hnamed hlisted => ?_⟩
  · rw [← resolved_of_get?_byDeclaration hgroup]
    exact (answer.pairwise_resolved mrn).imp Text.utf8_lt_utf8_iff.mpr
  · obtain ⟨gmr, hgmr, rfl⟩ := List.mem_map.mp hlisted
    obtain ⟨last, hlast, hid⟩ := exists_lists hgmr
    refine ⟨last, ⟨(hmem last).mpr ⟨hlast, hid ▸ hnamed⟩, hid⟩, ?_⟩
    rintro other ⟨hother, hsame⟩
    exact ((hmem other).mp hother).1.unique hlast (hsame.trans hid.symm)

-- Two spellings of one declaration, a record that is listed twice, an id that is named twice and
-- one that names nothing, in tables that are kept by hash codes.
theorem byDeclaration_exact_two :
    let plain : Gmr := ⟨"G1", "OPEN", "v1", []⟩
    let early : Gmr := ⟨"G2", "OPEN", "v1", []⟩
    let late : Gmr := ⟨"G2", "DONE", "v2", []⟩
    let answer : SearchAnswer :=
      ⟨[⟨" mrn-c", ["G2", "G7"]⟩, ⟨"MRN-C", ["G1", "G2"]⟩], [early, plain, late]⟩
    (Table.hashed.get? "MRN-C" (Table.hashed.join answer)).map
        (·.map fun gmr => (gmr.id, gmr.updated)) = some [("G1", "v1"), ("G2", "v2")] ∧
      ∃ group, answer.byDeclaration.get? "MRN-C" = some group ∧
        ∃! gmr, gmr ∈ group.values ∧ gmr.id = "G2" := by
  intro plain early late answer
  obtain ⟨hentry, hgroup, htables⟩ := byDeclaration_exact answer "MRN-C"
  obtain ⟨group, hget⟩ := Option.isSome_iff_exists.mp
    (hentry.mpr ⟨⟨"MRN-C", ["G1", "G2"]⟩, by simp [answer], rfl⟩)
  refine ⟨?_, group, hget, (hgroup group hget).2.2 "G2" ?_ (by simp [answer, early])⟩
  · rw [htables _ Table.hashed]
    decide +kernel
  · exact ⟨⟨" mrn-c", ["G2", "G7"]⟩, List.mem_cons_self, rfl, List.mem_cons_self⟩

end DeclarationWatch.SearchAnswer
