import DeclarationWatch.Net.Exchange
import DeclarationWatch.Proofs.Net.Percent
import Mathlib.Data.List.DropRight

namespace DeclarationWatch.Net

section Prefixes

variable {α : Type} {p : α → Bool} {a : α}

theorem takeWhile_append_cons (ha : p a = false) (s t : List α) :
    (s ++ a :: t).takeWhile p = s.takeWhile p := by
  induction s with
  | nil => simp [ha]
  | cons b s ih => cases hb : p b <;> simp [hb, ih]

theorem dropWhile_append_cons (ha : p a = false) (s t : List α) :
    (s ++ a :: t).dropWhile p = s.dropWhile p ++ a :: t := by
  induction s with
  | nil => simp [ha]
  | cons b s ih => cases hb : p b <;> simp [hb, ih]

end Prefixes

namespace Path

-- Where the segments lead to that have more segments after them.
def descend : List (List Char) → List (List Char) → List (List Char)
  | place, [] => place
  | place, segment :: rest =>
      if isParent segment then descend place.tail rest
      else if isHere segment then descend place rest
      else descend (segment :: place) rest

-- What a final segment leaves behind.
def landed (segment : List Char) : List Char :=
  if isParent segment || isHere segment then [] else segment

variable {rest : List (List Char)} {segment : List Char}

theorem landed_sublist (segment : List Char) : (landed segment).Sublist segment := by
  unfold landed
  split
  · exact List.nil_sublist _
  · exact List.Sublist.refl _

theorem walk_cons (hrest : rest ≠ []) (place : List (List Char)) (segment : List Char) :
    walk place (segment :: rest) =
      if isParent segment then walk place.tail rest
      else if isHere segment then walk place rest
      else walk (segment :: place) rest := by
  rw [walk]
  exact hrest

theorem walk_append (hrest : rest ≠ []) (place segments : List (List Char)) :
    walk place (segments ++ rest) = walk (descend place segments) rest := by
  induction segments generalizing place with
  | nil => rfl
  | cons segment segments ih =>
      rw [List.cons_append, walk_cons (List.append_ne_nil_of_right_ne_nil _ hrest), descend]
      split
      · exact ih _
      · split <;> exact ih _

theorem descend_of_forall {segments : List (List Char)}
    (h : ∀ segment ∈ segments, isParent segment = false ∧ isHere segment = false)
    (place : List (List Char)) : descend place segments = segments.reverse ++ place := by
  induction segments generalizing place with
  | nil => rfl
  | cons segment segments ih =>
      obtain ⟨⟨hparent, hhere⟩, hrest⟩ := List.forall_mem_cons.mp h
      simp only [descend, hparent, hhere, Bool.false_eq_true, if_false, ih hrest,
        List.reverse_cons, List.append_assoc, List.singleton_append]

-- The last segment of a path is the last one that is given, or it is empty.
theorem exists_walk_singleton (place : List (List Char)) (segment : List Char) :
    ∃ above, walk place [segment] = landed segment :: above := by
  rw [walk, landed]
  cases isParent segment <;> cases isHere segment <;> exact ⟨_, rfl⟩

theorem walk_of_landed (h : isParent segment = false ∧ isHere segment = false)
    (place : List (List Char)) : walk place [segment] = segment :: place := by
  simp [walk, h]

theorem render_reverse_cons (segment : List Char) (place : List (List Char)) :
    render (segment :: place).reverse =
      render place.reverse ++ '/' :: Percent.encode Percent.inPath segment := by
  simp [render]

section Splitting

variable {isSeparator : Char → Bool} {s : List Char}

theorem splitSegments_ne_nil (isSeparator : Char → Bool) (s : List Char) :
    splitSegments isSeparator s ≠ [] := List.splitOnP_ne_nil _ _

theorem splitSegments_append_cons {c : Char} (hc : isSeparator c = true) (s t : List Char) :
    splitSegments isSeparator (s ++ c :: t) =
      splitSegments isSeparator s ++ splitSegments isSeparator t :=
  List.splitOnP_append_cons _ _ hc

theorem splitSegments_of_forall (h : ∀ c ∈ s, isSeparator c = false) :
    splitSegments isSeparator s = [s] := List.splitOnP_eq_singleton h

end Splitting

-- A text without separators, or all up to the last separator and what comes after it.
theorem exists_last_separator (isSeparator : Char → Bool) (s : List Char) :
    (∀ c ∈ s, isSeparator c = false) ∨ ∃ before separator last,
      s = before ++ separator :: last ∧ isSeparator separator = true ∧
        ∀ c ∈ last, isSeparator c = false := by
  induction s with
  | nil => exact Or.inl (by simp)
  | cons c s ih =>
      rcases ih with hnone | ⟨before, separator, last, rfl, hseparator, hlast⟩
      · cases hc : isSeparator c with
        | true => exact Or.inr ⟨[], c, s, rfl, hc, hnone⟩
        | false => exact Or.inl (List.forall_mem_cons.mpr ⟨hc, hnone⟩)
      · exact Or.inr ⟨c :: before, separator, last, rfl, hseparator, hlast⟩

theorem exists_walk_split (isSeparator : Char → Bool) (place : List (List Char)) (s : List Char) :
    ∃ last above, walk place (splitSegments isSeparator s) = landed last :: above ∧
      last <:+ s ∧ ∀ c ∈ last, isSeparator c = false := by
  rcases exists_last_separator isSeparator s with
    hnone | ⟨before, separator, last, rfl, hseparator, hlast⟩
  · obtain ⟨above, habove⟩ := exists_walk_singleton place s
    rw [splitSegments_of_forall hnone]
    exact ⟨s, above, habove, List.suffix_refl s, hnone⟩
  · obtain ⟨above, habove⟩ :=
      exists_walk_singleton (descend place (splitSegments isSeparator before)) last
    rw [splitSegments_append_cons hseparator, splitSegments_of_forall hlast,
      walk_append (List.cons_ne_nil _ _)]
    exact ⟨last, above, habove, ⟨before ++ [separator], by simp⟩, hlast⟩

end Path

namespace Url

section Cleaning

def isOuter (c : Char) : Bool := c.toNat ≤ 0x20

def isSolid (c : Char) : Bool := c != '\t' && c != '\n' && c != '\r'

-- What counts of the end of an address.
def trimmed (s : List Char) : List Char := (s.reverse.dropWhile isOuter).reverse.filter isSolid

theorem trimmed_eq (s : List Char) : trimmed s = (s.rdropWhile isOuter).filter isSolid := rfl

theorem trimmed_sublist (s : List Char) : (trimmed s).Sublist s :=
  List.filter_sublist.trans (List.rdropWhile_prefix isOuter s).sublist

theorem trimmed_append_cons {c : Char} (houter : isOuter c = false) (s t : List Char) :
    trimmed (s ++ c :: t) = s.filter isSolid ++ [c].filter isSolid ++ trimmed t := by
  rw [trimmed, List.reverse_append, List.reverse_cons, List.append_assoc, List.singleton_append,
    dropWhile_append_cons houter, List.reverse_append, List.reverse_cons, List.reverse_reverse,
    List.filter_append, List.filter_append]
  rfl

-- Only the front and the end of an address are cut off.
theorem cleaned_append_cons {c : Char} (houter : isOuter c = false) (s t : List Char) :
    cleaned (String.ofList (s ++ c :: t)) =
      (s.dropWhile isOuter).filter isSolid ++ [c].filter isSolid ++ trimmed t := by
  rw [← trimmed_append_cons houter, ← dropWhile_append_cons houter, trimmed]
  simp only [cleaned, String.toList_ofList]
  rfl

end Cleaning

section Parsing

-- A scheme ends before a slash.
theorem exists_splitScheme?_append {s rest : List Char} {scheme : String}
    (h : splitScheme? (s ++ ['/']) = some (scheme, rest)) :
    ∃ after, rest = after ++ ['/'] ∧ after.Sublist s ∧
      ∀ t, splitScheme? (s ++ '/' :: t) = some (scheme, after ++ '/' :: t) := by
  have hslash : isSchemeChar '/' = false := rfl
  simp only [splitScheme?, takeWhile_append_cons hslash, dropWhile_append_cons hslash] at h ⊢
  cases hname : s.takeWhile isSchemeChar with
  | nil => simp [hname] at h
  | cons first more =>
      cases hafter : s.dropWhile isSchemeChar with
      | nil => simp [hname, hafter] at h
      | cons c after =>
          rw [hname, hafter] at h
          by_cases hcolon : c = ':'
          · subst hcolon
            cases hletter : isLetter first with
            | false => simp [hletter] at h
            | true =>
                simp only [hletter, if_true, List.cons_append, Option.some_inj,
                  Prod.mk.injEq] at h ⊢
                obtain ⟨rfl, rfl⟩ := h
                have hsub := List.dropWhile_sublist (l := s) isSchemeChar
                rw [hafter] at hsub
                exact ⟨after, rfl, (List.sublist_cons_self _ _).trans hsub, fun t => ⟨rfl, rfl⟩⟩
          · simp [hcolon] at h

-- A text that goes into the path as a whole.
theorem forall_ne_of_all {s : List Char} (h : s.all (fun c => c != '?' && c != '#') = true) :
    ∀ c ∈ s, c ≠ '?' ∧ c ≠ '#' := by
  simpa using h

theorem splitQuery_append {front : List Char} (hfront : ∀ c ∈ front, c ≠ '?' ∧ c ≠ '#')
    (tail : List Char) :
    splitQuery (front ++ tail) = (front ++ (splitQuery tail).1, (splitQuery tail).2) := by
  have hsent : (front ++ tail).takeWhile (· != '#') = front ++ tail.takeWhile (· != '#') :=
    List.takeWhile_append_of_pos fun c hc => by simp [(hfront c hc).2]
  have hpath : ∀ s, (front ++ s).takeWhile (· != '?') = front ++ s.takeWhile (· != '?') :=
    fun s => List.takeWhile_append_of_pos fun c hc => by simp [(hfront c hc).1]
  have hquery : ∀ s, (front ++ s).dropWhile (· != '?') = s.dropWhile (· != '?') :=
    fun s => List.dropWhile_append_of_pos fun c hc => by simp [(hfront c hc).1]
  simp only [splitQuery, hsent, hpath, hquery]

theorem splitQuery_append_slash {front : List Char} (hfront : ∀ c ∈ front, c ≠ '?' ∧ c ≠ '#')
    (tail : List Char) : splitQuery (front ++ '/' :: tail) =
      (front ++ '/' :: (splitQuery tail).1, (splitQuery tail).2) := by
  have hslash : ∀ c ∈ front ++ ['/'], c ≠ '?' ∧ c ≠ '#' := by
    intro c hc
    rcases List.mem_append.mp hc with hc | hc
    · exact hfront c hc
    · rw [List.mem_singleton.mp hc]
      decide
  have happend := splitQuery_append hslash tail
  rwa [List.append_assoc, List.singleton_append, List.append_assoc,
    List.singleton_append] at happend

-- What a path leads to, from where it stands after its last slash.
theorem exists_hierarchy_append {front : List Char} (hfront : ∀ c ∈ front, c ≠ '?' ∧ c ≠ '#')
    (hslash : ∀ c ∈ front.head?, isSlash true c = true) :
    ∃ place, ∀ tail, hierarchy true (front ++ '/' :: tail) =
      (String.ofList (Path.render (Path.walk place
          (Path.splitSegments (isSlash true) (splitQuery tail).1)).reverse),
        (splitQuery tail).2.map (queryText true)) := by
  have hsplit := splitQuery_append_slash hfront
  cases front with
  | nil =>
      refine ⟨[], fun tail => ?_⟩
      rw [hierarchy, hsplit]
      rfl
  | cons c front =>
      refine ⟨Path.descend [] (Path.splitSegments (isSlash true) front), fun tail => ?_⟩
      have hc : isSlash true c = true := hslash c rfl
      rw [hierarchy, hsplit]
      simp only [List.cons_append, hc, if_true]
      rw [Path.splitSegments_append_cons rfl, Path.resolve,
        Path.walk_append (Path.splitSegments_ne_nil _ _)]

-- A URL with the path and the query that a text leads to from some place.
def under (base : Url) (place : List (List Char)) (tail : List Char) : Url :=
  { base with
    path := String.ofList (Path.render
      (Path.walk place (Path.splitSegments (isSlash true) (splitQuery tail).1)).reverse)
    query := (splitQuery tail).2.map (queryText true) }

section Under

variable (base : Url) (place : List (List Char)) (tail : List Char)

@[simp] theorem under_scheme : (base.under place tail).scheme = base.scheme := rfl

@[simp] theorem under_host : (base.under place tail).host = base.host := rfl

@[simp] theorem under_portNumber : (base.under place tail).portNumber = base.portNumber := rfl

@[simp] theorem under_isFetchable : (base.under place tail).isFetchable = base.isFetchable := rfl

@[simp] theorem userField?_under : userField? (base.under place tail) = userField? base := rfl

end Under

-- A path may be followed in two parts.
theorem under_append (base : Url) (place : List (List Char)) {directory : List Char}
    (hdirectory : ∀ c ∈ directory, c ≠ '?' ∧ c ≠ '#') (tail : List Char) :
    base.under place (directory ++ '/' :: tail) =
      base.under (Path.descend place (Path.splitSegments (isSlash true) directory)) tail := by
  have hsplit := splitQuery_append_slash hdirectory tail
  simp only [under, hsplit]
  rw [Path.splitSegments_append_cons rfl, Path.walk_append (Path.splitSegments_ne_nil _ _)]

theorem exists_ofParts_append {scheme : String} (hknown : isKnown scheme = true)
    (authority : Authority) {front : List Char} (hfront : ∀ c ∈ front, c ≠ '?' ∧ c ≠ '#')
    (hslash : ∀ c ∈ front.head?, isSlash true c = true) :
    ∃ place, ∀ tail, ofParts scheme authority (front ++ '/' :: tail) =
      (ofParts scheme authority (front ++ ['/'])).under place tail := by
  obtain ⟨place, hplace⟩ := exists_hierarchy_append hfront hslash
  refine ⟨place, fun tail => ?_⟩
  simp only [ofParts, hknown, hplace, under]

theorem exists_withAuthority?_append {scheme : String} (hknown : isKnown scheme = true)
    {s : List Char} (hs : ∀ c ∈ s, c ≠ '?' ∧ c ≠ '#') {base : Url}
    (h : withAuthority? scheme (s ++ ['/']) = some base) :
    ∃ place, ∀ tail, withAuthority? scheme (s ++ '/' :: tail) = some (base.under place tail) := by
  let goesOn (c : Char) : Bool := !endsAuthority true c
  have hend : goesOn '/' = false := rfl
  have hparts : ∀ tail, withAuthority? scheme (s ++ '/' :: tail) =
      (authority? true (s.takeWhile goesOn)).bind fun authority =>
        some (ofParts scheme authority (s.dropWhile goesOn ++ '/' :: tail)) := by
    intro tail
    rw [← takeWhile_append_cons hend s tail, ← dropWhile_append_cons hend, withAuthority?, hknown]
    rfl
  rw [hparts, Option.bind_eq_some_iff] at h
  obtain ⟨authority, hauthority, hbase⟩ := h
  rw [Option.some_inj] at hbase
  subst hbase
  have hrest : ∀ c ∈ s.dropWhile goesOn, c ≠ '?' ∧ c ≠ '#' :=
    fun c hc => hs c ((List.dropWhile_sublist _).subset hc)
  have hslash : ∀ c ∈ (s.dropWhile goesOn).head?, isSlash true c = true := by
    intro c hc
    have hstop := List.head?_dropWhile_not goesOn s
    rw [Option.mem_def.mp hc] at hstop
    have hplain := hrest c (List.mem_of_mem_head? hc)
    simpa [goesOn, endsAuthority, hplain] using hstop
  obtain ⟨place, hplace⟩ := exists_ofParts_append hknown authority hrest hslash
  refine ⟨place, fun tail => ?_⟩
  rw [hparts, hauthority, Option.bind_some, hplace]

theorem isKnown_of_isFetchable {url : Url} (h : url.isFetchable = true) :
    isKnown url.scheme = true ∧ url.scheme ≠ "file" := by
  simp only [isFetchable, Bool.and_eq_true, Bool.or_eq_true, beq_iff_eq] at h
  rcases h.1 with hscheme | hscheme
  · rw [hscheme]
    decide
  · rw [hscheme]
    decide

-- A page has a host, and a number of its own where its address tells none.
theorem exists_host_of_isFetchable {url : Url} (h : url.isFetchable = true) :
    ∃ host portNumber, url.host = some host ∧
      url.portNumber.or (defaultPortNumber? url.scheme) = some portNumber := by
  obtain ⟨hscheme, hhost⟩ := Bool.and_eq_true_iff.mp h
  obtain ⟨host, hhost⟩ := Option.isSome_iff_exists.mp hhost
  have hnumber : ∃ number, defaultPortNumber? url.scheme = some number := by
    simp only [Bool.or_eq_true, beq_iff_eq] at hscheme
    rcases hscheme with hscheme | hscheme
    · exact ⟨80, by rw [hscheme]; decide⟩
    · exact ⟨443, by rw [hscheme]; decide⟩
  obtain ⟨number, hnumber⟩ := hnumber
  refine ⟨host, url.portNumber.getD number, hhost, ?_⟩
  rw [hnumber]
  cases url.portNumber <;> rfl

theorem scheme_of_withAuthority? {scheme : String} {s : List Char} {url : Url}
    (h : withAuthority? scheme s = some url) : url.scheme = scheme := by
  simp only [withAuthority?, Option.bind_eq_bind, Option.bind_eq_some_iff, Option.some_inj] at h
  obtain ⟨authority, -, rfl⟩ := h
  rfl

theorem scheme_of_file? {s : List Char} {url : Url} (h : file? s = some url) :
    url.scheme = "file" := by
  unfold file? at h
  split at h
  · split at h
    · simp only at h
      split at h
      · cases h
        rfl
      · obtain ⟨host, -, rfl⟩ := Option.map_eq_some_iff.mp h
        rfl
    · cases h
      rfl
  · cases h
    rfl

-- A page is asked for from a host, after any number of slashes.
theorem withAuthority?_of_isFetchable {text : String} {url : Url} (h : ofText? text = some url)
    (hfetchable : url.isFetchable = true) :
    ∃ rest, splitScheme? (cleaned text) = some (url.scheme, rest) ∧
      withAuthority? url.scheme (rest.dropWhile (isSlash true)) = some url := by
  obtain ⟨hknown, hfile⟩ := isKnown_of_isFetchable hfetchable
  simp only [ofText?, Option.bind_eq_bind, Option.bind_eq_some_iff] at h
  obtain ⟨⟨scheme, rest⟩, hsplit, hurl⟩ := h
  simp only at hurl
  split at hurl
  · exact absurd (scheme_of_file? hurl) hfile
  split at hurl
  · have hscheme := scheme_of_withAuthority? hurl
    subst hscheme
    exact ⟨rest, hsplit, hurl⟩
  · rename_i hunknown
    have hscheme : url.scheme = scheme := by
      split at hurl
      · exact scheme_of_withAuthority? hurl
      · cases hurl
        rfl
      · cases hurl
        rfl
    exact absurd (hscheme ▸ hknown) hunknown

theorem withAuthority?_nil {scheme : String} (hknown : isKnown scheme = true) :
    withAuthority? scheme [] = none := by
  rw [withAuthority?, hknown]
  rfl

-- All addresses below the address of a page. What comes after the last slash decides over the path
-- and the query, and over nothing else.
theorem exists_ofText?_append {stem : List Char} (hstem : ∀ c ∈ stem, c ≠ '?' ∧ c ≠ '#')
    {base : Url} (h : ofText? (String.ofList (stem ++ ['/'])) = some base)
    (hfetchable : base.isFetchable = true) :
    ∃ place, ∀ tail, ofText? (String.ofList (stem ++ '/' :: tail)) =
      some (base.under place (trimmed tail)) := by
  obtain ⟨hknown, hfile⟩ := isKnown_of_isFetchable hfetchable
  obtain ⟨rest, hsplit, hbase⟩ := withAuthority?_of_isFetchable h hfetchable
  have hclean : ∀ tail, cleaned (String.ofList (stem ++ '/' :: tail)) =
      (stem.dropWhile isOuter).filter isSolid ++ '/' :: trimmed tail := by
    intro tail
    rw [cleaned_append_cons rfl, List.append_assoc]
    rfl
  rw [hclean] at hsplit
  obtain ⟨after, rfl, hsub, happend⟩ := exists_splitScheme?_append hsplit
  have hplain : ∀ c ∈ after.dropWhile (isSlash true), c ≠ '?' ∧ c ≠ '#' := by
    intro c hc
    have hmem := hsub.subset ((List.dropWhile_sublist _).subset hc)
    exact hstem c ((List.dropWhile_sublist _).subset (List.mem_filter.mp hmem).1)
  have hhost : after.dropWhile (isSlash true) ≠ [] := by
    intro hnone
    have hslash : isSlash true '/' = true := rfl
    rw [List.dropWhile_append, hnone, List.dropWhile_cons_of_pos hslash] at hbase
    cases (withAuthority?_nil hknown).symm.trans hbase
  have hdrop : ∀ tail, (after ++ '/' :: tail).dropWhile (isSlash true) =
      after.dropWhile (isSlash true) ++ '/' :: tail := by
    intro tail
    rw [List.dropWhile_append, if_neg (by simpa using hhost)]
  rw [hdrop] at hbase
  obtain ⟨place, hplace⟩ := exists_withAuthority?_append hknown hplain hbase
  refine ⟨place, fun tail => ?_⟩
  simp only [ofText?, hclean, happend, Option.bind_eq_bind, Option.bind_some, hfile, hknown, hdrop,
    hplace, if_true, if_false]

end Parsing

section Segments

-- What a path takes as one segment, and gives back unchanged.
def isSegmentText (s : List Char) : Bool :=
  s.all (fun c => isSolid c && !isSlash true c && c != '?' && c != '#') &&
    s.getLast?.all (fun c => !isOuter c) && s != ['.'] && s != ['.', '.'] && !Percent.hasEscape s

variable {s : List Char}

theorem trimmed_eq_self_iff : trimmed s = s ↔
    (∀ c ∈ s, isSolid c = true) ∧ ∀ c ∈ s.getLast?, isOuter c = false := by
  have hend : s.rdropWhile isOuter = s ↔ ∀ c ∈ s.getLast?, isOuter c = false := by
    rw [List.rdropWhile_eq_self_iff]
    cases s using List.reverseRecOn with
    | nil => simp
    | append_singleton s c => simp
  rw [← hend, trimmed_eq]
  constructor
  · intro h
    have hsub : ((s.rdropWhile isOuter).filter isSolid).Sublist (s.rdropWhile isOuter) :=
      List.filter_sublist
    rw [h] at hsub
    have hwhole := (List.rdropWhile_prefix isOuter s).sublist.eq_of_length_le hsub.length_le
    rw [hwhole, List.filter_eq_self] at h
    exact ⟨h, hwhole⟩
  · rintro ⟨hsolid, hwhole⟩
    rw [hwhole, List.filter_eq_self]
    exact hsolid

theorem undotted_of_not_hasEscape (h : Percent.hasEscape s = false) : Path.undotted s = s := by
  fun_induction Path.undotted s with
  | case1 rest ih => cases h
  | case2 rest ih => cases h
  | case3 c rest hlower hupper ih =>
      rw [ih]
      simp only [Percent.hasEscape, Bool.or_eq_false_iff] at h
      exact h.2
  | case4 => rfl

theorem splitQuery_of_forall (h : ∀ c ∈ s, c ≠ '?' ∧ c ≠ '#') : splitQuery s = (s, none) := by
  have happend := splitQuery_append h []
  rw [List.append_nil] at happend
  rw [happend]
  simp [splitQuery]

theorem splitQuery_sublist (s : List Char) :
    (splitQuery s).1.Sublist s ∧ ∀ c ∈ (splitQuery s).1, c ≠ '?' ∧ c ≠ '#' := by
  refine ⟨(List.takeWhile_sublist _).trans (List.takeWhile_sublist _), fun c hc => ?_⟩
  have hquery := List.all_eq_true.mp List.all_takeWhile c hc
  have hfragment := List.all_eq_true.mp List.all_takeWhile c ((List.takeWhile_sublist _).subset hc)
  exact ⟨by simpa using hquery, by simpa using hfragment⟩

theorem ne_of_mem_render {segments : List (List Char)} {c : Char}
    (h : c ∈ Path.render segments) : c ≠ '?' := by
  obtain ⟨segment, -, hc⟩ := List.mem_flatMap.mp h
  rcases List.mem_cons.mp hc with rfl | hc
  · decide
  · exact (Percent.ne_of_mem_encode_inPath hc).1

-- What stands behind the last slash.
theorem eq_of_append_slash {front above segment last : List Char} (hsegment : '/' ∉ segment)
    (hlast : '/' ∉ last) (h : front ++ '/' :: segment = above ++ '/' :: last) : segment = last := by
  have hbehind : ∀ {before behind : List Char}, '/' ∉ behind →
      ((before ++ '/' :: behind).reverse.takeWhile (· != '/')) = behind.reverse := by
    intro before behind hbehind
    have hall : ∀ c ∈ behind.reverse, (c != '/') = true := by
      intro c hc
      have hne : c ≠ '/' := fun heq => hbehind (heq ▸ List.mem_reverse.mp hc)
      simpa using hne
    rw [List.reverse_append, List.reverse_cons, List.append_assoc, List.singleton_append,
      List.takeWhile_append_of_pos hall, List.takeWhile_cons_of_neg (by decide), List.append_nil]
  rw [← List.reverse_inj, ← hbehind hsegment, h, hbehind hlast]

theorem isSegmentText_iff : isSegmentText s = true ↔
    trimmed s = s ∧ (∀ c ∈ s, isSlash true c = false) ∧ (∀ c ∈ s, c ≠ '?' ∧ c ≠ '#') ∧
      s ≠ ['.'] ∧ s ≠ ['.', '.'] ∧ Percent.hasEscape s = false := by
  have hlast : s.getLast?.all (fun c => !isOuter c) = true ↔
      ∀ c ∈ s.getLast?, isOuter c = false := by
    cases s.getLast? <;> simp
  simp only [isSegmentText, trimmed_eq_self_iff, Bool.and_eq_true, List.all_eq_true, hlast,
    bne_iff_ne, Bool.not_eq_true']
  constructor
  · rintro ⟨⟨⟨⟨hchars, houter⟩, hhere⟩, hparent⟩, hescape⟩
    exact ⟨⟨fun c hc => (hchars c hc).1.1.1, houter⟩, fun c hc => (hchars c hc).1.1.2,
      fun c hc => ⟨(hchars c hc).1.2, (hchars c hc).2⟩, hhere, hparent, hescape⟩
  · rintro ⟨⟨hsolid, houter⟩, hslash, hplain, hhere, hparent, hescape⟩
    exact ⟨⟨⟨⟨fun c hc => ⟨⟨⟨hsolid c hc, hslash c hc⟩, (hplain c hc).1⟩, (hplain c hc).2⟩,
      houter⟩, hhere⟩, hparent⟩, hescape⟩

theorem isSegmentText_landed (h : isSegmentText s = true) :
    Path.isParent s = false ∧ Path.isHere s = false := by
  obtain ⟨-, -, -, hhere, hparent, hescape⟩ := isSegmentText_iff.mp h
  simp [Path.isParent, Path.isHere, undotted_of_not_hasEscape hescape, hhere, hparent]

-- What a text leads to ends in a segment that is a part of the text.
theorem exists_under_path (base : Url) (place : List (List Char)) (s : List Char) :
    ∃ (last : List Char) (above : List (List Char)), (base.under place (trimmed s)).path =
        String.ofList (Path.render above.reverse ++
          '/' :: Percent.encode Percent.inPath (Path.landed last)) ∧
      last.Sublist (trimmed s) ∧ ∀ c ∈ last, isSlash true c = false ∧ c ≠ '?' ∧ c ≠ '#' := by
  obtain ⟨hsub, hplain⟩ := splitQuery_sublist (trimmed s)
  obtain ⟨last, above, hwalk, hsuffix, hslash⟩ :=
    Path.exists_walk_split (isSlash true) place (splitQuery (trimmed s)).1
  refine ⟨last, above, ?_, hsuffix.sublist.trans hsub,
    fun c hc => ⟨hslash c hc, hplain c (hsuffix.subset hc)⟩⟩
  simp only [under]
  rw [hwalk, Path.render_reverse_cons]

theorem eq_path_of_target {url : Url} {front : List Char} (h : url.target = String.ofList front)
    (hfront : '?' ∉ front) : url.path = String.ofList front := by
  unfold target at h
  cases hquery : url.query with
  | none => rwa [hquery] at h
  | some query =>
      rw [hquery, ← String.toList_inj, String.toList_ofList, String.toList_append,
        String.toList_append] at h
      exact absurd (h ▸ by simp) hfront

-- Some segment of the path below a place says exactly this text, and there is no query: this needs
-- a text that a path takes as it is.
theorem under_target_iff (base : Url) (place : List (List Char)) (s : List Char) :
    (∃ segment, (∀ c ∈ segment, c ≠ '/' ∧ c ≠ '?' ∧ c ≠ '#') ∧
        (base.under place (trimmed s)).target =
          String.ofList (Path.render place.reverse ++ '/' :: segment) ∧
        Percent.decode segment = Text.Utf8.encode s) ↔
      isSegmentText s = true := by
  constructor
  · rintro ⟨segment, hsegment, htarget, hdecode⟩
    obtain ⟨last, above, hpath, hsub, hplain⟩ := exists_under_path base place s
    have hquery : '?' ∉ Path.render place.reverse ++ '/' :: segment := by
      intro hmem
      rcases List.mem_append.mp hmem with hmem | hmem
      · exact ne_of_mem_render hmem rfl
      · rcases List.mem_cons.mp hmem with heq | hmem
        · cases heq
        · exact (hsegment '?' hmem).2.1 rfl
    have hlanded := Path.landed_sublist last
    have hslash : '/' ∉ Percent.encode Percent.inPath (Path.landed last) := by
      intro hmem
      have hin := (Percent.ne_of_mem_encode_inPath hmem).2.2 rfl
      cases (hplain '/' (hlanded.subset hin)).1
    have hsame : segment = Percent.encode Percent.inPath (Path.landed last) := by
      have hrendered := (eq_path_of_target htarget hquery).symm.trans hpath
      rw [String.ofList_inj] at hrendered
      exact eq_of_append_slash (fun hmem => (hsegment '/' hmem).1 rfl) hslash hrendered
    -- A text cannot lose anything on its way and still be read back.
    have hlength := Percent.length_decode_encode (fun _ => Percent.hexValue?_of_inPath) rfl
      (Path.landed last)
    rw [← hsame, hdecode] at hlength
    have hwhole : Path.landed last = s := by
      rcases Text.Utf8.eq_or_length_encode_lt (hlanded.trans (hsub.trans (trimmed_sublist s))) with
        heq | hless
      · exact heq
      · omega
    rw [hwhole] at hlength hlanded
    have hlast : last = s :=
      (hlanded.eq_of_length_le (hsub.trans (trimmed_sublist s)).length_le).symm
    subst hlast
    have hescape : Percent.hasEscape last = false := by
      cases hescape : Percent.hasEscape last with
      | false => rfl
      | true =>
          rw [hescape, Bool.toNat_true] at hlength
          omega
    refine isSegmentText_iff.mpr ⟨(trimmed_sublist last).eq_of_length_le hsub.length_le,
      fun c hc => (hplain c hc).1, fun c hc => (hplain c hc).2, ?_, ?_, hescape⟩
    · rintro rfl
      cases hwhole
    · rintro rfl
      cases hwhole
  · intro h
    obtain ⟨htrimmed, hslash, hplain, -, -, hescape⟩ := isSegmentText_iff.mp h
    refine ⟨Percent.encode Percent.inPath s, fun c hc => ?_, ?_,
      Percent.decode_encode (fun _ => Percent.hexValue?_of_inPath) hescape⟩
    · obtain ⟨hquery, hfragment, hin⟩ := Percent.ne_of_mem_encode_inPath hc
      refine ⟨?_, hquery, hfragment⟩
      rintro rfl
      cases hslash '/' (hin rfl)
    · rw [htrimmed, under, target, splitQuery_of_forall hplain]
      simp only [Option.map_none]
      rw [Path.splitSegments_of_forall hslash, Path.walk_of_landed (isSegmentText_landed h),
        Path.render_reverse_cons]

end Segments

end Url

end DeclarationWatch.Net
