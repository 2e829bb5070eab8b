namespace DeclarationWatch.Net

-- What a content type says. Its kind and the names of its parameters are in lower case.
structure MediaType where
  kind : String
  -- The part before the last plus sign, and the part after it.
  subtype : String
  suffix : Option String
  params : List (String × String)
  deriving Repr, DecidableEq

namespace MediaType

def isTokenChar (c : Char) : Bool :=
  0x20 < c.toNat && c.toNat < 0x7F && !("\"(),/:;<=>?@[\\]\x7b\x7d".toList.contains c)

def isQuotable (c : Char) : Bool := 0x20 ≤ c.toNat && c.toNat < 0x7F

def text (s : List Char) : String := String.ofList s

def lower (s : List Char) : String := text (s.map Char.toLower)

theorem length_dropWhile_le {α : Type} (p : α → Bool) (s : List α) :
    (s.dropWhile p).length ≤ s.length := (List.dropWhile_suffix p).length_le

-- After a quoted value: blanks, then the next parameter or the end.
def afterQuoted? (s : List Char) : Option (List Char) :=
  match s.dropWhile (· == ' ') with
  | [] => some []
  | ';' :: rest => some rest
  | _ => none

theorem length_afterQuoted? {s rest : List Char} (h : afterQuoted? s = some rest) :
    rest.length ≤ s.length := by
  have := length_dropWhile_le (· == ' ') s
  unfold afterQuoted? at h
  split at h <;> simp_all
  omega

def isInside (c : Char) : Bool := isQuotable c && c != '"'

-- The value of a parameter and what follows its semicolon. A quoted value has at least one
-- character, and the first one may be a quote.
def value? (s : List Char) : Option (List Char × { rest : List Char // rest.length ≤ s.length }) :=
  match s with
  | '"' :: first :: inner =>
      if isQuotable first then
        match h : inner.dropWhile isInside with
        | '"' :: after =>
            match h' : afterQuoted? after with
            | some left => some (first :: inner.takeWhile isInside, ⟨left, by
                have := length_dropWhile_le isInside inner
                have := length_afterQuoted? h'
                simp_all; omega⟩)
            | none => none
        | _ => none
      else none
  | s =>
      match h : s.dropWhile isTokenChar with
      | [] => some (s.takeWhile isTokenChar, ⟨[], by simp⟩)
      | ';' :: rest =>
          if s.takeWhile isTokenChar = [] then none
          else some (s.takeWhile isTokenChar, ⟨rest, by
            have := length_dropWhile_le isTokenChar s
            simp_all; omega⟩)
      | _ => none

-- Parameters are parted by semicolons. Spaces may stand before a name.
def params? (s : List Char) : Option (List (String × String)) :=
  let start := s.dropWhile (· == ' ')
  let name := start.takeWhile isTokenChar
  if start = [] then some []
  else
    match _hn : start.dropWhile isTokenChar with
    | '=' :: after =>
        if name = [] then none
        else
          match value? after with
          | none => none
          | some (value, rest) => (params? rest.val).map ((lower name, text value) :: ·)
    | _ => none
termination_by s.length
decreasing_by
  have h1 := length_dropWhile_le (· == ' ') s
  have h2 := length_dropWhile_le isTokenChar start
  have h3 := rest.property
  rw [_hn] at h2
  simp only [start, List.length_cons] at h1 h2
  omega

-- A subtype with its suffix: the last plus sign parts them, unless it comes first.
def splitSuffix (s : List Char) : List Char × Option (List Char) :=
  match s with
  | [] => ([], none)
  | first :: rest =>
      if rest.contains '+' then
        let suffix := (rest.reverse.takeWhile (· != '+')).reverse
        (first :: rest.take (rest.length - suffix.length - 1), some suffix)
      else (s, none)

def ofText? (s : String) : Option MediaType :=
  let chars := s.toList
  let kind := chars.takeWhile isTokenChar
  match kind, chars.dropWhile isTokenChar with
  | [], _ => none
  | _, '/' :: after =>
      let (subtype, suffix) := splitSuffix (after.takeWhile isTokenChar)
      let build (params : List (String × String)) : MediaType :=
        ⟨lower kind, lower subtype, suffix.map lower, params⟩
      match after.takeWhile isTokenChar, after.dropWhile isTokenChar with
      | _, [] => some (build [])
      | [], _ => none
      | _, ';' :: rest => (params? rest).map build
      | _, _ => none
  | _, _ => none

def param? (m : MediaType) (name : String) : Option String := m.params.lookup name

-- The kinds of content that hold JSON.
def isJson (m : MediaType) : Bool :=
  m.kind == "application" && (m.subtype == "json" || m.suffix == some "json")

end MediaType

end DeclarationWatch.Net
