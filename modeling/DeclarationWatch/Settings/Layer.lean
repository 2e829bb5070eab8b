import DeclarationWatch.Keyed
import DeclarationWatch.Settings.Scalar

namespace DeclarationWatch.Settings

inductive Step where
  | member (name : String)
  | element (index : Int)
  deriving Repr, DecidableEq

abbrev Path := List Step

def Step.isElement : Step → Bool
  | .element _ => true
  | .member _ => false

def Step.name? : Step → Option String
  | .member name => some name
  | .element _ => none

-- Two settings cannot stand side by side if one lies inside the other or at the place of the other,
-- or if one needs a list where the other needs names.
def excludes : Path → Path → Bool
  | [], _ => true
  | _, [] => true
  | a :: p, b :: q => if a = b then excludes p q else a.isElement != b.isElement

-- Settings by their paths. No two of them exclude each other.
abbrev Layer := List (Path × Scalar)

def members (names : List String) : Path := names.map .member

namespace Layer

-- A later setting takes the place of all that it excludes.
def set (layer : Layer) (path : Path) (value : Scalar) : Layer :=
  layer.filter (fun entry => !excludes entry.1 path) ++ [(path, value)]

def overlaid (layer : Layer) (entries : List (Path × Scalar)) : Layer :=
  entries.foldl (fun layer entry => layer.set entry.1 entry.2) layer

inductive Found where
  | nothing
  | scalar (value : Scalar)
  -- The settings inside, by the paths that are left.
  | inside (entries : List (Path × Scalar))

def stripPath : Path → Path → Option Path
  | [], path => some path
  | _ :: _, [] => none
  | a :: p, b :: q => if a = b then stripPath p q else none

def find (layer : Layer) (path : Path) : Found :=
  let inside := layer.filterMap fun entry => (stripPath path entry.1).map (·, entry.2)
  match inside with
  | [] => .nothing
  | [([], value)] => .scalar value
  | entries => .inside entries

end Layer

namespace Name

def isNameChar (c : Char) : Bool :=
  ('a' ≤ c && c ≤ 'z') || ('A' ≤ c && c ≤ 'Z') || ('0' ≤ c && c ≤ '9') || c == '_' || c == '-'

-- Pairs of underscores part the names of nested settings.
def dotted : List Char → List Char
  | '_' :: '_' :: rest => '.' :: dotted rest
  | c :: rest => c :: dotted rest
  | [] => []

-- An index in brackets and what follows it.
def element? (s : List Char) : Option (Step × List Char) :=
  match s.dropWhile (· != ']') with
  | [] => none
  | _ :: rest => (Scalar.integer? (s.takeWhile (· != ']'))).map fun n => (.element n, rest)

-- The steps after the first name. Each takes at least one character.
def steps? : Nat → List Char → Option Path
  | _, [] => some []
  | 0, _ => none
  | fuel + 1, '.' :: rest =>
      match rest.takeWhile isNameChar with
      | [] => none
      | name => do
          let path ← steps? fuel (rest.dropWhile isNameChar)
          some (.member (String.ofList name) :: path)
  | fuel + 1, '[' :: rest => do
      let (step, rest) ← element? rest
      let path ← steps? fuel rest
      some (step :: path)
  | _ + 1, _ => none

-- The path that the name of a variable stands for. A name that is no path is a setting of its own,
-- which nobody asks for.
def path (key : String) : Path :=
  let name := dotted (Text.lowerCase key.toList)
  let first := name.takeWhile isNameChar
  let whole := [.member (String.ofList name)]
  if first = [] then whole
  else
    match steps? name.length (name.dropWhile isNameChar) with
    | some rest => .member (String.ofList first) :: rest
    | none => whole

end Name

-- The variables of a process. A name that is given twice has its last value.
abbrev Environment := List (String × String)

def Environment.entries (env : Environment) : List (Path × Scalar) :=
  env.map fun (name, value) => (Name.path name, Scalar.ofText value)

end DeclarationWatch.Settings
