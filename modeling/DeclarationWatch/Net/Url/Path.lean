import DeclarationWatch.Net.Percent

namespace DeclarationWatch.Net.Path

-- A dot of a segment may be escaped.
def undotted : List Char → List Char
  | '%' :: '2' :: 'e' :: rest => '.' :: undotted rest
  | '%' :: '2' :: 'E' :: rest => '.' :: undotted rest
  | c :: rest => c :: undotted rest
  | [] => []

def isHere (segment : List Char) : Bool := undotted segment == ['.']

def isParent (segment : List Char) : Bool := undotted segment == ['.', '.']

-- Follows the segments from a place, of which the last segment stands first. A final dot segment
-- leaves an empty one behind.
def walk : List (List Char) → List (List Char) → List (List Char)
  | place, [] => place
  | place, [last] =>
      if isParent last then [] :: place.tail
      else if isHere last then [] :: place
      else last :: place
  | place, segment :: rest =>
      if isParent segment then walk place.tail rest
      else if isHere segment then walk place rest
      else walk (segment :: place) rest

-- The segments of a path with its dots resolved. A path never climbs above its root.
def resolve (segments : List (List Char)) : List (List Char) := (walk [] segments).reverse

def splitSegments (isSeparator : Char → Bool) (s : List Char) : List (List Char) :=
  s.splitOnP isSeparator

def render (segments : List (List Char)) : List Char :=
  segments.flatMap fun segment => '/' :: Percent.encode Percent.inPath segment

end DeclarationWatch.Net.Path
