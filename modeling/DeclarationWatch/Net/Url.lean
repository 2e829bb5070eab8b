import DeclarationWatch.Net.Url.Host
import DeclarationWatch.Net.Url.Path

namespace DeclarationWatch.Net

-- An absolute URL. A fragment is never sent and is not kept.
structure Url where
  scheme : String
  -- User name and password, their escapes undone.
  user : Option (List Char × Option (List Char))
  host : Option Host
  portNumber : Option Nat
  -- With a slash in front, unless the scheme has no hierarchy.
  path : String
  query : Option String
  deriving Repr, DecidableEq

namespace Url

-- Controls and spaces at the ends and line ends and tabs anywhere do not count.
def cleaned (s : String) : List Char :=
  let isOuter (c : Char) : Bool := c.toNat ≤ 0x20
  (((s.toList.dropWhile isOuter).reverse.dropWhile isOuter).reverse).filter fun c =>
    c != '\t' && c != '\n' && c != '\r'

def isLetter (c : Char) : Bool := ('a' ≤ c && c ≤ 'z') || ('A' ≤ c && c ≤ 'Z')

def isSchemeChar (c : Char) : Bool :=
  isLetter c || Host.isDigit c || c == '+' || c == '-' || c == '.'

-- The scheme in lower case and what follows its colon.
def splitScheme? (s : List Char) : Option (String × List Char) :=
  match s.takeWhile isSchemeChar, s.dropWhile isSchemeChar with
  | first :: more, ':' :: rest =>
      if isLetter first then some (String.ofList ((first :: more).map Char.toLower), rest) else none
  | _, _ => none

-- The number behind the host that a known scheme has by itself.
def defaultPortNumber? (scheme : String) : Option Nat :=
  [("http", 80), ("https", 443), ("ws", 80), ("wss", 443), ("ftp", 21)].lookup scheme

def isKnown (scheme : String) : Bool := (defaultPortNumber? scheme).isSome || scheme == "file"

-- Known schemes take a backslash for a slash.
def isSlash (special : Bool) (c : Char) : Bool := c == '/' || (special && c == '\\')

def endsAuthority (special : Bool) (c : Char) : Bool := isSlash special c || c == '?' || c == '#'

-- The parts before and after the last at sign.
def splitUser (s : List Char) : Option (List Char) × List Char :=
  if s.contains '@' then
    let host := (s.reverse.takeWhile (· != '@')).reverse
    (some (s.take (s.length - host.length - 1)), host)
  else (none, s)

def decoded (s : List Char) : List Char := Text.Utf8.decodeLossy (Percent.decode s)

def userOf (s : List Char) : List Char × Option (List Char) :=
  (decoded (s.takeWhile (· != ':')),
    match s.dropWhile (· != ':') with
    | ':' :: password => some (decoded password)
    | _ => none)

-- The host and the text after its colon. Colons in brackets belong to the host.
def splitPort (inBrackets : Bool) : List Char → List Char × Option (List Char)
  | [] => ([], none)
  | c :: rest =>
      if c = ':' && !inBrackets then ([], some rest)
      else
        let (host, portNumber) := splitPort (c == '[' || (inBrackets && c != ']')) rest
        (c :: host, portNumber)

def portNumber? (s : List Char) : Option (Option Nat) :=
  if s = [] then some none
  else if s.all Host.isDigit then
    (Host.readBase 10 s).bind fun n => if n < 65536 then some (some n) else none
  else none

structure Authority where
  user : Option (List Char × Option (List Char))
  host : Option Host
  portNumber : Option Nat

-- A host may be missing only where the scheme is not known, and then nothing may stand beside it.
def authority? (special : Bool) (s : List Char) : Option Authority := do
  let (user, rest) := splitUser s
  let (hostText, portText) := splitPort false rest
  let portNumber ← portNumber? (portText.getD [])
  if hostText = [] then
    if special || user.isSome || portText.isSome then none else some ⟨none, none, none⟩
  else some ⟨user.map userOf, some (← Host.ofText? special hostText), portNumber⟩

def splitQuery (s : List Char) : List Char × Option (List Char) :=
  let sent := s.takeWhile (· != '#')
  (sent.takeWhile (· != '?'),
    match sent.dropWhile (· != '?') with
    | '?' :: query => some query
    | _ => none)

def queryText (special : Bool) (query : List Char) : String :=
  String.ofList (Percent.encode (if special then Percent.inSpecialQuery else Percent.inQuery) query)

-- The text from the first slash after the host on. A known scheme has at least the root.
def hierarchy (special : Bool) (s : List Char) : String × Option String :=
  let (path, query) := splitQuery s
  let segments := match path with
    | [] => if special then [[]] else []
    | first :: rest =>
        Path.splitSegments (isSlash special) (if isSlash special first then rest else path)
  (String.ofList (Path.render (Path.resolve segments)), query.map (queryText special))

def ofParts (scheme : String) (authority : Authority) (rest : List Char) : Url :=
  let (path, query) := hierarchy (isKnown scheme) rest
  let isDefault := authority.portNumber = defaultPortNumber? scheme
  ⟨scheme, authority.user, authority.host, if isDefault then none else authority.portNumber, path,
    query⟩

-- What stands after the slashes: the authority up to its end, then the path.
def withAuthority? (scheme : String) (s : List Char) : Option Url := do
  let ends := endsAuthority (isKnown scheme)
  let authority ← authority? (isKnown scheme) (s.takeWhile (!ends ·))
  some (ofParts scheme authority (s.dropWhile (!ends ·)))

def isDrive (s : List Char) : Bool :=
  match s with
  | [letter, bar] => isLetter letter && (bar == ':' || bar == '|')
  | _ => false

-- A file may have a host after two slashes. The name of a drive is none.
def file? (s : List Char) : Option Url :=
  match s with
  | a :: b :: rest =>
      if isSlash true a && isSlash true b then
        let host := rest.takeWhile (!endsAuthority true ·)
        let after := rest.dropWhile (!endsAuthority true ·)
        if host = [] || isDrive host then some (ofParts "file" ⟨none, none, none⟩ rest)
        else (Host.ofText? true host).map fun h => ofParts "file" ⟨none, some h, none⟩ after
      else some (ofParts "file" ⟨none, none, none⟩ s)
  | _ => some (ofParts "file" ⟨none, none, none⟩ s)

def unranked (scheme : String) (s : List Char) : Url :=
  let (path, query) := splitQuery s
  ⟨scheme, none, none, none,
    String.ofList (Percent.encode Percent.isControlOrForeign path), query.map (queryText false)⟩

-- Known schemes do not care how many slashes stand before the host.
def ofText? (text : String) : Option Url := do
  let (scheme, rest) ← splitScheme? (cleaned text)
  if scheme = "file" then file? rest
  else if isKnown scheme then withAuthority? scheme (rest.dropWhile (isSlash true))
  else
    match rest with
    | '/' :: '/' :: after => withAuthority? scheme after
    | '/' :: _ => some (ofParts scheme ⟨none, none, none⟩ rest)
    | _ => some (unranked scheme rest)

def target (url : Url) : String :=
  match url.query with
  | none => url.path
  | some query => url.path ++ "?" ++ query

def isFetchable (url : Url) : Bool :=
  (url.scheme == "http" || url.scheme == "https") && url.host.isSome

end Url

end DeclarationWatch.Net
