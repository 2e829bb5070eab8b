import DeclarationWatch.Net.Percent

namespace DeclarationWatch.Net

inductive Host where
  | domain (name : String)
  | ipv4 (address : Nat)
  | ipv6 (text : String)
  -- The host of a scheme that says nothing about its hosts.
  | other (text : String)
  deriving Repr, DecidableEq

namespace Host

def partsAt (separator : Char) (s : List Char) : List (List Char) :=
  (s.splitOnP (· == separator))

def isDigit (c : Char) : Bool := '0' ≤ c && c ≤ '9'

def readBase (base : Nat) (s : List Char) : Option Nat :=
  s.foldlM (fun n c => do
    let d ← Percent.hexValue? c
    if d < base then some (n * base + d) else none) 0

-- A number of an address in dots: hexadecimal after 0x, octal after 0, else decimal.
def ipv4Number? : List Char → Option Nat
  | [] => none
  | '0' :: 'x' :: rest => readBase 16 rest
  | '0' :: 'X' :: rest => readBase 16 rest
  | '0' :: rest => readBase 8 rest
  | digits => readBase 10 digits

-- A host whose last label is a number can only be an address.
def endsInNumber (labels : List (List Char)) : Bool :=
  match labels.getLast? with
  | none => false
  | some last => !last.isEmpty && (last.all isDigit || (ipv4Number? last).isSome)

-- One to four numbers. The last one fills the bytes that the others leave.
def ipv4? (labels : List (List Char)) : Option Nat := do
  if labels.length > 4 then none
  let numbers ← labels.mapM ipv4Number?
  let last ← numbers.getLast?
  let front := numbers.dropLast
  let room := Nat.pow 256 (5 - numbers.length)
  if front.all (· < 256) && last < room then
    some (front.foldl (fun n part => n * 256 + part) 0 * room + last)
  else none

-- Four decimal numbers below 256 without leading zeros, as they may end an address in colons.
def isPlainQuad (s : List Char) : Bool :=
  let parts := partsAt '.' s
  parts.length == 4 && parts.all fun part =>
    !part.isEmpty && part.all isDigit && (part.length == 1 || part.head? != some '0') &&
      ((readBase 10 part).any (· < 256))

def isHexPiece (s : List Char) : Bool :=
  !s.isEmpty && s.length ≤ 4 && s.all fun c => (Percent.hexValue? c).isSome

-- How many pieces of 16 bits the text between two colons stands for.
def pieceCount? (isLast : Bool) (s : List Char) : Option Nat :=
  if isHexPiece s then some 1
  else if isLast && isPlainQuad s then some 2
  else none

def pieces? (mayEndInQuad : Bool) (s : List Char) : Option Nat :=
  if s = [] then some 0
  else
    let parts := partsAt ':' s
    let counts := parts.zipIdx.mapM fun (part, i) =>
      pieceCount? (mayEndInQuad && i + 1 == parts.length) part
    counts.map fun pieces => pieces.foldl (· + ·) 0

def splitGap : List Char → List Char → Option (List Char × List Char)
  | _, [] => none
  | before, ':' :: ':' :: rest => some (before.reverse, rest)
  | before, c :: rest => splitGap (c :: before) rest

-- Eight pieces, or fewer around one gap.
def isIpv6 (s : List Char) : Bool :=
  match splitGap [] s with
  | none => pieces? true s == some 8
  | some (before, after) =>
      match pieces? false before, pieces? true after with
      | some m, some n => m + n ≤ 7
      | _, _ => false

def isForbidden (c : Char) : Bool :=
  c == '\x00' || c == '\t' || c == '\n' || c == '\r' || c == ' ' || c == '#' || c == '/' ||
    c == ':' || c == '<' || c == '>' || c == '?' || c == '@' || c == '[' || c == '\\' ||
    c == ']' || c == '^' || c == '|'

def isForbiddenInDomain (c : Char) : Bool :=
  isForbidden c || c.toNat < 0x20 || c == '%' || c.toNat == 0x7F || c == '\ufffd'

def withoutRoot (labels : List (List Char)) : List (List Char) :=
  match labels.getLast? with
  | some [] => labels.dropLast
  | _ => labels

-- A domain or an address. Escapes are undone first. Domains are taken to be ASCII: the mapping of
-- other letters, and their spelling in ASCII, is left out.
def domain? (s : List Char) : Option Host :=
  let name := (Text.Utf8.decodeLossy (Percent.decode s)).map Char.toLower
  let labels := withoutRoot (partsAt '.' name)
  if name.isEmpty || name.any isForbiddenInDomain then none
  else if endsInNumber labels then (ipv4? labels).map .ipv4
  else some (.domain (String.ofList name))

def bracketed? (s : List Char) : Option Host :=
  match s with
  | '[' :: rest =>
      if rest.getLast? = some ']' && isIpv6 rest.dropLast then
        some (.ipv6 (String.ofList (rest.dropLast.map Char.toLower)))
      else none
  | _ => none

-- Schemes that are known have domains. Others take any text without forbidden characters.
def ofText? (special : Bool) (s : List Char) : Option Host :=
  if s.head? = some '[' then bracketed? s
  else if special then domain? s
  else if s.any isForbidden then none
  else some (.other (String.ofList s))

def text : Host → String
  | .domain name => name
  | .ipv4 n =>
      ".".intercalate
        ([n / 0x1000000, n / 0x10000 % 256, n / 0x100 % 256, n % 256].map toString)
  | .ipv6 text => "[" ++ text ++ "]"
  | .other text => text

end Host

end DeclarationWatch.Net
