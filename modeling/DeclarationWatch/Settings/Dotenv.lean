import DeclarationWatch.Settings.Layer
import DeclarationWatch.Text.Blank
import DeclarationWatch.Text.DecimalDigit

namespace DeclarationWatch.Settings

-- Files of settings: lines with a name, an equals sign and a value.
namespace Dotenv

-- Where a value stands between two characters.
inductive Mode where
  | bare
  -- Between single quotes nothing is special.
  | strong
  | weak
  -- After a backslash, inside double quotes or outside.
  | escaped (inWeak : Bool)
  -- In the name of a variable after a dollar sign, written backwards, with or without braces.
  | name (inWeak : Bool) (letters : List Char)
  | braced (inWeak : Bool) (letters : List Char)
  -- After a blank outside quotes. Only a comment may follow.
  | ended
  | comment

def unquotedOr (inWeak : Bool) : Mode := if inWeak then .weak else .bare

def valueOf (env : Environment) (letters : List Char) : List Char :=
  ((env.lookup (String.ofList letters.reverse)).getD "").toList

def escape? (c : Char) : Option Char :=
  if c == '\\' || c == '\'' || c == '"' || c == '$' || c == ' ' then some c
  else if c == 'n' then some '\n'
  else none

-- Letters with a case and digits, in any script.
def isNameChar (c : Char) : Bool := c.isAlphanum || Text.isCased c || Text.isDecimalDigit c

-- One character of a value: what it adds, and where it leads. There is no way on from a character
-- that may not stand there.
def step? (env : Environment) (c : Char) : Mode → Option (List Char × Mode)
  | .comment => some ([], .comment)
  | .ended =>
      if c == ' ' || c == '\t' then some ([], .ended)
      else if c == '#' then some ([], .comment)
      else none
  | .escaped inWeak => (escape? c).map fun e => ([e], unquotedOr inWeak)
  | .strong => if c == '\'' then some ([], .bare) else some ([c], .strong)
  | .name inWeak letters =>
      if isNameChar c then some ([], .name inWeak (c :: letters))
      else if c == '\x7b' && letters.isEmpty then some ([], .braced inWeak [])
      else if c == '$' then some (valueOf env letters, .name inWeak [])
      else some (valueOf env letters ++ [c], unquotedOr inWeak)
  | .braced inWeak letters =>
      if c == '\x7d' then some (valueOf env letters, unquotedOr inWeak)
      else some ([], .braced inWeak (c :: letters))
  | .weak =>
      if c == '$' then some ([], .name true [])
      else if c == '"' then some ([], .bare)
      else if c == '\\' then some ([], .escaped true)
      else some ([c], .weak)
  | .bare =>
      if c == '$' then some ([], .name false [])
      else if c == '\'' then some ([], .strong)
      else if c == '"' then some ([], .weak)
      else if c == '\\' then some ([], .escaped false)
      else if c == ' ' || c == '\t' then some ([], .ended)
      else some ([c], .bare)

-- What is left to add at the end of a value. Quotes and braces must be closed.
def finish? (env : Environment) : Mode → Option (List Char)
  | .name false letters => some (valueOf env letters)
  | .bare | .escaped false | .ended | .comment => some []
  | .strong | .weak | .escaped true | .name true _ | .braced _ _ => none

def value? (env : Environment) : Mode → List Char → Option (List Char)
  | mode, [] => finish? env mode
  | mode, c :: rest => do
      let (added, mode) ← step? env c mode
      let later ← value? env mode rest
      some (added ++ later)

def isKeyStart (c : Char) : Bool := c.isAlpha || c == '_'

def isKeyChar (c : Char) : Bool := c.isAlphanum || c == '_' || c == '.'

def key? (s : List Char) : Option (String × List Char) :=
  if (s.head?).any isKeyStart then
    some (String.ofList (s.takeWhile isKeyChar), Text.trimStart (s.dropWhile isKeyChar))
  else none

def afterEquals? : List Char → Option (List Char)
  | '=' :: rest => some (Text.trimStart rest)
  | _ => none

-- The name before the equals sign, which may have the word export in front, and what follows.
def assignment? (s : List Char) : Option (String × List Char) := do
  let (key, rest) ← key? s
  match afterEquals? rest with
  | some value => some (key, value)
  | none =>
      if key = "export" then
        let (key, rest) ← key? rest
        some (key, ← afterEquals? rest)
      else none

inductive Line where
  | nothing
  | setting (name value : String)
  | broken
  deriving Repr, DecidableEq

def isEmptyOrComment (s : List Char) : Bool := s.isEmpty || s.head? == some '#'

def lineOf (env : Environment) (line : List Char) : Line :=
  let s := Text.trim line
  if isEmptyOrComment s then .nothing
  else
    match assignment? s with
    | none => .broken
    | some (name, value) =>
        if isEmptyOrComment value then .setting name ""
        else
          match value? env .bare value with
          | some text => .setting name (String.ofList text)
          | none => .broken

-- Adds the settings of lines up to the first broken one. A variable that is set keeps its value.
def addLines (env : Environment) : List (List Char) → Environment
  | [] => env
  | line :: rest =>
      match lineOf env line with
      | .nothing => addLines env rest
      | .broken => env
      | .setting name value =>
          if (env.lookup name).isSome then addLines env rest
          else addLines (env ++ [(name, value)]) rest

def addTo (env : Environment) (text : String) : Environment :=
  addLines env (text.toList.splitOnP (· == '\n'))

end Dotenv

-- Variables in the order in which they were first set, each with its last value.
def Environment.distinct (env : Environment) : Environment :=
  env.foldl (fun known pair =>
    if (known.lookup pair.1).isSome then
      known.map fun old => if old.1 = pair.1 then pair else old
    else known ++ [pair]) []

end DeclarationWatch.Settings
