import DeclarationWatch.Net.Base64
import DeclarationWatch.Net.Header
import DeclarationWatch.Text.Blank
import DeclarationWatch.Text.Quoted

namespace DeclarationWatch.Api

-- The name and password that guard the development routes.
structure Credentials where
  username : String
  password : String
  deriving Repr, DecidableEq

namespace Credentials

def scheme : List Char := "Basic ".toList

def stripFront? : List Char → List Char → Option (List Char)
  | [], s => some s
  | _, [] => none
  | a :: front, b :: s => if a = b then stripFront? front s else none

def splitColon? (s : List Char) : Option (List Char × List Char) :=
  match s.dropWhile (· != ':') with
  | [] => none
  | _ :: rest => some (s.takeWhile (· != ':'), rest)

def ofField? (field : List Char) : Option (List Char × List Char) := do
  let encoded ← stripFront? scheme field
  let bytes ← Net.Base64.decode? (Text.trim encoded)
  splitColon? (← Text.Utf8.decode? bytes)

def accepts (credentials : Credentials) (field : List Char) : Bool :=
  ofField? field == some (credentials.username.toList, credentials.password.toList)

-- Only a field of plain characters is looked at.
def admits (credentials : Credentials) (field : Option String) : Bool :=
  field.any fun text => Net.isPlainField text && credentials.accepts text.toList

-- For logs. The password is not shown.
def debugText (credentials : Credentials) : String :=
  "DevCredentials \x7b username: " ++ Text.quoted credentials.username ++
    ", password: \"[REDACTED]\" \x7d"

end Credentials

end DeclarationWatch.Api
