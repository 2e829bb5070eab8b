import DeclarationWatch.Net.Percent

namespace DeclarationWatch.Api

-- What a path stands for. Parameters are one segment each, as it was sent.
inductive Resource where
  | health
  | queue
  | queueItem (segment : List Char)
  | hold (segment : List Char)
  deriving Repr, DecidableEq

inductive Action where
  | health (withBody : Bool)
  | register (segment : List Char)
  | clear
  | hold (segment : List Char)
  deriving Repr, DecidableEq

inductive Routed where
  | unknown
  -- The resource is there, but not for this method.
  | wrongMethod (resource : Resource)
  | found (action : Action)
  deriving Repr, DecidableEq

namespace Route

-- The path in a request line, without query. A whole address may stand there too.
def pathOf (uri : List Char) : List Char :=
  let sent := uri.takeWhile fun c => c != '?' && c != '#'
  match sent with
  | '/' :: _ => sent
  | _ =>
      match sent.dropWhile (· != ':') with
      | ':' :: '/' :: '/' :: rest => rest.dropWhile (· != '/')
      | _ => []

def segments (path : List Char) : List String := (path.splitOnP (· == '/')).map String.ofList

-- Paths are exact. A parameter is never empty.
def resource? (path : List Char) : Option Resource :=
  match segments path with
  | ["", "health"] => some .health
  | ["", "polling-queue", "items"] => some .queue
  | ["", "polling-queue", "items", mrn] => if mrn = "" then none else some (.queueItem mrn.toList)
  | ["", "gmrs", id, "hold"] => if id = "" then none else some (.hold id.toList)
  | _ => none

def isOpen : Resource → Bool
  | .health => true
  | _ => false

def action? (method : String) : Resource → Option Action
  | .health => if method = "GET" then some (.health true)
      else if method = "HEAD" then some (.health false) else none
  | .queue => if method = "DELETE" then some .clear else none
  | .queueItem segment => if method = "POST" then some (.register segment) else none
  | .hold segment => if method = "PUT" then some (.hold segment) else none

-- Guarded resources are not there at all when nobody may use them.
def find (guarded : Bool) (method : String) (path : List Char) : Routed :=
  match resource? path with
  | none => .unknown
  | some resource =>
      if isOpen resource || guarded then
        match action? method resource with
        | some action => .found action
        | none => .wrongMethod resource
      else .unknown

-- The text of a parameter. Its escapes must stand for characters.
def parameter? (segment : List Char) : Option String :=
  (Text.Utf8.decode? (Net.Percent.decode segment)).map String.ofList

end Route

end DeclarationWatch.Api
