import DeclarationWatch.Net.Exchange

namespace DeclarationWatch.Rehearsal

open Net

inductive ScriptedReply where
  | closed
  -- A body that is cut off ends before the length that was announced.
  | reply (status : Nat) (contentType : Option String) (body : Text.Bytes) (isCut : Bool)

-- A server that answers from three queues and keeps what it was asked, the latest first.
structure Server where
  host : Host
  portNumber : Nat
  token : List ScriptedReply
  post : List ScriptedReply
  hold : List ScriptedReply
  requests : List Request := []

namespace Server

-- The address at which rehearsed servers are found.
def localHost : Host := .ipv4 0x7F000001

def replyOf : ScriptedReply → Reply
  | .closed => .nothing
  | .reply status contentType body isCut =>
      if isBodiless status then .answer status contentType [] true
      else .answer status contentType body (!isCut)

def exhausted : ScriptedReply := .reply 500 none (Text.utf8 "script exhausted") false

def next : List ScriptedReply → Reply × List ScriptedReply
  | [] => (replyOf exhausted, [])
  | reply :: rest => (replyOf reply, rest)

def isTokenTarget (target : String) : Bool := "oauth/token".toList.isSuffixOf target.toList

-- Nobody answers elsewhere.
def peer : Peer Server := fun request server =>
  if request.host = server.host && request.portNumber = server.portNumber then
    let server := { server with requests := request :: server.requests }
    if request.method = "PUT" then
      let (reply, rest) := next server.hold
      (reply, { server with hold := rest })
    else if isTokenTarget request.target then
      let (reply, rest) := next server.token
      (reply, { server with token := rest })
    else
      let (reply, rest) := next server.post
      (reply, { server with post := rest })
  else (.nothing, server)

end Server

end DeclarationWatch.Rehearsal
