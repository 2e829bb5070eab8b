import DeclarationWatch.Net.Exchange
import DeclarationWatch.Publish.Chunk
import DeclarationWatch.Text.Blank

namespace DeclarationWatch.Publish

open Net (Peer Reply Request)

structure Webhook where
  endpoint : String
  deriving Repr, DecidableEq

namespace Webhook

variable {σ : Type}

def request? (webhook : Webhook) (entries : List Entry) : Option Request :=
  Net.request? "POST" webhook.endpoint Net.jsonType (requestBody entries).text

-- Failures that blame nobody for the request.
def unread (code : String) : PublishFailure := .sink code "" false

-- The text of an acknowledgement. A blank one has no complaints.
def acknowledgementOf (text : String) : Answer :=
  if (Text.trim text.toList).isEmpty then .ok []
  else (Acknowledgement.ofText text).mapError fun _ => unread "decode"

-- An acknowledgement that is cut off says nothing about which entries arrived.
def answerOf : Reply → Answer
  | .nothing => .error (unread "transport")
  | .answer status contentType body complete =>
      if Net.isSuccess status then
        if complete then acknowledgementOf (Net.bodyText contentType body)
        else .error (unread "body_read")
      else
        let message := if complete then Net.bodyText contentType body else ""
        .error (.sink (toString status) message (Net.isCallerFault status))

def publishBatch (webhook : Webhook) (peer : Peer σ) (entries : List Entry) (wire : σ) :
    Answer × σ :=
  match webhook.request? entries with
  | none => (.error (unread "transport"), wire)
  | some request =>
      let (reply, wire) := peer request wire
      (answerOf reply, wire)

end Webhook

-- Where records go: to a receiver, or nowhere when none is configured.
inductive Receiver where
  | webhook (target : Webhook)
  | discard
  deriving Repr, DecidableEq

def Receiver.publishBatch {σ : Type} (receiver : Receiver) (peer : Peer σ) (entries : List Entry)
    (wire : σ) : Answer × σ :=
  match receiver with
  | .webhook target => target.publishBatch peer entries wire
  | .discard => (.ok [], wire)

end DeclarationWatch.Publish
