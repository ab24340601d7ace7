import TenderPricing.Access.Guard
import TenderPricing.Service.Answer
import TenderPricing.Service.Checked
import TenderPricing.Store.Context
/-!
Replies: what an endpoint answers, or why it has no answer.

Faults of the caller are told in the reply: unknown tenders, malformed sequences, sequences that
divide by zero or leave the range of numbers.  Everything else is a failure of the service, whose
reply says nothing.
-/
namespace TenderPricing
namespace Service

open Access Markup Store

/-- Why an endpoint gives no answer. -/
inductive Trouble where
  | noSuchPath
  | methodNotAllowed
  | refused (refusal : Refusal)
  | tokenLibrary
  | invalid (problems : List Problem)
  | load (error : LoadError)
  | evaluation (error : EvaluationError)
  | tender (error : TenderError)
  | noWholePart (fault : NoWholePart)
  | number (fault : NumberFault)

/-- A status and a body; no reply where the service itself failed. -/
abbrev Reply := Option (Nat × Json)

def detail (body : Json) : Json := .object [("detail", body)]

def detailReply (status : Nat) (text : String) : Reply := some (status, detail (.string text))

namespace Problem

def answer (p : Problem) : Json :=
  .object [("type", .string p.kind.word), ("loc", .array p.place)]

end Problem

namespace Trouble

def loadReply : LoadError → Reply
  | .config error => detailReply 422 error.message
  | _ => none

def evaluationReply : EvaluationError → Reply
  | .config error => detailReply 422 error.message
  | .divisionByZero sequence step =>
    detailReply 400 (EvaluationError.divisionByZero sequence step).message
  | .nonFinite sequence step => detailReply 400 (EvaluationError.nonFinite sequence step).message
  | _ => none

def tenderReply (error : TenderError) : Reply :=
  match error with
  | .tenderMissing _ | .noTactic _ | .tacticMissing _ => detailReply 404 error.message
  | .tactic e => loadReply e
  | .distribution _ => none
  | .evaluation e => evaluationReply e

def reply : Trouble → Reply
  | noSuchPath => detailReply 404 "Not Found"
  | methodNotAllowed => detailReply 405 "Method Not Allowed"
  | refused refusal => detailReply refusal.status refusal.message
  | invalid problems => some (422, detail (.array (problems.map Problem.answer)))
  | load error => loadReply error
  | evaluation error => evaluationReply error
  | tender error => tenderReply error
  | tokenLibrary | noWholePart _ | number _ => none

end Trouble

mutual

/-- Whether a value can be sent: JSON has no infinities and no NaN.  Texts are Unicode, and every
Unicode text can be sent. -/
def isSendable : Json → Bool
  | .float x => x.isFinite
  | .array elements => allSendable elements
  | .object members => membersSendable members
  | _ => true

def allSendable : List Json → Bool
  | [] => true
  | v :: rest => isSendable v && allSendable rest

def membersSendable : List (String × Json) → Bool
  | [] => true
  | (_, v) :: rest => isSendable v && membersSendable rest

end

/-- The work of an endpoint. -/
abbrev Handling (β : Type) := Logged Float Trouble β

/-- The reply to finished work. -/
def replyTo (result : Except Trouble Json) : Reply :=
  match result with
  | .ok body => if isSendable body then some (200, body) else none
  | .error trouble => trouble.reply

/-- Checked data, or the problems as trouble. -/
def accept {β : Type} (c : Checked β) : Handling β :=
  match c with
  | .valid value => pure value
  | .invalid problems => .fail (.invalid problems)

/-- Lets in whoever the guard has found. -/
def letIn {β : Type} (found : Except Denial β) : Handling Unit :=
  match found with
  | .ok _ => pure ()
  | .error (.refused refusal) => .fail (.refused refusal)
  | .error .libraryFailed => .fail .tokenLibrary

end Service
end TenderPricing
