import TenderPricing.Service.Endpoint
import TenderPricing.Service.Headers
import TenderPricing.Service.Pricing
import TenderPricing.Service.Target
import TenderPricing.Service.Versions
import TenderPricing.Setup.Variables
import TenderPricing.Store.Transaction
/-!
The service: requests to responses.

A request is guarded first, then its parameters and body are checked, and only then its endpoint
does its work.  Only the recalculation of a tender changes tables, in a transaction of its own.
-/
namespace TenderPricing
namespace Service

open Access Setup Store

structure Request where
  method : String
  target : Target
  headers : Headers
  body : Option Json
  /-- The bearer token among the headers. -/
  credentials : Option String

/-- The queue of the background worker. -/
inductive Broker where
  /-- A queued task gets this id. -/
  | accepting (task : String)
  | unreachable (reason : String)

structure Environment where
  settings : Settings
  broker : Broker
  library : TokenLibrary
  signing : Signing

namespace Environment

/-- What the library makes of a token, with the key and the algorithm of the service. -/
def decode (env : Environment) (text : String) : Decoded :=
  env.library.decode env.signing.key env.signing.algorithm text

end Environment

structure Response where
  status : Nat
  /-- A text stands for itself where the body is no JSON. -/
  body : Json
  headers : Headers

def version : String := "1.0.0"

def healthAnswer (s : Settings) : Json :=
  .object [
    ("status", .string "active"),
    ("version", .string version),
    ("db_configured", .bool s.databaseConfigured),
    ("broker_configured", .bool s.brokerConfigured)]

/-- Lets in an active user. -/
def guardUser (env : Environment) (t : Tables Float) (credentials : Option String) :
    Handling Unit :=
  letIn (currentUser env.decode t.users credentials)

/-- Lets in an active user who may change prices. -/
def guardAdmin (env : Environment) (t : Tables Float) (credentials : Option String) :
    Handling Unit :=
  letIn (currentAdmin env.decode t.users t.roles credentials)

/-- A truth value among the parameters, false where it is missing. -/
def truthParameter (target : Target) (name : String) : Checked Bool :=
  match target.parameter? name with
  | none => .valid false
  | some word => readTruthWord [.string "query", .string name] word

/-- What an endpoint leaves behind and answers. -/
structure Handled where
  tables : Tables Float
  work : Handling Json

/-- What the endpoint makes of a run: its summary, or its error as trouble. -/
def answerRun (run : Run Float) : Handling Json := do
  return summaryAnswer (← run.outcome.mapError .tender)

/-- Recalculates a tender in the session of the request. -/
def recalculateNow (t : Tables Float) (tender : String) : Handled :=
  let run := recalculate t tender
  let done := closeRequest t run (answerRun run)
  ⟨done.tables, done.outcome⟩

/-- Recalculates a tender on the worker, or at once where the worker cannot be reached. -/
def recalculateLater (broker : Broker) (t : Tables Float) (tender : String) : Handled :=
  match broker with
  | .accepting task => ⟨t, return queuedAnswer tender task⟩
  | .unreachable reason =>
    let done := recalculateNow t tender
    { done with work := do
        Logged.tell (.queueUnavailable reason)
        done.work }

/-- Recalculates a tender for a caller who may change prices. -/
def recalculateFor (env : Environment) (t : Tables Float) (request : Request) (tender : String) :
    Handled :=
  let admitted : Handling Bool := do
    guardAdmin env t request.credentials
    accept (truthParameter request.target "background")
  match admitted.result with
  | .error trouble => ⟨t, .fail trouble⟩
  | .ok true => recalculateLater env.broker t tender
  | .ok false => recalculateNow t tender

/-- The work of the endpoints that leave the tables as they are. -/
def query (env : Environment) (t : Tables Float) (request : Request) : Endpoint → Handling Json
  | .health => return healthAnswer env.settings
  | .validate => do
    guardUser env t request.credentials
    validate (← accept (readBody readSequence request.body))
  | .evaluate => do
    guardUser env t request.credentials
    evaluateRequest (← accept (readBody readEvaluation request.body))
  | .coefficients => do
    guardUser env t request.credentials
    coefficientsRequest (← accept (readBody readCoefficients request.body))
  | .parameters tender => do
    guardUser env t request.credentials
    tenderParameters t tender
  | .aggregation tender => do
    guardUser env t request.credentials
    tenderAggregation t tender (← accept (truthParameter request.target "include_items"))
  | .consistency tender => do
    guardUser env t request.credentials
    tenderConsistency t tender
  | .matchRows => do
    guardUser env t request.credentials
    matchRequest (← accept (readBody (readMatch env.settings.matchThreshold) request.body))
  | .matchTender tender => do
    guardUser env t request.credentials
    tenderMatch t tender (← accept (readBody (readRows env.settings.matchThreshold) request.body))
  | .transfers => do
    guardUser env t request.credentials
    transferRequest (← accept (readBody readTransfers request.body))
  | .recalculate _ => .fail .methodNotAllowed

def handle (env : Environment) (t : Tables Float) (request : Request) : Handled :=
  match Endpoint.ofPath? request.target.path with
  | none => ⟨t, .fail .noSuchPath⟩
  | some endpoint =>
    if endpoint.method != request.method then ⟨t, .fail .methodNotAllowed⟩
    else match endpoint with
      | .recalculate tender => recalculateFor env t request tender
      | other => ⟨t, query env t request other⟩

def requestIdHeader : String := "X-Request-ID"

/-- The headers of a response that the service itself gives. -/
def responseHeaders (env : Environment) (request : Request) : Headers :=
  crossOriginHeaders env.settings.allowedOrigins request.headers ++ securityHeaders ++
    (match request.headers.value? requestIdHeader with
      | some id => [(requestIdHeader, id)]
      | none => [])

/-- Where the service fails, nothing but the bare fact is sent. -/
def failureResponse : Response := ⟨500, .string "Internal Server Error", []⟩

/-- Answers a request.  The answer to `HEAD` has no body. -/
def respond (env : Environment) (t : Tables Float) (request : Request) :
    Tables Float × List (Notice Float) × Response :=
  let headers := responseHeaders env request
  match announcementReply? env.settings.allowedOrigins request.method request.headers with
  | some (status, text) => (t, [], ⟨status, .string text, headers⟩)
  | none =>
    let done := handle env t request
    let response : Response := match replyTo done.work.result with
      | none => failureResponse
      | some (status, body) =>
        ⟨status, if request.method = "HEAD" then .string "" else body, headers⟩
    (done.tables, done.work.notices, response)

end Service
end TenderPricing
