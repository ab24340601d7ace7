import TenderPricing.Proofs.Service.Admission
import TenderPricing.Proofs.Store.Session
/-!
Requests that recalculate a tender.

A request runs the recalculation itself unless a worker takes it.  Its response tells how the
transaction ended: the summary where the changes are durable, an error where the tables are what
they were before.  No other request changes a table.
-/
namespace TenderPricing
namespace Service

open Markup Pricing Store

variable {env : Environment} {t : Tables Float} {id : String} {request : Request}

/-- A request that runs a recalculation itself: not in the background, or with no worker there. -/
structure RunsInline (env : Environment) (t : Tables Float) (id : String) (request : Request) :
    Prop where
  path : Endpoint.ofPath? request.target.path = some (.recalculate id)
  method : request.method = "POST"
  caller : (guardAdmin env t request.credentials).result = .ok ()
  inline : truthParameter request.target "background" = .valid false ∨
    truthParameter request.target "background" = .valid true ∧
      ∃ reason, env.broker = .unreachable reason

theorem answerRun_result (run : Run Float) :
    (answerRun run).result = (run.outcome.result.mapError Trouble.tender).map summaryAnswer := by
  rw [answerRun, Logged.result_bind]
  show (run.outcome.result.mapError Trouble.tender >>= _) = _
  cases run.outcome.result <;> rfl

/-- A request ends its session as a recalculation on its own does, and answers with its outcome. -/
theorem recalculateNow_eq (t : Tables Float) (id : String) :
    (recalculateNow t id).tables = (recalculateAndCommit t id).tables ∧
      (recalculateNow t id).work.result =
        ((recalculateAndCommit t id).outcome.result.mapError Trouble.tender).map
          summaryAnswer := by
  have hanswer : (answerRun (recalculate t id)).result.toOption.isSome =
      (recalculate t id).outcome.result.toOption.isSome := by
    rw [answerRun_result]
    cases (recalculate t id).outcome.result <;> rfl
  refine ⟨(closeRequest_congr t _ hanswer).1, ?_⟩
  rw [recalculateNow, recalculateAndCommit, closeRequest_outcome, closeRequest_outcome,
    answerRun_result]

theorem admitted_result {background : Bool}
    (caller : (guardAdmin env t request.credentials).result = .ok ())
    (h : truthParameter request.target "background" = .valid background) :
    (do
      guardAdmin env t request.credentials
      accept (truthParameter request.target "background") : Handling Bool).result =
        .ok background := by
  rw [Logged.result_bind, caller, h]
  rfl

theorem handle_eq_recalculateFor
    (path : Endpoint.ofPath? request.target.path = some (.recalculate id))
    (method : request.method = "POST") :
    handle env t request = recalculateFor env t request id := by
  have hmethod : (Endpoint.recalculate id).method = request.method := method.symm
  simp only [handle, path, hmethod, bne_self_eq_false, Bool.false_eq_true, if_false]

theorem handle_of_inline (inline : RunsInline env t id request) :
    (handle env t request).tables = (recalculateAndCommit t id).tables ∧
      (handle env t request).work.result = (recalculateNow t id).work.result := by
  rw [handle_eq_recalculateFor inline.path inline.method]
  rcases inline.inline with now | ⟨later, reason, unreachable⟩
  · simp only [recalculateFor, admitted_result inline.caller now]
    exact ⟨(recalculateNow_eq t id).1, trivial⟩
  · simp only [recalculateFor, admitted_result inline.caller later, recalculateLater, unreachable]
    exact ⟨(recalculateNow_eq t id).1, rfl⟩

theorem respond_of_inline (inline : RunsInline env t id request) :
    Ends
      (fun summary => (respond env t request).1 = (recalculate t id).tables ∧
        (respond env t request).2.2 =
          ⟨200, summaryAnswer summary, responseHeaders env request⟩)
      (fun e => (respond env t request).1 = t ∧
        (respond env t request).2.2 =
          (Trouble.tenderReply e).toResponse (responseHeaders env request))
      (recalculateAndCommit t id).outcome.result := by
  obtain ⟨htables, hresult⟩ := handle_of_inline inline
  rw [(recalculateNow_eq t id).2] at hresult
  rw [respond_of_method (.inr inline.method), htables, hresult]
  cases settled_recalculateAndCommit t id with
  | committed returned _ durable =>
    rw [returned]
    exact ⟨durable, rfl⟩
  | rolledBack failed _ durable =>
    rw [failed]
    exact ⟨durable, rfl⟩

theorem admitted_of_result {background : Bool}
    (h : (do
      guardAdmin env t request.credentials
      accept (truthParameter request.target "background") : Handling Bool).result =
        .ok background) :
    (guardAdmin env t request.credentials).result = .ok () ∧
      truthParameter request.target "background" = .valid background := by
  rw [Logged.result_bind, bind_eq_ok_iff] at h
  obtain ⟨_, hcaller, haccepted⟩ := h
  refine ⟨hcaller, ?_⟩
  cases hparameter : truthParameter request.target "background" with
  | valid value =>
    rw [hparameter] at haccepted
    rw [Except.ok.inj haccepted]
  | invalid problems =>
    rw [hparameter] at haccepted
    cases haccepted

theorem recalculateFor_tables
    (path : Endpoint.ofPath? request.target.path = some (.recalculate id))
    (method : request.method = "POST") (h : ¬ RunsInline env t id request) :
    (recalculateFor env t request id).tables = t := by
  unfold recalculateFor
  cases hadmitted : (do
      guardAdmin env t request.credentials
      accept (truthParameter request.target "background") : Handling Bool).result with
  | error trouble => simp only [hadmitted]
  | ok background =>
    obtain ⟨hcaller, hparameter⟩ := admitted_of_result hadmitted
    simp only [hadmitted]
    cases background with
    | false => exact absurd ⟨path, method, hcaller, .inl hparameter⟩ h
    | true =>
      cases hbroker : env.broker with
      | accepting task => rfl
      | unreachable reason =>
        exact absurd ⟨path, method, hcaller, .inr ⟨hparameter, reason, hbroker⟩⟩ h

/-- Only a request that runs a recalculation itself changes a table. -/
theorem respond_tables (h : ∀ id, ¬ RunsInline env t id request) :
    (respond env t request).1 = t := by
  have hhandle : (handle env t request).tables = t := by
    unfold handle
    cases hpath : Endpoint.ofPath? request.target.path with
    | none => rfl
    | some endpoint =>
      by_cases hmethod : (endpoint.method != request.method) = true
      · simp only [if_pos hmethod]
      · simp only [if_neg hmethod]
        cases endpoint with
        | recalculate id =>
          rw [bne_iff_ne, not_not] at hmethod
          have hpost : request.method = "POST" := hmethod.symm
          exact recalculateFor_tables hpath hpost (h id)
        | _ => rfl
  unfold respond
  cases announcementReply? env.settings.allowedOrigins request.method request.headers with
  | none => exact hhandle
  | some reply => rfl

/-- A recalculation, by the worker or by a request, is committed entirely or not at all: its writes
come first and are not durable, and one commit or one rollback ends the transaction.  A request
that does not run one leaves the tables as they are. -/
theorem recalculation_is_atomic (t : Tables Float) (id : String) :
    (∀ action ∈ recalculationWrites t id, action.call? = none) ∧
    (Session.opened t).performAll (recalculationWrites t id) = ⟨t, (recalculate t id).tables⟩ ∧
    Settled t id (recalculateAndCommit t id) ∧
    Settled t id (recalculateAsTask t id).1 ∧
    ∀ env request,
      (RunsInline env t id request →
        Ends
          (fun summary => (respond env t request).1 = (recalculate t id).tables ∧
            (respond env t request).2.2 =
              ⟨200, summaryAnswer summary, responseHeaders env request⟩)
          (fun e => (respond env t request).1 = t ∧
            (respond env t request).2.2 =
              (Trouble.tenderReply e).toResponse (responseHeaders env request))
          (recalculateAndCommit t id).outcome.result) ∧
      ((∀ tender, ¬ RunsInline env t tender request) → (respond env t request).1 = t) :=
  ⟨call?_recalculationWrites t id, performAll_recalculationWrites t id,
    settled_recalculateAndCommit t id, settled_recalculateAsTask t id,
    fun _ _ => ⟨respond_of_inline, respond_tables⟩⟩

/-- An item of material with a markup, then an item of work whose step divides. -/
def dividingTables (divisor : Int) : Tables Float where
  roles := officeTables.roles
  users := officeTables.users
  tenders := [⟨"t-1", some "m-1"⟩]
  tactics := [⟨"m-1", some "T", .object [
    ("мат", .array [.object [
      ("baseIndex", .int (-1)), ("action1", .string "multiply"),
      ("operand1Type", .string "markup"), ("operand1Key", .string "profit_own_forces"),
      ("operand1MultiplyFormat", .string "addOne")]]),
    ("раб", .array [.object [
      ("baseIndex", .int (-1)), ("action1", .string "divide"),
      ("operand1Type", .string "number"), ("operand1Key", .int divisor)]])], .null⟩]
  items :=
    [{ id := "i-1", itemType := "мат", totalAmount := some 100.0, tender := some "t-1"
       position := some "P1" },
      { id := "i-2", itemType := "раб", totalAmount := some 7.0, tender := some "t-1"
        position := some "P1" }]
  positions := [{ id := "P1", tender := some "t-1" }]

def recalculationRequest : Request where
  method := "POST"
  target := ⟨"/api/markup/tenders/t-1/recalculate", []⟩
  headers := []
  body := none
  credentials := some adminToken

theorem runsInline_recalculationRequest (divisor : Int) :
    RunsInline openService (dividingTables divisor) "t-1" recalculationRequest := by
  have hpath : Endpoint.ofPath? "/api/markup/tenders/t-1/recalculate" =
      some (.recalculate "t-1") := by decide +kernel
  exact ⟨hpath, rfl, guardAdmin_admin rfl rfl, .inl rfl⟩

/-- The first item is written in either run.  Where the second one cannot be divided, nothing of
this is durable. -/
theorem recalculation_is_atomic_dividingTables :
    (recalculationWrites (dividingTables 0) "t-1").length = 1 ∧
      (respond openService (dividingTables 0) recalculationRequest).1 = dividingTables 0 ∧
      (respond openService (dividingTables 0) recalculationRequest).2.2.status = 400 ∧
      (recalculationWrites (dividingTables 2) "t-1").length = 3 ∧
      (respond openService (dividingTables 2) recalculationRequest).1 =
        (recalculate (dividingTables 2) "t-1").tables ∧
      (respond openService (dividingTables 2) recalculationRequest).2.2.status = 200 := by
  have hfailed : (recalculateAndCommit (dividingTables 0) "t-1").outcome.result.toOption =
      none := by decide +kernel
  have hreturned : (recalculateAndCommit (dividingTables 2) "t-1").outcome.result.toOption =
      some ⟨"t-1", 2, 0, 1⟩ := by decide +kernel
  have zero := ((recalculation_is_atomic (dividingTables 0) "t-1").2.2.2.2 openService
    recalculationRequest).1 (runsInline_recalculationRequest _)
  have two := ((recalculation_is_atomic (dividingTables 2) "t-1").2.2.2.2 openService
    recalculationRequest).1 (runsInline_recalculationRequest _)
  rw [eq_ok_of_toOption hreturned] at two
  have hzero : (respond openService (dividingTables 0) recalculationRequest).1 =
      dividingTables 0 := by
    cases hresult : (recalculateAndCommit (dividingTables 0) "t-1").outcome.result with
    | ok summary =>
      rw [hresult] at hfailed
      cases hfailed
    | error e =>
      rw [hresult] at zero
      exact zero.1
  exact ⟨by decide +kernel, hzero, by decide +kernel, by decide +kernel, two.1,
    congrArg Response.status two.2⟩

end Service
end TenderPricing
