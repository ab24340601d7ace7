import TenderPricing.Proofs.Service.Recalculation
import TenderPricing.Proofs.Store.Loading
/-!
Requests for a tender that does not load.

A caller is told that a tender or its tactic is missing, and which sequence of the tactic is no
sequence.  Where loading breaks off, the service fails.
-/
namespace TenderPricing
namespace Service

open Markup Pricing Store

variable {env : Environment} {t : Tables Float} {id : String} {request : Request}

/-- A request whose work begins with loading a tender. -/
inductive AsksFor (env : Environment) (t : Tables Float) (id : String) (request : Request) : Prop
  | aggregation {withItems : Bool} (reaches : Reaches env t (.aggregation id) request)
      (items : truthParameter request.target "include_items" = .valid withItems)
  | consistency (reaches : Reaches env t (.consistency id) request)
  | recalculation (inline : RunsInline env t id request)

theorem tenderAggregation_error {withItems : Bool} {e : TenderError}
    (h : (loadContext t id true).result = .error e) :
    (tenderAggregation t id withItems).result = .error (.tender e) := by
  refine result_bind_error ?_
  show (loadContext t id true).result.mapError Trouble.tender = _
  rw [h]
  rfl

theorem tenderConsistency_error {e : TenderError}
    (h : (loadContext t id true).result = .error e) :
    (tenderConsistency t id).result = .error (.tender e) := by
  refine result_bind_error ?_
  show (loadContext t id true).result.mapError Trouble.tender = _
  rw [h]
  rfl

theorem recalculateAndCommit_error {e : TenderError}
    (h : (loadContext t id false).result = .error e) :
    (recalculateAndCommit t id).outcome.result = .error e := by
  simp only [recalculateAndCommit, closeRequest, recalculate, h]

/-- Whichever way a tender is asked for, the response is the reply to the error of its loading. -/
theorem AsksFor.respond_error (asks : AsksFor env t id request) {withItems : Bool}
    {e : TenderError} (h : (loadContext t id withItems).result = .error e) :
    (respond env t request).2.2 =
      (Trouble.tenderReply e).toResponse (responseHeaders env request) := by
  cases asks with
  | aggregation reaches items =>
    rw [respond_of_reaches reaches (by simp), query, result_admitted reaches items,
      tenderAggregation_error (loadContext_error h)]
    rfl
  | consistency reaches =>
    rw [respond_of_reaches reaches (by simp), query, result_bind_ok reaches.caller,
      tenderConsistency_error (loadContext_error h)]
    rfl
  | recalculation inline =>
    exact ((respond_of_inline inline).error
      (recalculateAndCommit_error (loadContext_error h))).2

theorem tenderReply_of_untold {e : TenderError} (untold : e.Untold) :
    Trouble.tenderReply e = none := by
  cases untold with
  | @tactic error noBlame =>
    cases error with
    | config fault => exact absurd ⟨fault, rfl⟩ noBlame
    | _ => rfl
  | distribution fault => rfl

/-- Loading a tender gives its context, or tells that the tender or its tactic is missing, or
breaks off at a stored value, each exactly under its condition; otherwise it blames the first
member of the sequences that is none.  A request is told what is missing with status 404 and what
is blamed with status 422, and where loading breaks off the service fails. -/
theorem tender_is_loaded_or_refused (t : Tables Float) (id : String) (withItems : Bool) :
    Ends (fun ctx => ctx.tender = id)
      (fun e => Unpriced t id e ∨
        (∃ row fault, findTactic t id = .ok row ∧ e = .tactic (.config fault) ∧
          BlamesMember row.sequences fault) ∨
        (e.Untold ∧ ContextBreaks t id))
      (loadContext t id withItems).result ∧
    ((∃ ctx, (loadContext t id withItems).result = .ok ctx) ↔ ContextInOrder t id) ∧
    (∀ e, Unpriced t id e ↔ (loadContext t id withItems).result = .error e ∧ e.NotFound) ∧
    (ContextBreaks t id ↔ ∃ e, (loadContext t id withItems).result = .error e ∧ e.Untold) ∧
    ∀ env request, AsksFor env t id request →
      (∀ e, Unpriced t id e → (respond env t request).2.2 =
        ⟨404, detail (.string e.message), responseHeaders env request⟩) ∧
      (∀ fault, (loadContext t id withItems).result = .error (.tactic (.config fault)) →
        (respond env t request).2.2 =
          ⟨422, detail (.string fault.message), responseHeaders env request⟩) ∧
      (ContextBreaks t id → (respond env t request).2.2 = failureResponse) := by
  refine ⟨loadContext_ends t id withItems, exists_loadContext_iff, fun e => unpriced_iff,
    contextBreaks_iff, fun env request asks => ⟨fun e unpriced => ?_, fun fault hfault => ?_,
      fun breaks => ?_⟩⟩
  · have herror : (loadContext t id withItems).result = .error e := (unpriced_iff.mp unpriced).1
    rw [asks.respond_error herror]
    cases unpriced <;> rfl
  · rw [asks.respond_error hfault]
    rfl
  · have hbroken : ∃ e, (loadContext t id withItems).result = .error e ∧ e.Untold :=
      contextBreaks_iff.mp breaks
    obtain ⟨e, herror, untold⟩ := hbroken
    rw [asks.respond_error herror, tenderReply_of_untold untold]
    rfl

/-- A tender whose tactic holds one sequence for work. -/
def workTables (steps : Json) : Tables Float :=
  { officeTables with
    tenders := [⟨"t-1", some "m-1"⟩]
    tactics := [⟨"m-1", some "T", .object [("раб", steps)], .null⟩] }

def aggregationRequest : Request where
  method := "GET"
  target := ⟨"/api/markup/tenders/t-1/aggregation", []⟩
  headers := []
  body := none
  credentials := some adminToken

theorem asksFor_aggregationRequest (users : t.users = officeTables.users) :
    AsksFor openService t "t-1" aggregationRequest := by
  have hpath : Endpoint.ofPath? "/api/markup/tenders/t-1/aggregation" =
      some (.aggregation "t-1") := by decide +kernel
  exact .aggregation ⟨hpath, rfl, guardUser_admin users⟩ rfl

theorem contextBreaks_workTables (n : Int) : ContextBreaks (workTables (.int n)) "t-1" := by
  have hbreaks : SequencesBreak (.object [("раб", .int n)]) :=
    .member (i := 0) rfl (fun j _ hj => absurd hj j.not_lt_zero) (.int n)
  have hfound : findTactic (workTables (.int n)) "t-1" =
      .ok ⟨"m-1", some "T", .object [("раб", .int n)], .null⟩ := rfl
  exact .tactic hfound (.sequences hbreaks)

/-- A tender that is missing, a text in place of a sequence, and a number in its place. -/
theorem tender_is_loaded_or_refused_workTables :
    Unpriced officeTables "t-1" (.tenderMissing "t-1") ∧
      (respond openService officeTables aggregationRequest).2.2 =
        ⟨404, detail (.string "Tender t-1 not found"), securityHeaders⟩ ∧
      (respond openService (workTables (.string "x")) aggregationRequest).2.2 =
        ⟨422, detail (.string "раб: expected a list of steps"), securityHeaders⟩ ∧
      ContextBreaks (workTables (.int 5)) "t-1" ∧
      (respond openService (workTables (.int 5)) aggregationRequest).2.2 = failureResponse := by
  have hmissing : Unpriced officeTables "t-1" (.tenderMissing "t-1") := .tenderMissing rfl
  have missing := (tender_is_loaded_or_refused officeTables "t-1" true).2.2.2.2 openService
    aggregationRequest (asksFor_aggregationRequest rfl)
  have text := (tender_is_loaded_or_refused (workTables (.string "x")) "t-1" true).2.2.2.2
    openService aggregationRequest (asksFor_aggregationRequest rfl)
  have number := (tender_is_loaded_or_refused (workTables (.int 5)) "t-1" true).2.2.2.2
    openService aggregationRequest (asksFor_aggregationRequest rfl)
  exact ⟨hmissing, missing.1 _ hmissing, text.2.1 ⟨"раб", none, .notAList (.string "x")⟩ rfl,
    contextBreaks_workTables 5, number.2.2 (contextBreaks_workTables 5)⟩

/-- A number in place of a sequence is neither missing nor blamed, and the request for the tender
gets a failure of the service. -/
theorem workTables_not_refused :
    ¬ Ends (fun _ => True) (fun e => e.NotFound ∨ ∃ fault, e = .tactic (.config fault))
        (loadContext (workTables (.int 5)) "t-1" true).result ∧
      (respond openService (workTables (.int 5)) aggregationRequest).2.2.status = 500 := by
  have hbroken : ∃ e, (loadContext (workTables (.int 5)) "t-1" true).result = .error e ∧
      e.Untold := contextBreaks_iff.mp (contextBreaks_workTables 5)
  obtain ⟨e, herror, untold⟩ := hbroken
  constructor
  · intro hends
    rcases hends.error herror with notFound | ⟨fault, hfault⟩
    · cases untold <;> cases notFound
    · rw [hfault] at untold
      cases untold with
      | tactic noBlame => exact noBlame ⟨fault, rfl⟩
  · have asks : AsksFor openService (workTables (.int 5)) "t-1" aggregationRequest :=
      asksFor_aggregationRequest rfl
    rw [asks.respond_error herror, tenderReply_of_untold untold]
    rfl

end Service
end TenderPricing
