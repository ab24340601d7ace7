import TenderPricing.Proofs.Markup.StoredTactic
import TenderPricing.Proofs.Service.Admission
/-!
Requests whose raw steps do not load.

The endpoints that price sequences given by the caller tell what is wrong with a step.  A literal
beyond the range of doubles is not told: loading breaks off with an error of the service, and the
response is a bare failure.
-/
namespace TenderPricing
namespace Service

open Markup Store

theorem exists_requestPercentages (given : Option (List (String × Float))) :
    ∃ percentages, (requestPercentages given).result = .ok percentages := by
  cases given with
  | none => exact ⟨_, rfl⟩
  | some values => exact ⟨_, rfl⟩

theorem evaluateRequest_result_error {request : EvaluationRequest} {e : LoadError}
    (h : (sequenceOfRaw (.array request.sequence.steps) request.sequence.name :
      Except LoadError (List (Step Float))) = .error e) :
    (evaluateRequest request).result = .error (.load e) := by
  obtain ⟨percentages, hpercentages⟩ := exists_requestPercentages request.percentages
  simp only [evaluateRequest]
  rw [result_bind_ok hpercentages, result_bind_error]
  rw [result_mapError_lift, h]
  rfl

/-- Sequences load one after the other, so the first one that does not load decides. -/
theorem sequencesOfMembers_eq_error {name : String} {raw : Json} {earlier later : Members}
    {e : LoadError}
    (loaded : ∀ entry ∈ earlier, ∃ steps : List (Step Float),
      sequenceOfRaw entry.2 entry.1 = .ok steps)
    (h : (sequenceOfRaw raw name : Except LoadError (List (Step Float))) = .error e) :
    (sequencesOfMembers (earlier ++ (name, raw) :: later) : Except LoadError (Sequences Float)) =
      .error e := by
  refine sequencesOfMembers_eq_error_iff.mpr ⟨earlier.length, (name, raw), by simp, ?_, h⟩
  intro j entry hj hget
  rw [List.getElem?_append_left hj] at hget
  exact exists_sequenceOfRaw_iff.mp (loaded entry (List.mem_of_getElem? hget))

theorem coefficientsRequest_result_error {name : String} {raws : List Json}
    {earlier later : List (String × List Json)} {percentages : Option (List (String × Float))}
    {e : LoadError}
    (loaded : ∀ entry ∈ earlier, ∃ steps : List (Step Float),
      sequenceOfRaw (.array entry.2) entry.1 = .ok steps)
    (h : (sequenceOfRaw (.array raws) name : Except LoadError (List (Step Float))) = .error e) :
    (coefficientsRequest ⟨earlier ++ (name, raws) :: later, percentages⟩).result =
      .error (.load e) := by
  obtain ⟨table, htable⟩ := exists_requestPercentages percentages
  have hearlier : ∀ entry ∈ earlier.map fun entry => (entry.1, Json.array entry.2),
      ∃ steps : List (Step Float), sequenceOfRaw entry.2 entry.1 = .ok steps := by
    rw [List.forall_mem_map]
    exact loaded
  have hsequences : (sequencesOfRaw (.object ((earlier ++ (name, raws) :: later).map
      fun entry => (entry.1, Json.array entry.2))) : Except LoadError (Sequences Float)) =
        .error e := by
    rw [List.map_append, List.map_cons, sequencesOfRaw, if_pos]
    · exact sequencesOfMembers_eq_error hearlier h
    · simp [Json.isSet]
  simp only [coefficientsRequest]
  rw [result_bind_ok htable, result_bind_error]
  exact congrArg (Except.mapError Trouble.load) hsequences

/-- A request whose work loads raw steps under a name: an evaluation of these steps, or the
coefficients of sequences of which these steps are one and all before it load. -/
inductive Loads (env : Environment) (t : Tables Float) (name : String) (raws : List Json)
    (request : Request) : Prop
  | evaluation {base : Float} {percentages : Option (List (String × Float))}
    (reaches : Reaches env t .evaluate request)
    (body : readBody readEvaluation request.body = .valid ⟨⟨name, raws⟩, base, percentages⟩)
  | coefficients {earlier later : List (String × List Json)}
    {percentages : Option (List (String × Float))}
    (reaches : Reaches env t .coefficients request)
    (body : readBody readCoefficients request.body =
      .valid ⟨earlier ++ (name, raws) :: later, percentages⟩)
    (loaded : ∀ entry ∈ earlier, ∃ steps : List (Step Float),
      sequenceOfRaw (.array entry.2) entry.1 = .ok steps)

section Loads

variable {env : Environment} {t : Tables Float} {name : String} {raws : List Json}
  {request : Request}

theorem Loads.respond_error {e : LoadError} (loads : Loads env t name raws request)
    (h : (sequenceOfRaw (.array raws) name : Except LoadError (List (Step Float))) = .error e) :
    (respond env t request).2.2 =
      (Trouble.loadReply e).toResponse (responseHeaders env request) := by
  cases loads with
  | evaluation reaches body =>
    rw [respond_of_reaches reaches (by simp), query, result_admitted reaches body,
      evaluateRequest_result_error h]
    rfl
  | coefficients reaches body loaded =>
    rw [respond_of_reaches reaches (by simp), query, result_admitted reaches body,
      coefficientsRequest_result_error loaded h]
    rfl

theorem respond_of_reachesBreak {objects : List Members} (hliteral : ReachesBreak objects)
    (loads : Loads env t name (objects.map .object) request) :
    (respond env t request).2.2 = failureResponse := by
  rw [loads.respond_error (loadObjects_eq_number_iff.mpr ⟨rfl, hliteral⟩)]
  rfl

end Loads

/-- Loading a list of objects gives steps or an error that names the sequence and a place where no
step stands, unless it comes to a literal beyond the range of doubles.  A request is told the
error with status 422; where the literal is too large, the service fails. -/
theorem sequence_is_loaded_or_blamed (env : Environment) (t : Tables Float) (name : String)
    (objects : List Members) :
    Ends (fun _ : List (Step Float) => True)
      (fun e => (e = .number .tooLarge ∧ ReachesBreak objects) ∨
        ∃ fault, e = .config fault ∧ BlamesStep name objects fault)
      (loadObjects name objects) ∧
    (loadObjects name objects = .error (.number .tooLarge) ↔ ReachesBreak objects) ∧
    ∀ request, Loads env t name (objects.map .object) request →
      (ReachesBreak objects → (respond env t request).2.2 = failureResponse) ∧
      ∀ fault, loadObjects name objects = .error (.config fault) →
        (respond env t request).2.2 =
          ⟨422, detail (.string fault.message), responseHeaders env request⟩ := by
  have hbreak : loadObjects name objects = .error (.number .tooLarge) ↔ ReachesBreak objects := by
    rw [loadObjects_eq_number_iff]
    exact and_iff_right rfl
  refine ⟨loadObjects_ends name objects, hbreak, fun request loads =>
    ⟨fun hliteral => respond_of_reachesBreak hliteral loads, fun fault hfault => ?_⟩⟩
  rw [loads.respond_error hfault]
  rfl

/-- A step that multiplies by a literal of 310 digits. -/
def hugeMembers : Members :=
  [("baseIndex", .int (-1)), ("action1", .string "multiply"), ("operand1Type", .string "number"),
    ("operand1Key", .int (10 ^ 309))]

/-- A request for the evaluation of one step. -/
def evaluationOf (members : Members) : Request where
  method := "POST"
  target := ⟨"/api/markup/evaluate", []⟩
  headers := []
  body := some (.object [("name", .string "раб"), ("steps", .array [.object members]),
    ("base_value", .float 100.0)])
  credentials := some adminToken

theorem loads_evaluationOf (members : Members) :
    Loads openService officeTables "раб" [.object members] (evaluationOf members) := by
  have hpath : Endpoint.ofPath? "/api/markup/evaluate" = some .evaluate := by decide +kernel
  exact .evaluation ⟨hpath, rfl, guardUser_admin rfl⟩ rfl

theorem reachesBreak_hugeMembers : ReachesBreak [hugeMembers] := by
  have hlarge : (Number.floatOfInt (10 ^ 309)).isFinite = false := by decide +kernel
  have hslot : BreaksAt hugeMembers 1 := ⟨⟨.multiply, rfl, rfl⟩, rfl, _, rfl, hlarge⟩
  have hfirst : ∀ earlier ∈ [1, 2, 3], ¬ earlier < 1 := by decide
  refine ⟨0, hugeMembers, rfl, ⟨⟨-1, .int (-1)⟩, by decide, 1, by decide, hslot, ?_⟩, ?_⟩
  · exact fun earlier hearlier hlt => absurd hlt (hfirst earlier hearlier)
  · exact fun j earlier hj => absurd hj j.not_lt_zero

/-- One request comes to a literal that is too large, the other to a step without operations. -/
theorem sequence_is_loaded_or_blamed_evaluationOf :
    ReachesBreak [hugeMembers] ∧
      (respond openService officeTables (evaluationOf hugeMembers)).2.2 = failureResponse ∧
      (respond openService officeTables (evaluationOf [("baseIndex", .int (-1))])).2.2 =
        ⟨422, detail (.string "раб: step 1: missing required first operation"),
          securityHeaders⟩ := by
  refine ⟨reachesBreak_hugeMembers, ?_, ?_⟩
  · exact ((sequence_is_loaded_or_blamed openService officeTables "раб" [hugeMembers]).2.2 _
      (loads_evaluationOf hugeMembers)).1 reachesBreak_hugeMembers
  · exact ((sequence_is_loaded_or_blamed openService officeTables "раб"
      [[("baseIndex", .int (-1))]]).2.2 _ (loads_evaluationOf _)).2
        ⟨"раб", some 0, .noFirstOperation⟩ rfl

/-- The step with the literal is not blamed, and the request for its evaluation gets a failure of
the service. -/
theorem hugeMembers_not_blamed :
    ¬ Ends (fun _ : List (Step Float) => True)
        (fun e => ∃ fault, e = .config fault ∧ BlamesStep "раб" [hugeMembers] fault)
        (loadObjects "раб" [hugeMembers]) ∧
      (respond openService officeTables (evaluationOf hugeMembers)).2.2.status = 500 := by
  refine ⟨not_blamed_of_reachesBreak reachesBreak_hugeMembers, ?_⟩
  rw [respond_of_reachesBreak reachesBreak_hugeMembers (loads_evaluationOf hugeMembers)]
  rfl

end Service
end TenderPricing
