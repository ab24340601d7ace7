import TenderPricing.Proofs.Markup.Review
import TenderPricing.Proofs.Service.Admission
/-!
The endpoint that validates a sequence answers with a review of its steps, which agrees with the
loader.  The texts of a request are Unicode, so the messages that quote them can be sent.
-/
namespace TenderPricing
namespace Service

open Markup Store

theorem allSendable_texts (values : List String) : allSendable (values.map .string) = true := by
  induction values with
  | nil => rfl
  | cons s rest ih => exact ih

/-- The body of an answer with the errors of a sequence. -/
def validationBody (name : String) (errors : List String) : Json :=
  .object [("name", .string name), ("valid", .bool errors.isEmpty), ("errors", texts errors)]

theorem isSendable_validationBody (name : String) (errors : List String) :
    isSendable (validationBody name errors) = true := by
  simp only [validationBody, isSendable, membersSendable, texts, allSendable_texts, Bool.and_self]

theorem validate_result {request : SequenceRequest} {errors : List String}
    (h : review request.steps request.name = .ok errors) :
    (validate request).result = .ok (validationBody request.name errors) := by
  rw [validate, result_bind_ok]
  · rfl
  · rw [result_mapError_lift, h]
    rfl

/-- A request to validate objects without literals beyond the range of doubles is answered with
errors that agree with the loader. -/
theorem validation_agrees_with_loader {env : Environment} {t : Tables Float} {request : Request}
    {name : String} {objects : List Members} (reaches : Reaches env t .validate request)
    (body : readBody readSequence request.body = .valid ⟨name, objects.map .object⟩)
    (inRange : ∀ members ∈ objects, InRange members) :
    ∃ errors, (respond env t request).2.2 =
        ⟨200, validationBody name errors, responseHeaders env request⟩ ∧
      Reports name objects errors := by
  obtain ⟨errors, hreview, hreports⟩ := review_objects name inRange
  refine ⟨errors, ?_, hreports⟩
  have hresult : (validate ⟨name, objects.map .object⟩).result =
      .ok (validationBody name errors) := validate_result hreview
  rw [respond_of_reaches reaches (by simp), query, result_admitted reaches body, hresult, replyTo,
    if_pos (isSendable_validationBody name errors)]
  rfl

/-- A step between an object without operations and one without a base index. -/
def mixedObjects : List Members :=
  [[("baseIndex", .int (-1))],
    [("baseIndex", .int (-1)), ("action1", .string "multiply"), ("operand1Type", .string "number"),
      ("operand1Key", .int 2)],
    [("action1", .string "multiply")]]

-- both are listed, with the places of their objects
example : (validate ⟨"раб", mixedObjects.map .object⟩).result =
    .ok (validationBody "раб" ["раб: step 1: missing required first operation",
      "раб: step 3: missing or invalid baseIndex"]) := rfl

end Service
end TenderPricing
