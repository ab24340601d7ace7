import TenderPricing.Markup.Review
import TenderPricing.Proofs.Markup.Rejection
/-!
A review of raw steps agrees with the loader.

Both read the objects in order, but a review goes on where the loader stops.  `readEach_objects`
compares the two readings; what a review then lists, `Reports`, follows with the check of the
references, which both make only if all objects write steps.
-/
namespace TenderPricing
namespace Markup

/-- No slot holds a literal beyond the range of doubles. -/
def InRange (members : Members) : Prop := ∀ slot ∈ [1, 2, 3], ¬ HugeLiteral members slot

/-- The error of the object at a position, if it writes no step. -/
def rejection? (name : String) (position : Nat) (members : Members) : Option ConfigError :=
  match (Step.ofRaw (.object members) name position : Except LoadError (Step Float)) with
  | .error (.config e) => some e
  | _ => none

/-- The errors of the objects from a position on that write no step, in order. -/
def rejectionsFrom (name : String) (position : Nat) (objects : List Members) : List ConfigError :=
  (objects.zipIdx position).filterMap fun (members, i) => rejection? name i members

def rejections (name : String) (objects : List Members) : List ConfigError :=
  rejectionsFrom name 0 objects

variable {name : String} {position : Nat}

theorem rejectionsFrom_cons_of_none {first : Members} (later : List Members)
    (h : rejection? name position first = none) :
    rejectionsFrom name position (first :: later) = rejectionsFrom name (position + 1) later := by
  simp only [rejectionsFrom, List.zipIdx_cons, List.filterMap_cons, h]

theorem rejectionsFrom_cons_of_some {first : Members} (later : List Members) {e : ConfigError}
    (h : rejection? name position first = some e) :
    rejectionsFrom name position (first :: later) =
      e :: rejectionsFrom name (position + 1) later := by
  simp only [rejectionsFrom, List.zipIdx_cons, List.filterMap_cons, h]

/-- An object in range is read as a step or gives an error that names its place. -/
theorem ofRaw_object_cases (name : String) (position : Nat) {members : Members}
    (inRange : InRange members) :
    (∃ step : Step Float, Step.ofRaw (.object members) name position = .ok step) ∨
      ∃ e, (Step.ofRaw (.object members) name position : Except LoadError (Step Float)) =
        .error (.config e) := by
  cases hread : (Step.ofMembers members : Except Rejection (Step Float)) with
  | ok step => exact .inl ⟨step, mapError_eq_ok_iff.mpr hread⟩
  | error rejection =>
    cases rejection with
    | fault f => exact .inr ⟨_, mapError_eq_error_iff.mpr ⟨_, hread, rfl⟩⟩
    | number f =>
      obtain ⟨-, -, -, slot, hslot, hbreaks, -⟩ := Step.ofMembers_eq_number_iff.mp hread
      exact absurd hbreaks.literal (inRange slot hslot)

/-- Reading each object gives the errors of all that write no step; reading them in a row gives the
first of these errors, or the same steps. -/
theorem readEach_objects (name : String) {objects : List Members}
    (inRange : ∀ members ∈ objects, InRange members) :
    ∀ position, ∃ steps : List (Step Float),
      readEach name position (objects.map .object) =
        .ok (rejectionsFrom name position objects, steps) ∧
      stepsOfRaw name position (objects.map .object) =
        match rejectionsFrom name position objects with
        | [] => .ok steps
        | e :: _ => .error (.config e) := by
  induction objects with
  | nil => exact fun position => ⟨[], rfl, rfl⟩
  | cons first later ih =>
    intro position
    obtain ⟨hfirst, hlater⟩ := List.forall_mem_cons.mp inRange
    obtain ⟨steps, heach, hrow⟩ := ih hlater (position + 1)
    rw [List.map_cons]
    rcases ofRaw_object_cases name position hfirst with ⟨step, hstep⟩ | ⟨e, he⟩
    · have haccepted : rejection? name position first = none := by rw [rejection?, hstep]
      refine ⟨step :: steps, ?_, ?_⟩
      · rw [readEach, hstep, heach, rejectionsFrom_cons_of_none later haccepted]
        rfl
      · rw [stepsOfRaw, hstep, ok_bind, hrow, rejectionsFrom_cons_of_none later haccepted]
        cases rejectionsFrom name (position + 1) later <;> rfl
    -- here the loader stops, and the review goes on
    · have hrejected : rejection? name position first = some e := by rw [rejection?, he]
      refine ⟨steps, ?_, ?_⟩
      · rw [readEach, he, heach, rejectionsFrom_cons_of_some later hrejected]
        rfl
      · rw [stepsOfRaw, he, rejectionsFrom_cons_of_some later hrejected]
        rfl

/-- What a list of errors says of objects: none where the loader returns, else first the one that
the loader raises; one for each object that writes no step or, if all do, every problem of the
steps that they write. -/
structure Reports (name : String) (objects : List Members) (errors : List String) : Prop where
  isEmpty : errors = [] ↔ ∃ steps, loadObjects name objects = .ok steps
  head : errors ≠ [] → ∃ e : ConfigError, errors.head? = some e.message ∧
    loadObjects name objects = .error (.config e)
  rejected : rejections name objects ≠ [] → errors = (rejections name objects).map (·.message)
  written : rejections name objects = [] → ∃ steps : List (Step Float),
    List.Forall₂ Step.WrittenAs objects steps ∧ errors = problemMessages steps name

theorem Reports.of_error {objects : List Members} {errors : List String} {e : ConfigError}
    (hload : loadObjects name objects = .error (.config e))
    (hhead : errors.head? = some e.message)
    (rejected : rejections name objects ≠ [] → errors = (rejections name objects).map (·.message))
    (written : rejections name objects = [] → ∃ steps : List (Step Float),
      List.Forall₂ Step.WrittenAs objects steps ∧ errors = problemMessages steps name) :
    Reports name objects errors where
  isEmpty := by
    refine iff_of_false (fun hnone => ?_) (fun ⟨steps, hsteps⟩ => ?_)
    · rw [hnone] at hhead
      cases hhead
    · rw [hsteps] at hload
      cases hload
  head := fun _ => ⟨e, hhead, hload⟩
  rejected := rejected
  written := written

/-- A review of objects in range reports what is wrong with them. -/
theorem review_objects (name : String) {objects : List Members}
    (inRange : ∀ members ∈ objects, InRange members) :
    ∃ errors, review (objects.map .object) name = .ok errors ∧ Reports name objects errors := by
  obtain ⟨steps, heach, hrow⟩ := readEach_objects name inRange 0
  cases hfound : rejectionsFrom name 0 objects with
  | nil =>
    rw [hfound] at heach hrow
    have hwritten := stepsOfRaw_eq_ok_iff.mp hrow
    refine ⟨problemMessages steps name, by rw [review, heach]; rfl, ?_⟩
    cases hcheck : checkValid steps name with
    | ok _ =>
      have hvalid := valid_of_checkValid hcheck
      have hnone : problemMessages steps name = [] := by rw [problemMessages, hvalid]; rfl
      exact {
        isEmpty := iff_of_true hnone
          ⟨steps, loadObjects_eq_ok_iff.mpr ⟨hwritten, hvalid⟩⟩
        head := fun hsome => absurd hnone hsome
        rejected := fun hsome => absurd hfound hsome
        written := fun _ => ⟨steps, hwritten, rfl⟩ }
    | error e =>
      have hload := loadObjects_eq_error_iff.mpr (.inr ⟨steps, e, hwritten, hcheck, rfl⟩)
      obtain ⟨first, later, hproblems, hlocate⟩ := checkValid_eq_error_iff.mp hcheck
      refine .of_error hload ?_ (fun hsome => absurd hfound hsome)
        (fun _ => ⟨steps, hwritten, rfl⟩)
      rw [problemMessages, hproblems, List.map_cons, List.head?_cons, hlocate]
  | cons e rest =>
    rw [hfound] at heach hrow
    have hload := loadObjects_eq_error_iff.mpr (.inl hrow)
    refine ⟨(e :: rest).map (·.message), by rw [review, heach]; rfl, ?_⟩
    refine .of_error hload rfl (fun _ => ?_) (fun hnone => ?_)
    · rw [rejections, hfound]
    · rw [rejections, hfound] at hnone
      cases hnone

end Markup
end TenderPricing
