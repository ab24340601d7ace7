import TenderPricing.Proofs.Store.ItemRun
import TenderPricing.Store.Transaction
/-!
A recalculation as its session performs it.

A session sees its own changes at once; they become durable when it commits, and are gone when it
rolls back.  A recalculation writes one row after the other and only then ends its transaction, so
whichever row it fails at, either all that it wrote is durable or none of it.
-/
namespace TenderPricing
namespace Store

open Markup Pricing

/-! ## Sessions -/

section Session

variable {α : Type}

/-- What is done to a session: a row is written at its place in the table, or a call is made. -/
inductive Action (α : Type) where
  | writeItem (place : Nat) (cost : ItemCost α)
  | writePosition (place : Nat) (total : Split α)
  | call (c : SessionCall)

namespace Action

def call? : Action α → Option SessionCall
  | call c => some c
  | _ => none

end Action

/-- The tables that are durable, and those that the session sees. -/
structure Session (α : Type) where
  durable : Tables α
  current : Tables α

variable [Arithmetic α]

namespace Session

def opened (t : Tables α) : Session α := ⟨t, t⟩

def perform (s : Session α) : Action α → Session α
  | .writeItem place cost =>
    { s with current := { s.current with
      items := s.current.items.modify place (·.withCost cost) } }
  | .writePosition place total =>
    { s with current := { s.current with
      positions := s.current.positions.modify place (·.withTotals total) } }
  | .call .flush => s
  | .call .commit => { s with durable := s.current }
  | .call .rollback => { s with current := s.durable }

def performAll (s : Session α) (actions : List (Action α)) : Session α := actions.foldl perform s

theorem performAll_append (s : Session α) (first later : List (Action α)) :
    s.performAll (first ++ later) = (s.performAll first).performAll later := List.foldl_append

end Session

end Session

/-! ## The writes of a recalculation -/

section Writes

variable {α : Type}

/-- The writes to rows of the position table.  The first row stands at `place`. -/
def positionWrites (totals : Keyed (Option String) (Split α)) (place : Nat) :
    List (PositionRow α) → List (Action α)
  | [] => []
  | p :: rest =>
    match totalOf? totals p with
    | none => positionWrites totals (place + 1) rest
    | some total => .writePosition place total :: positionWrites totals (place + 1) rest

theorem call?_positionWrites {totals : Keyed (Option String) (Split α)}
    {rows : List (PositionRow α)} :
    ∀ place, ∀ action ∈ positionWrites totals place rows, action.call? = none := by
  induction rows with
  | nil => exact fun _ => List.forall_mem_nil _
  | cons p rest ih =>
    intro place
    rw [positionWrites]
    cases totalOf? totals p with
    | none => exact ih (place + 1)
    | some total => exact List.forall_mem_cons.mpr ⟨rfl, ih (place + 1)⟩

variable [Arithmetic α]

/-- The writes to rows of the item table, up to the first that cannot be priced.  The first row
stands at `place`. -/
def itemWrites (ctx : Context α) (place : Nat) : List (ItemRow α) → List (Action α)
  | [] => []
  | row :: rest =>
    if row.isOf ctx.tender then
      match (rowCost ctx row).result with
      | .error _ => []
      | .ok none => itemWrites ctx (place + 1) rest
      | .ok (some cost) => .writeItem place cost :: itemWrites ctx (place + 1) rest
    else itemWrites ctx (place + 1) rest

def recalculationWrites (t : Tables α) (id : String) : List (Action α) :=
  match (loadContext t id false).result with
  | .error _ => []
  | .ok ctx =>
    itemWrites ctx 0 t.items ++
      match (priceItems ctx {} t.items).outcome.result with
      | .error _ => []
      | .ok tally => positionWrites tally.totals 0 t.positions

theorem modify_at {β : Type} (before after : List β) (x : β) (f : β → β) :
    (before ++ x :: after).modify before.length f = before ++ f x :: after := by
  induction before with
  | nil => rfl
  | cons y rest ih => exact congrArg (y :: ·) ih

/-- The writes to the item table, performed on a session that has come to `rows`. -/
theorem performAll_itemWrites {ctx : Context α} {rows : List (ItemRow α)} :
    ∀ (before : List (ItemRow α)) (tally : Tally α) (s : Session α),
      s.current.items = before ++ rows →
      s.performAll (itemWrites ctx before.length rows) =
        { s with current := { s.current with
          items := before ++ (priceItems ctx tally rows).items } } := by
  induction rows with
  | nil =>
    intro before tally s h
    show s = { s with current := { s.current with items := before ++ [] } }
    rw [← h]
  | cons row rest ih =>
    intro before tally s h
    -- the row has been left behind as `written`, and the session goes on with the next one
    have hlater : ∀ (written : ItemRow α) (tally : Tally α) (s : Session α),
        s.current.items = before ++ written :: rest →
        s.performAll (itemWrites ctx (before.length + 1) rest) =
          { s with current := { s.current with
            items := before ++ written :: (priceItems ctx tally rest).items } } := by
      intro written tally s h
      have hplace : (before ++ [written]).length = before.length + 1 := List.length_append
      have happend := ih (before ++ [written]) tally s (by rw [h, List.append_assoc]; rfl)
      rwa [hplace, List.append_assoc] at happend
    by_cases own : row.isOf ctx.tender = true
    · cases hcost : (rowCost ctx row).result with
      | error e =>
        simp only [itemWrites, priceItems, if_pos own, hcost]
        show s = { s with current := { s.current with items := before ++ row :: rest } }
        rw [← h]
      | ok found =>
        simp only [itemWrites, priceItems, if_pos own, hcost]
        cases found with
        | none => exact hlater row _ s h
        | some cost =>
          have hwritten : (s.perform (.writeItem before.length cost)).current.items =
              before ++ row.withCost cost :: rest := by
            show s.current.items.modify before.length _ = _
            rw [h, modify_at]
          exact hlater _ _ _ hwritten
    · simp only [itemWrites, priceItems, if_neg own]
      exact hlater row tally s h

/-- The writes to the position table, performed on a session that has come to `rows`. -/
theorem performAll_positionWrites {totals : Keyed (Option String) (Split α)}
    {rows : List (PositionRow α)} :
    ∀ (before : List (PositionRow α)) (s : Session α), s.current.positions = before ++ rows →
      s.performAll (positionWrites totals before.length rows) =
        { s with current := { s.current with positions := before ++ rollUp totals rows } } := by
  induction rows with
  | nil =>
    intro before s h
    show s = { s with current := { s.current with positions := before ++ [] } }
    rw [← h]
  | cons p rest ih =>
    intro before s h
    have hlater : ∀ (written : PositionRow α) (s : Session α),
        s.current.positions = before ++ written :: rest →
        s.performAll (positionWrites totals (before.length + 1) rest) =
          { s with current := { s.current with
            positions := before ++ written :: rollUp totals rest } } := by
      intro written s h
      have hplace : (before ++ [written]).length = before.length + 1 := List.length_append
      have happend := ih (before ++ [written]) s (by rw [h, List.append_assoc]; rfl)
      rwa [hplace, List.append_assoc] at happend
    rw [rollUp, List.map_cons, positionWrites]
    cases totalOf? totals p with
    | none => exact hlater p s h
    | some total =>
      have hwritten : (s.perform (.writePosition before.length total)).current.positions =
          before ++ p.withTotals total :: rest := by
        show s.current.positions.modify before.length _ = _
        rw [h, modify_at]
      exact hlater _ _ hwritten

/-- When a recalculation has written all its rows, the session sees what the run left, and nothing
of it is durable. -/
theorem performAll_recalculationWrites (t : Tables α) (id : String) :
    (Session.opened t).performAll (recalculationWrites t id) = ⟨t, (recalculate t id).tables⟩ := by
  cases hloaded : (loadContext t id false).result with
  | error e =>
    simp only [recalculationWrites, recalculate, hloaded]
    rfl
  | ok ctx =>
    have hitems : (Session.opened t).performAll (itemWrites ctx 0 t.items) =
        ⟨t, { t with items := (priceItems ctx {} t.items).items }⟩ :=
      performAll_itemWrites [] {} (.opened t) rfl
    cases hrun : (priceItems ctx {} t.items).outcome.result with
    | error e =>
      simp only [recalculationWrites, recalculate, hloaded, hrun, List.append_nil]
      exact hitems
    | ok tally =>
      simp only [recalculationWrites, recalculate, hloaded, hrun, Session.performAll_append,
        hitems]
      exact performAll_positionWrites [] _ rfl

theorem call?_itemWrites {ctx : Context α} {rows : List (ItemRow α)} :
    ∀ place, ∀ action ∈ itemWrites ctx place rows, action.call? = none := by
  induction rows with
  | nil => exact fun _ => List.forall_mem_nil _
  | cons row rest ih =>
    intro place
    by_cases own : row.isOf ctx.tender = true
    · rw [itemWrites, if_pos own]
      cases (rowCost ctx row).result with
      | error e => exact List.forall_mem_nil _
      | ok found =>
        cases found with
        | none => exact ih (place + 1)
        | some cost => exact List.forall_mem_cons.mpr ⟨rfl, ih (place + 1)⟩
    · rw [itemWrites, if_neg own]
      exact ih (place + 1)

theorem call?_recalculationWrites (t : Tables α) (id : String) :
    ∀ action ∈ recalculationWrites t id, action.call? = none := by
  unfold recalculationWrites
  cases (loadContext t id false).result with
  | error e => exact List.forall_mem_nil _
  | ok ctx =>
    rw [List.forall_mem_append]
    refine ⟨call?_itemWrites 0, ?_⟩
    cases (priceItems ctx {} t.items).outcome.result with
    | error e => exact List.forall_mem_nil _
    | ok tally => exact call?_positionWrites 0

end Writes

/-! ## Ends of sessions -/

section Closing

variable {α : Type}

theorem closeRequest_outcome {ε β : Type} (before : Tables α) (run : Run α)
    (answer : Logged α ε β) : (closeRequest before run answer).outcome = answer := by
  unfold closeRequest
  cases answer.result <;> rfl

/-- What a run makes durable is decided by whether the endpoint answers, not by what it answers. -/
theorem closeRequest_congr {ε ε' β β' : Type} (before : Tables α) (run : Run α)
    {answer : Logged α ε β} {answer' : Logged α ε' β'}
    (same : answer'.result.toOption.isSome = answer.result.toOption.isSome) :
    (closeRequest before run answer').tables = (closeRequest before run answer).tables ∧
      (closeRequest before run answer').calls = (closeRequest before run answer).calls := by
  unfold closeRequest
  cases hanswer : answer.result with
  | ok value =>
    cases hanswer' : answer'.result with
    | ok value' => exact ⟨rfl, rfl⟩
    | error e' =>
      rw [hanswer, hanswer'] at same
      cases same
  | error e =>
    cases hanswer' : answer'.result with
    | ok value' =>
      rw [hanswer, hanswer'] at same
      cases same
    | error e' => exact ⟨rfl, rfl⟩

/-- A task settles as a request does that answers with the run's own outcome. -/
theorem closeTask_eq_closeRequest (before : Tables α) (run : Run α) :
    closeTask before run = closeRequest before run run.outcome := by
  obtain ⟨tables, flushed, notices, result⟩ := run
  cases result <;> rfl

end Closing

/-! ## Whole transactions -/

section Transaction

variable {α : Type} [Arithmetic α]

/-- The transaction is what a session makes of the actions: it makes their calls, and its tables
are those that are durable in the end. -/
structure Carries {ε β : Type} (t : Tables α) (actions : List (Action α))
    (done : Transaction α ε β) : Prop where
  calls : done.calls = actions.filterMap Action.call?
  durable : done.tables = ((Session.opened t).performAll actions).durable

/-- All that a recalculation wrote is durable after one commit, or none of it after one rollback. -/
inductive Settled (t : Tables α) (id : String) (done : Transaction α TenderError Summary) :
    Prop where
  | committed {summary : Summary} (returned : done.outcome.result = .ok summary)
      (actions : Carries t (recalculationWrites t id ++ [.call .flush, .call .commit]) done)
      (durable : done.tables = (recalculate t id).tables)
  | rolledBack {e : TenderError} (failed : done.outcome.result = .error e)
      (actions : Carries t (recalculationWrites t id ++ [.call .rollback]) done)
      (durable : done.tables = t)

theorem calls_after_writes (t : Tables α) (id : String) (calls : List (Action α)) :
    (recalculationWrites t id ++ calls).filterMap Action.call? =
      calls.filterMap Action.call? := by
  rw [List.filterMap_append, List.filterMap_eq_nil_iff.mpr (call?_recalculationWrites t id),
    List.nil_append]

theorem recalculate_flushed (t : Tables α) (id : String) :
    (recalculate t id).flushed = (recalculate t id).outcome.result.toOption.isSome := by
  unfold recalculate
  cases hloaded : (loadContext t id false).result with
  | error e => simp only [hloaded]; rfl
  | ok ctx =>
    cases hrun : (priceItems ctx {} t.items).outcome.result <;> simp only [hloaded, hrun] <;> rfl

theorem settled_recalculateAndCommit (t : Tables α) (id : String) :
    Settled t id (recalculateAndCommit t id) := by
  have hwritten := performAll_recalculationWrites t id
  have hflushed := recalculate_flushed t id
  unfold recalculateAndCommit closeRequest Run.calls
  cases hresult : (recalculate t id).outcome.result with
  | ok summary =>
    rw [hresult] at hflushed
    simp only [hflushed]
    refine .committed hresult ⟨?_, ?_⟩ rfl
    · rw [calls_after_writes]
      rfl
    · rw [Session.performAll_append, hwritten]
      rfl
  | error e =>
    rw [hresult] at hflushed
    simp only [hflushed]
    refine .rolledBack hresult ⟨?_, ?_⟩ rfl
    · rw [calls_after_writes]
      rfl
    · rw [Session.performAll_append, hwritten]
      rfl

theorem Settled.congr {t : Tables α} {id : String}
    {done done' : Transaction α TenderError Summary} (h : Settled t id done)
    (tables : done'.tables = done.tables) (calls : done'.calls = done.calls)
    (result : done'.outcome.result = done.outcome.result) : Settled t id done' := by
  cases h with
  | committed returned actions durable =>
    exact .committed (result.trans returned) ⟨calls.trans actions.calls,
      tables.trans actions.durable⟩ (tables.trans durable)
  | rolledBack failed actions durable =>
    exact .rolledBack (result.trans failed) ⟨calls.trans actions.calls,
      tables.trans actions.durable⟩ (tables.trans durable)

theorem settled_recalculateAsTask (t : Tables α) (id : String) :
    Settled t id (recalculateAsTask t id).1 := by
  have h := settled_recalculateAndCommit t id
  rw [recalculateAndCommit, ← closeTask_eq_closeRequest] at h
  unfold recalculateAsTask
  cases hresult : (closeTask t (recalculate t id)).outcome.result with
  | ok summary =>
    simp only [hresult]
    exact h
  | error e =>
    simp only [hresult]
    exact h.congr rfl rfl hresult.symm

end Transaction

end Store
end TenderPricing
