import TenderPricing.Store.Recalculation
/-!
Transactions.

A recalculation runs in one transaction.  If it succeeds its changes are flushed and committed; if
it fails they are rolled back, and the tables are what they were before.  A request and a task of
the worker each end their transaction by rules of their own: `closeRequest` and `closeTask`.
-/
namespace TenderPricing
namespace Store

variable {α : Type}

inductive SessionCall where
  | flush
  | commit
  | rollback
  deriving DecidableEq, Repr

namespace SessionCall

def word : SessionCall → String
  | flush => "flush"
  | commit => "commit"
  | rollback => "rollback"

end SessionCall

/-- A finished transaction: the tables that are left, the calls that were made and the outcome. -/
structure Transaction (α ε β : Type) where
  tables : Tables α
  calls : List SessionCall
  outcome : Logged α ε β

/-- The calls that a run has made on its session. -/
def Run.calls (run : Run α) : List SessionCall := if run.flushed then [.flush] else []

/-- Ends the session of a request that has made a run on the tables `before`.  What counts is how
the endpoint ends: an answer is committed, and whatever error the endpoint makes of a failure rolls
back. -/
def closeRequest {ε β : Type} (before : Tables α) (run : Run α) (answer : Logged α ε β) :
    Transaction α ε β :=
  match answer.result with
  | .ok _ => ⟨run.tables, run.calls ++ [.commit], answer⟩
  | .error _ => ⟨before, run.calls ++ [.rollback], answer⟩

/-- Ends the session of a task that has made a run on the tables `before`.  An error of the run is
passed on. -/
def closeTask (before : Tables α) (run : Run α) : Transaction α TenderError Summary :=
  match run.outcome.result with
  | .ok summary => ⟨run.tables, run.calls ++ [.commit], ⟨run.outcome.notices, .ok summary⟩⟩
  | .error e => ⟨before, run.calls ++ [.rollback], ⟨run.outcome.notices, .error e⟩⟩

variable [Arithmetic α]

/-- A recalculation in a session of its own, its error as it is. -/
def recalculateAndCommit (t : Tables α) (id : String) : Transaction α TenderError Summary :=
  closeRequest t (recalculate t id) (recalculate t id).outcome

/-- A stage that the worker reports. -/
inductive Progress where
  | recalculating
  | complete
  deriving DecidableEq, Repr

namespace Progress

def step : Progress → String
  | recalculating => "Recalculating"
  | complete => "Complete"

def percent : Progress → Nat
  | recalculating => 10
  | complete => 100

end Progress

/-- A recalculation as the worker runs it.  A failure is written to the journal and passed on. -/
def recalculateAsTask (t : Tables α) (id : String) :
    Transaction α TenderError Summary × List Progress :=
  let done := closeTask t (recalculate t id)
  match done.outcome.result with
  | .ok _ => (done, [.recalculating, .complete])
  | .error e =>
    let notices := done.outcome.notices ++ [.recalculationFailed id e.message]
    ({ done with outcome := ⟨notices, .error e⟩ }, [.recalculating])

end Store
end TenderPricing
