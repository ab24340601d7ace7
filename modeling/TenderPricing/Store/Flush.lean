import TenderPricing.Store.Recalculation
/-!
What a run sends to the database.

A run changes the rows that its session holds, and a flush sends the rows that are no longer what
was read: items before the positions are asked for, positions when the run ends.  The database
gives every item that it is sent the time of the change, and refuses numbers that their columns
cannot hold.  A refusal undoes the whole transaction, and the session forgets its changes.
-/
namespace TenderPricing
namespace Store

/-- How the rows of a table are sent. -/
structure RowRule (β : Type) where
  /-- Whether a row is sent that was read as the first and has become the second. -/
  sends : β → β → Bool
  /-- Whether the columns can hold the values of a row. -/
  fits : β → Bool
  /-- A row that is what was read is not sent. -/
  sends_self : ∀ row, sends row row = false

namespace RowRule

variable {β : Type}

def refuses (rule : RowRule β) (before after : β) : Bool :=
  rule.sends before after && !rule.fits after

end RowRule

/-- The database, as far as it decides what a flush stores. -/
structure Backend (α : Type) where
  items : RowRule (ItemRow α)
  positions : RowRule (PositionRow α)
  /-- The time of the transaction. -/
  now : Int

namespace Backend

variable {α : Type}

/-- An item as it is stored that was read as `before` and has become `after`. -/
def stored (db : Backend α) (before after : ItemRow α) : ItemRow α :=
  if db.items.sends before after then { after with updatedAt := some db.now } else after

def refuses (db : Backend α) (before after : Tables α) : Bool :=
  (List.zipWith db.items.refuses before.items after.items).any id ||
    (List.zipWith db.positions.refuses before.positions after.positions).any id

/-- The tables after a flush, none if a row is refused. -/
def flush? (db : Backend α) (before after : Tables α) : Option (Tables α) :=
  if db.refuses before after then none
  else some { after with items := List.zipWith db.stored before.items after.items }

end Backend

/-- Why a run on a database fails. -/
inductive RunFault where
  | tender (error : TenderError)
  /-- The database refuses a row. -/
  | refused

/-- The tables that the session of a run holds, and those that its transaction has stored. -/
structure Flushed (α : Type) where
  session : Tables α
  stored : Tables α
  outcome : Except RunFault Summary

variable {α : Type}

/-- Flushes a run on the tables `before`.  A run that failed has nothing flushed. -/
def Run.flushTo (db : Backend α) (before : Tables α) (run : Run α) : Flushed α :=
  match run.outcome.result with
  | .error e => ⟨run.tables, before, .error (.tender e)⟩
  | .ok summary => match db.flush? before run.tables with
    | none => ⟨before, before, .error .refused⟩
    | some stored => ⟨stored, stored, .ok summary⟩

/-- A recalculation with its flush. -/
def recalculateOn [Arithmetic α] (db : Backend α) (t : Tables α) (id : String) : Flushed α :=
  (recalculate t id).flushTo db t

end Store
end TenderPricing
