import TenderPricing.Store.Context
/-!
Recalculation of a tender.

Every item of the tender is priced and its row changed, in the order of the table; then the
unrounded costs of the items are added up on their positions.  The first item that cannot be
priced ends the run: the rows before it are changed by then, and no position is.
-/
namespace TenderPricing
namespace Store

open Markup Pricing

variable {α : Type}

/-- What a run counts and adds up. -/
structure Tally (α : Type) where
  updated : Nat := 0
  skipped : Nat := 0
  /-- Unrounded costs by position. -/
  totals : Keyed (Option String) (Split α) := []

structure Summary where
  tender : String
  updated : Nat
  skipped : Nat
  positionsUpdated : Nat
  deriving DecidableEq, Repr

namespace Tally

variable [Arithmetic α]

/-- Counts one item: without a cost it was skipped. -/
def add (position : Option String) (cost : Option (ItemCost α)) (t : Tally α) : Tally α :=
  match cost with
  | none => { t with skipped := t.skipped + 1 }
  | some c => { t with
      updated := t.updated + 1
      totals := t.totals.update position .zero fun s =>
        (s.credit .material c.material).credit .work c.work }

end Tally

/-- The item table after a run and how the run went. -/
structure ItemRun (α : Type) where
  items : List (ItemRow α)
  outcome : Logged α TenderError (Tally α)

variable [Arithmetic α]

/-- The row of an item that was priced; a type without a sequence leaves it as it is. -/
def repriced (row : ItemRow α) : Option (ItemCost α) → ItemRow α
  | some cost => row.withCost cost
  | none => row

/-- The cost of a row's item, growth left out where its category says so. -/
def rowCost (ctx : Context α) (row : ItemRow α) :
    Logged α EvaluationError (Option (ItemCost α)) :=
  itemCost row.toItem ctx.tactic ctx.rates ctx.distribution (ctx.exclusions.covers row.toItem)

/-- Prices the tender's rows among those given and leaves the others as they are. -/
def priceItems (ctx : Context α) (tally : Tally α) : List (ItemRow α) → ItemRun α
  | [] => ⟨[], pure tally⟩
  | row :: rest =>
    if row.isOf ctx.tender then
      let priced := rowCost ctx row
      match priced.result with
      | .error e => ⟨row :: rest, ⟨priced.notices, .error (.evaluation e)⟩⟩
      | .ok cost =>
        let later := priceItems ctx (tally.add row.position cost) rest
        ⟨repriced row cost :: later.items,
          ⟨priced.notices ++ later.outcome.notices, later.outcome.result⟩⟩
    else
      let later := priceItems ctx tally rest
      ⟨row :: later.items, later.outcome⟩

/-- The total of a position, if an item of the run belongs to it. -/
def totalOf? (totals : Keyed (Option String) (Split α)) (p : PositionRow α) : Option (Split α) :=
  totals.lookup (some p.id)

/-- Writes the totals to their positions, whichever tender these belong to. -/
def rollUp (totals : Keyed (Option String) (Split α)) (positions : List (PositionRow α)) :
    List (PositionRow α) :=
  positions.map fun p => match totalOf? totals p with
    | some total => p.withTotals total
    | none => p

/-- The tables after a run and how the run went.  `flushed` tells whether the run reached its end
and sent its changes to the database. -/
structure Run (α : Type) where
  tables : Tables α
  flushed : Bool
  outcome : Logged α TenderError Summary

def recalculate (t : Tables α) (id : String) : Run α :=
  let loaded := loadContext t id false
  match loaded.result with
  | .error e => ⟨t, false, ⟨loaded.notices, .error e⟩⟩
  | .ok ctx =>
    let run := priceItems ctx {} t.items
    let notices := loaded.notices ++ run.outcome.notices
    match run.outcome.result with
    | .error e => ⟨{ t with items := run.items }, false, ⟨notices, .error e⟩⟩
    | .ok tally =>
      let summary : Summary :=
        ⟨id, tally.updated, tally.skipped,
          t.positions.countP fun p => (totalOf? tally.totals p).isSome⟩
      ⟨{ t with items := run.items, positions := rollUp tally.totals t.positions }, true,
        ⟨notices ++ [.recalculated id summary.updated summary.skipped], .ok summary⟩⟩

end Store
end TenderPricing
