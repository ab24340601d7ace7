import TenderPricing.Matching.Position
import TenderPricing.Number.Arithmetic
/-!
A parent in place of one that was deleted: the nearest position of the same section, looked for
upwards first and then downwards.
-/
namespace TenderPricing
namespace Transfer

open Matching

variable {α : Type} [Arithmetic α]

/-- The first of the positions with the greatest number. -/
def highest? (positions : List (Position α)) : Option (Position α) :=
  positions.foldl (fun best p => match best with
    | none => some p
    | some q => if q.number < p.number then some p else some q) none

/-- The first of the positions with the smallest number. -/
def lowest? (positions : List (Position α)) : Option (Position α) :=
  positions.foldl (fun best p => match best with
    | none => some p
    | some q => if p.number < q.number then some p else some q) none

/-- The positions with the item number of another. -/
def sameSection (p : Position α) (positions : List (Position α)) : List (Position α) :=
  positions.filter fun q => q.itemNo = p.itemNo

/-- A position without an item number belongs to no section and has no alternative. -/
def alternativeParent? (deleted : Position α) (positions : List (Position α)) :
    Option (Position α) :=
  if deleted.itemNo.getD "" = "" then none
  else
    let peers := sameSection deleted positions
    match highest? (peers.filter fun p => decide (p.number < deleted.number)) with
    | some above => some above
    | none => lowest? (peers.filter fun p => decide (deleted.number < p.number))

end Transfer
end TenderPricing
