import TenderPricing.Journal.Logged
import TenderPricing.Keyed
import TenderPricing.Transfer.AlternativeParent
import TenderPricing.Transfer.Numbering
/-!
The plan that moves supplementary positions to a new version.

A supplementary position follows its parent to the parent's counterpart, or to an alternative
where the parent was deleted, and gets the next free number there.
-/
namespace TenderPricing
namespace Transfer

open Matching

variable {α : Type}

/-- How a new parent was found. -/
inductive Route where
  | matched
  | alternative
  deriving DecidableEq, Repr

/-- The place of a supplementary position in the new version. -/
structure Placement (α : Type) where
  parentId : String
  number : α
  route : Route

structure Relocation (α : Type) where
  positionId : String
  oldParent : Option String
  /-- None where no parent was found. -/
  placement : Option (Placement α)

namespace Relocation

def reason (r : Relocation α) : String :=
  match r.placement with
  | some ⟨_, _, .matched⟩ => "parent_matched"
  | some ⟨_, _, .alternative⟩ => "parent_deleted_found_alternative"
  | none => "no_parent_found"

def succeeds (r : Relocation α) : Bool := r.placement.isSome

end Relocation

/-- The counterparts of old positions in the new version, by their ids. -/
abbrev Counterparts := Keyed String String

/-- The position of an id; of several the last. -/
def withId? (positions : List (Position α)) (id : String) : Option (Position α) :=
  positions.reverse.find? (·.id = id)

/-- The numbers of supplementary positions, by parent. -/
abbrev Taken (α : Type) := Keyed String (List α)

/-- The numbers that are taken in a version. -/
def takenNumbers (positions : List (Position α)) : Taken α :=
  positions.foldl (fun taken p =>
    let parent := p.parentId.getD ""
    if p.isAdditional && parent != "" then taken.update parent [] (· ++ [p.number]) else taken) []

variable [Arithmetic α]

/-- The id of the new parent of a position whose parent was `parent`. -/
def chooseParent (counterparts : Counterparts) (old new : List (Position α)) (parent : String) :
    Option (String × Route) :=
  if parent = "" then none
  else match counterparts.lookup parent with
    | some id => some (id, .matched)
    | none => do
      let deleted ← withId? old parent
      let found ← alternativeParent? deleted new
      return (found.id, .alternative)

/-- Places one position and takes its number. -/
def place (counterparts : Counterparts) (old new : List (Position α)) (taken : Taken α)
    (p : Position α) : Logged α NoWholePart (Relocation α × Taken α) :=
  match chooseParent counterparts old new (p.parentId.getD "") with
  | none => return (⟨p.id, p.parentId, none⟩, taken)
  | some (id, route) =>
    match if id = "" then none else withId? new id with
    | none => do
      Logged.tell (.parentMissing id p.id)
      return (⟨p.id, p.parentId, none⟩, taken)
    | some parent => do
      let number ← Logged.lift (nextNumber parent.number ((taken.lookup parent.id).getD []))
      return (⟨p.id, p.parentId, some ⟨parent.id, number, route⟩⟩,
        taken.update parent.id [] (· ++ [number]))

def placeAll (counterparts : Counterparts) (old new : List (Position α)) :
    Taken α → List (Position α) → Logged α NoWholePart (List (Relocation α))
  | _, [] => pure []
  | taken, p :: rest => do
    let (first, taken) ← place counterparts old new taken p
    let others ← placeAll counterparts old new taken rest
    return first :: others

/-- Plans the transfer of all supplementary positions, in their order. -/
def plan (additional : List (Position α)) (counterparts : Counterparts)
    (old new : List (Position α)) : Logged α NoWholePart (List (Relocation α)) := do
  let moved ← placeAll counterparts old new (takenNumbers new) additional
  Logged.tell (.transfersPlanned moved.length (moved.countP (!·.succeeds)))
  return moved

end Transfer
end TenderPricing
