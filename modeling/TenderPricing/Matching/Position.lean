/-!
Client positions and the rows of a new version.

A position is what a tender holds; a row is what was read from the client's next spreadsheet and
has no identity yet.  Supplementary positions are added by the contractor under a client position
and never come from a spreadsheet.
-/
namespace TenderPricing
namespace Matching

structure Position (α : Type) where
  id : String
  itemNo : Option String := none
  workName : Option String := none
  unitCode : Option String := none
  volume : Option α := none
  isAdditional : Bool := false
  number : α
  level : Int := 0
  parentId : Option String := none

structure Row (α : Type) where
  itemNo : Option String := none
  workName : Option String := none
  unitCode : Option String := none
  volume : Option α := none
  level : Int := 0
  note : Option String := none

end Matching
end TenderPricing
