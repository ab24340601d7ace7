import TenderPricing.Proofs.Transfer.Placement
/-!
Numbers of regular positions.

Regular positions have whole numbers.  A next number is never whole, but the first one under a
parent is a tenth above the parent whatever the parent's own number is.  Under a supplementary
position that ends in nine it is the number of the regular position that follows.
-/
namespace TenderPricing
namespace Transfer

open Matching

section Parents

variable {α : Type} {id : String} {positions : List (Position α)} {moved : List (Relocation α)}

theorem supplementaryNumbers_eq_nil_iff : supplementaryNumbers id positions = [] ↔
    ∀ s ∈ positions, s.isAdditional = true → s.parentId ≠ some id := by
  simp [supplementaryNumbers]

theorem numbersUnder_ne_nil_iff : numbersUnder id moved ≠ [] ↔
    ∃ r ∈ moved, ∃ place, r.placement = some place ∧ place.parentId = id := by
  constructor
  · intro hne
    obtain ⟨x, hx⟩ := List.exists_mem_of_ne_nil _ hne
    obtain ⟨r, hr, place, hplace, hid, -⟩ := mem_numbersUnder.mp hx
    exact ⟨r, hr, place, hplace, hid⟩
  · rintro ⟨r, hr, place, hplace, hid⟩
    exact List.ne_nil_of_mem (mem_numbersUnder.mpr ⟨r, hr, place, hplace, hid, rfl⟩)

theorem placeAll_parent [Arithmetic α] {counterparts : Counterparts}
    {old new additional : List (Position α)} {taken : Taken α}
    (h : (placeAll counterparts old new taken additional).result = .ok moved)
    {r : Relocation α} (hr : r ∈ moved) {place : Placement α} (hplace : r.placement = some place) :
    ∃ q, place.parentId = q.id ∧ withId? new q.id = some q ∧ q.id ≠ "" := by
  obtain ⟨p, -, taken, taken', hplaced⟩ := exists_mem_of_forall₂ (placeAll_forall₂ h) r hr
  exact hplaced.parent hplace

end Parents

variable {counterparts : Counterparts} {old new additional : List (Position Rat)}

theorem whole_mem_numbersUnder_iff {moved : List (Relocation Rat)} {parent : Position Rat}
    (hparent : withId? new parent.id = some parent) (hid : parent.id ≠ "")
    (h : (placeAll counterparts old new (takenNumbers new) additional).result = .ok moved)
    {x : Rat} (hx : x.isInt = true) : x ∈ numbersUnder parent.id moved ↔
      supplementaryNumbers parent.id new = [] ∧ numbersUnder parent.id moved ≠ [] ∧
        parent.number + 1 / 10 = x := by
  have hnumbers := placeAll_numbers hparent h
  rw [numbersAt_takenNumbers hid] at hnumbers
  exact mem_nextNumbers_whole_iff hx hnumbers

/-- A moved position takes the number of a regular one exactly where it is the first under a
supplementary position that is a tenth below. -/
theorem takes_regular_number_iff (distinct : (new.map (·.id)).Nodup)
    (whole : ∀ q ∈ new, q.isAdditional = false → q.number.isInt = true) :
    ∃ moved, (plan additional counterparts old new).result = .ok moved ∧
      ∀ q ∈ new, q.isAdditional = false →
        ((∃ r ∈ moved, ∃ place, r.placement = some place ∧ place.number = q.number) ↔
          ∃ parent ∈ new, parent.isAdditional = true ∧ parent.number + 1 / 10 = q.number ∧
            (∀ s ∈ new, s.isAdditional = true → s.parentId ≠ some parent.id) ∧
            ∃ r ∈ moved, ∃ place, r.placement = some place ∧ place.parentId = parent.id) := by
  obtain ⟨moved, hmoved⟩ := exists_placeAll (takenNumbers new)
  refine ⟨moved, plan_result.trans hmoved, fun q hq hregular => ?_⟩
  have hwhole := whole q hq hregular
  constructor
  · rintro ⟨r, hr, place, hplace, hnumber⟩
    obtain ⟨parent, hparentId, hparent, hid⟩ := placeAll_parent hmoved hr hplace
    have hmem : q.number ∈ numbersUnder parent.id moved :=
      mem_numbersUnder.mpr ⟨r, hr, place, hplace, hparentId, hnumber⟩
    obtain ⟨hfree, hsome, htenth⟩ := (whole_mem_numbersUnder_iff hparent hid hmoved hwhole).mp hmem
    have hnew := (withId?_some hparent).1
    refine ⟨parent, hnew, ?_, htenth, supplementaryNumbers_eq_nil_iff.mp hfree,
      numbersUnder_ne_nil_iff.mp hsome⟩
    -- a tenth above a regular position there is no whole number
    cases hadditional : parent.isAdditional with
    | true => rfl
    | false =>
      have hnot := not_isInt_add_tenth (whole parent hnew hadditional)
      rw [htenth, hwhole] at hnot
      exact hnot.symm
  · rintro ⟨parent, hnew, -, htenth, hfree, r, hr, place, hplace, hparentId⟩
    obtain ⟨same, hsameId, -, hid⟩ := placeAll_parent hmoved hr hplace
    rw [← hsameId, hparentId] at hid
    have hparent := (withId?_eq_some_iff distinct).mpr ⟨hnew, rfl⟩
    have hmem : q.number ∈ numbersUnder parent.id moved :=
      (whole_mem_numbersUnder_iff hparent hid hmoved hwhole).mpr
        ⟨supplementaryNumbers_eq_nil_iff.mpr hfree,
          numbersUnder_ne_nil_iff.mpr ⟨r, hr, place, hplace, hparentId⟩, htenth⟩
    obtain ⟨r, hr, place, hplace, -, hnumber⟩ := mem_numbersUnder.mp hmem
    exact ⟨r, hr, place, hplace, hnumber⟩

/-- A shaft that is deleted, and a liner that moves with it. -/
def oldShaft : List (Position Rat) := [{ id := "shaft", itemNo := some "1", number := 7 }]

def liner : List (Position Rat) :=
  [{ id := "liner", isAdditional := true, number := 71 / 10, parentId := some "shaft" }]

/-- Only a supplementary position ending in nine is in the section of the shaft. -/
def newPits : List (Position Rat) :=
  [{ id := "pit-9", itemNo := some "1", isAdditional := true, number := 59 / 10,
     parentId := some "pit" },
    { id := "pit", itemNo := some "2", number := 5 },
    { id := "wall", itemNo := some "2", number := 6 }]

theorem takes_regular_number_iff_newPits :
    (newPits.map (·.id)).Nodup ∧
      (∀ q ∈ newPits, q.isAdditional = false → q.number.isInt = true) ∧
      ∃ moved, (plan liner [] oldShaft newPits).result = .ok moved ∧
        ∀ q ∈ newPits, q.isAdditional = false →
          ((∃ r ∈ moved, ∃ place, r.placement = some place ∧ place.number = q.number) ↔
            ∃ parent ∈ newPits, parent.isAdditional = true ∧ parent.number + 1 / 10 = q.number ∧
              (∀ s ∈ newPits, s.isAdditional = true → s.parentId ≠ some parent.id) ∧
              ∃ r ∈ moved, ∃ place, r.placement = some place ∧ place.parentId = parent.id) := by
  have distinct : (newPits.map (·.id)).Nodup := by decide
  have whole : ∀ q ∈ newPits, q.isAdditional = false → q.number.isInt = true := by decide +kernel
  exact ⟨distinct, whole, takes_regular_number_iff distinct whole⟩

/-- The regular positions have whole numbers and the supplementary one has none, yet the liner
becomes number 6 as the wall is. -/
theorem liner_takes_number_of_wall :
    (newPits.map (·.id)).Nodup ∧ (∀ q ∈ newPits, q.number.isInt = !q.isAdditional) ∧
      (∃ q ∈ newPits, q.isAdditional = false ∧ q.number = 6) ∧
      (plan liner [] oldShaft newPits).result.toOption.map
          (·.map fun r => (r.positionId, r.reason, r.placement.map fun place =>
            (place.parentId, place.number))) =
        some [("liner", "parent_deleted_found_alternative", some ("pit-9", 6))] := by
  decide +kernel

end Transfer
end TenderPricing
