import TenderPricing.Proofs.Transfer.Placement
/-!
What a transfer plan promises.

`TakesOver` says which position of the new version takes over from an old parent without saying how
it is looked for.  A plan has one `Entry` for each supplementary position, which names the position
that takes over or says that there is none, and it never gives out a number twice under one parent.
-/
namespace TenderPricing
namespace Transfer

open Matching

variable {α : Type}

/-- Positions that are told apart by their ids. -/
structure Identified (positions : List (Position α)) : Prop where
  nodup : (positions.map (·.id)).Nodup
  nonempty : ∀ p ∈ positions, p.id ≠ ""

variable [Arithmetic α]

/-! ## Who takes over -/

/-- The position that takes over from an old parent, and the reason that is given for it. -/
inductive TakesOver (counterparts : Counterparts) (old new : List (Position α)) (parent : String) :
    Position α → String → Prop
  | counterpart {q : Position α} (hq : q ∈ new) (hmapped : counterparts.lookup parent = some q.id) :
      TakesOver counterparts old new parent q "parent_matched"
  | alternative {deleted q : Position α} (hunmapped : counterparts.lookup parent = none)
      (hdeleted : deleted ∈ old) (hparent : deleted.id = parent)
      (hfound : alternativeParent? deleted new = some q) :
      TakesOver counterparts old new parent q "parent_deleted_found_alternative"

variable {counterparts : Counterparts} {old new : List (Position α)} {p q : Position α}

theorem TakesOver.mem {parent reason : String}
    (h : TakesOver counterparts old new parent q reason) : q ∈ new := by
  cases h with
  | counterpart hq => exact hq
  | alternative _ _ _ hfound => exact mem_of_alternativeParent? hfound

theorem chooseParent_eq_some_iff {parent id : String} {route : Route} :
    chooseParent counterparts old new parent = some (id, route) ↔
      parent ≠ "" ∧ (counterparts.lookup parent = some id ∧ route = .matched ∨
        counterparts.lookup parent = none ∧ ∃ deleted found, withId? old parent = some deleted ∧
          alternativeParent? deleted new = some found ∧ found.id = id ∧ route = .alternative) := by
  unfold chooseParent
  by_cases hparent : parent = ""
  · simp [hparent]
  · cases counterparts.lookup parent with
    | none => simp [hparent, Option.bind_eq_some_iff, @eq_comm Route .alternative]
    | some mapped => simp [hparent, @eq_comm Route .matched]

theorem takesOver_of_newParent? (hnew : Identified new) {route : Route} (number : α)
    (h : newParent? counterparts old new p = some (q, route)) :
    ∃ parent, p.parentId = some parent ∧ TakesOver counterparts old new parent q
      (Relocation.reason ⟨p.id, p.parentId, some ⟨q.id, number, route⟩⟩) := by
  obtain ⟨id, hchoice, -, hid⟩ := newParent?_eq_some_iff.mp h
  obtain ⟨hq, rfl⟩ := withId?_some hid
  obtain ⟨hparent, hroute⟩ := chooseParent_eq_some_iff.mp hchoice
  cases hparentId : p.parentId with
  | none => exact absurd (by rw [hparentId]; rfl) hparent
  | some parent =>
    refine ⟨parent, rfl, ?_⟩
    rw [hparentId, Option.getD_some] at hroute
    rcases hroute with ⟨hmapped, rfl⟩ | ⟨hunmapped, deleted, found, hdeleted, hfound, hsame, rfl⟩
    · exact .counterpart hq hmapped
    · have hmem := mem_of_alternativeParent? hfound
      rw [List.inj_on_of_nodup_map hnew.nodup hmem hq hsame] at hfound
      exact .alternative hunmapped (withId?_some hdeleted).1 (withId?_some hdeleted).2 hfound

theorem newParent?_of_takesOver (noEmptyKey : counterparts.lookup "" = none)
    (hold : Identified old) (hnew : Identified new) {parent reason : String}
    (hparent : p.parentId = some parent) (h : TakesOver counterparts old new parent q reason) :
    ∃ route, newParent? counterparts old new p = some (q, route) := by
  have hq := hnew.nonempty q h.mem
  have hid := (withId?_eq_some_iff hnew.nodup).mpr ⟨h.mem, rfl⟩
  suffices hchoice : ∃ route, chooseParent counterparts old new parent = some (q.id, route) by
    obtain ⟨route, hchoice⟩ := hchoice
    refine ⟨route, newParent?_eq_some_iff.mpr ⟨q.id, ?_, hq, hid⟩⟩
    rw [hparent]
    exact hchoice
  cases h with
  | counterpart _ hmapped =>
    have hne : parent ≠ "" := by
      rintro rfl
      rw [noEmptyKey] at hmapped
      cases hmapped
    exact ⟨_, chooseParent_eq_some_iff.mpr ⟨hne, .inl ⟨hmapped, rfl⟩⟩⟩
  | @alternative deleted _ hunmapped hdeleted hdeletedId hfound =>
    have hne : parent ≠ "" := hdeletedId ▸ hold.nonempty deleted hdeleted
    have hold := (withId?_eq_some_iff hold.nodup).mpr ⟨hdeleted, hdeletedId⟩
    exact ⟨_, chooseParent_eq_some_iff.mpr
      ⟨hne, .inr ⟨hunmapped, deleted, q, hold, hfound, rfl, rfl⟩⟩⟩

/-! ## Entries -/

/-- The entry of a plan for one supplementary position. -/
structure Entry (counterparts : Counterparts) (old new : List (Position α)) (p : Position α)
    (r : Relocation α) : Prop where
  positionId : r.positionId = p.id
  oldParent : r.oldParent = p.parentId
  placed : ∀ place, r.placement = some place → ∃ parent q, p.parentId = some parent ∧
    TakesOver counterparts old new parent q r.reason ∧ place.parentId = q.id
  unplaced : r.placement = none → r.reason = "no_parent_found" ∧
    ∀ parent q reason, p.parentId = some parent →
      ¬ TakesOver counterparts old new parent q reason

theorem Placed.entry (noEmptyKey : counterparts.lookup "" = none) (hold : Identified old)
    (hnew : Identified new) {taken taken' : Taken α} {r : Relocation α}
    (h : Placed counterparts old new taken p r taken') : Entry counterparts old new p r := by
  cases h with
  | nowhere hnone =>
    refine ⟨rfl, rfl, nofun, fun _ => ⟨rfl, fun parent q reason hparent htakes => ?_⟩⟩
    obtain ⟨route, hfound⟩ := newParent?_of_takesOver noEmptyKey hold hnew hparent htakes
    rw [hnone] at hfound
    cases hfound
  | @under q route number hfound =>
    refine ⟨rfl, rfl, ?_, nofun⟩
    rintro _ ⟨⟩
    obtain ⟨parent, hparent, htakes⟩ := takesOver_of_newParent? hnew number hfound
    exact ⟨parent, q, hparent, htakes, rfl⟩

/-! ## The plan -/

/-- What the relocations of a plan promise as a whole. -/
structure Sound (counterparts : Counterparts) (old new additional : List (Position Rat))
    (moved : List (Relocation Rat)) : Prop where
  entries : List.Forall₂ (Entry counterparts old new) additional moved
  increasing : ∀ q ∈ new, (numbersUnder q.id moved).Pairwise (· < ·)
  exceeds : ∀ q ∈ new, ∀ s ∈ new, s.isAdditional = true → s.parentId = some q.id →
    ∀ n ∈ numbersUnder q.id moved, s.number < n

/-- Every plan is made, is sound and grows with the positions to move. -/
theorem plan_sound {counterparts : Counterparts} {old new : List (Position Rat)}
    (noEmptyKey : counterparts.lookup "" = none) (hold : Identified old) (hnew : Identified new)
    (additional : List (Position Rat)) :
    ∃ moved, (plan additional counterparts old new).result = .ok moved ∧
      Sound counterparts old new additional moved ∧
      ∀ count : Nat, (plan (additional.take count) counterparts old new).result =
        .ok (moved.take count) := by
  obtain ⟨moved, hmoved⟩ := exists_placeAll (takenNumbers new)
  have hnumbers (q : Position Rat) (hq : q ∈ new) := nextNumbers_increasing
    (placeAll_numbers ((withId?_eq_some_iff hnew.nodup).mpr ⟨hq, rfl⟩) hmoved)
  refine ⟨moved, plan_result.trans hmoved, ⟨?_, fun q hq => (hnumbers q hq).1, ?_⟩, ?_⟩
  · exact (placeAll_forall₂ hmoved).imp fun p r ⟨_, _, hplaced⟩ =>
      hplaced.entry noEmptyKey hold hnew
  · intro q hq s hs hadditional hparent
    refine (hnumbers q hq).2 s.number ?_
    rw [numbersAt_takenNumbers (hnew.nonempty q hq)]
    exact mem_supplementaryNumbers.mpr ⟨s, hs, hadditional, hparent, rfl⟩
  · exact fun count => plan_result.trans (placeAll_take hmoved count)

/-- The wall is deleted, the roof has a counterpart that is not in the new version. -/
def threeOld : List (Position Rat) :=
  [{ id := "pit", itemNo := some "1", number := 1 },
    { id := "wall", itemNo := some "2", number := 2 },
    { id := "roof", itemNo := some "3", number := 3 }]

def pitAndGate : List (Position Rat) :=
  [{ id := "new-pit", itemNo := some "1", number := 1 },
    { id := "new-pit-9", isAdditional := true, number := 19 / 10, parentId := some "new-pit" },
    { id := "gate", itemNo := some "2", number := 4 }]

def fiveExtras : List (Position Rat) :=
  [{ id := "pump", number := 11 / 10, parentId := some "pit" },
    { id := "lamp", number := 21 / 10, parentId := some "wall" },
    { id := "fence", number := 12 / 10, parentId := some "pit" },
    { id := "gutter", number := 31 / 10, parentId := some "roof" },
    { id := "stray", number := 41 / 10 }]

def pitStays : Counterparts := [("pit", "new-pit"), ("roof", "gone")]

theorem plan_sound_fiveExtras :
    (pitStays.lookup "" = none ∧ Identified threeOld ∧ Identified pitAndGate) ∧
    (∃ moved, (plan fiveExtras pitStays threeOld pitAndGate).result = .ok moved ∧
      Sound pitStays threeOld pitAndGate fiveExtras moved ∧
      ∀ count : Nat, (plan (fiveExtras.take count) pitStays threeOld pitAndGate).result =
        .ok (moved.take count)) ∧
    (plan fiveExtras pitStays threeOld pitAndGate).result.toOption.map
        (·.map fun r => (r.positionId, r.reason, r.placement.map fun place =>
          (place.parentId, place.number))) =
      some [("pump", "parent_matched", some ("new-pit", 39 / 20)),
        ("lamp", "parent_deleted_found_alternative", some ("gate", 41 / 10)),
        ("fence", "parent_matched", some ("new-pit", 79 / 40)),
        ("gutter", "no_parent_found", none), ("stray", "no_parent_found", none)] := by
  have hold : Identified threeOld := ⟨by decide, by decide⟩
  have hnew : Identified pitAndGate := ⟨by decide, by decide⟩
  have noEmptyKey : pitStays.lookup "" = none := by decide
  exact ⟨⟨noEmptyKey, hold, hnew⟩, plan_sound noEmptyKey hold hnew fiveExtras, by decide +kernel⟩

end Transfer
end TenderPricing
