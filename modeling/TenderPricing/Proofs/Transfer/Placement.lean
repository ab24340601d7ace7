import Mathlib.Data.List.Nodup
import TenderPricing.Proofs.Transfer.Numbering
import TenderPricing.Transfer.Plan
/-!
One position after the other finds its place.

`Placed` says what the step from one position to the next makes of the numbers that are taken, and
`placeAll_numbers` what all steps together make of them: whichever parents the positions in between
go to, the numbers handed out under one parent are numbers in a row.
-/
namespace TenderPricing
namespace Transfer

open Matching

variable {α : Type}

/-! ## Look-ups -/

section LookUps

variable {positions : List (Position α)} {p q : Position α} {id : String}

theorem withId?_some (h : withId? positions id = some q) : q ∈ positions ∧ q.id = id := by
  refine ⟨List.mem_reverse.mp (List.mem_of_find?_eq_some h), ?_⟩
  simpa using List.find?_some h

theorem withId?_eq_some_iff (distinct : (positions.map (·.id)).Nodup) :
    withId? positions id = some q ↔ q ∈ positions ∧ q.id = id := by
  refine ⟨withId?_some, fun ⟨hq, hid⟩ => ?_⟩
  cases hfound : withId? positions id with
  | none =>
    have hnot := List.find?_eq_none.mp hfound q (List.mem_reverse.mpr hq)
    exact absurd hid (by simpa using hnot)
  | some found =>
    obtain ⟨hmem, hfoundId⟩ := withId?_some hfound
    rw [List.inj_on_of_nodup_map distinct hmem hq (hfoundId.trans hid.symm)]

theorem mem_of_foldl_some {f : Option (Position α) → Position α → Option (Position α)}
    (hf : ∀ best x y, f best x = some y → y = x ∨ best = some y) :
    ∀ {best : Option (Position α)}, positions.foldl f best = some q →
      q ∈ positions ∨ best = some q := by
  induction positions with
  | nil => exact fun h => .inr h
  | cons first rest ih =>
    intro best h
    rcases ih h with hrest | hfirst
    · exact .inl (List.mem_cons_of_mem _ hrest)
    · rcases hf best first q hfirst with rfl | hbest
      · exact .inl List.mem_cons_self
      · exact .inr hbest

variable [Arithmetic α]

theorem mem_of_highest? (h : highest? positions = some q) : q ∈ positions := by
  refine (mem_of_foldl_some (fun best x y hy => ?_) h).resolve_right nofun
  grind

theorem mem_of_lowest? (h : lowest? positions = some q) : q ∈ positions := by
  refine (mem_of_foldl_some (fun best x y hy => ?_) h).resolve_right nofun
  grind

theorem mem_of_alternativeParent? (h : alternativeParent? p positions = some q) :
    q ∈ positions := by
  unfold alternativeParent? at h
  split at h
  · cases h
  · dsimp only at h
    split at h
    · rename_i above habove
      obtain rfl := Option.some.inj h
      exact List.mem_of_mem_filter (List.mem_of_mem_filter (mem_of_highest? habove))
    · exact List.mem_of_mem_filter (List.mem_of_mem_filter (mem_of_lowest? h))

end LookUps

/-! ## Numbers under a parent -/

section Numbers

variable {positions : List (Position α)} {id : String}

/-- The numbers that a table has under a parent. -/
def numbersAt (taken : Taken α) (id : String) : List α := (taken.lookup id).getD []

theorem numbersAt_update_self (taken : Taken α) (id : String) (number : α) :
    numbersAt (taken.update id [] (· ++ [number])) id = numbersAt taken id ++ [number] := by
  rw [numbersAt, Keyed.lookup_update_self]
  rfl

theorem numbersAt_update_of_ne {id other : String} (h : other ≠ id) (taken : Taken α)
    (number : α) : numbersAt (taken.update id [] (· ++ [number])) other = numbersAt taken other := by
  rw [numbersAt, Keyed.lookup_update_of_ne h]
  rfl

/-- The numbers of the supplementary positions under a parent. -/
def supplementaryNumbers (id : String) (positions : List (Position α)) : List α :=
  (positions.filter fun s => s.isAdditional && s.parentId == some id).map (·.number)

theorem mem_supplementaryNumbers {x : α} : x ∈ supplementaryNumbers id positions ↔
    ∃ s ∈ positions, s.isAdditional = true ∧ s.parentId = some id ∧ s.number = x := by
  simp [supplementaryNumbers, and_assoc]

theorem supplementaryNumbers_cons (s : Position α) : supplementaryNumbers id (s :: positions) =
    supplementaryNumbers id [s] ++ supplementaryNumbers id positions := by
  rw [← List.singleton_append, supplementaryNumbers, List.filter_append, List.map_append]
  rfl

theorem numbersAt_foldl (hid : id ≠ "") : ∀ taken : Taken α,
    numbersAt (positions.foldl (fun taken p =>
      let parent := p.parentId.getD ""
      if p.isAdditional && parent != "" then taken.update parent [] (· ++ [p.number]) else taken)
        taken) id = numbersAt taken id ++ supplementaryNumbers id positions := by
  induction positions with
  | nil => exact fun taken => (List.append_nil _).symm
  | cons s rest ih =>
    intro taken
    rw [List.foldl_cons, ih, supplementaryNumbers_cons, ← List.append_assoc]
    congr 1
    dsimp only
    by_cases hs : s.isAdditional = true ∧ s.parentId = some id
    · obtain ⟨hadditional, hparent⟩ := hs
      have hown : supplementaryNumbers id [s] = [s.number] := by
        simp [supplementaryNumbers, hadditional, hparent]
      rw [hown, hadditional, hparent, if_pos (by simpa using hid)]
      exact numbersAt_update_self taken id s.number
    · have hother : supplementaryNumbers id [s] = [] := by
        simpa [supplementaryNumbers] using hs
      rw [hother, List.append_nil]
      by_cases htakes : (s.isAdditional && s.parentId.getD "" != "") = true
      · rw [if_pos htakes]
        refine numbersAt_update_of_ne (fun heq => hs ?_) taken s.number
        rw [Bool.and_eq_true] at htakes
        refine ⟨htakes.1, ?_⟩
        cases hparent : s.parentId with
        | none => exact absurd (heq.trans (by rw [hparent]; rfl)) hid
        | some parent => rw [heq, hparent]; rfl
      · rw [if_neg htakes]

theorem numbersAt_takenNumbers (hid : id ≠ "") (positions : List (Position α)) :
    numbersAt (takenNumbers positions) id = supplementaryNumbers id positions :=
  numbersAt_foldl hid []

/-- The numbers that moved positions get under a parent, in their order. -/
def numbersUnder (id : String) (moved : List (Relocation α)) : List α :=
  ((moved.filterMap Relocation.placement).filter fun place => place.parentId = id).map (·.number)

theorem mem_numbersUnder {moved : List (Relocation α)} {x : α} : x ∈ numbersUnder id moved ↔
    ∃ r ∈ moved, ∃ place, r.placement = some place ∧ place.parentId = id ∧ place.number = x := by
  simp only [numbersUnder, List.mem_map, List.mem_filter, List.mem_filterMap, decide_eq_true_eq]
  grind

theorem numbersUnder_cons (id : String) (r : Relocation α) (moved : List (Relocation α)) :
    numbersUnder id (r :: moved) = numbersUnder id [r] ++ numbersUnder id moved := by
  rw [← List.singleton_append, numbersUnder, List.filterMap_append, List.filter_append,
    List.map_append]
  rfl

end Numbers

variable [Arithmetic α]

/-! ## One position -/

section Step

/-- The new parent of a supplementary position. -/
def newParent? (counterparts : Counterparts) (old new : List (Position α)) (p : Position α) :
    Option (Position α × Route) :=
  match chooseParent counterparts old new (p.parentId.getD "") with
  | none => none
  | some (id, route) => (if id = "" then none else withId? new id).map fun parent => (parent, route)

variable {counterparts : Counterparts} {old new : List (Position α)}

/-- What placing a position makes of it and of the numbers that are taken. -/
inductive Placed (counterparts : Counterparts) (old new : List (Position α)) (taken : Taken α)
    (p : Position α) : Relocation α → Taken α → Prop
  | nowhere (h : newParent? counterparts old new p = none) :
      Placed counterparts old new taken p ⟨p.id, p.parentId, none⟩ taken
  | under {parent : Position α} {route : Route} {number : α}
      (h : newParent? counterparts old new p = some (parent, route))
      (hnumber : nextNumber parent.number (numbersAt taken parent.id) = .ok number) :
      Placed counterparts old new taken p ⟨p.id, p.parentId, some ⟨parent.id, number, route⟩⟩
        (taken.update parent.id [] (· ++ [number]))

theorem place_result (taken : Taken α) (p : Position α) :
    (place counterparts old new taken p).result =
      match newParent? counterparts old new p with
      | none => .ok (⟨p.id, p.parentId, none⟩, taken)
      | some (parent, route) => do
        let number ← nextNumber parent.number (numbersAt taken parent.id)
        return (⟨p.id, p.parentId, some ⟨parent.id, number, route⟩⟩,
          taken.update parent.id [] (· ++ [number])) := by
  unfold place newParent?
  cases chooseParent counterparts old new (p.parentId.getD "") with
  | none => rfl
  | some found =>
    obtain ⟨id, route⟩ := found
    dsimp only
    cases (if id = "" then none else withId? new id) with
    | none => rfl
    | some parent => exact Logged.result_bind _ _

theorem place_eq_ok_iff {taken taken' : Taken α} {p : Position α} {r : Relocation α} :
    (place counterparts old new taken p).result = .ok (r, taken') ↔
      Placed counterparts old new taken p r taken' := by
  rw [place_result]
  cases hnew : newParent? counterparts old new p with
  | none =>
    constructor
    · rintro ⟨⟩
      exact .nowhere hnew
    · rintro (_ | hunder)
      · rfl
      · rw [hnew] at hunder
        cases hunder
  | some found =>
    obtain ⟨parent, route⟩ := found
    dsimp only
    rw [bind_eq_ok_iff]
    constructor
    · rintro ⟨number, hnumber, ⟨⟩⟩
      exact .under hnew hnumber
    · rintro (hnone | ⟨hunder, hnumber⟩)
      · rw [hnew] at hnone
        cases hnone
      · rw [hnew] at hunder
        cases hunder
        exact ⟨_, hnumber, rfl⟩

theorem newParent?_eq_some_iff {p q : Position α} {route : Route} :
    newParent? counterparts old new p = some (q, route) ↔
      ∃ id, chooseParent counterparts old new (p.parentId.getD "") = some (id, route) ∧
        id ≠ "" ∧ withId? new id = some q := by
  unfold newParent?
  cases chooseParent counterparts old new (p.parentId.getD "") with
  | none => exact iff_of_false nofun nofun
  | some found =>
    obtain ⟨id, found⟩ := found
    dsimp only
    by_cases hid : id = ""
    · rw [if_pos hid]
      refine iff_of_false nofun ?_
      rintro ⟨_, ⟨⟩, hne, -⟩
      exact hne hid
    · rw [if_neg hid, Option.map_eq_some_iff]
      constructor
      · rintro ⟨parent, hparent, ⟨⟩⟩
        exact ⟨id, rfl, hid, hparent⟩
      · rintro ⟨_, ⟨⟩, -, hparent⟩
        exact ⟨q, hparent, rfl⟩

theorem withId?_of_newParent? {p q : Position α} {route : Route}
    (h : newParent? counterparts old new p = some (q, route)) :
    withId? new q.id = some q ∧ q.id ≠ "" := by
  obtain ⟨id, -, hne, hfound⟩ := newParent?_eq_some_iff.mp h
  obtain rfl := (withId?_some hfound).2
  exact ⟨hfound, hne⟩

theorem Placed.parent {taken taken' : Taken α} {p : Position α} {r : Relocation α}
    {place : Placement α} (h : Placed counterparts old new taken p r taken')
    (hplace : r.placement = some place) :
    ∃ q, place.parentId = q.id ∧ withId? new q.id = some q ∧ q.id ≠ "" := by
  cases h with
  | nowhere => cases hplace
  | under hnew =>
    obtain rfl := Option.some.inj hplace
    exact ⟨_, rfl, withId?_of_newParent? hnew⟩

/-- A position of the new version gains the number of what is placed under it, and no other. -/
theorem Placed.numbers {taken taken' : Taken α} {p q : Position α} {r : Relocation α}
    (h : Placed counterparts old new taken p r taken') (hq : withId? new q.id = some q) :
    numbersUnder q.id [r] = [] ∧ numbersAt taken' q.id = numbersAt taken q.id ∨
      ∃ number, numbersUnder q.id [r] = [number] ∧
        nextNumber q.number (numbersAt taken q.id) = .ok number ∧
        numbersAt taken' q.id = numbersAt taken q.id ++ [number] := by
  cases h with
  | nowhere => exact .inl ⟨rfl, rfl⟩
  | @under parent route number hnew hnumber =>
    by_cases hid : parent.id = q.id
    · have hparent := (withId?_of_newParent? hnew).1
      rw [hid, hq] at hparent
      obtain rfl := Option.some.inj hparent
      exact .inr ⟨number, by simp [numbersUnder], hnumber, numbersAt_update_self ..⟩
    · exact .inl ⟨by simp [numbersUnder, hid], numbersAt_update_of_ne (fun heq => hid heq.symm) ..⟩

end Step

/-! ## All positions -/

section Run

variable {counterparts : Counterparts} {old new : List (Position α)}

theorem placeAll_cons_eq_ok_iff {taken : Taken α} {p : Position α} {rest : List (Position α)}
    {moved : List (Relocation α)} :
    (placeAll counterparts old new taken (p :: rest)).result = .ok moved ↔
      ∃ r taken' others, Placed counterparts old new taken p r taken' ∧
        (placeAll counterparts old new taken' rest).result = .ok others ∧ moved = r :: others := by
  rw [placeAll, Logged.result_bind, bind_eq_ok_iff]
  constructor
  · rintro ⟨⟨r, taken'⟩, hplace, hrest⟩
    rw [Logged.result_bind, bind_eq_ok_iff] at hrest
    obtain ⟨others, hothers, ⟨⟩⟩ := hrest
    exact ⟨r, taken', others, place_eq_ok_iff.mp hplace, hothers, rfl⟩
  · rintro ⟨r, taken', others, hplaced, hothers, rfl⟩
    refine ⟨(r, taken'), place_eq_ok_iff.mpr hplaced, ?_⟩
    rw [Logged.result_bind, bind_eq_ok_iff]
    exact ⟨others, hothers, rfl⟩

/-- Each position finds its place on its own. -/
theorem placeAll_forall₂ {additional : List (Position α)} :
    ∀ {taken : Taken α} {moved : List (Relocation α)},
      (placeAll counterparts old new taken additional).result = .ok moved →
      List.Forall₂ (fun p r => ∃ taken taken', Placed counterparts old new taken p r taken')
        additional moved := by
  induction additional with
  | nil =>
    intro taken moved h
    obtain rfl : [] = moved := Except.ok.inj h
    exact .nil
  | cons p rest ih =>
    intro taken moved h
    obtain ⟨r, taken', others, hplaced, hothers, rfl⟩ := placeAll_cons_eq_ok_iff.mp h
    exact .cons ⟨taken, taken', hplaced⟩ (ih hothers)

/-- The numbers handed out under one parent are numbers in a row. -/
theorem placeAll_numbers {q : Position α} (hq : withId? new q.id = some q)
    {additional : List (Position α)} :
    ∀ {taken : Taken α} {moved : List (Relocation α)},
      (placeAll counterparts old new taken additional).result = .ok moved →
      nextNumbers q.number (numbersUnder q.id moved).length (numbersAt taken q.id) =
        .ok (numbersUnder q.id moved) := by
  induction additional with
  | nil =>
    intro taken moved h
    obtain rfl : [] = moved := Except.ok.inj h
    rfl
  | cons p rest ih =>
    intro taken moved h
    obtain ⟨r, taken', others, hplaced, hothers, rfl⟩ := placeAll_cons_eq_ok_iff.mp h
    have hlater := ih hothers
    rw [numbersUnder_cons]
    -- positions that go elsewhere leave the numbers under `q` as they are
    rcases hplaced.numbers hq with ⟨hnone, hsame⟩ | ⟨number, hone, hnumber, hmore⟩
    · rw [hnone, List.nil_append, ← hsame]
      exact hlater
    · rw [hmore] at hlater
      rw [hone, List.singleton_append, List.length_cons]
      exact nextNumbers_succ_eq_ok_iff.mpr ⟨number, _, hnumber, hlater, rfl⟩

/-- What comes later does not matter to what was placed before. -/
theorem placeAll_take {additional : List (Position α)} :
    ∀ {taken : Taken α} {moved : List (Relocation α)},
      (placeAll counterparts old new taken additional).result = .ok moved → ∀ count : Nat,
      (placeAll counterparts old new taken (additional.take count)).result =
        .ok (moved.take count) := by
  induction additional with
  | nil =>
    intro taken moved h count
    obtain rfl : [] = moved := Except.ok.inj h
    rw [List.take_nil, List.take_nil]
    rfl
  | cons p rest ih =>
    intro taken moved h count
    obtain ⟨r, taken', others, hplaced, hothers, rfl⟩ := placeAll_cons_eq_ok_iff.mp h
    cases count with
    | zero => rfl
    | succ count =>
      rw [List.take_succ_cons, List.take_succ_cons, placeAll_cons_eq_ok_iff]
      exact ⟨r, taken', _, hplaced, ih hothers count, rfl⟩

theorem plan_result {additional : List (Position α)} :
    (plan additional counterparts old new).result =
      (placeAll counterparts old new (takenNumbers new) additional).result := by
  rw [plan, Logged.result_bind]
  cases (placeAll counterparts old new (takenNumbers new) additional).result <;> rfl

end Run

/-- In exact arithmetic there is always a next number, so every plan is made. -/
theorem exists_placeAll {counterparts : Counterparts} {old new additional : List (Position Rat)} :
    ∀ taken : Taken Rat, ∃ moved,
      (placeAll counterparts old new taken additional).result = .ok moved := by
  induction additional with
  | nil => exact fun _ => ⟨[], rfl⟩
  | cons p rest ih =>
    intro taken
    have hplaced : ∃ r taken', Placed counterparts old new taken p r taken' := by
      cases hnew : newParent? counterparts old new p with
      | none => exact ⟨_, _, .nowhere hnew⟩
      | some found =>
        obtain ⟨number, hnumber, -⟩ :=
          exists_nextNumber_above found.1.number (numbersAt taken found.1.id)
        exact ⟨_, _, .under hnew hnumber⟩
    obtain ⟨r, taken', hplaced⟩ := hplaced
    obtain ⟨others, hothers⟩ := ih taken'
    exact ⟨r :: others, placeAll_cons_eq_ok_iff.mpr ⟨r, taken', others, hplaced, hothers, rfl⟩⟩

end Transfer
end TenderPricing
