import TenderPricing.Proofs.Matching.Choice
import TenderPricing.Proofs.Number.Comparison
/-!
Which position a row is matched to.

As long as no score is NaN, the positions that are left to a row are ordered by their scores, and
the row takes the first of the best of them if that one scores more than the floor.  The threshold
has no part in this: it only sorts the matches into sure and unsure ones.
-/
namespace TenderPricing
namespace Matching

open Number

/-! ## The first of the best -/

/-- The first of the positions with the greatest score against a row. -/
def FirstBest (row : Row Float) (positions : List (Position Float)) (p : Position Float) : Prop :=
  ∃ earlier later, positions = earlier ++ p :: later ∧
    (∀ q ∈ earlier, (score q row).total < (score p row).total) ∧
    ∀ q ∈ later, (score q row).total ≤ (score p row).total

/-- Positions whose scores against a row are numbers. -/
def Comparable (row : Row Float) (positions : List (Position Float)) : Prop :=
  ∀ p ∈ positions, (score p row).total.isNaN = false

variable {row : Row Float} {positions : List (Position Float)} {p q : Position Float}

theorem comparable_cons : Comparable row (p :: positions) ↔
    (score p row).total.isNaN = false ∧ Comparable row positions := List.forall_mem_cons

namespace FirstBest

theorem mem (h : FirstBest row positions p) : p ∈ positions := by
  obtain ⟨earlier, later, rfl, -, -⟩ := h
  exact List.mem_append_right _ List.mem_cons_self

theorem le (h : FirstBest row positions p) (numbers : Comparable row positions)
    (hq : q ∈ positions) : (score q row).total ≤ (score p row).total := by
  have hp := numbers p h.mem
  obtain ⟨earlier, later, rfl, hearlier, hlater⟩ := h
  rcases List.mem_append.mp hq with hq | hq
  · exact Double.le_of_lt (hearlier q hq)
  · rcases List.mem_cons.mp hq with rfl | hq
    · exact Double.le_self hp
    · exact hlater q hq

theorem cons_of_lt (h : FirstBest row positions p)
    (hlt : (score q row).total < (score p row).total) : FirstBest row (q :: positions) p := by
  obtain ⟨earlier, later, rfl, hearlier, hlater⟩ := h
  exact ⟨q :: earlier, later, rfl, List.forall_mem_cons.mpr ⟨hlt, hearlier⟩, hlater⟩

/-- A second position that is not better than the first changes nothing. -/
theorem insert_second {first second : Position Float} (h : FirstBest row (first :: positions) p)
    (hle : (score second row).total ≤ (score first row).total) :
    FirstBest row (first :: second :: positions) p := by
  obtain ⟨earlier, later, hsplit, hearlier, hlater⟩ := h
  cases earlier with
  | nil =>
    obtain ⟨rfl, rfl⟩ := List.cons.inj hsplit
    exact ⟨[], second :: positions, rfl, List.forall_mem_nil _,
      List.forall_mem_cons.mpr ⟨hle, hlater⟩⟩
  | cons x rest =>
    obtain ⟨rfl, rfl⟩ := List.cons.inj hsplit
    obtain ⟨hfirst, hrest⟩ := List.forall_mem_cons.mp hearlier
    refine ⟨first :: second :: rest, later, rfl, ?_, hlater⟩
    rw [List.forall_mem_cons, List.forall_mem_cons]
    exact ⟨hfirst, Double.lt_of_le_of_lt hle hfirst, hrest⟩

theorem not_lt_of_mem (h : FirstBest row positions p) (numbers : Comparable row positions)
    (hq : q ∈ positions) : ¬ (score p row).total < (score q row).total :=
  (Double.not_lt_iff (numbers p h.mem) (numbers q hq)).mpr (h.le numbers hq)

theorem unique (h : FirstBest row positions p) (h' : FirstBest row positions q)
    (numbers : Comparable row positions) : p = q := by
  have hp := h.not_lt_of_mem numbers h'.mem
  have hq := h'.not_lt_of_mem numbers h.mem
  obtain ⟨earlier, later, hsplit, hearlier, -⟩ := h
  obtain ⟨earlier', later', hsplit', hearlier', -⟩ := h'
  -- were one of the two before the other, the other would be better
  rcases List.append_eq_append_iff.mp (hsplit.symm.trans hsplit') with
    ⟨between, hlonger, hrest⟩ | ⟨between, hlonger, hrest⟩
  · cases between with
    | nil => exact (List.cons.inj hrest).1
    | cons x rest =>
      obtain ⟨rfl, -⟩ := List.cons.inj hrest
      exact absurd (hearlier' p (by simp [hlonger])) hp
  · cases between with
    | nil => exact (List.cons.inj hrest).1.symm
    | cons x rest =>
      obtain ⟨rfl, -⟩ := List.cons.inj hrest
      exact absurd (hearlier q (by simp [hlonger])) hq

end FirstBest

theorem foldl_better_firstBest {free : List (Position Float)} :
    ∀ {chosen : Position Float}, Comparable row (chosen :: free) →
      ∃ p, free.foldl (better row) (some (chosen, score chosen row)) = some (p, score p row) ∧
        FirstBest row (chosen :: free) p := by
  induction free with
  | nil => exact fun _ => ⟨_, rfl, [], [], rfl, List.forall_mem_nil _, List.forall_mem_nil _⟩
  | cons first rest ih =>
    intro chosen numbers
    obtain ⟨hchosen, hlater⟩ := comparable_cons.mp numbers
    obtain ⟨hfirst, hrest⟩ := comparable_cons.mp hlater
    rw [List.foldl_cons, better]
    -- the next position takes over, or it is as if it were not there
    by_cases hlt : (score chosen row).total < (score first row).total
    · rw [if_pos hlt]
      obtain ⟨p, hfold, hbest⟩ := ih hlater
      have hle := hbest.le hlater List.mem_cons_self
      exact ⟨p, hfold, hbest.cons_of_lt (Double.lt_of_lt_of_le hlt hle)⟩
    · rw [if_neg hlt]
      obtain ⟨p, hfold, hbest⟩ := ih (comparable_cons.mpr ⟨hchosen, hrest⟩)
      exact ⟨p, hfold, hbest.insert_second ((Double.not_lt_iff hchosen hfirst).mp hlt)⟩

theorem bestFor_firstBest {free : List (Position Float)} (numbers : Comparable row free)
    (hq : q ∈ free) : ∃ p, bestFor row free = some (p, score p row) ∧ FirstBest row free p := by
  cases free with
  | nil => cases hq
  | cons first rest => exact foldl_better_firstBest numbers

/-! ## The choice of a row -/

theorem not_le_scoreFloor (hp : (score p row).total.isNaN = false) :
    ¬ (score p row).total ≤ scoreFloor ↔ 50.0 < (score p row).total := by
  have hfloor : (50.0 : Float).isNaN = false := by decide +kernel
  exact Double.not_le_iff hp hfloor

theorem choice_eq_some_iff_firstBest {threshold : Float} {index : Nat}
    {free : List (Position Float)} (numbers : Comparable row free) {m : Match Float} :
    choice threshold index row free = some m ↔
      ∃ p, FirstBest row free p ∧ 50.0 < (score p row).total ∧
        m = ⟨p.id, index, score p row,
          if threshold ≤ (score p row).total then .automatic else .lowConfidence⟩ := by
  rw [choice_eq_some_iff]
  constructor
  · rintro ⟨p, hbest, hfloor, hm⟩
    have hp := (bestFor_eq_some hbest).1
    obtain ⟨first, hfound, hfirst⟩ := bestFor_firstBest numbers hp
    obtain rfl : p = first := congrArg Prod.fst (Option.some.inj (hbest.symm.trans hfound))
    exact ⟨p, hfirst, (not_le_scoreFloor (numbers p hp)).mp hfloor, hm⟩
  · rintro ⟨p, hfirst, hfloor, hm⟩
    obtain ⟨found, hfound, hfoundFirst⟩ := bestFor_firstBest numbers hfirst.mem
    obtain rfl := hfoundFirst.unique hfirst numbers
    exact ⟨found, hfound, (not_le_scoreFloor (numbers found hfirst.mem)).mpr hfloor, hm⟩

/-- Some position scores more than 50 if and only if the first of the best does. -/
theorem exists_firstBest_iff {free : List (Position Float)} (numbers : Comparable row free) :
    (∃ p, FirstBest row free p ∧ 50.0 < (score p row).total) ↔
      ∃ p ∈ free, 50.0 < (score p row).total := by
  constructor
  · exact fun ⟨p, hfirst, hfloor⟩ => ⟨p, hfirst.mem, hfloor⟩
  · rintro ⟨q, hq, hfloor⟩
    obtain ⟨p, -, hfirst⟩ := bestFor_firstBest numbers hq
    exact ⟨p, hfirst, Double.lt_of_lt_of_le hfloor (hfirst.le numbers hq)⟩

/-! ## All rows -/

/-- What the matches say of one row that `free` positions are left to: it has a match if some of
them scores more than 50, and then it has the first of the best. -/
structure TakesBest (index : Nat) (row : Row Float) (free : List (Position Float))
    (threshold : Float) (matched : List (Match Float)) : Prop where
  isMatched_iff : (∃ m ∈ matched, m.rowIndex = (index : Int)) ↔
    ∃ p ∈ free, 50.0 < (score p row).total
  isMatch_iff : ∀ m, (m ∈ matched ∧ m.rowIndex = (index : Int)) ↔
    ∃ p, FirstBest row free p ∧ 50.0 < (score p row).total ∧
      m = ⟨p.id, index, score p row,
        if threshold ≤ (score p row).total then .automatic else .lowConfidence⟩
  unbeaten : ∀ m ∈ matched, m.rowIndex = (index : Int) →
    ∀ q ∈ free, ¬ m.score.total < (score q row).total

/-- Matches that the rows make one after the other, each with what the rows before it left. -/
structure Greedy (positions : List (Position Float)) (rows : List (Row Float)) (threshold : Float)
    (matched : List (Match Float)) : Prop where
  row : ∀ m ∈ matched, ∃ i < rows.length, m.rowIndex = (i : Int)
  takesBest : ∀ (i : Nat) row, rows[i]? = some row →
    TakesBest i row (unclaimed matched i (candidates positions)) threshold matched

theorem takesBest_of_choice {index : Nat} {free : List (Position Float)} {threshold : Float}
    {matched : List (Match Float)} (numbers : Comparable row free)
    (h : ∀ m, (m ∈ matched ∧ m.rowIndex = (index : Int)) ↔
      choice threshold index row free = some m) :
    TakesBest index row free threshold matched := by
  have hmatch (m : Match Float) := (h m).trans (choice_eq_some_iff_firstBest numbers)
  refine ⟨?_, hmatch, fun m hm hi q hq => ?_⟩
  · rw [← exists_firstBest_iff numbers]
    constructor
    · rintro ⟨m, hm⟩
      obtain ⟨p, hfirst, hfloor, -⟩ := (hmatch m).mp hm
      exact ⟨p, hfirst, hfloor⟩
    · rintro ⟨p, hfirst, hfloor⟩
      exact ⟨_, (hmatch _).mpr ⟨p, hfirst, hfloor, rfl⟩⟩
  · obtain ⟨p, hfirst, -, rfl⟩ := (hmatch m).mp ⟨hm, hi⟩
    exact hfirst.not_lt_of_mem numbers hq

/-! ## The threshold -/

/-- Who is matched to whom, and how well. -/
def Match.pairing {α : Type} (m : Match α) : String × Int × Score α :=
  (m.positionId, m.rowIndex, m.score)

section Pairing

variable {α : Type}

theorem unclaimed_of_pairing {matched matched' : List (Match α)}
    (h : matched.map Match.pairing = matched'.map Match.pairing) (index : Nat)
    (positions : List (Position α)) :
    unclaimed matched index positions = unclaimed matched' index positions := by
  refine List.filter_congr fun p _ => decide_eq_decide.mpr ?_
  have hread (made : List (Match α)) :
      (∀ m ∈ made, m.rowIndex < index → m.positionId ≠ p.id) ↔
        ∀ pair ∈ made.map Match.pairing, pair.2.1 < index → pair.1 ≠ p.id := by
    rw [List.forall_mem_map]
    rfl
  rw [hread, hread, h]

variable [Arithmetic α]

theorem choice_pairing (threshold threshold' : α) (index : Nat) (row : Row α)
    (free : List (Position α)) :
    (choice threshold index row free).toList.map Match.pairing =
      (choice threshold' index row free).toList.map Match.pairing := by
  unfold choice
  cases bestFor row free with
  | none => rfl
  | some found =>
    by_cases hfloor : found.2.total ≤ scoreFloor
    · simp only [if_pos hfloor]
    · simp only [if_neg hfloor]
      rfl

theorem assignFrom_pairing (threshold threshold' : α) (rows : List (Row α)) :
    ∀ (index : Nat) (free : List (Position α)),
      (assignFrom threshold index free rows).map Match.pairing =
        (assignFrom threshold' index free rows).map Match.pairing := by
  induction rows with
  | nil => exact fun _ _ => rfl
  | cons row rest ih =>
    intro index free
    have hchoice := choice_pairing threshold threshold' index row free
    rw [assignFrom_cons, assignFrom_cons, List.map_append, List.map_append, hchoice,
      unclaimed_of_pairing hchoice, ih]

end Pairing

/-- Where no score is NaN, the rows are matched greedily, and to the same positions whatever the
threshold. -/
theorem assign_greedy {positions : List (Position Float)} {rows : List (Row Float)}
    (numbers : ∀ row ∈ rows, Comparable row (candidates positions)) (threshold : Float) :
    Greedy positions rows threshold (assign positions rows threshold) ∧
      ∀ other, (assign positions rows other).map Match.pairing =
        (assign positions rows threshold).map Match.pairing := by
  refine ⟨⟨?_, fun i row hrow => ?_⟩, fun other => assignFrom_pairing other threshold rows 0 _⟩
  · intro m hm
    obtain ⟨i, row, hrow, hchoice⟩ := mem_assign_iff.mp hm
    exact ⟨i, (List.getElem?_eq_some_iff.mp hrow).1, choice_rowIndex hchoice⟩
  · refine takesBest_of_choice (fun p hp => ?_) fun m => isMatch_iff_choice hrow
    exact numbers row (List.mem_of_getElem? hrow) p (mem_unclaimed.mp hp).1

/-- Two positions that nothing tells apart, a supplementary one under them, and a third. -/
def twinPits : List (Position Float) :=
  [{ id := "pit", itemNo := some "1", workName := some "pit", volume := some 10.0, number := 1.0 },
    { id := "pit-1", itemNo := some "1", workName := some "pit", volume := some 10.0,
      isAdditional := true, number := 1.1 },
    { id := "twin", itemNo := some "1", workName := some "pit", volume := some 10.0,
      number := 2.0 },
    { id := "wall", itemNo := some "2", workName := some "wall", volume := some 5.0,
      number := 3.0 }]

def pitsAndWall : List (Row Float) :=
  [{ itemNo := some "9", workName := some "pit", volume := some 10.0 },
    { itemNo := some "1", workName := some "pit", volume := some 10.0 },
    { itemNo := some "1", workName := some "pit", volume := some 10.0 },
    { itemNo := some "2", workName := some "wall", volume := some 4.9 }]

/-- The first row takes the first twin though the second row would fit it better, and nothing is
left to the third. -/
theorem assign_greedy_twinPits :
    (∀ row ∈ pitsAndWall, Comparable row (candidates twinPits)) ∧
      Greedy twinPits pitsAndWall 80.0 (assign twinPits pitsAndWall 80.0) ∧
      (assign twinPits pitsAndWall 80.0).map (fun m => (m.positionId, m.rowIndex, m.kind)) =
        [("pit", 0, .lowConfidence), ("twin", 1, .automatic), ("wall", 3, .automatic)] := by
  have numbers : ∀ row ∈ pitsAndWall, Comparable row (candidates twinPits) := by
    show ∀ row ∈ pitsAndWall, ∀ p ∈ candidates twinPits, (score p row).total.isNaN = false
    decide +kernel
  exact ⟨numbers, (assign_greedy numbers 80.0).1, by decide +kernel⟩

end Matching
end TenderPricing
