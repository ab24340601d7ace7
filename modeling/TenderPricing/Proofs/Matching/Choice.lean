import TenderPricing.Proofs.Matching.Partition
/-!
The choice of one row.

A row sees the positions that no earlier row was matched to, and what it makes of them depends on
nothing else.  `mem_assign_iff` reads the matches of all rows off these choices: the match of row
`i` is its choice among the positions left by the matches of the rows before it.
-/
namespace TenderPricing
namespace Matching

variable {α : Type}

/-- The positions that no row before `index` was matched to. -/
def unclaimed (matched : List (Match α)) (index : Nat) (positions : List (Position α)) :
    List (Position α) :=
  positions.filter fun p => decide (∀ m ∈ matched, m.rowIndex < index → m.positionId ≠ p.id)

theorem mem_unclaimed {matched : List (Match α)} {index : Nat} {positions : List (Position α)}
    {p : Position α} : p ∈ unclaimed matched index positions ↔
      p ∈ positions ∧ ∀ m ∈ matched, m.rowIndex < index → m.positionId ≠ p.id := by
  rw [unclaimed, List.mem_filter, decide_eq_true_iff]

theorem unclaimed_append (earlier later : List (Match α)) (index : Nat)
    (positions : List (Position α)) :
    unclaimed (earlier ++ later) index positions =
      unclaimed later index (unclaimed earlier index positions) := by
  unfold unclaimed
  rw [List.filter_filter]
  refine List.filter_congr fun p _ => ?_
  rw [← Bool.decide_and, decide_eq_decide, List.forall_mem_append, and_comm]

theorem unclaimed_congr {matched : List (Match α)} {index index' : Nat}
    (h : ∀ m ∈ matched, m.rowIndex < index ↔ m.rowIndex < index') (positions : List (Position α)) :
    unclaimed matched index positions = unclaimed matched index' positions := by
  refine List.filter_congr fun p _ => decide_eq_decide.mpr ?_
  exact forall₂_congr fun m hm => imp_congr_left (h m hm)

theorem unclaimed_of_later {matched : List (Match α)} {index : Nat}
    (h : ∀ m ∈ matched, (index : Int) ≤ m.rowIndex) (positions : List (Position α)) :
    unclaimed matched index positions = positions := by
  refine List.filter_eq_self.mpr fun p _ => decide_eq_true fun m hm hlt => ?_
  exact absurd hlt (Int.not_lt.mpr (h m hm))

section Consecutive

variable {index : Nat} {made later : List (Match α)}

/-- The first row finds everything. -/
theorem unclaimed_first (hmade : ∀ m ∈ made, m.rowIndex = (index : Int))
    (hlater : ∀ m ∈ later, ((index + 1 : Nat) : Int) ≤ m.rowIndex) (free : List (Position α)) :
    unclaimed (made ++ later) index free = free := by
  refine unclaimed_of_later (fun m hm => ?_) free
  rcases List.mem_append.mp hm with hm | hm
  · exact Int.le_of_eq (hmade m hm).symm
  · have hrow := hlater m hm
    omega

/-- A later row finds what the first row left and the rows in between did not take. -/
theorem unclaimed_rest (hmade : ∀ m ∈ made, m.rowIndex = (index : Int)) (k : Nat)
    (free : List (Position α)) : unclaimed (made ++ later) (index + (k + 1)) free =
      unclaimed later (index + 1 + k) (unclaimed made (index + 1) free) := by
  rw [unclaimed_append, show index + (k + 1) = index + 1 + k by omega]
  congr 1
  refine unclaimed_congr (fun m hm => ?_) free
  rw [hmade m hm]
  omega

end Consecutive

variable [Arithmetic α]

/-- The match that a row makes with the positions that are free, if it makes one. -/
def choice (threshold : α) (index : Nat) (row : Row α) (free : List (Position α)) :
    Option (Match α) :=
  match bestFor row free with
  | none => none
  | some (p, best) =>
    if best.total ≤ scoreFloor then none
    else some ⟨p.id, index, best, if isAutomatic best threshold then .automatic else .lowConfidence⟩

theorem choice_eq_some_iff {threshold : α} {index : Nat} {row : Row α} {free : List (Position α)}
    {m : Match α} :
    choice threshold index row free = some m ↔
      ∃ p, bestFor row free = some (p, score p row) ∧ ¬ (score p row).total ≤ scoreFloor ∧
        m = ⟨p.id, index, score p row,
          if threshold ≤ (score p row).total then .automatic else .lowConfidence⟩ := by
  unfold choice
  constructor
  · intro h
    split at h
    · cases h
    · rename_i p best hbest
      obtain rfl := (bestFor_eq_some hbest).2
      by_cases hfloor : (score p row).total ≤ scoreFloor
      · rw [if_pos hfloor] at h
        cases h
      · rw [if_neg hfloor, Option.some.injEq] at h
        refine ⟨p, hbest, hfloor, ?_⟩
        rw [← h]
        simp only [isAutomatic, decide_eq_true_eq]
  · rintro ⟨p, hbest, hfloor, rfl⟩
    simp only [hbest, if_neg hfloor, isAutomatic, decide_eq_true_eq]

theorem choice_rowIndex {threshold : α} {index : Nat} {row : Row α} {free : List (Position α)}
    {m : Match α} (h : choice threshold index row free = some m) : m.rowIndex = index := by
  obtain ⟨p, -, -, rfl⟩ := choice_eq_some_iff.mp h
  rfl

theorem assignFrom_cons (threshold : α) (index : Nat) (free : List (Position α)) (row : Row α)
    (rest : List (Row α)) :
    assignFrom threshold index free (row :: rest) =
      (choice threshold index row free).toList ++ assignFrom threshold (index + 1)
        (unclaimed (choice threshold index row free).toList (index + 1) free) rest := by
  rw [assignFrom]
  unfold choice
  cases hbest : bestFor row free with
  | none => simp [unclaimed]
  | some found =>
    obtain ⟨p, best⟩ := found
    by_cases hfloor : best.total ≤ scoreFloor
    · simp [hfloor, unclaimed]
    · simp only [hfloor, if_false, Option.toList_some, List.singleton_append]
      congr 2
      refine List.filter_congr fun q _ => ?_
      rw [Bool.eq_iff_iff, bne_iff_ne, decide_eq_true_iff, List.forall_mem_singleton]
      have hlt : (index : Int) < (index + 1 : Nat) := Int.ofNat_lt.mpr index.lt_succ_self
      exact ⟨fun hne _ => hne.symm, fun hne => (hne hlt).symm⟩

theorem mem_assignFrom_iff (threshold : α) {m : Match α} (rows : List (Row α)) :
    ∀ (index : Nat) (free : List (Position α)), m ∈ assignFrom threshold index free rows ↔
      ∃ k row, rows[k]? = some row ∧ choice threshold (index + k) row
        (unclaimed (assignFrom threshold index free rows) (index + k) free) = some m := by
  induction rows with
  | nil => simp [assignFrom]
  | cons first rest ih =>
    intro index free
    rw [assignFrom_cons]
    generalize hmade : (choice threshold index first free).toList = made
    generalize hlater : assignFrom threshold (index + 1) (unclaimed made (index + 1) free) rest =
      later
    have hmadeRow : ∀ n ∈ made, n.rowIndex = index := by
      intro n hn
      rw [← hmade, Option.mem_toList] at hn
      exact choice_rowIndex hn
    have hlaterRow : ∀ n ∈ later, ((index + 1 : Nat) : Int) ≤ n.rowIndex := by
      intro n hn
      rw [← hlater] at hn
      obtain ⟨i, hlow, -, hrow⟩ := (assignFrom_assigned threshold rest _ _).row n hn
      rw [hrow]
      exact Int.ofNat_le.mpr hlow
    have ih := ih (index + 1) (unclaimed made (index + 1) free)
    rw [hlater] at ih
    -- the match of this row is its choice, those of the rest are given by the induction
    rw [List.mem_append, ih, ← hmade, Option.mem_toList, hmade]
    constructor
    · rintro (hm | ⟨k, row, hrow, hm⟩)
      · refine ⟨0, first, rfl, ?_⟩
        rw [Nat.add_zero, unclaimed_first hmadeRow hlaterRow]
        exact hm
      · refine ⟨k + 1, row, hrow, ?_⟩
        rw [unclaimed_rest hmadeRow, show index + (k + 1) = index + 1 + k by omega]
        exact hm
    · rintro ⟨k, row, hrow, hm⟩
      cases k with
      | zero =>
        obtain rfl : first = row := by simpa using hrow
        rw [Nat.add_zero, unclaimed_first hmadeRow hlaterRow] at hm
        exact .inl hm
      | succ k =>
        rw [unclaimed_rest hmadeRow, show index + (k + 1) = index + 1 + k by omega] at hm
        exact .inr ⟨k, row, hrow, hm⟩

/-- The match of a row is its choice among what the rows before it left. -/
theorem mem_assign_iff {positions : List (Position α)} {rows : List (Row α)} {threshold : α}
    {m : Match α} : m ∈ assign positions rows threshold ↔
      ∃ i row, rows[i]? = some row ∧ choice threshold i row
        (unclaimed (assign positions rows threshold) i (candidates positions)) = some m := by
  have h := mem_assignFrom_iff threshold (m := m) rows 0 (candidates positions)
  simp only [Nat.zero_add] at h
  exact h

theorem isMatch_iff_choice {positions : List (Position α)} {rows : List (Row α)} {threshold : α}
    {i : Nat} {row : Row α} (hrow : rows[i]? = some row) {m : Match α} :
    (m ∈ assign positions rows threshold ∧ m.rowIndex = (i : Int)) ↔ choice threshold i row
      (unclaimed (assign positions rows threshold) i (candidates positions)) = some m := by
  constructor
  · rintro ⟨hm, hi⟩
    obtain ⟨k, found, hfound, hchoice⟩ := mem_assign_iff.mp hm
    obtain rfl : k = i := Int.ofNat.inj ((choice_rowIndex hchoice).symm.trans hi)
    obtain rfl : found = row := Option.some.inj (hfound.symm.trans hrow)
    exact hchoice
  · intro hchoice
    exact ⟨mem_assign_iff.mpr ⟨i, row, hrow, hchoice⟩, choice_rowIndex hchoice⟩

end Matching
end TenderPricing
