import Mathlib.Data.List.Nodup
import TenderPricing.Matching.Outcome
import TenderPricing.Proofs.Keyed
/-!
Matching divides the positions and the rows.

Whatever the scores are, a row takes a position that is free and nobody takes it again.  `Assigned`
says so of the matches of some rows, one row at a time; that nothing is lost or counted twice,
`Partitions`, is then a matter of counting.
-/
namespace TenderPricing
namespace Matching

variable {α : Type}

/-- What is true of the matches of the rows from `index` on with positions that are free. -/
structure Assigned (index : Nat) (free : List (Position α)) (rows : List (Row α))
    (matched : List (Match α)) : Prop where
  position : ∀ m ∈ matched, ∃ p ∈ free, p.id = m.positionId
  row : ∀ m ∈ matched, ∃ i, index ≤ i ∧ i < index + rows.length ∧ m.rowIndex = (i : Int)
  increasing : matched.Pairwise fun m n => m.rowIndex < n.rowIndex
  once : (matched.map (·.positionId)).Nodup
  kind : ∀ m ∈ matched, m.kind = .automatic ∨ m.kind = .lowConfidence

namespace Assigned

variable {index : Nat} {free : List (Position α)} {first : Row α} {later : List (Row α)}
  {matched : List (Match α)}

theorem row_later (first : Row α) (h : Assigned (index + 1) free later matched) :
    ∀ m ∈ matched, ∃ i, index < i ∧ i < index + (first :: later).length ∧
      m.rowIndex = (i : Int) := by
  intro m hm
  obtain ⟨i, hlow, hhigh, hrow⟩ := h.row m hm
  rw [List.length_cons]
  exact ⟨i, by omega, by omega, hrow⟩

theorem skip (h : Assigned (index + 1) free later matched) :
    Assigned index free (first :: later) matched where
  position := h.position
  row := fun m hm => by
    obtain ⟨i, hlow, hrest⟩ := h.row_later first m hm
    exact ⟨i, Nat.le_of_lt hlow, hrest⟩
  increasing := h.increasing
  once := h.once
  kind := h.kind

theorem take {p : Position α} {score : Score α} {kind : MatchKind} (hfree : p ∈ free)
    (hkind : kind = .automatic ∨ kind = .lowConfidence)
    (h : Assigned (index + 1) (free.filter fun q => q.id != p.id) later matched) :
    Assigned index free (first :: later) (⟨p.id, index, score, kind⟩ :: matched) where
  position := by
    rw [List.forall_mem_cons]
    refine ⟨⟨p, hfree, rfl⟩, fun m hm => ?_⟩
    obtain ⟨q, hq, hid⟩ := h.position m hm
    exact ⟨q, List.mem_of_mem_filter hq, hid⟩
  row := by
    rw [List.forall_mem_cons]
    refine ⟨⟨index, Nat.le_refl index, by simp, rfl⟩, fun m hm => ?_⟩
    obtain ⟨i, hlow, hrest⟩ := h.row_later first m hm
    exact ⟨i, Nat.le_of_lt hlow, hrest⟩
  increasing := by
    rw [List.pairwise_cons]
    refine ⟨fun m hm => ?_, h.increasing⟩
    obtain ⟨i, hlow, -, hrow⟩ := h.row_later first m hm
    rw [hrow]
    exact Int.ofNat_lt.mpr hlow
  once := by
    rw [List.map_cons, List.nodup_cons]
    -- later rows choose among positions with other ids
    refine ⟨fun hagain => ?_, h.once⟩
    obtain ⟨m, hm, hid⟩ := List.mem_map.mp hagain
    obtain ⟨q, hq, hqid⟩ := h.position m hm
    have hother := List.of_mem_filter hq
    simp [hqid, hid] at hother
  kind := by
    rw [List.forall_mem_cons]
    exact ⟨hkind, h.kind⟩

end Assigned

section Run

variable [Arithmetic α]

theorem better_eq (row : Row α) (chosen : Option (Position α × Score α)) (p : Position α) :
    better row chosen p = chosen ∨ better row chosen p = some (p, score p row) := by
  unfold better
  split
  · exact .inr rfl
  · split
    · exact .inr rfl
    · exact .inl rfl

theorem foldl_better_eq_some {row : Row α} {p : Position α} {best : Score α}
    {free : List (Position α)} :
    ∀ {chosen : Option (Position α × Score α)}, free.foldl (better row) chosen = some (p, best) →
      chosen = some (p, best) ∨ p ∈ free ∧ best = score p row := by
  induction free with
  | nil => exact fun h => .inl h
  | cons first rest ih =>
    intro chosen h
    rcases ih h with hchosen | ⟨hrest, hbest⟩
    · rcases better_eq row chosen first with hkept | htaken
      · exact .inl (hkept ▸ hchosen)
      · rw [htaken, Option.some.injEq, Prod.mk.injEq] at hchosen
        obtain ⟨rfl, rfl⟩ := hchosen
        exact .inr ⟨List.mem_cons_self, rfl⟩
    · exact .inr ⟨List.mem_cons_of_mem _ hrest, hbest⟩

/-- The best position is one of those to choose from, with its own score. -/
theorem bestFor_eq_some {row : Row α} {free : List (Position α)} {p : Position α} {best : Score α}
    (h : bestFor row free = some (p, best)) : p ∈ free ∧ best = score p row :=
  (foldl_better_eq_some h).resolve_left nofun

theorem assignFrom_assigned (threshold : α) (rows : List (Row α)) :
    ∀ (index : Nat) (free : List (Position α)),
      Assigned index free rows (assignFrom threshold index free rows) := by
  induction rows with
  | nil => exact fun index free => ⟨nofun, nofun, .nil, .nil, nofun⟩
  | cons row rest ih =>
    intro index free
    rw [assignFrom]
    cases hbest : bestFor row free with
    | none => exact (ih (index + 1) free).skip
    | some found =>
      obtain ⟨p, best⟩ := found
      by_cases hfloor : best.total ≤ scoreFloor
      · simp only [if_pos hfloor]
        exact (ih (index + 1) free).skip
      -- nothing more is known of the score, which may be no number
      · simp only [if_neg hfloor]
        refine (ih (index + 1) _).take (bestFor_eq_some hbest).1 ?_
        split
        · exact .inl rfl
        · exact .inr rfl

end Run

/-! ## Counting -/

/-- Distinct keys that occur among those of a list count the elements that have one of them. -/
theorem length_eq_add_length_filter {β κ : Type} [BEq κ] [LawfulBEq κ] {key : β → κ} {xs : List β}
    {ks : List κ} (distinct : (xs.map key).Nodup) (once : ks.Nodup)
    (known : ∀ k ∈ ks, k ∈ xs.map key) :
    xs.length = ks.length + (xs.filter fun x => !ks.contains (key x)).length := by
  have hperm : ((xs.filter fun x => ks.contains (key x)).map key).Perm ks := by
    refine (List.perm_ext_iff_of_nodup (distinct.sublist (List.filter_sublist.map key)) once).mpr
      fun k => ?_
    simp only [List.mem_map, List.mem_filter, List.contains_iff_mem]
    constructor
    · rintro ⟨x, ⟨-, hx⟩, rfl⟩
      exact hx
    · intro hk
      obtain ⟨x, hx, rfl⟩ := List.mem_map.mp (known k hk)
      exact ⟨x, ⟨hx, hk⟩, rfl⟩
  rw [← hperm.length_eq, List.length_map]
  exact List.length_eq_length_filter_add _

section Counting

variable {positions : List (Position α)} {rows : List (Row α)} {matched : List (Match α)}

theorem mem_candidates {p : Position α} :
    p ∈ candidates positions ↔ p ∈ positions ∧ p.isAdditional = false := by
  simp [candidates]

theorem unmatchedPositions_eq_filter :
    unmatchedPositions positions matched =
      (candidates positions).filter fun p => !(matched.map (·.positionId)).contains p.id :=
  List.filter_filter.symm

theorem mem_unmatchedPositions {p : Position α} :
    p ∈ unmatchedPositions positions matched ↔
      (p ∈ positions ∧ p.isAdditional = false) ∧ ¬ ∃ m ∈ matched, m.positionId = p.id := by
  rw [unmatchedPositions_eq_filter, List.mem_filter, mem_candidates]
  simp

theorem mem_unmatchedRows {i : Nat} :
    i ∈ unmatchedRows rows matched ↔
      i < rows.length ∧ ¬ ∃ m ∈ matched, m.rowIndex = (i : Int) := by
  simp [unmatchedRows]

theorem length_candidates_add_additional :
    (candidates positions).length + positions.countP (·.isAdditional) = positions.length := by
  rw [candidates, List.countP_eq_length_filter, Nat.add_comm]
  exact (List.length_eq_length_filter_add _).symm

namespace Assigned

theorem automatic_add_lowConfidence {index : Nat} {free : List (Position α)}
    (h : Assigned index free rows matched) :
    matched.countP (·.kind = .automatic) + matched.countP (·.kind = .lowConfidence) =
      matched.length := by
  rw [List.length_eq_countP_add_countP fun m : Match α => decide (m.kind = .automatic)]
  congr 1
  refine List.countP_congr fun m hm => ?_
  rcases h.kind m hm with hkind | hkind <;> simp [hkind]

theorem length_candidates (distinct : (positions.map (·.id)).Nodup)
    (h : Assigned 0 (candidates positions) rows matched) :
    (candidates positions).length =
      matched.length + (unmatchedPositions positions matched).length := by
  have hdistinct : ((candidates positions).map (·.id)).Nodup :=
    distinct.sublist (List.filter_sublist.map _)
  have hknown : ∀ id ∈ matched.map (·.positionId), id ∈ (candidates positions).map (·.id) := by
    rw [List.forall_mem_map]
    exact fun m hm => List.mem_map.mpr (h.position m hm)
  have hcount := length_eq_add_length_filter hdistinct h.once hknown
  rwa [List.length_map, ← unmatchedPositions_eq_filter] at hcount

theorem length_rows {free : List (Position α)} (h : Assigned 0 free rows matched) :
    rows.length = matched.length + (unmatchedRows rows matched).length := by
  have hdistinct : ((List.range rows.length).map fun i : Nat => (i : Int)).Nodup :=
    List.nodup_range.map fun _ _ => Int.ofNat.inj
  have honce : (matched.map (·.rowIndex)).Nodup :=
    List.pairwise_map.mpr (h.increasing.imp fun hlt => Int.ne_of_lt hlt)
  have hknown : ∀ i ∈ matched.map (·.rowIndex),
      i ∈ (List.range rows.length).map fun i : Nat => (i : Int) := by
    rw [List.forall_mem_map]
    intro m hm
    obtain ⟨i, -, hlt, hrow⟩ := h.row m hm
    rw [Nat.zero_add] at hlt
    exact List.mem_map.mpr ⟨i, List.mem_range.mpr hlt, hrow.symm⟩
  have hcount := length_eq_add_length_filter hdistinct honce hknown
  rwa [List.length_range, List.length_map] at hcount

end Assigned

end Counting

/-- The figures of a matching add up to the numbers of positions and rows. -/
structure Statistics.Balanced (s : Statistics) (positions rows : Nat) : Prop where
  totalOld : s.totalOld = s.automatic + s.lowConfidence + s.deleted
  totalNew : s.totalNew = s.automatic + s.lowConfidence + s.created
  positions : s.totalOld + s.additional = positions
  rows : s.totalNew = rows

/-- How matches divide the positions and the rows: each position of the client is either matched
or left over, and so is each row; supplementary positions are neither. -/
structure Partitions (positions : List (Position α)) (rows : List (Row α))
    (matched : List (Match α)) : Prop where
  position : ∀ m ∈ matched, ∃ p ∈ positions, p.isAdditional = false ∧ p.id = m.positionId
  row : ∀ m ∈ matched, ∃ i < rows.length, m.rowIndex = (i : Int)
  increasing : matched.Pairwise fun m n => m.rowIndex < n.rowIndex
  once : (matched.map (·.positionId)).Nodup
  positionsSplit : ∀ p ∈ positions, p.isAdditional = false →
    Xor (∃ m ∈ matched, m.positionId = p.id) (p ∈ unmatchedPositions positions matched)
  rowsSplit : ∀ i < rows.length,
    Xor (∃ m ∈ matched, m.rowIndex = (i : Int)) (i ∈ unmatchedRows rows matched)
  positionsOrder : (unmatchedPositions positions matched).Sublist positions
  rowsOrder : (unmatchedRows rows matched).Sublist (List.range rows.length)
  supplementary : ∀ p ∈ positions, p.isAdditional = true →
    (¬ ∃ m ∈ matched, m.positionId = p.id) ∧ p ∉ unmatchedPositions positions matched
  rowOfPosition : rowOfPosition matched = matched.map fun m => (m.positionId, m.rowIndex)
  figures : (statistics positions rows matched).Balanced positions.length rows.length

theorem Assigned.partitions {positions : List (Position α)} {rows : List (Row α)}
    {matched : List (Match α)} (distinct : (positions.map (·.id)).Nodup)
    (h : Assigned 0 (candidates positions) rows matched) :
    Partitions positions rows matched where
  position := fun m hm => by
    obtain ⟨p, hp, hid⟩ := h.position m hm
    obtain ⟨hmem, hclient⟩ := mem_candidates.mp hp
    exact ⟨p, hmem, hclient, hid⟩
  row := fun m hm => by
    obtain ⟨i, -, hlt, hrow⟩ := h.row m hm
    exact ⟨i, by rwa [Nat.zero_add] at hlt, hrow⟩
  increasing := h.increasing
  once := h.once
  positionsSplit := fun p hp hclient => by
    rw [xor_iff_not_iff', mem_unmatchedPositions]
    exact (and_iff_right ⟨hp, hclient⟩).symm
  rowsSplit := fun i hi => by
    rw [xor_iff_not_iff', mem_unmatchedRows]
    exact (and_iff_right hi).symm
  positionsOrder := List.filter_sublist
  rowsOrder := List.filter_sublist
  supplementary := fun p hp hadditional => by
    refine ⟨fun ⟨m, hm, hid⟩ => ?_, fun hleft => ?_⟩
    · obtain ⟨q, hq, hqid⟩ := h.position m hm
      obtain ⟨hmem, hclient⟩ := mem_candidates.mp hq
      have hsame : q = p := List.inj_on_of_nodup_map distinct hmem hp (hqid.trans hid)
      rw [hsame, hadditional] at hclient
      cases hclient
    · rw [(mem_unmatchedPositions.mp hleft).1.2] at hadditional
      cases hadditional
  rowOfPosition := by
    rw [Matching.rowOfPosition, Keyed.ofList_of_nodup]
    rw [List.map_map]
    exact h.once
  figures := {
    totalOld := by
      simp only [statistics]
      rw [h.automatic_add_lowConfidence]
      exact h.length_candidates distinct
    totalNew := by
      simp only [statistics]
      rw [h.automatic_add_lowConfidence]
      exact h.length_rows
    positions := length_candidates_add_additional
    rows := rfl }

/-- A matching of positions with distinct ids divides the positions and the rows. -/
theorem assign_partitions [Arithmetic α] {positions : List (Position α)}
    (distinct : (positions.map (·.id)).Nodup) (rows : List (Row α)) (threshold : α) :
    Partitions positions rows (assign positions rows threshold) :=
  (assignFrom_assigned threshold rows 0 (candidates positions)).partitions distinct

/-- Three positions of the client, the second with a volume that is no number, and a supplementary
one that equals the first. -/
def pitWallRoof : List (Position Float) :=
  [{ id := "pit", itemNo := some "1", workName := some "pit", volume := some 10.0, number := 1.0 },
    { id := "pit-1", itemNo := some "1", workName := some "pit", volume := some 10.0,
      isAdditional := true, number := 1.1 },
    { id := "wall", itemNo := some "2", workName := some "wall", volume := some (0.0 / 0.0),
      number := 2.0 },
    { id := "roof", itemNo := some "3", workName := some "roof", number := 3.0 }]

def doorPitWall : List (Row Float) :=
  [{ workName := some "door" },
    { itemNo := some "1", workName := some "pit", volume := some 10.0 },
    { itemNo := some "9", workName := some "wall", volume := some 5.0 }]

/-- The wall is matched although its score is no number. -/
theorem assign_partitions_pitWallRoof :
    (pitWallRoof.map (·.id)).Nodup ∧
      Partitions pitWallRoof doorPitWall (assign pitWallRoof doorPitWall 80.0) ∧
      (assign pitWallRoof doorPitWall 80.0).map (fun m => (m.positionId, m.rowIndex)) =
        [("pit", 1), ("wall", 2)] ∧
      statistics pitWallRoof doorPitWall (assign pitWallRoof doorPitWall 80.0) =
        ⟨3, 3, 1, 1, 1, 1, 1⟩ := by
  have hdistinct : (pitWallRoof.map (·.id)).Nodup := by decide
  refine ⟨hdistinct, assign_partitions hdistinct doorPitWall 80.0, ?_, ?_⟩
  · decide +kernel
  · decide +kernel

end Matching
end TenderPricing
