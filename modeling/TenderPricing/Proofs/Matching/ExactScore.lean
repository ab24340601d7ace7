import Mathlib.Tactic.NormNum
import Mathlib.Tactic.Ring
import TenderPricing.Matching.Score
import TenderPricing.Proofs.Matching.EditScript
import TenderPricing.Proofs.Matching.NormalForm
import TenderPricing.Proofs.Number.Checked
/-!
Scores without rounding.

Every part of a score stays between nothing and its points, the position and the row play the same
role in it, and the full hundred points mean that the two agree in all that is compared.

Apart from two there are three divisors: the length of the longer name, the mean of two quantities
and the distance between the bands.  Over `Checked` the score has a value, so none of them is ever
zero where it divides.
-/
namespace TenderPricing
namespace Matching

open Text

theorem exact_one : (1.0 : ℚ) = 1 := by norm_num

theorem exact_two : (2.0 : ℚ) = 2 := by norm_num

theorem tightBand_eq : (tightBand : ℚ) = 1 / 20 := by decide +kernel

theorem looseBand_eq : (looseBand : ℚ) = 1 / 2 := by decide +kernel

/-! ## Names -/

section Names

/-- The length of the longer of two normalized names. -/
def longerLength (s t : String) : ℕ := max (normalize s).length (normalize t).length

theorem nameSimilarity_eq {α : Type} [Arithmetic α] (a b : Option String) :
    (nameSimilarity a b : α) =
      if a.getD "" = "" ∨ b.getD "" = "" then 0.0
      else if longerLength (a.getD "") (b.getD "") = 0 then 1.0
      else 1.0 - Arithmetic.ofInt (textDistance (normalize (a.getD "")) (normalize (b.getD ""))) /
        Arithmetic.ofInt (longerLength (a.getD "") (b.getD "")) := rfl

theorem length_comparable_normalize_le (s : String) :
    (comparable (normalize s)).length ≤ (normalize s).length := by
  rw [comparable, lowerChars_normalize, trimChars, List.length_reverse, ← String.length_toList]
  calc _ ≤ ((normalize s).toList.dropWhile isBlank).reverse.length := List.length_dropWhile_le _ _
    _ = ((normalize s).toList.dropWhile isBlank).length := List.length_reverse
    _ ≤ (normalize s).toList.length := List.length_dropWhile_le _ _

/-- The distance is that of the trimmed names, the length that of the untrimmed ones. -/
theorem textDistance_normalize_le (s t : String) :
    textDistance (normalize s) (normalize t) ≤ longerLength s t := by
  have hdistance := textDistance_le_max (normalize s) (normalize t)
  have hs := length_comparable_normalize_le s
  have ht := length_comparable_normalize_le t
  unfold longerLength
  omega

/-- The distance of two names relative to the longer one. -/
def relativeDistance (s t : String) : ℚ :=
  textDistance (normalize s) (normalize t) / longerLength s t

theorem relativeDistance_nonneg (s t : String) : 0 ≤ relativeDistance s t :=
  div_nonneg (Nat.cast_nonneg _) (Nat.cast_nonneg _)

theorem relativeDistance_le_one (s t : String) : relativeDistance s t ≤ 1 :=
  div_le_one_of_le₀ (Nat.cast_le.mpr (textDistance_normalize_le s t)) (Nat.cast_nonneg _)

theorem relativeDistance_comm (s t : String) : relativeDistance t s = relativeDistance s t := by
  rw [relativeDistance, relativeDistance, textDistance_comm, longerLength, longerLength, max_comm]

theorem relativeDistance_eq_zero_iff (s t : String) :
    relativeDistance s t = 0 ↔ comparable (normalize s) = comparable (normalize t) := by
  have hdistance := textDistance_normalize_le s t
  rw [relativeDistance, div_eq_zero_iff, Nat.cast_eq_zero, Nat.cast_eq_zero,
    ← textDistance_eq_zero_iff]
  omega

variable {a b : Option String}

theorem nameSimilarity_of_empty (h : a.getD "" = "" ∨ b.getD "" = "") :
    (nameSimilarity a b : ℚ) = 0 := by
  rw [nameSimilarity_eq, if_pos h, Arithmetic.exact_zero]

/-- Two names of nothing but punctuation are no exception: the distance is zero, and the length. -/
theorem nameSimilarity_of_nonempty (h : ¬ (a.getD "" = "" ∨ b.getD "" = "")) :
    (nameSimilarity a b : ℚ) = 1 - relativeDistance (a.getD "") (b.getD "") := by
  rw [nameSimilarity_eq, if_neg h, exact_one]
  by_cases hlength : longerLength (a.getD "") (b.getD "") = 0
  · rw [if_pos hlength, relativeDistance, hlength, Nat.cast_zero, div_zero, sub_zero]
  · rw [if_neg hlength]
    rfl

theorem nameSimilarity_mem : (nameSimilarity a b : ℚ) ∈ Set.Icc 0 1 := by
  by_cases h : a.getD "" = "" ∨ b.getD "" = ""
  · rw [nameSimilarity_of_empty h]
    exact ⟨le_rfl, zero_le_one⟩
  · have hlow := relativeDistance_nonneg (a.getD "") (b.getD "")
    have hhigh := relativeDistance_le_one (a.getD "") (b.getD "")
    rw [nameSimilarity_of_nonempty h]
    constructor <;> linarith

theorem nameSimilarity_eq_one_iff :
    (nameSimilarity a b : ℚ) = 1 ↔ (a.getD "" ≠ "" ∧ b.getD "" ≠ "") ∧
      comparable (normalize (a.getD "")) = comparable (normalize (b.getD "")) := by
  rw [← not_or]
  by_cases h : a.getD "" = "" ∨ b.getD "" = ""
  · rw [nameSimilarity_of_empty h]
    exact iff_of_false zero_ne_one fun hnot => hnot.1 h
  · rw [nameSimilarity_of_nonempty h, sub_eq_self, relativeDistance_eq_zero_iff, and_iff_right h]

theorem nameSimilarity_comm : (nameSimilarity b a : ℚ) = nameSimilarity a b := by
  by_cases h : a.getD "" = "" ∨ b.getD "" = ""
  · rw [nameSimilarity_of_empty h, nameSimilarity_of_empty h.symm]
  · rw [nameSimilarity_of_nonempty h, nameSimilarity_of_nonempty (mt Or.symm h),
      relativeDistance_comm]

theorem nameSimilarity_checked : nameSimilarity a b = Checked.value (nameSimilarity a b) := by
  rw [nameSimilarity_eq, nameSimilarity_eq]
  by_cases h : a.getD "" = "" ∨ b.getD "" = ""
  · rw [if_pos h, if_pos h, Checked.literal_eq]
  · rw [if_neg h, if_neg h]
    by_cases hlength : longerLength (a.getD "") (b.getD "") = 0
    · rw [if_pos hlength, if_pos hlength, Checked.literal_eq]
    · -- the branch before has taken what would be a division by zero
      have hdivisor : (Arithmetic.ofInt (longerLength (a.getD "") (b.getD "")) : ℚ) ≠ 0 :=
        Int.cast_ne_zero.mpr (Nat.cast_ne_zero.mpr hlength)
      rw [if_neg hlength, if_neg hlength, Checked.ofInt_eq, Checked.ofInt_eq,
        Checked.value_div hdivisor, Checked.literal_eq, Checked.value_sub]

end Names

/-! ## Quantities -/

section Quantities

/-- The difference of two quantities relative to the mean of their amounts. -/
def relativeDifference (v w : ℚ) : ℚ := |v - w| / ((|v| + |w|) / 2)

theorem relativeDifference_comm (v w : ℚ) : relativeDifference w v = relativeDifference v w := by
  rw [relativeDifference, relativeDifference, abs_sub_comm, add_comm]

theorem mean_pos {v : ℚ} (hv : v ≠ 0) (w : ℚ) : 0 < (|v| + |w|) / 2 := by
  have hpos := abs_pos.mpr hv
  have hnonneg := abs_nonneg w
  linarith

theorem abs_quotient_eq (v w : ℚ) :
    Arithmetic.abs (v - w) / ((Arithmetic.abs v + Arithmetic.abs w) / 2.0) =
      relativeDifference v w := by
  rw [Arithmetic.abs_eq, Arithmetic.abs_eq, Arithmetic.abs_eq, exact_two]
  rfl

theorem relativeProximity_eq {α : Type} [Arithmetic α] {v w d : α}
    (h : Arithmetic.abs (v - w) / ((Arithmetic.abs v + Arithmetic.abs w) / 2.0) = d) :
    relativeProximity v w =
      if d < tightBand then 1.0 else if looseBand < d then 0.0
      else 1.0 - (d - tightBand) / (looseBand - tightBand) := by
  rw [← h]
  rfl

/-- The three pieces meet at the bands: they are one line that is cut off at one and at zero. -/
theorem relativeProximity_eq_clamp (v w : ℚ) :
    relativeProximity v w = max 0 (min 1 (1 - (relativeDifference v w - 1 / 20) * (20 / 9))) := by
  rw [relativeProximity_eq (abs_quotient_eq v w), tightBand_eq, looseBand_eq, exact_one,
    Arithmetic.exact_zero]
  generalize relativeDifference v w = d
  by_cases htight : d < 1 / 20
  · rw [if_pos htight, min_eq_left (by linarith), max_eq_right zero_le_one]
  · rw [if_neg htight, min_eq_right (by linarith)]
    by_cases hloose : 1 / 2 < d
    · rw [if_pos hloose, max_eq_left (by linarith)]
    · rw [if_neg hloose, max_eq_right (by linarith)]
      ring

theorem relativeProximity_mem (v w : ℚ) : relativeProximity v w ∈ Set.Icc 0 1 := by
  rw [relativeProximity_eq_clamp]
  exact ⟨le_max_left _ _, max_le zero_le_one (min_le_left _ _)⟩

theorem relativeProximity_comm (v w : ℚ) : relativeProximity w v = relativeProximity v w := by
  rw [relativeProximity_eq_clamp, relativeProximity_eq_clamp, relativeDifference_comm]

theorem relativeProximity_eq_one_iff {v : ℚ} (hv : v ≠ 0) (w : ℚ) :
    relativeProximity v w = 1 ↔ |v - w| ≤ 5 / 100 * ((|v| + |w|) / 2) := by
  have hdifference : relativeDifference v w ≤ 5 / 100 ↔ |v - w| ≤ 5 / 100 * ((|v| + |w|) / 2) :=
    div_le_iff₀ (mean_pos hv w)
  rw [relativeProximity_eq_clamp, ← hdifference]
  generalize relativeDifference v w = d
  constructor
  · intro h
    by_contra hlarge
    have hbelow : max 0 (min 1 (1 - (d - 1 / 20) * (20 / 9))) < 1 :=
      max_lt zero_lt_one (min_lt_of_right_lt (by linarith))
    exact hbelow.ne h
  · intro h
    rw [min_eq_left (by linarith), max_eq_right zero_le_one]

theorem relativeProximity_checked {v : ℚ} (hv : v ≠ 0) (w : ℚ) :
    relativeProximity (Checked.value v) (Checked.value w) =
      Checked.value (relativeProximity v w) := by
  have hmean : (Arithmetic.abs v + Arithmetic.abs w) / (2.0 : ℚ) ≠ 0 := by
    rw [Arithmetic.abs_eq, Arithmetic.abs_eq, exact_two]
    exact (mean_pos hv w).ne'
  have htwo : (2.0 : ℚ) ≠ 0 := by norm_num
  have hbands : (looseBand - tightBand : ℚ) ≠ 0 := by decide +kernel
  have hdifference : Arithmetic.abs (Checked.value v - Checked.value w) /
      ((Arithmetic.abs (Checked.value v) + Arithmetic.abs (Checked.value w)) / 2.0) =
        Checked.value (relativeDifference v w) := by
    rw [Checked.value_sub, Checked.value_abs, Checked.value_abs, Checked.value_abs,
      Checked.value_add, Checked.literal_eq, Checked.value_div htwo, Checked.value_div hmean,
      abs_quotient_eq]
  have htight : (tightBand : Checked) = Checked.value tightBand := rfl
  have hloose : (looseBand : Checked) = Checked.value looseBand := rfl
  rw [relativeProximity_eq hdifference, relativeProximity_eq (abs_quotient_eq v w), htight, hloose]
  generalize relativeDifference v w = d
  by_cases hclose : d < tightBand
  · rw [if_pos hclose, if_pos ((Checked.value_lt _ _).mpr hclose), Checked.literal_eq]
  · rw [if_neg hclose, if_neg (mt (Checked.value_lt _ _).mp hclose)]
    by_cases hfar : looseBand < d
    · rw [if_pos hfar, if_pos ((Checked.value_lt _ _).mpr hfar), Checked.literal_eq]
    · rw [if_neg hfar, if_neg (mt (Checked.value_lt _ _).mp hfar), Checked.value_sub,
        Checked.value_sub, Checked.value_div hbands, Checked.literal_eq, Checked.value_sub]

theorem beq_zero_iff {v : ℚ} : (v == 0.0) = true ↔ v = 0 := by
  rw [Arithmetic.exact_zero]
  exact beq_iff_eq

theorem volumeProximity_some (v w : ℚ) :
    volumeProximity (some v) (some w) =
      if v = 0 ∧ w = 0 then 1 else if v = 0 ∨ w = 0 then 0 else relativeProximity v w := by
  simp only [volumeProximity, Bool.and_eq_true, Bool.or_eq_true, beq_zero_iff]
  rw [exact_one, Arithmetic.exact_zero]

/-- Both quantities are missing, both are zero, or neither is zero and they differ by five percent
of their mean amount at most. -/
def SameVolume : Option ℚ → Option ℚ → Prop
  | none, none => True
  | some v, some w =>
    (v = 0 ∧ w = 0) ∨ ((v ≠ 0 ∧ w ≠ 0) ∧ |v - w| ≤ 5 / 100 * ((|v| + |w|) / 2))
  | _, _ => False

variable (x y : Option ℚ)

/-- Quantities are alike, or have nothing to compare, or are compared by their difference. -/
theorem volumeProximity_cases :
    (volumeProximity x y = 1 ∧ SameVolume x y) ∨ (volumeProximity x y = 0 ∧ ¬ SameVolume x y) ∨
      ∃ v w, volumeProximity x y = relativeProximity v w ∧
        (SameVolume x y ↔ relativeProximity v w = 1) := by
  cases x with
  | none =>
    cases y with
    | none => exact .inl ⟨exact_one, trivial⟩
    | some w => exact .inr (.inl ⟨Arithmetic.exact_zero, id⟩)
  | some v =>
    cases y with
    | none => exact .inr (.inl ⟨Arithmetic.exact_zero, id⟩)
    | some w =>
      rw [volumeProximity_some, SameVolume, ← not_or]
      by_cases hboth : v = 0 ∧ w = 0
      · exact .inl ⟨if_pos hboth, .inl hboth⟩
      · rw [if_neg hboth, or_iff_right hboth]
        by_cases heither : v = 0 ∨ w = 0
        · exact .inr (.inl ⟨if_pos heither, fun hsame => hsame.1 heither⟩)
        · refine .inr (.inr ⟨v, w, if_neg heither, ?_⟩)
          rw [and_iff_right heither, relativeProximity_eq_one_iff (not_or.mp heither).1]

theorem volumeProximity_mem : volumeProximity x y ∈ Set.Icc 0 1 := by
  rcases volumeProximity_cases x y with ⟨hone, -⟩ | ⟨hzero, -⟩ | ⟨v, w, hrelative, -⟩
  · rw [hone]
    exact ⟨zero_le_one, le_rfl⟩
  · rw [hzero]
    exact ⟨le_rfl, zero_le_one⟩
  · rw [hrelative]
    exact relativeProximity_mem v w

theorem volumeProximity_eq_one_iff : volumeProximity x y = 1 ↔ SameVolume x y := by
  rcases volumeProximity_cases x y with ⟨hone, hsame⟩ | ⟨hzero, hnot⟩ | ⟨v, w, hrelative, hsame⟩
  · exact iff_of_true hone hsame
  · rw [hzero]
    exact iff_of_false zero_ne_one hnot
  · rw [hrelative, hsame]

theorem volumeProximity_comm : volumeProximity y x = volumeProximity x y := by
  cases x with
  | none =>
    cases y with
    | none => rfl
    | some w => rfl
  | some v =>
    cases y with
    | none => rfl
    | some w =>
      rw [volumeProximity_some, volumeProximity_some, relativeProximity_comm]
      simp only [and_comm, or_comm]

theorem volumeProximity_checked :
    volumeProximity (x.map .value) (y.map .value) = Checked.value (volumeProximity x y) := by
  cases x with
  | none =>
    cases y with
    | none => rfl
    | some w => rfl
  | some v =>
    cases y with
    | none => rfl
    | some w =>
      rw [Option.map_some, Option.map_some, volumeProximity, volumeProximity]
      simp only [Checked.literal_eq, Checked.value_beq, Bool.and_eq_true, Bool.or_eq_true,
        beq_zero_iff]
      by_cases hboth : v = 0 ∧ w = 0
      · rw [if_pos hboth, if_pos hboth]
      · rw [if_neg hboth, if_neg hboth]
        by_cases heither : v = 0 ∨ w = 0
        · rw [if_pos heither, if_pos heither]
        · rw [if_neg heither, if_neg heither]
          exact relativeProximity_checked (not_or.mp heither).1 w

end Quantities

/-! ## Scores -/

section Scores

variable {α β : Type}

def Position.map (f : α → β) (p : Position α) : Position β where
  id := p.id
  itemNo := p.itemNo
  workName := p.workName
  unitCode := p.unitCode
  volume := p.volume.map f
  isAdditional := p.isAdditional
  number := f p.number
  level := p.level
  parentId := p.parentId

def Row.map (f : α → β) (row : Row α) : Row β where
  itemNo := row.itemNo
  workName := row.workName
  unitCode := row.unitCode
  volume := row.volume.map f
  level := row.level
  note := row.note

def Score.map (f : α → β) (s : Score α) : Score β :=
  ⟨f s.itemNo, f s.name, f s.unit, f s.volume⟩

/-- The position with what is compared of it taken from a row. -/
def Position.comparedAs (p : Position α) (row : Row α) : Position α :=
  { p with
    itemNo := row.itemNo, workName := row.workName, unitCode := row.unitCode, volume := row.volume }

/-- The row with what is compared of it taken from a position. -/
def Row.comparedAs (row : Row α) (p : Position α) : Row α :=
  { row with
    itemNo := p.itemNo, workName := p.workName, unitCode := p.unitCode, volume := p.volume }

/-- No part of a score is below nothing or above its points. -/
structure Score.InRange (s : Score ℚ) : Prop where
  itemNo : s.itemNo ∈ ({0, 30} : Set ℚ)
  name : s.name ∈ Set.Icc 0 50
  unit : s.unit ∈ ({0, 10} : Set ℚ)
  volume : s.volume ∈ Set.Icc 0 10

/-- A position and a row that agree in all that is compared. -/
structure Agree (p : Position ℚ) (row : Row ℚ) : Prop where
  itemNo : exactKey p.itemNo = exactKey row.itemNo
  named : p.workName.getD "" ≠ "" ∧ row.workName.getD "" ≠ ""
  name : comparable (normalize (p.workName.getD "")) = comparable (normalize (row.workName.getD ""))
  unit : exactKey p.unitCode = exactKey row.unitCode
  volume : SameVolume p.volume row.volume

section Keys

variable (a b : Option String) (points : ℚ)

theorem exactScore_mem : exactScore a b points ∈ ({0, points} : Set ℚ) := by
  rw [exactScore, Arithmetic.exact_zero]
  by_cases h : exactKey a = exactKey b
  · rw [if_pos h]
    exact .inr rfl
  · rw [if_neg h]
    exact .inl rfl

variable {points} in
theorem exactScore_eq_iff (hpoints : 0 < points) :
    exactScore a b points = points ↔ exactKey a = exactKey b := by
  rw [exactScore, Arithmetic.exact_zero]
  by_cases h : exactKey a = exactKey b
  · rw [if_pos h]
    exact iff_of_true rfl h
  · rw [if_neg h]
    exact iff_of_false hpoints.ne h

theorem exactScore_comm : exactScore b a points = exactScore a b points := by
  rw [exactScore, exactScore]
  simp only [eq_comm]

theorem exactScore_checked :
    exactScore a b (Checked.value points) = Checked.value (exactScore a b points) := by
  rw [exactScore, exactScore, Checked.literal_eq]
  by_cases h : exactKey a = exactKey b
  · rw [if_pos h, if_pos h]
  · rw [if_neg h, if_neg h]

end Keys

variable (p : Position ℚ) (row : Row ℚ)

theorem score_eq :
    score p row =
      ⟨exactScore p.itemNo row.itemNo 30, nameSimilarity p.workName row.workName * 50,
        exactScore p.unitCode row.unitCode 10, volumeProximity p.volume row.volume * 10⟩ := by
  have hitem : (30.0 : ℚ) = 30 := by norm_num
  have hname : (50.0 : ℚ) = 50 := by norm_num
  have hunit : (10.0 : ℚ) = 10 := by norm_num
  rw [score, hitem, hname, hunit]

theorem share_mem {share points : ℚ} (h : share ∈ Set.Icc 0 1) (hpoints : 0 ≤ points) :
    share * points ∈ Set.Icc 0 points :=
  ⟨mul_nonneg h.1 hpoints, mul_le_of_le_one_left hpoints h.2⟩

theorem mem_Icc_of_none_or_all {x points : ℚ} (h : x ∈ ({0, points} : Set ℚ))
    (hpoints : 0 ≤ points) : x ∈ Set.Icc 0 points := by
  rcases h with hnone | hall
  · rw [hnone]
    exact ⟨le_rfl, hpoints⟩
  · rw [Set.mem_singleton_iff.mp hall]
    exact ⟨hpoints, le_rfl⟩

theorem score_inRange : (score p row).InRange := by
  rw [score_eq]
  constructor <;> dsimp only
  · exact exactScore_mem p.itemNo row.itemNo 30
  · exact share_mem nameSimilarity_mem (by norm_num)
  · exact exactScore_mem p.unitCode row.unitCode 10
  · exact share_mem (volumeProximity_mem p.volume row.volume) (by norm_num)

theorem Score.total_eq {s : Score ℚ} : s.total = s.itemNo + s.name + s.unit + s.volume := rfl

namespace Score.InRange

variable {s : Score ℚ} (h : s.InRange)

include h

theorem itemNo_bounds : s.itemNo ∈ Set.Icc 0 30 := mem_Icc_of_none_or_all h.itemNo (by norm_num)

theorem unit_bounds : s.unit ∈ Set.Icc 0 10 := mem_Icc_of_none_or_all h.unit (by norm_num)

theorem total_mem : s.total ∈ Set.Icc 0 100 := by
  obtain ⟨hitem, hitem'⟩ := h.itemNo_bounds
  obtain ⟨hname, hname'⟩ := h.name
  obtain ⟨hunit, hunit'⟩ := h.unit_bounds
  obtain ⟨hvolume, hvolume'⟩ := h.volume
  rw [total_eq]
  exact ⟨by linarith, by linarith⟩

/-- No part can make up for what another one lacks. -/
theorem total_eq_hundred_iff :
    s.total = 100 ↔ s.itemNo = 30 ∧ s.name = 50 ∧ s.unit = 10 ∧ s.volume = 10 := by
  have hitem := h.itemNo_bounds.2
  have hname := h.name.2
  have hunit := h.unit_bounds.2
  have hvolume := h.volume.2
  rw [total_eq]
  constructor
  · intro hfull
    refine ⟨?_, ?_, ?_, ?_⟩ <;> linarith
  · rintro ⟨hitem, hname, hunit, hvolume⟩
    rw [hitem, hname, hunit, hvolume]
    norm_num

end Score.InRange

theorem score_checked :
    score (p.map Checked.value) (row.map Checked.value) = (score p row).map Checked.value := by
  simp only [score, Position.map, Row.map, Score.map, Checked.literal_eq, exactScore_checked,
    nameSimilarity_checked, volumeProximity_checked, Checked.value_mul]

theorem score_comparedAs : score (p.comparedAs row) (row.comparedAs p) = score p row := by
  rw [score_eq, score_eq]
  simp only [Position.comparedAs, Row.comparedAs]
  rw [exactScore_comm, exactScore_comm p.unitCode, nameSimilarity_comm, volumeProximity_comm]

theorem total_eq_hundred_iff : (score p row).total = 100 ↔ Agree p row := by
  have hitem : exactScore p.itemNo row.itemNo 30 = (30 : ℚ) ↔
      exactKey p.itemNo = exactKey row.itemNo := exactScore_eq_iff _ _ (by norm_num)
  have hname : nameSimilarity p.workName row.workName * 50 = (50 : ℚ) ↔ _ :=
    (mul_eq_right₀ (by norm_num)).trans nameSimilarity_eq_one_iff
  have hunit : exactScore p.unitCode row.unitCode 10 = (10 : ℚ) ↔
      exactKey p.unitCode = exactKey row.unitCode := exactScore_eq_iff _ _ (by norm_num)
  have hvolume : volumeProximity p.volume row.volume * 10 = 10 ↔ _ :=
    (mul_eq_right₀ (by norm_num)).trans (volumeProximity_eq_one_iff p.volume row.volume)
  rw [(score_inRange p row).total_eq_hundred_iff, score_eq]
  simp only [hitem, hname, hunit, hvolume]
  constructor
  · rintro ⟨hitem, ⟨hnamed, hname⟩, hunit, hvolume⟩
    exact ⟨hitem, hnamed, hname, hunit, hvolume⟩
  · intro h
    exact ⟨h.itemNo, ⟨h.named, h.name⟩, h.unit, h.volume⟩

end Scores

end Matching
end TenderPricing
