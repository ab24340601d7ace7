import TenderPricing.Proofs.Transfer.Gap
import TenderPricing.Proofs.Transfer.Numbering
/-!
How many numbers in a row a parent has room for.

The numbers of a parent increase and stay below the next whole number as long as the gap to it has
a unit left.  Each halving takes one bit of it away, so a whole number of `k` bits has room for
`59 - k` numbers; the one after them is the next whole number itself, which is the number of the
regular position that follows.
-/
namespace TenderPricing
namespace Transfer

open Number Number.Double

/-! ## The next number -/

theorem nextNumber_cons_eq {α : Type} [Arithmetic α] {parent first last : α} {others : List α}
    {whole reached : Int} (hlast : greatest first others = last)
    (hwhole : Arithmetic.floor last = .ok whole)
    (hreached : Arithmetic.floor (nextTenth last whole) = .ok reached) :
    nextNumber parent (first :: others) =
      .ok (if whole + 1 ≤ reached then halfway last whole else nextTenth last whole) := by
  simp only [nextNumber, hlast, hwhole, hreached, ok_bind]
  rfl

section Next

variable {p : Nat} (hp : p < 10 ^ 6)
include hp

theorem hasValue_above_whole {last : Float} {v : ℚ} (hv : HasValue last v) (hlow : p < v)
    (hhigh : v < p + 1) : HasValue (last - Arithmetic.ofInt p) (v - p) := by
  rcases Nat.eq_zero_or_pos p with rfl | hpos
  · obtain ⟨m, e, hnormal, rfl⟩ := hv
    rw [Nat.cast_zero, hnormal.sub_zero unpacked_zero, Nat.cast_zero, sub_zero]
    exact ⟨m, e, normal_nearest hnormal.low hnormal.high hnormal.least hnormal.most, rfl⟩
  · have hwhole := hasValue_ofInt hpos (by omega : p < 2 ^ 53)
    have hbelow : (2 : ℚ) ^ p.log2 ≤ p := by exact_mod_cast Nat.log2_self_le hpos.ne'
    have habove : ((p + 1 : ℕ) : ℚ) ≤ 2 ^ (p.log2 + 1) := by exact_mod_cast Nat.lt_log2_self
    refine hv.sub hwhole (k := p.log2) (by omega) (by exact_mod_cast hbelow) hlow ?_
    refine hhigh.trans_le ?_
    push_cast at habove
    exact_mod_cast habove

/-- Up to three roundings, the next tenth is the nearest one to a tenth above. -/
theorem abs_round_next_le {last : Float} {v : ℚ} (hv : HasValue last v) (hlow : p + 1 / 16 ≤ v)
    (hhigh : v < p + 1) :
    |(Arithmetic.round ((last - Arithmetic.ofInt p + 0.1) * 10.0) : ℚ) - (10 * (v - p) + 1)| ≤
      1 / 2 + 1 / 2 ^ 40 := by
  have hrest := hasValue_above_whole hp hv (by linarith) hhigh
  have htenth : HasValue (0.1 : Float) (7205759403792794 * 2 ^ (-56 : ℤ)) :=
    ⟨_, _, normal_tenth, by norm_num⟩
  have hten : HasValue (10.0 : Float) 10 := ⟨_, _, normal_ten, by norm_num⟩
  obtain ⟨s, hs, hsum⟩ := hrest.add htenth (by norm_num; linarith) (by norm_num; linarith)
  obtain ⟨hsum, hsum'⟩ := abs_le.mp hsum
  norm_num at hsum hsum'
  obtain ⟨w, hw, hproduct⟩ := hs.mul hten (by norm_num; linarith) (by norm_num; linarith)
  obtain ⟨hproduct, hproduct'⟩ := abs_le.mp hproduct
  obtain ⟨hround, hround'⟩ := abs_le.mp hw.round
  norm_num at hproduct hproduct'
  rw [abs_le]
  norm_num
  constructor <;> linarith

theorem exists_value_of_tenth {j : Nat} (h : 0 < j) (h' : j < 10) :
    ∃ v : ℚ, HasValue (plusTenths p j) v ∧ p < v ∧ v < p + 1 := by
  obtain ⟨v, hv, hnear⟩ := exists_value_plusTenths hp h (by omega)
  obtain ⟨hbelow, habove⟩ := abs_le.mp hnear
  have hj : (1 : ℚ) ≤ j := by exact_mod_cast h
  have hj' : (j : ℚ) ≤ 9 := by exact_mod_cast Nat.le_of_lt_succ h'
  norm_num at hbelow habove
  exact ⟨v, hv, by linarith, by linarith⟩

theorem floor_plusTenths {j : Nat} (h : 0 < j) (h' : j < 10) :
    Arithmetic.floor (plusTenths p j) = .ok p := by
  obtain ⟨v, hv, hlow, hhigh⟩ := exists_value_of_tenth hp h h'
  exact hv.floor_eq (by exact_mod_cast hlow.le) (by exact_mod_cast hhigh)

/-- Below nine tenths the next tenth is the one that follows. -/
theorem nextTenth_plusTenths {j : Nat} (h : 0 < j) (h' : j < 9) :
    nextTenth (plusTenths p j) p = plusTenths p (j + 1 : ℕ) := by
  obtain ⟨v, hv, hnear⟩ := exists_value_plusTenths hp h (by omega)
  obtain ⟨hbelow, habove⟩ := abs_le.mp hnear
  have hj : (1 : ℚ) ≤ j := by exact_mod_cast h
  have hj' : (j : ℚ) ≤ 8 := by exact_mod_cast Nat.le_of_lt_succ h'
  norm_num at hbelow habove
  have hround := abs_le.mp (abs_round_next_le hp hv (by linarith) (by linarith))
  rw [nextTenth_eq]
  generalize Arithmetic.round ((plusTenths p j - Arithmetic.ofInt p + 0.1) * 10.0) = r at hround
  norm_num at hround
  have hlow : (j : ℚ) < r := by linarith
  have hhigh : (r : ℚ) < j + 2 := by linarith
  have hlow' : (j : ℤ) < r := by exact_mod_cast hlow
  have hhigh' : r < (j : ℤ) + 2 := by exact_mod_cast hhigh
  rw [show r = (j + 1 : ℕ) by omega]

section Gap

variable {gap : Nat} (hgap : 0 < gap) (hsmall : 8 * gap ≤ unitsPerWhole p)
include hgap hsmall

/-- A small gap leaves more than seven eighths. -/
theorem exists_value_of_gap :
    ∃ v, HasValue (belowNext p gap) v ∧ p + 7 / 8 ≤ v ∧ v < p + 1 := by
  refine ⟨_, hasValue_belowNext hp hgap (by omega), ?_⟩
  have hunits : (0 : ℚ) < unitsPerWhole p := by
    have := le_unitsPerWhole hp
    exact_mod_cast (by omega : 0 < unitsPerWhole p)
  have hpos : (0 : ℚ) < gap / unitsPerWhole p := div_pos (by exact_mod_cast hgap) hunits
  have hless : (gap : ℚ) / unitsPerWhole p ≤ 1 / 8 := by
    rw [div_le_div_iff₀ hunits (by norm_num)]
    have : (8 : ℚ) * gap ≤ unitsPerWhole p := by exact_mod_cast hsmall
    linarith
  constructor <;> linarith

theorem floor_belowNext : Arithmetic.floor (belowNext p gap) = .ok p := by
  obtain ⟨v, hv, hlow, hhigh⟩ := exists_value_of_gap hp hgap hsmall
  refine hv.floor_eq ?_ (by exact_mod_cast hhigh)
  push_cast
  linarith

/-- From a small gap the next tenth is no longer below the next whole number. -/
theorem exists_floor_nextTenth :
    ∃ reached, Arithmetic.floor (nextTenth (belowNext p gap) p) = .ok reached ∧
      (p : ℤ) + 1 ≤ reached := by
  obtain ⟨v, hv, hlow, hhigh⟩ := exists_value_of_gap hp hgap hsmall
  have hround := abs_le.mp (abs_round_next_le hp hv (by linarith) (by linarith))
  rw [nextTenth_eq]
  generalize Arithmetic.round ((belowNext p gap - Arithmetic.ofInt p + 0.1) * 10.0) = r at hround
  norm_num at hround
  have hnine : (9 : ℚ) < r := by linarith
  have htwelve : (r : ℚ) < 12 := by linarith
  have hnine' : 9 < r := by exact_mod_cast hnine
  have htwelve' : r < 12 := by exact_mod_cast htwelve
  obtain rfl | rfl : r = 10 ∨ r = 11 := by omega
  · rw [plusTenths_ten hp, (hasValue_ofInt (Nat.succ_pos p) (by omega)).floor]
    refine ⟨_, rfl, ?_⟩
    rw [Int.floor_natCast]
    omega
  · obtain ⟨w, hw, hnear⟩ := exists_value_plusTenths hp (j := 11) (by omega) (by omega)
    obtain ⟨hbelow, -⟩ := abs_le.mp hnear
    norm_num at hbelow
    refine ⟨_, hw.floor, ?_⟩
    rw [Int.le_floor]
    push_cast
    linarith

end Gap

theorem nextNumber_of_tenth {parent first : Float} {others : List Float} {j : Nat} (h : 0 < j)
    (h' : j < 9) (hlast : greatest first others = plusTenths p j) :
    nextNumber parent (first :: others) = .ok (plusTenths p (j + 1 : ℕ)) := by
  have hreached := floor_plusTenths hp (Nat.succ_pos j) (by omega)
  rw [← nextTenth_plusTenths hp h h', nextNumber_cons_eq hlast (floor_plusTenths hp h (by omega))
    (nextTenth_plusTenths hp h h' ▸ hreached), if_neg (by omega)]

/-- When less than an eighth is left, the next number takes half of it. -/
theorem nextNumber_of_gap {parent first : Float} {others : List Float} {gap : Nat} (h : 0 < gap)
    (h' : 8 * gap ≤ unitsPerWhole p) (hlast : greatest first others = belowNext p gap) :
    nextNumber parent (first :: others) = .ok (belowNext p (roundDiv gap 2)) := by
  obtain ⟨reached, hreached, hle⟩ := exists_floor_nextTenth hp h h'
  rw [nextNumber_cons_eq hlast (floor_belowNext hp h h') hreached, if_pos hle,
    halfway_belowNext hp h (by omega)]

end Next

/-! ## The sequence of numbers -/

/-- The gap after that many halvings. -/
def halved (gap : Nat) : Nat → Nat
  | 0 => gap
  | count + 1 => roundDiv (halved gap count) 2

/-- A gap that can be halved that often, and not once more. -/
def Halves (count gap : Nat) : Prop := gap ≤ 2 ^ count ∧ 3 * 2 ^ count ≤ 4 * gap

theorem Halves.pos {count gap : Nat} (h : Halves count gap) : 0 < gap := by
  have := h.2
  have := Nat.two_pow_pos count
  omega

theorem Halves.step {count gap : Nat} (h : Halves (count + 1) gap) :
    Halves count (roundDiv gap 2) := by
  obtain ⟨hhigh, hlow⟩ := h
  rcases count with _ | _ | count
  · obtain rfl : gap = 2 := by omega
    exact ⟨by decide, by decide⟩
  · obtain rfl | rfl : gap = 3 ∨ gap = 4 := by omega
    · exact ⟨by decide, by decide⟩
    · exact ⟨by decide, by decide⟩
  · have hpow : (2 : ℕ) ^ (count + 1 + 1 + 1) = 8 * 2 ^ count := by
      rw [Nat.pow_succ, Nat.pow_succ, Nat.pow_succ]
      omega
    have hpow' : (2 : ℕ) ^ (count + 1 + 1) = 4 * 2 ^ count := by
      rw [Nat.pow_succ, Nat.pow_succ]
      omega
    rw [hpow] at hhigh hlow
    rw [Halves, hpow']
    unfold roundDiv
    split_ifs <;> omega

theorem halves_halved {count gap : Nat} (h : Halves count gap) :
    ∀ {i}, i ≤ count → Halves (count - i) (halved gap i) := by
  intro i
  induction i with
  | zero => exact fun _ => h
  | succ i ih =>
    intro hi
    have hstep := ih (by omega)
    rw [show count - i = count - (i + 1) + 1 by omega] at hstep
    exact hstep.step

theorem halved_one_of_halves {gap : Nat} (h : Halves 0 gap) : gap = 1 := by
  obtain ⟨hhigh, hlow⟩ := h
  omega

/-- The numbers that a whole number has room for. -/
def capacity (p : Nat) : Nat := 59 - p.size

/-- The numbers under a whole number, from the first tenth on, where `gap` is left after nine
tenths. -/
def numberAt (p gap i : Nat) : Float :=
  if i < 9 then plusTenths p (i + 1 : ℕ) else belowNext p (halved gap (i - 8))

/-- A gap that is left after nine tenths. -/
structure LeftAfterTenths (p gap : Nat) : Prop where
  eq : plusTenths p 9 = belowNext p gap
  halves : Halves (50 - p.size) gap

theorem exists_leftAfterTenths {p : Nat} (hp : p < 10 ^ 6) : ∃ gap, LeftAfterTenths p gap := by
  obtain ⟨gap, heq, hlow, hhigh⟩ := plusTenths_nine hp
  rw [unitsPerWhole_eq hp] at hlow hhigh
  exact ⟨gap, heq, by omega, by omega⟩

section Sequence

variable {p gap : Nat} (hp : p < 10 ^ 6) (hgap : LeftAfterTenths p gap)

include hgap in
theorem numberAt_of_le {i : Nat} (h : 8 ≤ i) :
    numberAt p gap i = belowNext p (halved gap (i - 8)) := by
  rw [numberAt]
  split_ifs with hi
  · obtain rfl : i = 8 := by omega
    exact hgap.eq
  · rfl

include hp hgap

theorem halved_pos {i : Nat} (h : 8 ≤ i) (hi : i < capacity p) : 0 < halved gap (i - 8) := by
  have hsize := size_le_twenty hp
  rw [capacity] at hi
  exact (halves_halved hgap.halves (by omega)).pos

theorem halved_le {i : Nat} (h : 8 ≤ i) (hi : i < capacity p) :
    8 * halved gap (i - 8) ≤ unitsPerWhole p := by
  have hsize := size_le_twenty hp
  rw [capacity] at hi
  have hle := (halves_halved hgap.halves (i := i - 8) (by omega)).1
  have hpow : 2 ^ (50 - p.size - (i - 8)) ≤ 2 ^ (50 - p.size) :=
    Nat.pow_le_pow_right Nat.two_pos (Nat.sub_le ..)
  rw [unitsPerWhole_eq hp]
  omega

theorem nextNumber_numberAt {parent first : Float} {others : List Float} {i : Nat}
    (hi : i < capacity p) (hlast : greatest first others = numberAt p gap i) :
    nextNumber parent (first :: others) = .ok (numberAt p gap (i + 1)) := by
  by_cases h : i < 8
  · rw [numberAt, if_pos (by omega)] at hlast
    rw [numberAt, if_pos (by omega)]
    exact nextNumber_of_tenth hp (Nat.succ_pos i) (by omega) hlast
  · rw [not_lt] at h
    rw [numberAt_of_le hgap h] at hlast
    rw [numberAt_of_le hgap (by omega), Nat.succ_sub h]
    exact nextNumber_of_gap hp (halved_pos hp hgap h hi) (halved_le hp hgap h hi) hlast

/-- After the last number there is no gap left. -/
theorem numberAt_capacity : numberAt p gap (capacity p) = Arithmetic.ofInt (p + 1 : ℕ) := by
  have hsize := size_le_twenty hp
  have hone : halved gap (50 - p.size) = 1 := by
    have hlast := halves_halved hgap.halves (le_refl (50 - p.size))
    rw [Nat.sub_self] at hlast
    exact halved_one_of_halves hlast
  have hzero : halved gap (capacity p - 8) = 0 := by
    rw [show capacity p - 8 = 50 - p.size + 1 by rw [capacity]; omega, halved, hone]
    rfl
  rw [numberAt_of_le hgap (by rw [capacity]; omega), hzero, belowNext_zero hp]

theorem exists_value_numberAt {i : Nat} (hi : i < capacity p) :
    ∃ v : ℚ, HasValue (numberAt p gap i) v ∧ p < v ∧ v < p + 1 := by
  by_cases h : i < 9
  · rw [numberAt, if_pos h]
    exact exists_value_of_tenth hp (Nat.succ_pos i) (by omega)
  · have hpos := halved_pos hp hgap (by omega) hi
    have hle := halved_le hp hgap (by omega) hi
    obtain ⟨v, hv, hlow, hhigh⟩ := exists_value_of_gap hp hpos hle
    rw [numberAt, if_neg h]
    exact ⟨v, hv, by linarith, hhigh⟩

theorem numberAt_lt_succ {i : Nat} (hi : i + 1 < capacity p) :
    numberAt p gap i < numberAt p gap (i + 1) := by
  by_cases h : i < 8
  · obtain ⟨v, hv, hnear⟩ := exists_value_plusTenths hp (Nat.succ_pos i) (by omega)
    obtain ⟨w, hw, hnear'⟩ := exists_value_plusTenths hp (Nat.succ_pos (i + 1)) (by omega)
    have habove := (abs_le.mp hnear).2
    have hbelow := (abs_le.mp hnear').1
    push_cast at hbelow habove
    norm_num at hbelow habove
    rw [numberAt, if_pos (by omega), numberAt, if_pos (by omega)]
    exact hv.lt hw (by linarith)
  · rw [not_lt] at h
    have hpos := halved_pos hp hgap h (by omega)
    have hle := halved_le hp hgap h (by omega)
    have hpos' := halved_pos hp hgap (by omega) hi
    have hle' := halved_le hp hgap (by omega) hi
    have hless : halved gap (i + 1 - 8) < halved gap (i - 8) := by
      rw [Nat.succ_sub h]
      exact roundDiv_two_lt hpos
    rw [numberAt_of_le hgap h, numberAt_of_le hgap (by omega)]
    refine (hasValue_belowNext hp hpos (by omega)).lt (hasValue_belowNext hp hpos' (by omega)) ?_
    refine sub_lt_sub_left (div_lt_div_of_pos_right ?_ ?_) _
    · exact_mod_cast hless
    · exact_mod_cast (by omega : 0 < unitsPerWhole p)

theorem numberAt_lt {i j : Nat} (hij : i < j) (hj : j < capacity p) :
    numberAt p gap i < numberAt p gap j := by
  induction j, hij using Nat.le_induction with
  | base => exact numberAt_lt_succ hp hgap hj
  | succ j _ ih => exact lt_of_lt_of_le (ih (by omega)) (le_of_lt (numberAt_lt_succ hp hgap hj))

end Sequence

/-! ## Numbers in a row -/

section Row

variable {α : Type} [Arithmetic α]

/-- Fewer numbers in a row are the first ones of more. -/
theorem nextNumbers_take {parent : α} {count : Nat} : ∀ {existing numbers : List α} {few : Nat},
    nextNumbers parent count existing = .ok numbers → few ≤ count →
      nextNumbers parent few existing = .ok (numbers.take few) := by
  induction count with
  | zero =>
    intro existing numbers few h hfew
    obtain rfl : few = 0 := by omega
    rfl
  | succ count ih =>
    intro existing numbers few h hfew
    obtain ⟨number, later, hnumber, hlater, rfl⟩ := nextNumbers_succ_eq_ok_iff.mp h
    cases few with
    | zero => rfl
    | succ few =>
      refine nextNumbers_succ_eq_ok_iff.mpr ⟨number, later.take few, hnumber, ?_, rfl⟩
      exact ih hlater (by omega)

/-- The numbers increase and lie strictly between a whole number and the next one. -/
structure FitUnder (p : Nat) (numbers : List Float) : Prop where
  increasing : numbers.Pairwise (· < ·)
  between : ∀ x ∈ numbers, Arithmetic.ofInt p < x ∧ x < Arithmetic.ofInt (p + 1 : ℕ)

variable {p gap : Nat} (hp : p < 10 ^ 6) (hgap : LeftAfterTenths p gap)
include hp hgap

/-- The numbers after some of the sequence are the rest of it. -/
theorem nextNumbers_numberAt {count : Nat} : ∀ {i : Nat}, i + count ≤ capacity p + 1 →
    nextNumbers (Arithmetic.ofInt p : Float) count ((List.range i).map (numberAt p gap)) =
      .ok ((List.range' i count).map (numberAt p gap)) := by
  induction count with
  | zero => exact fun _ => rfl
  | succ count ih =>
    intro i hi
    have hnext : nextNumber (Arithmetic.ofInt p : Float) ((List.range i).map (numberAt p gap)) =
        .ok (numberAt p gap i) := by
      cases i with
      | zero => rfl
      | succ i =>
        -- the last number so far is the greatest one
        have hlast : ∀ y ∈ (List.range i).map (numberAt p gap), y < numberAt p gap i := by
          intro y hy
          obtain ⟨j, hj, rfl⟩ := List.mem_map.mp hy
          exact numberAt_lt hp hgap (List.mem_range.mp hj) (by omega)
        rw [List.range_succ, List.map_append, List.map_singleton]
        cases hmap : (List.range i).map (numberAt p gap) with
        | nil => exact nextNumber_numberAt hp hgap (by omega) rfl
        | cons first others =>
          rw [hmap] at hlast
          exact nextNumber_numberAt hp hgap (by omega) (greatest_append hlast)
    refine nextNumbers_succ_eq_ok_iff.mpr ⟨_, _, hnext, ?_, List.map_cons ..⟩
    have hlater := ih (i := i + 1) (by omega)
    rwa [List.range_succ, List.map_append, List.map_singleton] at hlater

theorem fitUnder_numberAt {count : Nat} (h : count ≤ capacity p) :
    FitUnder p ((List.range count).map (numberAt p gap)) := by
  constructor
  · rw [List.pairwise_map]
    refine List.pairwise_lt_range.imp_of_mem ?_
    intro i j _ hj hij
    have := List.mem_range.mp hj
    exact numberAt_lt hp hgap hij (by omega)
  · intro x hx
    obtain ⟨i, hi, rfl⟩ := List.mem_map.mp hx
    have hi := List.mem_range.mp hi
    obtain ⟨v, hv, hlow, hhigh⟩ := exists_value_numberAt hp hgap (i := i) (by omega)
    have hnext := hasValue_ofInt (Nat.succ_pos p) (by omega)
    refine ⟨?_, hv.lt hnext (by push_cast; exact hhigh)⟩
    rcases Nat.eq_zero_or_pos p with rfl | hpos
    · exact hv.zero_lt
    · exact (hasValue_ofInt hpos (by omega)).lt hv hlow

end Row

section Room

variable {p : Nat} (hp : p < 10 ^ 6)
include hp

/-- Up to its capacity a whole number has room. -/
theorem exists_fitUnder {count : Nat} (h : count ≤ capacity p) :
    ∃ numbers, nextNumbers (Arithmetic.ofInt p : Float) count [] = .ok numbers ∧
      FitUnder p numbers := by
  obtain ⟨gap, hgap⟩ := exists_leftAfterTenths hp
  refine ⟨(List.range count).map (numberAt p gap), ?_, fitUnder_numberAt hp hgap h⟩
  rw [List.range_eq_range']
  exact nextNumbers_numberAt hp hgap (i := 0) (by omega)

/-- The number after those that it has room for is the next whole one. -/
theorem nextNumbers_beyond :
    ∃ numbers, nextNumbers (Arithmetic.ofInt p : Float) (capacity p + 1) [] =
      .ok (numbers ++ [Arithmetic.ofInt (p + 1 : ℕ)]) ∧ numbers.length = capacity p := by
  obtain ⟨gap, hgap⟩ := exists_leftAfterTenths hp
  have hrow : nextNumbers (Arithmetic.ofInt p : Float) (capacity p + 1) [] =
      .ok ((List.range' 0 (capacity p + 1)).map (numberAt p gap)) :=
    nextNumbers_numberAt hp hgap (i := 0) (by omega)
  refine ⟨(List.range (capacity p)).map (numberAt p gap), ?_, by simp⟩
  rw [hrow, ← List.range_eq_range', List.range_succ, List.map_append, List.map_singleton,
    numberAt_capacity hp hgap]

theorem not_fitUnder {count : Nat} (h : capacity p < count) {numbers : List Float}
    (hnumbers : nextNumbers (Arithmetic.ofInt p : Float) count [] = .ok numbers) :
    ¬ FitUnder p numbers := by
  intro hfit
  obtain ⟨first, hbeyond, -⟩ := nextNumbers_beyond hp
  have htake : nextNumbers _ (capacity p + 1) [] = .ok (numbers.take (capacity p + 1)) :=
    nextNumbers_take hnumbers h
  have hmem : Arithmetic.ofInt (p + 1 : ℕ) ∈ numbers := by
    refine List.mem_of_mem_take (i := capacity p + 1) ?_
    rw [← Except.ok.inj (hbeyond.symm.trans htake)]
    simp
  exact not_lt_self (hfit.between _ hmem).2

end Room

/-- The numbers in a row under a whole number increase and stay below the next one exactly as long
as there are no more than its capacity; the number after these is the next whole one. -/
theorem nextNumbers_fit_iff {p : Nat} (hp : p < 10 ^ 6) :
    (∀ count, (∃ numbers, nextNumbers (Arithmetic.ofInt p : Float) count [] = .ok numbers ∧
      FitUnder p numbers) ↔ count ≤ capacity p) ∧
    ∃ numbers, nextNumbers (Arithmetic.ofInt p : Float) (capacity p + 1) [] =
      .ok (numbers ++ [Arithmetic.ofInt (p + 1 : ℕ)]) ∧ numbers.length = capacity p := by
  refine ⟨fun count => ⟨?_, exists_fitUnder hp⟩, nextNumbers_beyond hp⟩
  rintro ⟨numbers, hnumbers, hfit⟩
  by_contra hcount
  exact not_fitUnder hp (not_le.mp hcount) hnumbers hfit

/-- Position 5 has room for 56 supplementary positions and for no more. -/
theorem nextNumbers_fit_iff_five :
    5 < 10 ^ 6 ∧
    (∃ numbers, nextNumbers (Arithmetic.ofInt (5 : ℕ) : Float) 56 [] = .ok numbers ∧
      FitUnder 5 numbers) ∧
    ¬ ∃ numbers, nextNumbers (Arithmetic.ofInt (5 : ℕ) : Float) 57 [] = .ok numbers ∧
      FitUnder 5 numbers := by
  have hcapacity : capacity 5 = 56 := by decide
  refine ⟨by norm_num, ?_, fun h => ?_⟩
  · exact ((nextNumbers_fit_iff (p := 5) (by norm_num)).1 56).mpr (by omega)
  · have := ((nextNumbers_fit_iff (p := 5) (by norm_num)).1 57).mp h
    omega

/-- The 57th number under position 5 is 6. -/
theorem fiftySeven_numbers_reach_six :
    ¬ ∀ p count, p < 10 ^ 6 →
      ∃ numbers, nextNumbers (Arithmetic.ofInt (p : ℕ) : Float) count [] = .ok numbers ∧
        FitUnder p numbers := by
  intro h
  obtain ⟨numbers, hnumbers, hfit⟩ := h 5 57 (by norm_num)
  exact not_fitUnder (p := 5) (by norm_num) (by decide) hnumbers hfit

end Transfer
end TenderPricing
