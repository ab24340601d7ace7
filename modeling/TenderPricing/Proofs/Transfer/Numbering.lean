import Mathlib.Algebra.Order.Floor.Ring
import Mathlib.Data.Rat.Floor
import TenderPricing.Proofs.Number.Nearest
import TenderPricing.Proofs.Outcome
import TenderPricing.Transfer.Numbering
/-!
Numbers in a row, exactly.

After the first, every number lies strictly between the greatest number so far and the whole number
that follows it.  So the numbers of one parent increase, and none but the first can be whole.
-/
namespace TenderPricing
namespace Transfer

variable {parent : Rat} {existing : List Rat}

/-! ## The greatest number -/

section Greatest

variable {α : Type} [Arithmetic α] {first x : α} {others : List α}

theorem greatest_mem : ∀ {first : α}, greatest first others ∈ first :: others := by
  induction others with
  | nil => exact List.mem_singleton_self _
  | cons second rest ih =>
    intro first
    show greatest (if first < second then second else first) rest ∈ _
    have hmem : greatest (if first < second then second else first) rest ∈ _ := ih
    rcases List.mem_cons.mp hmem with heq | hmem
    · rw [heq]
      split <;> simp
    · exact List.mem_cons_of_mem _ (List.mem_cons_of_mem _ hmem)

/-- A number above all the others is the greatest one. -/
theorem greatest_append (h : ∀ y ∈ first :: others, y < x) :
    greatest first (others ++ [x]) = x := by
  rw [greatest, List.foldl_append]
  exact if_pos (h _ greatest_mem)

end Greatest

theorem greatest_cons (first second : Rat) (others : List Rat) :
    greatest first (second :: others) = greatest (max first second) others := by
  show greatest (if first < second then second else first) others = _
  congr 1
  by_cases h : first < second
  · rw [if_pos h, max_eq_right h.le]
  · rw [if_neg h, max_eq_left (not_lt.mp h)]

theorem le_greatest {others : List Rat} : ∀ {first x : Rat}, x ∈ first :: others →
    x ≤ greatest first others := by
  induction others with
  | nil =>
    intro first x hx
    exact (List.mem_singleton.mp hx).le
  | cons second rest ih =>
    intro first x hx
    rw [greatest_cons]
    have hmax : max first second ≤ greatest (max first second) rest := ih List.mem_cons_self
    rcases List.mem_cons.mp hx with rfl | hx
    · exact (le_max_left _ _).trans hmax
    · rcases List.mem_cons.mp hx with rfl | hx
      · exact (le_max_right _ _).trans hmax
      · exact ih (List.mem_cons_of_mem _ hx)

/-! ## The next number -/

theorem nextNumber_nil (parent : Rat) : nextNumber parent [] = .ok (parent + 1 / 10) := by
  show Except.ok (parent + (0.1 : Rat)) = _
  norm_num

theorem nextNumber_cons (parent first : Rat) (others : List Rat) :
    nextNumber parent (first :: others) =
      .ok (if ⌊greatest first others⌋ + 1 ≤
            ⌊nextTenth (greatest first others) ⌊greatest first others⌋⌋
          then halfway (greatest first others) ⌊greatest first others⌋
          else nextTenth (greatest first others) ⌊greatest first others⌋) := rfl

theorem nextTenth_exact (last : Rat) (whole : Int) : nextTenth last whole =
    whole + (Arithmetic.round ((last - whole + 1 / 10) * 10) : Rat) / 10 := by
  show whole + (Arithmetic.round ((last - whole + (0.1 : Rat)) * 10.0) : Rat) / (10.0 : Rat) = _
  norm_num

theorem lt_nextTenth (last : Rat) (whole : Int) : last < nextTenth last whole := by
  have near := abs_le.mp (Arithmetic.abs_sub_round_le ((last - whole + 1 / 10) * 10))
  rw [nextTenth_exact]
  linarith [near.2]

theorem halfway_eq (last : Rat) (whole : Int) : halfway last whole = (last + whole + 1) / 2 := by
  show (last + whole + (1.0 : Rat)) / (2.0 : Rat) = _
  norm_num

/-- The next number is above all numbers so far and below the next whole number. -/
theorem exists_nextNumber (parent first : Rat) (others : List Rat) :
    ∃ number, nextNumber parent (first :: others) = .ok number ∧
      greatest first others < number ∧ number < ⌊greatest first others⌋ + 1 := by
  rw [nextNumber_cons]
  generalize greatest first others = last
  have hbelow : last < ⌊last⌋ + 1 := Int.lt_floor_add_one last
  by_cases hreached : ⌊last⌋ + 1 ≤ ⌊nextTenth last ⌊last⌋⌋
  · rw [if_pos hreached, halfway_eq]
    exact ⟨_, rfl, by linarith, by linarith⟩
  · rw [if_neg hreached]
    refine ⟨_, rfl, lt_nextTenth last ⌊last⌋, ?_⟩
    have hlt : ⌊nextTenth last ⌊last⌋⌋ < ⌊last⌋ + 1 := not_le.mp hreached
    rw [Int.floor_lt] at hlt
    exact_mod_cast hlt

theorem exists_nextNumber_above (parent : Rat) (existing : List Rat) :
    ∃ number, nextNumber parent existing = .ok number ∧ ∀ x ∈ existing, x < number := by
  cases existing with
  | nil => exact ⟨_, nextNumber_nil parent, nofun⟩
  | cons first others =>
    obtain ⟨number, hnumber, habove, -⟩ := exists_nextNumber parent first others
    exact ⟨number, hnumber, fun x hx => (le_greatest hx).trans_lt habove⟩

/-! ## Whole numbers -/

theorem not_isInt_of_between (whole : Int) {x : Rat} (habove : (whole : Rat) < x)
    (hbelow : x < whole + 1) : x.isInt = false := by
  rw [Bool.eq_false_iff]
  intro hx
  rw [Rat.eq_num_of_isInt hx] at habove hbelow
  have hlow : whole < x.num := by exact_mod_cast habove
  have hhigh : x.num < whole + 1 := by exact_mod_cast hbelow
  omega

theorem not_isInt_add_tenth {x : Rat} (hx : x.isInt = true) : (x + 1 / 10).isInt = false := by
  have hnum := Rat.eq_num_of_isInt hx
  exact not_isInt_of_between x.num (by linarith) (by linarith)

/-- Only a first number can be whole. -/
theorem not_isInt_nextNumber {number : Rat} (h : existing ≠ [])
    (hnumber : nextNumber parent existing = .ok number) : number.isInt = false := by
  obtain ⟨first, others, rfl⟩ := List.exists_cons_of_ne_nil h
  obtain ⟨found, hfound, habove, hbelow⟩ := exists_nextNumber parent first others
  obtain rfl : found = number := Except.ok.inj (hfound.symm.trans hnumber)
  exact not_isInt_of_between _ ((Int.floor_le _).trans_lt habove) hbelow

/-! ## Several numbers -/

theorem nextNumbers_succ_eq_ok_iff {α : Type} [Arithmetic α] {parent : α} {existing : List α}
    {count : Nat} {numbers : List α} :
    nextNumbers parent (count + 1) existing = .ok numbers ↔
      ∃ number later, nextNumber parent existing = .ok number ∧
        nextNumbers parent count (existing ++ [number]) = .ok later ∧
        numbers = number :: later := by
  rw [nextNumbers, bind_eq_ok_iff]
  refine exists_congr fun number => ?_
  rw [bind_eq_ok_iff, ← exists_and_left]
  refine exists_congr fun later => and_congr_right fun _ => and_congr_right fun _ => ?_
  rw [pure_eq_ok_iff, eq_comm]

/-- Each number is above all numbers before it. -/
theorem nextNumbers_increasing {count : Nat} : ∀ {existing numbers : List Rat},
    nextNumbers parent count existing = .ok numbers →
      numbers.Pairwise (· < ·) ∧ ∀ x ∈ existing, ∀ n ∈ numbers, x < n := by
  induction count with
  | zero =>
    intro existing numbers h
    obtain rfl : [] = numbers := Except.ok.inj h
    exact ⟨.nil, nofun⟩
  | succ count ih =>
    intro existing numbers h
    obtain ⟨number, later, hnumber, hlater, rfl⟩ := nextNumbers_succ_eq_ok_iff.mp h
    obtain ⟨found, hfound, habove⟩ := exists_nextNumber_above parent existing
    obtain rfl : found = number := Except.ok.inj (hfound.symm.trans hnumber)
    -- the later numbers were chosen when this one existed
    obtain ⟨hincreasing, hexceeds⟩ := ih hlater
    have hnext : ∀ n ∈ later, found < n := hexceeds found (by simp)
    refine ⟨List.pairwise_cons.mpr ⟨hnext, hincreasing⟩, fun x hx => ?_⟩
    rw [List.forall_mem_cons]
    exact ⟨habove x hx, hexceeds x (List.mem_append_left _ hx)⟩

theorem not_isInt_of_mem_nextNumbers {count : Nat} : ∀ {existing numbers : List Rat},
    existing ≠ [] → nextNumbers parent count existing = .ok numbers →
      ∀ n ∈ numbers, n.isInt = false := by
  induction count with
  | zero =>
    intro existing numbers _ h
    obtain rfl : [] = numbers := Except.ok.inj h
    nofun
  | succ count ih =>
    intro existing numbers hexisting h
    obtain ⟨number, later, hnumber, hlater, rfl⟩ := nextNumbers_succ_eq_ok_iff.mp h
    rw [List.forall_mem_cons]
    exact ⟨not_isInt_nextNumber hexisting hnumber, ih (by simp) hlater⟩

/-- The whole numbers among several in a row: the first, if it is a tenth below a whole number. -/
theorem mem_nextNumbers_whole_iff {count : Nat} {numbers : List Rat} {x : Rat}
    (hx : x.isInt = true) (h : nextNumbers parent count existing = .ok numbers) :
    x ∈ numbers ↔ existing = [] ∧ numbers ≠ [] ∧ parent + 1 / 10 = x := by
  constructor
  · intro hmem
    cases existing with
    | cons first others =>
      have hnot := not_isInt_of_mem_nextNumbers (List.cons_ne_nil _ _) h x hmem
      exact Bool.noConfusion (hx.symm.trans hnot)
    | nil =>
      refine ⟨rfl, List.ne_nil_of_mem hmem, ?_⟩
      cases count with
      | zero =>
        obtain rfl : [] = numbers := Except.ok.inj h
        cases hmem
      | succ count =>
        obtain ⟨number, later, hnumber, hlater, rfl⟩ := nextNumbers_succ_eq_ok_iff.mp h
        rcases List.mem_cons.mp hmem with rfl | hmem
        · exact Except.ok.inj ((nextNumber_nil parent).symm.trans hnumber)
        · have hnot := not_isInt_of_mem_nextNumbers (by simp) hlater x hmem
          exact Bool.noConfusion (hx.symm.trans hnot)
  · rintro ⟨rfl, hne, rfl⟩
    cases count with
    | zero => exact absurd (Except.ok.inj h).symm hne
    | succ count =>
      obtain ⟨number, later, hnumber, -, rfl⟩ := nextNumbers_succ_eq_ok_iff.mp h
      rw [Except.ok.inj ((nextNumber_nil parent).symm.trans hnumber)]
      exact List.mem_cons_self

end Transfer
end TenderPricing
