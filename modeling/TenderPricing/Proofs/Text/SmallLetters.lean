import Mathlib
import TenderPricing.Text.LowerCase
/-!
Small letters.

Lower-casing a text again changes nothing where it consists of small letters.  For the Cyrillic
block this is read off the table of capitals: the runs whose small letters lie there are apart from
all runs of capitals, or interleave with them one by one.
-/
namespace TenderPricing.Text

/-- A character that lower-casing leaves as it is, wherever it stands. -/
structure IsSmall (c : Char) : Prop where
  ne_dotted : c ≠ 'İ'
  ne_sigma : c ≠ 'Σ'
  lowerChar_eq : lowerChar c = c

theorem lowerAfter_of_isSmall {t : List Char} (h : ∀ c ∈ t, IsSmall c) (before : List Char) :
    lowerAfter before t = t := by
  induction t generalizing before with
  | nil => rfl
  | cons c t ih =>
    obtain ⟨hc, ht⟩ := List.forall_mem_cons.mp h
    rw [lowerAfter, lowerInContext, if_neg hc.ne_dotted, if_neg hc.ne_sigma, hc.lowerChar_eq, ih ht]
    rfl

theorem lowerChars_of_isSmall {t : List Char} (h : ∀ c ∈ t, IsSmall c) : lowerChars t = t :=
  lowerAfter_of_isSmall h []

theorem mem_lowerAfter {t before : List Char} {c : Char} (h : c ∈ lowerAfter before t) :
    c ∈ ['i', '\u0307', 'ς', 'σ'] ∨ ∃ d, c = lowerChar d := by
  induction t generalizing before with
  | nil => cases h
  | cons d t ih =>
    rw [lowerAfter, List.mem_append] at h
    rcases h with h | h
    · rw [lowerInContext] at h
      split at h
      · exact .inl (List.mem_append_left ['ς', 'σ'] h)
      · split at h
        · split at h
          · exact .inl (by simp [List.mem_singleton.mp h])
          · exact .inl (by simp [List.mem_singleton.mp h])
        · exact .inr ⟨d, List.mem_singleton.mp h⟩
    · exact ih h

/-! ## The table of capitals -/

theorem exists_range_of_inRanges {ranges : List (Nat × Nat)} {n : Nat}
    (h : inRanges ranges n = true) : ∃ range ∈ ranges, range.1 ≤ n ∧ n ≤ range.2 := by
  induction ranges with
  | nil => cases h
  | cons range rest ih =>
    rw [inRanges] at h
    split at h
    · cases h
    · rw [Bool.or_eq_true, decide_eq_true_iff] at h
      rcases h with h | h
      · exact ⟨range, List.mem_cons_self, by omega, h⟩
      · obtain ⟨other, hother, hin⟩ := ih h
        exact ⟨other, List.mem_cons_of_mem _ hother, hin⟩

theorem lowerShift_cases (runs : List (Nat × Nat × Nat × Int)) (n : Nat) :
    lowerShift runs n = 0 ∨ ∃ run ∈ runs, run.1 ≤ n ∧ n ≤ run.2.1 ∧
      (n - run.1) % run.2.2.1 = 0 ∧ lowerShift runs n = run.2.2.2 := by
  induction runs with
  | nil => exact .inl rfl
  | cons run rest ih =>
    rw [lowerShift]
    by_cases hlow : n < run.1
    · rw [if_pos hlow]
      exact .inl rfl
    · rw [if_neg hlow]
      by_cases hrun : (decide (n ≤ run.2.1) && decide ((n - run.1) % run.2.2.1 = 0)) = true
      · rw [if_pos hrun]
        rw [Bool.and_eq_true, decide_eq_true_iff, decide_eq_true_iff] at hrun
        exact .inr ⟨run, List.mem_cons_self, by omega, hrun.1, hrun.2, rfl⟩
      · rw [if_neg hrun]
        apply ih.imp_right
        intro ⟨other, hmem, hother⟩
        exact ⟨other, List.mem_cons_of_mem _ hmem, hother⟩

/-- The small Cyrillic letters of a run are below, above or between those of every run. -/
theorem capitalRuns_apart : ∀ run ∈ capitalRuns, 0x400 ≤ run.2.1 + run.2.2.2 →
    run.1 + run.2.2.2 ≤ 0x4FF → ∀ other ∈ capitalRuns,
      run.2.1 + run.2.2.2 < other.1 ∨ other.2.1 < run.1 + run.2.2.2 ∨
        run.2.2.1 = 2 ∧ other.2.2.1 = 2 ∧ (run.1 + run.2.2.2 - other.1) % 2 = 1 := by
  decide +kernel

theorem lowerShift_cyrillic {n m : Nat} (h : (m : Int) = n + lowerShift capitalRuns n)
    (hlow : 0x400 ≤ m) (hhigh : m ≤ 0x4FF) : lowerShift capitalRuns m = 0 := by
  rcases lowerShift_cases capitalRuns n with hn | ⟨run, hrun, hfirst, hlast, hstride, hn⟩
  · have hm : m = n := by omega
    rw [hm, hn]
  · rw [hn] at h
    rcases lowerShift_cases capitalRuns m with hm | ⟨other, hother, hfirst', hlast', hstride', -⟩
    · exact hm
    · have hapart := capitalRuns_apart run hrun (by omega) (by omega) other hother
      rcases hapart with hbelow | habove | ⟨htwo, htwo', hodd⟩
      · omega
      · omega
      · rw [htwo] at hstride
        rw [htwo'] at hstride'
        omega

theorem lowerChar_of_shift {c : Char} (h : lowerShift capitalRuns c.toNat = 0) :
    lowerChar c = c := by
  rw [lowerChar, h, Int.add_zero, Int.toNat_natCast, Char.ofNat_toNat]

theorem lowerChar_cyrillic {d : Char} (hlow : 0x400 ≤ (lowerChar d).toNat)
    (hhigh : (lowerChar d).toNat ≤ 0x4FF) : lowerChar (lowerChar d) = lowerChar d := by
  apply lowerChar_of_shift
  apply lowerShift_cyrillic (n := d.toNat) _ hlow hhigh
  rw [lowerChar, Char.toNat_ofNat] at hlow ⊢
  -- a code point that is no character gives the null character, which is below the block
  by_cases hvalid : (d.toNat + lowerShift capitalRuns d.toNat).toNat.isValidChar
  · rw [if_pos hvalid] at hlow ⊢
    omega
  · rw [if_neg hvalid] at hlow
    omega

end TenderPricing.Text
