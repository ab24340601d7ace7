import Mathlib
import TenderPricing.Number.Arithmetic
/-!
Comparisons of doubles.

Each double but NaN has a place in one linear order, and two of them compare as their places do.
A comparison with NaN is false whichever way it is asked, so "not above" says less than "at most".
-/
namespace TenderPricing
namespace Number
namespace Double

open Float.Model Float.Model.UnpackedFloat

/-! ## Places -/

/-- The place of a double among the doubles: its sign, then its power of two, then its significand.
The place of NaN is never looked at. -/
def placeOf : UnpackedFloat → ℤ ×ₗ ℤ ×ₗ ℤ
  | .infinity .negative => toLex (-2, toLex (0, 0))
  | .finite .negative significand exponent _ => toLex (-1, toLex (-exponent, -(significand : ℤ)))
  | .notANumber | .zero _ => toLex (0, toLex (0, 0))
  | .finite .positive significand exponent _ => toLex (1, toLex (exponent, (significand : ℤ)))
  | .infinity .positive => toLex (2, toLex (0, 0))

theorem compare_toLex {β γ : Type} [LinearOrder β] [LinearOrder γ] (a c : β) (b d : γ) :
    compare (toLex (a, b)) (toLex (c, d)) = (compare a c).then (compare b d) := by
  rw [Prod.Lex.compare_def]
  rfl

theorem compare_natCast (m n : ℕ) : compare (m : ℤ) (n : ℤ) = compare m n := by
  rw [← cmp_eq_compare, ← cmp_eq_compare]
  exact StrictMono.cmp_map_eq (fun _ _ h => Int.ofNat_lt.mpr h) m n

theorem compare_neg (m n : ℤ) : compare (-m) (-n) = (compare m n).swap := by
  rw [← cmp_eq_compare, ← cmp_eq_compare, cmp_swap]
  exact StrictAnti.cmp_map_eq (fun _ _ h => Int.neg_lt_neg h) m n

theorem compare_eq {a b : UnpackedFloat} (ha : a.isNaN = false) (hb : b.isNaN = false) :
    a.compare b = some (compare (placeOf a) (placeOf b)) := by
  -- only finite values of one sign are told apart by more than their kinds
  rcases a with (_ | _) | _ | (_ | _) | ⟨_ | _, m, e, hm⟩ <;>
    rcases b with (_ | _) | _ | (_ | _) | ⟨_ | _, n, f, hn⟩ <;>
    first
    | contradiction
    | rfl
    | simp only [UnpackedFloat.compare, placeOf, compare_toLex, compare_neg, compare_natCast,
        Ordering.swap_then]
      rfl

theorem compare_nan {a b : UnpackedFloat} (h : ¬(a.isNaN = false ∧ b.isNaN = false)) :
    a.compare b = none := by
  rcases a with s | _ | s | _ <;> rcases b with t | _ | t | _ <;>
    first
    | rfl
    | exact absurd ⟨rfl, rfl⟩ h

def place (x : Float) : ℤ ×ₗ ℤ ×ₗ ℤ := placeOf x.toModel.unpack

/-! ## The order -/

variable {x y z : Float}

theorem lt_iff : x < y ↔ (x.isNaN = false ∧ y.isNaN = false) ∧ place x < place y := by
  refine decide_eq_true_iff.trans ?_
  show (x.toModel.unpack.compare y.toModel.unpack == some .lt) = true ↔ _
  by_cases h : x.isNaN = false ∧ y.isNaN = false
  · rw [compare_eq h.1 h.2, beq_iff_eq, Option.some.injEq, compare_lt_iff_lt]
    exact (and_iff_right h).symm
  · rw [compare_nan h]
    exact iff_of_false nofun fun hlt => h hlt.1

theorem le_iff : x ≤ y ↔ (x.isNaN = false ∧ y.isNaN = false) ∧ place x ≤ place y := by
  refine decide_eq_true_iff.trans ?_
  show (x.toModel.unpack.compare y.toModel.unpack).any (·.isLE) = true ↔ _
  by_cases h : x.isNaN = false ∧ y.isNaN = false
  · rw [compare_eq h.1 h.2, Option.any_some, Ordering.isLE_iff_ne_gt, ← ne_eq, compare_le_iff_le]
    exact (and_iff_right h).symm
  · rw [compare_nan h]
    exact iff_of_false nofun fun hle => h hle.1

theorem beq_iff : (x == y) = true ↔ (x.isNaN = false ∧ y.isNaN = false) ∧ place x = place y := by
  show (x.toModel.unpack.compare y.toModel.unpack == some .eq) = true ↔ _
  by_cases h : x.isNaN = false ∧ y.isNaN = false
  · rw [compare_eq h.1 h.2, beq_iff_eq, Option.some.injEq, compare_eq_iff_eq]
    exact (and_iff_right h).symm
  · rw [compare_nan h]
    exact iff_of_false nofun fun heq => h heq.1

theorem not_numbers_of_isNaN (h : x.isNaN = true ∨ y.isNaN = true) :
    ¬ (x.isNaN = false ∧ y.isNaN = false) := by
  rintro ⟨hx, hy⟩
  rcases h with h | h
  · exact Bool.noConfusion (hx.symm.trans h)
  · exact Bool.noConfusion (hy.symm.trans h)

theorem not_lt_of_isNaN (h : x.isNaN = true ∨ y.isNaN = true) : ¬ x < y :=
  fun hlt => not_numbers_of_isNaN h (lt_iff.mp hlt).1

theorem not_le_of_isNaN (h : x.isNaN = true ∨ y.isNaN = true) : ¬ x ≤ y :=
  fun hle => not_numbers_of_isNaN h (le_iff.mp hle).1

theorem not_lt_self : ¬ x < x := fun hlt => absurd (lt_iff.mp hlt).2 (lt_irrefl _)

theorem le_of_lt (h : x < y) : x ≤ y := le_iff.mpr ⟨(lt_iff.mp h).1, (lt_iff.mp h).2.le⟩

theorem le_self (hx : x.isNaN = false) : x ≤ x := le_iff.mpr ⟨⟨hx, hx⟩, le_rfl⟩

theorem lt_of_lt_of_le (h : x < y) (h' : y ≤ z) : x < z :=
  lt_iff.mpr ⟨⟨(lt_iff.mp h).1.1, (le_iff.mp h').1.2⟩, (lt_iff.mp h).2.trans_le (le_iff.mp h').2⟩

theorem lt_of_le_of_lt (h : x ≤ y) (h' : y < z) : x < z :=
  lt_iff.mpr ⟨⟨(le_iff.mp h).1.1, (lt_iff.mp h').1.2⟩, (le_iff.mp h).2.trans_lt (lt_iff.mp h').2⟩

theorem not_lt_iff (hx : x.isNaN = false) (hy : y.isNaN = false) : ¬ x < y ↔ y ≤ x := by
  rw [lt_iff, le_iff, and_iff_right ⟨hx, hy⟩, and_iff_right ⟨hy, hx⟩, not_lt]

theorem not_le_iff (hx : x.isNaN = false) (hy : y.isNaN = false) : ¬ x ≤ y ↔ y < x := by
  rw [← not_lt_iff hy hx, not_not]

/-- Neither of two doubles is below the other only where they are equal or one of them is NaN. -/
theorem not_lt_and_not_gt_iff :
    ¬ x < y ∧ ¬ y < x ↔ (x == y) = true ∨ x.isNaN = true ∨ y.isNaN = true := by
  by_cases h : x.isNaN = false ∧ y.isNaN = false
  · have hx : ¬ x.isNaN = true := by rw [h.1]; exact Bool.false_ne_true
    have hy : ¬ y.isNaN = true := by rw [h.2]; exact Bool.false_ne_true
    rw [not_lt_iff h.1 h.2, not_lt_iff h.2 h.1, le_iff, le_iff, beq_iff, and_iff_right h,
      and_iff_right h.symm, and_iff_right h, or_iff_left (not_or_intro hx hy), and_comm]
    exact le_antisymm_iff.symm
  · rw [not_and_or, Bool.not_eq_false, Bool.not_eq_false] at h
    exact iff_of_true ⟨not_lt_of_isNaN h, not_lt_of_isNaN h.symm⟩ (.inr h)

end Double
end Number
end TenderPricing
