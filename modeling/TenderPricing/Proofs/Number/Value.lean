import TenderPricing.Proofs.Number.Comparison
import TenderPricing.Proofs.Number.Nearest
import TenderPricing.Proofs.Number.Normal
/-!
Exact values of doubles, and how far an operation rounds.

A sum or a product is off by one part in `2 ^ 53` at most, a difference within one binade is exact.
Comparing two doubles, or taking the whole part of one or the whole number nearest to it, is the
same as doing so to their values.
-/
namespace TenderPricing
namespace Number
namespace Double

open Float.Model Float.Model.UnpackedFloat

/-- The value of a double of full precision. -/
def HasValue (x : Float) (q : ℚ) : Prop := ∃ m e, Normal x m e ∧ (m : ℚ) * 2 ^ e = q

variable {x y : Float} {q r : ℚ} {m n : ℕ} {e : ℤ}

/-- A significand of 53 bits over its power of two. -/
theorem Normal.zpow_le (hx : Normal x m e) : (2 : ℚ) ^ (52 + e) ≤ m * 2 ^ e := by
  have hlow : ((2 ^ 52 : ℕ) : ℚ) ≤ m := by exact_mod_cast hx.low
  rw [zpow_add₀ two_ne_zero]
  refine mul_le_mul_of_nonneg_right ?_ (zpow_nonneg zero_le_two e)
  exact_mod_cast hlow

theorem Normal.lt_zpow (hx : Normal x m e) : m * 2 ^ e < (2 : ℚ) ^ (53 + e) := by
  have hhigh : (m : ℚ) < ((2 ^ 53 : ℕ) : ℚ) := by exact_mod_cast hx.high
  rw [zpow_add₀ two_ne_zero]
  refine mul_lt_mul_of_pos_right ?_ (zpow_pos zero_lt_two e)
  exact_mod_cast hhigh

theorem HasValue.pos (hx : HasValue x q) : 0 < q := by
  obtain ⟨m, e, hx, rfl⟩ := hx
  exact (zpow_pos zero_lt_two _).trans_le hx.zpow_le

/-! ## Rounding -/

/-- Rounding to 53 bits moves a value by half a unit of the last bit. -/
theorem hasValue_nearest (h : 2 ^ 52 ≤ m) (hsmall : (2 : ℚ) ^ (-64 : ℤ) ≤ m * 2 ^ e)
    (hlarge : m * 2 ^ e ≤ (2 : ℚ) ^ (64 : ℤ)) :
    ∃ s, HasValue (nearest m e) s ∧ |s - m * 2 ^ e| ≤ m * 2 ^ e / 2 ^ 53 := by
  obtain ⟨t, low, high⟩ := exists_bits h
  have hpos : (0 : ℚ) < 2 ^ e := zpow_pos zero_lt_two e
  have hlow : (2 : ℚ) ^ (52 : ℕ) * 2 ^ t ≤ m := by exact_mod_cast low
  have hhigh : (m : ℚ) < 2 ^ (53 : ℕ) * 2 ^ t := by exact_mod_cast high
  have hmost : 52 + t + e ≤ 64 := by
    rw [← zpow_le_zpow_iff_right₀ (one_lt_two (α := ℚ)), zpow_add₀ two_ne_zero,
      zpow_add₀ two_ne_zero]
    exact (mul_le_mul_of_nonneg_right (by exact_mod_cast hlow) hpos.le).trans hlarge
  have hleast : -64 < 53 + t + e := by
    rw [← zpow_lt_zpow_iff_right₀ (one_lt_two (α := ℚ)), zpow_add₀ two_ne_zero _ e,
      zpow_add₀ two_ne_zero]
    exact hsmall.trans_lt (mul_lt_mul_of_pos_right (by exact_mod_cast hhigh) hpos)
  have hunit : 0 < 2 ^ t := Nat.two_pow_pos t
  have hrounded : HasValue (nearest m e) (roundDiv m (2 ^ t) * 2 ^ (e + t)) := by
    rw [nearest_eq low high (by omega)]
    have hleast' : 2 ^ 52 ≤ roundDiv m (2 ^ t) := le_roundDiv hunit low
    rcases Nat.lt_or_eq_of_le (roundDiv_le hunit high) with hlt | heq
    · exact ⟨_, _, normal_nearest hleast' hlt (by omega) (by omega), rfl⟩
    · rw [heq]
      refine ⟨_, _, normal_nearest_carry (by omega) (by omega), ?_⟩
      rw [zpow_add_one₀ two_ne_zero]
      push_cast
      ring
  obtain ⟨habove, hbelow⟩ := two_mul_roundDiv_near m (2 ^ t) hunit
  have habove' : 2 * ((roundDiv m (2 ^ t) : ℚ) * 2 ^ t) ≤ 2 * m + 2 ^ t := by exact_mod_cast habove
  have hbelow' : 2 * (m : ℚ) ≤ 2 * (roundDiv m (2 ^ t) * 2 ^ t) + 2 ^ t := by exact_mod_cast hbelow
  refine ⟨_, hrounded, ?_⟩
  have hfactor : (roundDiv m (2 ^ t) : ℚ) * 2 ^ (e + t) - m * 2 ^ e =
      (roundDiv m (2 ^ t) * 2 ^ t - m) * 2 ^ e := by
    rw [zpow_add₀ two_ne_zero, zpow_natCast]
    ring
  rw [hfactor, abs_mul, abs_of_pos hpos, mul_div_right_comm]
  refine mul_le_mul_of_nonneg_right ?_ hpos.le
  rw [abs_le]
  constructor <;> linarith

theorem HasValue.add (hx : HasValue x q) (hy : HasValue y r)
    (hsmall : (2 : ℚ) ^ (-64 : ℤ) ≤ q + r) (hlarge : q + r ≤ (2 : ℚ) ^ (64 : ℤ)) :
    ∃ s, HasValue (x + y) s ∧ |s - (q + r)| ≤ (q + r) / 2 ^ 53 := by
  obtain ⟨m, e, hx, rfl⟩ := hx
  obtain ⟨n, f, hy, rfl⟩ := hy
  obtain ⟨g, s, t, hs, ht, hmin⟩ : ∃ (g : ℤ) (s t : ℕ), e = g + s ∧ f = g + t ∧ (s = 0 ∨ t = 0) :=
    ⟨min e f, (e - min e f).toNat, (f - min e f).toNat, by omega, by omega, by omega⟩
  have hlow : 2 ^ 52 ≤ m * 2 ^ s + n * 2 ^ t := by
    have hfirst : m ≤ m * 2 ^ s := Nat.le_mul_of_pos_right m (Nat.two_pow_pos s)
    have := hx.low
    omega
  have hsum : ((m * 2 ^ s + n * 2 ^ t : ℕ) : ℚ) * 2 ^ g = m * 2 ^ e + n * 2 ^ f := by
    rw [hs, ht, zpow_add₀ two_ne_zero, zpow_add₀ two_ne_zero, zpow_natCast, zpow_natCast]
    push_cast
    ring
  have hvalue := hasValue_nearest hlow (hsum ▸ hsmall) (hsum ▸ hlarge)
  rwa [hsum, ← hx.add hy hs ht hmin] at hvalue

theorem HasValue.mul (hx : HasValue x q) (hy : HasValue y r)
    (hsmall : (2 : ℚ) ^ (-64 : ℤ) ≤ q * r) (hlarge : q * r ≤ (2 : ℚ) ^ (64 : ℤ)) :
    ∃ s, HasValue (x * y) s ∧ |s - q * r| ≤ q * r / 2 ^ 53 := by
  obtain ⟨m, e, hx, rfl⟩ := hx
  obtain ⟨n, f, hy, rfl⟩ := hy
  have hlow : 2 ^ 52 ≤ m * n := le_trans hx.low (Nat.le_mul_of_pos_right m hy.pos)
  have hproduct : ((m * n : ℕ) : ℚ) * 2 ^ (e + f) = m * 2 ^ e * (n * 2 ^ f) := by
    rw [zpow_add₀ two_ne_zero]
    push_cast
    ring
  have hexponent : -64 < 53 + e + (53 + f) := by
    rw [← zpow_lt_zpow_iff_right₀ (one_lt_two (α := ℚ)), zpow_add₀ two_ne_zero (53 + e)]
    refine hsmall.trans_lt ?_
    exact mul_lt_mul'' hx.lt_zpow hy.lt_zpow (by positivity) (by positivity)
  have hvalue := hasValue_nearest hlow (hproduct ▸ hsmall) (hproduct ▸ hlarge)
  rwa [hproduct, ← hx.mul hy (by omega)] at hvalue

/-! ## Binades -/

theorem Normal.exponent_eq {k : ℤ} (hx : Normal x m e) (hlow : (2 : ℚ) ^ k ≤ m * 2 ^ e)
    (hhigh : m * 2 ^ e < (2 : ℚ) ^ (k + 1)) : e = k - 52 := by
  have habove : k < 53 + e := by
    rw [← zpow_lt_zpow_iff_right₀ (one_lt_two (α := ℚ))]
    exact hlow.trans_lt hx.lt_zpow
  have hbelow : 52 + e < k + 1 := by
    rw [← zpow_lt_zpow_iff_right₀ (one_lt_two (α := ℚ))]
    exact hx.zpow_le.trans_lt hhigh
  omega

theorem exists_shift (h : 0 < m) (h' : m < 2 ^ 53) :
    ∃ s ≤ 52, 2 ^ 52 ≤ m * 2 ^ s ∧ m * 2 ^ s < 2 ^ 53 := by
  have hlog : m.log2 ≤ 52 := by
    have := (Nat.log2_lt h.ne').mpr h'
    omega
  have hbelow : 2 ^ m.log2 ≤ m := Nat.log2_self_le h.ne'
  have habove : m < 2 ^ (m.log2 + 1) := Nat.lt_log2_self
  have hpos : 0 < 2 ^ (52 - m.log2) := Nat.two_pow_pos _
  refine ⟨52 - m.log2, by omega, ?_, ?_⟩
  · calc 2 ^ 52 = 2 ^ m.log2 * 2 ^ (52 - m.log2) := by rw [← Nat.pow_add, Nat.add_sub_cancel' hlog]
      _ ≤ m * 2 ^ (52 - m.log2) := Nat.mul_le_mul_right _ hbelow
  · calc m * 2 ^ (52 - m.log2) < 2 ^ (m.log2 + 1) * 2 ^ (52 - m.log2) :=
        Nat.mul_lt_mul_of_pos_right habove hpos
      _ = 2 ^ 53 := by rw [← Nat.pow_add, show m.log2 + 1 + (52 - m.log2) = 53 by omega]

/-- A value of at most 53 bits is kept. -/
theorem hasValue_nearest_exact (h : 0 < m) (h' : m < 2 ^ 53) (he : -1022 ≤ e) (he' : e ≤ 971) :
    HasValue (nearest m e) (m * 2 ^ e) := by
  obtain ⟨s, hs, low, high⟩ := exists_shift h h'
  refine ⟨_, _, normal_nearest_of_shift low high (by omega) (by omega), ?_⟩
  rw [zpow_sub₀ two_ne_zero, zpow_natCast]
  push_cast
  field_simp

/-- Within a binade nothing is lost in a difference. -/
theorem HasValue.sub {k : ℤ} (hx : HasValue x q) (hy : HasValue y r) (hk : 0 ≤ k)
    (hlow : 2 ^ k ≤ r) (hlt : r < q) (hhigh : q < 2 ^ (k + 1)) : HasValue (x - y) (q - r) := by
  obtain ⟨m, e, hx, rfl⟩ := hx
  obtain ⟨n, f, hy, rfl⟩ := hy
  obtain rfl := hx.exponent_eq (hlow.trans hlt.le) hhigh
  obtain rfl := hy.exponent_eq hlow (hlt.trans hhigh)
  have hless : n < m := by
    have := lt_of_mul_lt_mul_right hlt (zpow_nonneg zero_le_two _)
    exact_mod_cast this
  have hdifference := hasValue_nearest_exact (m := m - n) (e := k - 52) (by omega)
    (by have := hx.high; omega) (by omega) hx.most
  rw [hx.sub hy hless, ← sub_mul]
  rwa [Nat.cast_sub hless.le] at hdifference

/-! ## Reading a value -/

theorem Normal.place_eq (hx : Normal x m e) : place x = toLex (1, toLex (e, (m : ℤ))) := by
  obtain ⟨h, hx'⟩ := hx.value
  show placeOf (unpacked x) = _
  rw [hx']
  rfl

theorem HasValue.lt (hx : HasValue x q) (hy : HasValue y r) (h : q < r) : x < y := by
  obtain ⟨m, e, hx, rfl⟩ := hx
  obtain ⟨n, f, hy, rfl⟩ := hy
  have hexponent : 52 + e < 53 + f := by
    rw [← zpow_lt_zpow_iff_right₀ (one_lt_two (α := ℚ))]
    exact hx.zpow_le.trans_lt (h.trans hy.lt_zpow)
  refine lt_iff.mpr ⟨⟨hx.isNaN, hy.isNaN⟩, ?_⟩
  rw [hx.place_eq, hy.place_eq, Prod.Lex.toLex_lt_toLex]
  refine .inr ⟨rfl, ?_⟩
  rw [Prod.Lex.toLex_lt_toLex]
  rcases (by omega : e < f ∨ e = f) with hlt | rfl
  · exact .inl hlt
  · refine .inr ⟨rfl, ?_⟩
    have hless : (m : ℚ) < n := lt_of_mul_lt_mul_right h (zpow_nonneg zero_le_two _)
    show (m : ℤ) < n
    exact_mod_cast hless

/-- The value over a whole denominator. -/
theorem numerator_div_denominator (m : ℕ) (e : ℤ) :
    ((Binary64.mk false m e).numerator : ℚ) / ((Binary64.mk false m e).denominator : ℕ) =
      m * 2 ^ e := by
  have hnumerator : ((Binary64.mk false m e).numerator : ℚ) = m * 2 ^ e.toNat := by
    show (((m * 2 ^ e.toNat : ℕ) : ℤ) : ℚ) = _
    push_cast
    rfl
  have hdenominator : (((Binary64.mk false m e).denominator : ℕ) : ℚ) = 2 ^ (-e).toNat := by
    show ((2 ^ (-e).toNat : ℕ) : ℚ) = _
    push_cast
    rfl
  rw [hnumerator, hdenominator, mul_div_assoc, ← zpow_natCast, ← zpow_natCast,
    ← zpow_sub₀ two_ne_zero, show ((e.toNat : ℤ) - (-e).toNat) = e by omega]

theorem denominator_pos (x : Binary64) : 0 < x.denominator := Nat.pow_pos Nat.two_pos

theorem HasValue.floor (hx : HasValue x q) : Arithmetic.floor x = .ok ⌊q⌋ := by
  obtain ⟨m, e, hx, rfl⟩ := hx
  rw [hx.floor_eq, ← numerator_div_denominator, Rat.floor_intCast_div_natCast]
  rfl

theorem HasValue.floor_eq {whole : ℤ} (hx : HasValue x q) (hlow : whole ≤ q)
    (hhigh : q < whole + 1) : Arithmetic.floor x = .ok whole := by
  rw [hx.floor, Int.floor_eq_iff.mpr ⟨hlow, hhigh⟩]

theorem HasValue.round (hx : HasValue x q) : |q - Arithmetic.round x| ≤ 1 / 2 := by
  obtain ⟨m, e, hx, rfl⟩ := hx
  have hpos := denominator_pos (Binary64.mk false m e)
  obtain ⟨habove, hbelow⟩ := roundDivInt_near (Binary64.mk false m e).numerator hpos
  rw [hx.round_eq, Binary64.round, ← numerator_div_denominator]
  generalize (Binary64.mk false m e).numerator = num at *
  generalize (Binary64.mk false m e).denominator = den at *
  have habove' : 2 * ((roundDivInt num den : ℚ) * den) ≤ 2 * num + den := by exact_mod_cast habove
  have hbelow' : 2 * (num : ℚ) ≤ 2 * (roundDivInt num den * den) + den := by exact_mod_cast hbelow
  have hden : (0 : ℚ) < den := by exact_mod_cast hpos
  rw [abs_le, div_sub' hden.ne', le_div_iff₀ hden, div_le_iff₀ hden]
  constructor <;> linarith

/-! ## Whole numbers -/

theorem normal_one : Normal 1.0 (2 ^ 52) (-52) :=
  ⟨⟨by decide, rfl⟩, le_rfl, by norm_num, by norm_num, by norm_num⟩

theorem normal_ten : Normal 10.0 (5 * 2 ^ 50) (-49) :=
  ⟨⟨by decide, rfl⟩, by norm_num, by norm_num, by norm_num, by norm_num⟩

theorem normal_tenth : Normal 0.1 7205759403792794 (-56) :=
  ⟨⟨by decide, rfl⟩, by norm_num, by norm_num, by norm_num, by norm_num⟩

theorem unpacked_zero : unpacked (Arithmetic.ofInt 0 : Float) = .zero .positive := rfl

/-- A whole number of at most 53 bits is a double. -/
theorem ofInt_eq_nearest {s : ℕ} (low : 2 ^ 52 ≤ n * 2 ^ s) (high : n * 2 ^ s < 2 ^ 53) :
    (Arithmetic.ofInt (n : ℤ) : Float) = nearest (n * 2 ^ s) (-s) := by
  have hpow : 0 < 2 ^ s := Nat.two_pow_pos s
  have hn : 0 < n := by
    rcases Nat.eq_zero_or_pos n with rfl | hn
    · rw [Nat.zero_mul] at low
      omega
    · exact hn
  have hn' : n < 2 ^ 53 := Nat.lt_of_le_of_lt (Nat.le_mul_of_pos_right n hpow) high
  have hs : s ≤ 52 := by
    by_contra hs
    have hlarge : 2 ^ 53 ≤ 2 ^ s := Nat.pow_le_pow_right Nat.two_pos (by omega)
    have := Nat.le_mul_of_pos_left (2 ^ s) hn
    omega
  have hliteral : (Arithmetic.ofInt (n : ℤ) : Float) = n.toUInt64.toFloat * 1.0 := by
    show (if (n : ℤ) < 0 then -Float.ofScientific n false 0 else Float.ofScientific n false 0) = _
    rw [if_neg (by omega), Float.ofScientific, dif_pos ⟨hn', by omega⟩]
    rfl
  have hconverted : n.toUInt64.toFloat = nearest n 0 := by
    show packed (UnpackedFloat.normalize .binary64 (n.toUInt64.toNat : ℤ) 0 .positive) = _
    have hback : n.toUInt64.toNat = n := Nat.mod_eq_of_lt (by omega)
    rw [hback, normalize_of_pos hn]
    rfl
  have hnormal := normal_nearest_of_shift (e := 0) low high (by omega) (by omega)
  rw [hliteral, hconverted, hnormal.mul normal_one (by omega),
    nearest_mul_two_pow (t := 52) low high.le (by push_cast; omega)]
  congr 1
  push_cast
  omega

theorem HasValue.zero_lt (hx : HasValue x q) : Arithmetic.ofInt 0 < x := by
  obtain ⟨m, e, hx, -⟩ := hx
  refine lt_iff.mpr ⟨⟨rfl, hx.isNaN⟩, ?_⟩
  rw [hx.place_eq, Prod.Lex.lt_iff]
  exact .inl Int.zero_lt_one

theorem hasValue_ofInt (h : 0 < n) (h' : n < 2 ^ 53) :
    HasValue (Arithmetic.ofInt (n : ℤ) : Float) n := by
  obtain ⟨s, hs, low, high⟩ := exists_shift h h'
  rw [ofInt_eq_nearest low high]
  refine ⟨_, _, normal_nearest low high (by omega) (by omega), ?_⟩
  rw [zpow_neg, zpow_natCast]
  push_cast
  field_simp

end Double
end Number
end TenderPricing
