import TenderPricing.Proofs.Number.Nearest
import TenderPricing.Proofs.Number.NotANumber
/-!
Doubles of full precision, computed on in whole numbers.

Such a double is a significand of 53 bits times a power of two.  A sum, a difference, a product or
a half of two of them is the double nearest to the exact value, and that value is again a whole
number times a power of two.  So a formula over doubles becomes one over whole numbers in which
only `roundDiv` is not exact.
-/
namespace TenderPricing
namespace Number
namespace Double

open Float.Model Float.Model.UnpackedFloat

/-- The positive double with a significand of 53 bits. -/
structure Normal (x : Float) (m : Nat) (e : Int) : Prop where
  value : ∃ h, unpacked x = .finite .positive m e h
  low : 2 ^ 52 ≤ m
  high : m < 2 ^ 53
  least : -1074 ≤ e
  most : e ≤ 971

/-- The double nearest to `m * 2 ^ e`, of two equally near ones the one with the even
significand. -/
def nearest (m : Nat) (e : Int) : Float :=
  packed (UnpackedFloat.round .binary64 .positive m e)

/-! ## Rounding -/

theorem mantissa_shiftRight (m t : Nat) :
    (ExtendedMantissa.ofMantissaAndAccuracy m .exact >>> t).mantissa = m / 2 ^ t := by
  show (Nat.repeat ExtendedMantissa.shiftRightOne t _).mantissa = _
  induction t with
  | zero => exact (Nat.div_one m).symm
  | succ t ih =>
    show (Nat.repeat ExtendedMantissa.shiftRightOne t _).mantissa / 2 = _
    rw [ih, Nat.div_div_eq_div_mul, ← Nat.pow_succ]

/-- After a shift, the two bits that are kept tell what was shifted out. -/
theorem shiftRight_succ (m t : Nat) :
    ExtendedMantissa.ofMantissaAndAccuracy m .exact >>> (t + 1) =
      ⟨m / 2 ^ (t + 1), m / 2 ^ t % 2 != 0, m % 2 ^ t != 0⟩ := by
  induction t with
  | zero =>
    show ExtendedMantissa.mk _ _ _ = _
    simp [ExtendedMantissa.ofMantissaAndAccuracy, Nat.repeat, Nat.mod_one]
  | succ t ih =>
    show (ExtendedMantissa.ofMantissaAndAccuracy m .exact >>> (t + 1)).shiftRightOne = _
    have hmod : m % 2 ^ (t + 1) = m % 2 ^ t + 2 ^ t * (m / 2 ^ t % 2) := by
      rw [Nat.pow_succ, Nat.mod_mul]
    have hpos : 0 < 2 ^ t := Nat.two_pow_pos t
    rw [ih, ExtendedMantissa.shiftRightOne, Nat.div_div_eq_div_mul, ← Nat.pow_succ, hmod]
    congr 1
    rw [Bool.eq_iff_iff]
    simp only [Bool.or_eq_true, bne_iff_ne, ne_eq, Nat.add_eq_zero_iff, Nat.mul_eq_zero]
    omega

theorem roundedMantissa_shiftRight (m t : Nat) :
    (ExtendedMantissa.ofMantissaAndAccuracy m .exact >>> t).roundedMantissa =
      roundDiv m (2 ^ t) := by
  cases t with
  | zero =>
    show m = _
    simp [roundDiv, Nat.mod_one]
  | succ t =>
    have hmod : m % 2 ^ (t + 1) = m % 2 ^ t + 2 ^ t * (m / 2 ^ t % 2) := by
      rw [Nat.pow_succ, Nat.mod_mul]
    have hpow : (2 : Nat) ^ (t + 1) = 2 * 2 ^ t := by rw [Nat.pow_succ, Nat.mul_comm]
    have hlow : m % 2 ^ t < 2 ^ t := Nat.mod_lt _ (Nat.two_pow_pos t)
    rw [shiftRight_succ, roundDiv, hmod]
    generalize m / 2 ^ (t + 1) = q
    rw [hpow]
    have hbit : m / 2 ^ t % 2 = 0 ∨ m / 2 ^ t % 2 = 1 := Nat.mod_two_eq_zero_or_one _
    generalize m / 2 ^ t % 2 = b at hbit ⊢
    generalize m % 2 ^ t = rest at hlow ⊢
    generalize 2 ^ t = unit at hlow ⊢
    -- which side of the half the rest lies on is what the two bits say
    rcases hbit with rfl | rfl <;> rcases Nat.eq_zero_or_pos rest with rfl | hrest
    · rw [if_pos (by omega)]
      rfl
    · rw [if_pos (by omega), bne_iff_ne.mpr hrest.ne']
      rfl
    · rw [if_neg (by omega), if_neg (by omega)]
      show q + q % 2 = _
      split <;> omega
    · rw [if_neg (by omega), if_pos (by omega), bne_iff_ne.mpr hrest.ne']
      rfl

theorem targetExponent_eq {m t : Nat} {e : Int} (low : 2 ^ 52 * 2 ^ t ≤ m)
    (high : m < 2 ^ 53 * 2 ^ t) (he : -1074 ≤ e + t) :
    Format.binary64.targetExponent (totalExponent m e) = e + t := by
  have hpos : 0 < 2 ^ 52 * 2 ^ t := by positivity
  have hlog : m.log2 = 52 + t := by
    rw [Nat.log2_eq_iff (by omega), Nat.pow_add]
    refine ⟨low, ?_⟩
    rwa [show 52 + t + 1 = 53 + t by omega, Nat.pow_add]
  show max (((m.log2 : Int) + 1 + e) - ((1 + 52 : Nat) : Int)) (-1074) = _
  rw [hlog]
  omega

/-- What is left of a significand when it is cut to its bits. -/
def cut (s : Sign) (m : Nat) (e : Int) : UnpackedFloat :=
  if h : (shiftToTargetExponent .binary64 m e .exact).1.mantissa = 0 then .zero s
  else .finite s (shiftToTargetExponent .binary64 m e .exact).1.mantissa
    (shiftToTargetExponent .binary64 m e .exact).2 (Nat.pos_of_ne_zero h)

theorem shiftToTargetExponent_eq {m t : Nat} {e : Int} (low : 2 ^ 52 * 2 ^ t ≤ m)
    (high : m < 2 ^ 53 * 2 ^ t) (he : -1074 ≤ e + t) :
    shiftToTargetExponent .binary64 m e .exact =
      (ExtendedMantissa.ofMantissaAndAccuracy m .exact >>> t, e + t) := by
  have hshift : (e + t - e).toNat = t := by omega
  rw [shiftToTargetExponent, targetExponent_eq low high he, shiftToExponent, hshift]

theorem roundWithAccuracy_eq_cut {m t : Nat} {e : Int} (s : Sign) (low : 2 ^ 52 * 2 ^ t ≤ m)
    (high : m < 2 ^ 53 * 2 ^ t) (he : -1074 ≤ e + t) :
    roundWithAccuracy .binary64 s m e .exact = cut s (roundDiv m (2 ^ t)) (e + t) := by
  rw [roundWithAccuracy]
  simp only [shiftToTargetExponent_eq low high he, roundedMantissa_shiftRight]
  rfl

theorem cut_eq {m t : Nat} {e : Int} (s : Sign) (low : 2 ^ 52 * 2 ^ t ≤ m)
    (high : m < 2 ^ 53 * 2 ^ t) (he : -1074 ≤ e + t) :
    ∃ h, cut s m e = .finite s (m / 2 ^ t) (e + t) h := by
  have hmantissa : (shiftToTargetExponent .binary64 m e .exact).1.mantissa = m / 2 ^ t := by
    rw [shiftToTargetExponent_eq low high he, mantissa_shiftRight]
  have hexponent : (shiftToTargetExponent .binary64 m e .exact).2 = e + t := by
    rw [shiftToTargetExponent_eq low high he]
  have hpos : 0 < m / 2 ^ t := by
    refine Nat.div_pos (le_trans ?_ low) (Nat.two_pow_pos t)
    exact Nat.le_mul_of_pos_left _ (by norm_num)
  refine ⟨hpos, ?_⟩
  rw [cut, dif_neg (by omega)]
  simp only [hmantissa, hexponent]

/-- A significand of 53 bits is left as it is. -/
theorem cut_full {m : Nat} {e : Int} (s : Sign) (low : 2 ^ 52 ≤ m) (high : m < 2 ^ 53)
    (he : -1074 ≤ e) : ∃ h, cut s m e = .finite s m e h := by
  simpa using cut_eq (t := 0) s (by simpa using low) (by simpa using high) (by simpa using he)

/-- One that rounding has carried over to 54 bits loses a zero. -/
theorem cut_carry {e : Int} (s : Sign) (he : -1074 ≤ e) :
    ∃ h, cut s (2 ^ 53) e = .finite s (2 ^ 52) (e + 1) h := by
  have hcut := cut_eq (m := 2 ^ 53) (t := 1) (e := e) s (by norm_num) (by norm_num) (by omega)
  simpa using hcut

theorem round_eq_cut {m t : Nat} {e : Int} (s : Sign) (low : 2 ^ 52 * 2 ^ t ≤ m)
    (high : m < 2 ^ 53 * 2 ^ t) (he : -1074 ≤ e + t) :
    UnpackedFloat.round .binary64 s m e = cut s (roundDiv m (2 ^ t)) (e + t) := by
  have hshift : (e - (e + t)).toNat = 0 := by omega
  rw [UnpackedFloat.round]
  simp only [targetExponent_eq low high he, decreaseExponent, hshift, Nat.shiftLeft_zero,
    Nat.cast_zero, Int.sub_zero]
  exact roundWithAccuracy_eq_cut s low high he

/-! ## The double nearest to a value -/

theorem ofNat_ne {width n : Nat} {b : BitVec width} (h : n % 2 ^ width ≠ b.toNat) :
    BitVec.ofNat width n ≠ b := by
  rintro rfl
  exact h (BitVec.toNat_ofNat n width).symm

/-- A significand of 53 bits and an exponent in range survive packing. -/
theorem unpacked_packed_finite {m : Nat} {e : Int} (s : Sign) (h : 0 < m) (low : 2 ^ 52 ≤ m)
    (high : m < 2 ^ 53) (he : -1074 ≤ e) (he' : e ≤ 971) :
    unpacked (packed (.finite s m e h)) = .finite s m e h := by
  have hlog : m.log2 + 1 = 53 := by
    rw [Nat.add_right_cancel_iff, Nat.log2_eq_iff h.ne']
    exact ⟨low, high⟩
  obtain ⟨biased, hbiased⟩ : ∃ biased : Nat, (biased : Int) = e + 1075 :=
    ⟨(e + 1075).toNat, by omega⟩
  have hexponent : (e + 1023 + 52).toNat = biased := by omega
  have hpack : UnpackedFloat.pack .binary64 (.finite s m e h) =
      packComponents .binary64 s (BitVec.ofNat 11 biased) (BitVec.ofNat 52 m) := by
    show (if 2048 ≤ (e + 1023 + 52).toNat + 1 then _ else if m.log2 + 1 = 53 then
      packComponents .binary64 s (BitVec.ofNat 11 (e + 1023 + 52).toNat) (BitVec.ofNat 52 m)
      else _) = _
    rw [if_neg (by omega), if_pos hlog, hexponent]
  show UnpackedFloat.unpack .binary64 (UnpackedFloat.pack .binary64 _) = _
  rw [hpack, UnpackedFloat.unpack]
  simp only [unpackExponent_packComponents, unpackMantissa_packComponents,
    unpackSign_packComponents, Sign.ofBitVec_toBitVec]
  have hlast : biased % 2 ^ 11 ≠ (-1#11).toNat := by
    show biased % 2048 ≠ 2047
    omega
  have hzero : biased % 2 ^ 11 ≠ (0#11).toNat := by
    show biased % 2048 ≠ 0
    omega
  rw [if_neg (ofNat_ne hlast), if_neg (ofNat_ne hzero)]
  have hbits : (1#1 ++ BitVec.ofNat 52 m).toNat = m := by
    have hrest : m % 2 ^ 52 < 2 ^ 52 := Nat.mod_lt _ (Nat.two_pow_pos 52)
    rw [BitVec.toNat_append, BitVec.toNat_ofNat m]
    show 1 <<< 52 ||| m % 2 ^ 52 = m
    rw [← Nat.shiftLeft_add_eq_or_of_lt hrest]
    omega
  have hback : ((BitVec.ofNat 11 biased).toNat : Int) - (1023 + 52) = e := by
    rw [BitVec.toNat_ofNat]
    omega
  congr 1

theorem normal_packed {m : Nat} {e : Int} (h : 0 < m) (low : 2 ^ 52 ≤ m) (high : m < 2 ^ 53)
    (he : -1074 ≤ e) (he' : e ≤ 971) : Normal (packed (.finite .positive m e h)) m e :=
  ⟨⟨h, unpacked_packed_finite .positive h low high he he'⟩, low, high, he, he'⟩

theorem roundDiv_carry : roundDiv (2 ^ 53) (2 ^ 1) = 2 ^ 52 := by decide

/-- Rounding cuts a significand to 53 bits. -/
theorem nearest_eq {m t : Nat} {e : Int} (low : 2 ^ 52 * 2 ^ t ≤ m) (high : m < 2 ^ 53 * 2 ^ t)
    (he : -1074 ≤ e + t) : nearest m e = nearest (roundDiv m (2 ^ t)) (e + t) := by
  have hpos : 0 < 2 ^ t := Nat.two_pow_pos t
  have hlow : 2 ^ 52 ≤ roundDiv m (2 ^ t) := le_roundDiv hpos low
  have hhigh : roundDiv m (2 ^ t) ≤ 2 ^ 53 := roundDiv_le hpos high
  unfold nearest
  rw [round_eq_cut .positive low high he]
  rcases Nat.lt_or_eq_of_le hhigh with hlt | heq
  · rw [round_eq_cut (t := 0) .positive (by simpa using hlow) (by simpa using hlt)
      (by simpa using he)]
    simp [roundDiv_one]
  · rw [heq, round_eq_cut (t := 1) .positive (by norm_num) (by norm_num) (by push_cast; omega)]
    obtain ⟨_, hcarry⟩ := cut_carry (e := e + t) .positive he
    obtain ⟨_, hfull⟩ := cut_full (m := 2 ^ 52) (e := e + t + 1) .positive le_rfl (by norm_num)
      (by omega)
    rw [hcarry, roundDiv_carry]
    exact congrArg packed hfull.symm

/-- A value that has at most 53 bits is a double. -/
theorem nearest_eq_packed {m s : Nat} {e : Int} (low : 2 ^ 52 ≤ m * 2 ^ s)
    (high : m * 2 ^ s < 2 ^ 53) (he : -1074 ≤ e - s) :
    ∃ h, nearest m e = packed (.finite .positive (m * 2 ^ s) (e - s) h) := by
  have hm : m ≠ 0 := by
    intro hzero
    rw [hzero, Nat.zero_mul] at low
    omega
  have hlog : m.log2 + s = 52 := by
    have hscaled : (m * 2 ^ s).log2 = m.log2 + s := by
      rw [Nat.log2_eq_iff (by omega)]
      have hbelow : 2 ^ m.log2 ≤ m := Nat.log2_self_le hm
      have habove : m < 2 ^ (m.log2 + 1) := Nat.lt_log2_self
      constructor
      · rw [Nat.pow_add]
        exact Nat.mul_le_mul_right _ hbelow
      · rw [Nat.add_right_comm, Nat.pow_add]
        exact Nat.mul_lt_mul_of_pos_right habove (Nat.two_pow_pos s)
    rw [← hscaled, Nat.log2_eq_iff (by omega)]
    exact ⟨low, high⟩
  have htarget : Format.binary64.targetExponent (totalExponent m e) = e - s := by
    show max (((m.log2 : Int) + 1 + e) - ((1 + 52 : Nat) : Int)) (-1074) = _
    omega
  have hshift : (e - (e - s)).toNat = s := by omega
  have hround : UnpackedFloat.round .binary64 .positive m e =
      roundWithAccuracy .binary64 .positive (m * 2 ^ s) (e - s) .exact := by
    rw [UnpackedFloat.round]
    simp only [htarget, decreaseExponent, hshift, Nat.shiftLeft_eq]
  have hcut := roundWithAccuracy_eq_cut (m := m * 2 ^ s) (t := 0) (e := e - s) .positive
    (by simpa using low) (by simpa using high) (by simpa using he)
  obtain ⟨h, hfull⟩ := cut_full .positive low high he
  rw [pow_zero, roundDiv_one, Nat.cast_zero, Int.add_zero, hfull] at hcut
  exact ⟨h, by rw [nearest, hround, hcut]⟩

theorem normal_nearest_of_shift {m s : Nat} {e : Int} (low : 2 ^ 52 ≤ m * 2 ^ s)
    (high : m * 2 ^ s < 2 ^ 53) (he : -1074 ≤ e - s) (he' : e - s ≤ 971) :
    Normal (nearest m e) (m * 2 ^ s) (e - s) := by
  obtain ⟨h, heq⟩ := nearest_eq_packed low high he
  rw [heq]
  exact normal_packed h low high he he'

theorem normal_nearest {m : Nat} {e : Int} (low : 2 ^ 52 ≤ m) (high : m < 2 ^ 53)
    (he : -1074 ≤ e) (he' : e ≤ 971) : Normal (nearest m e) m e := by
  simpa using normal_nearest_of_shift (s := 0) (by simpa using low) (by simpa using high)
    (by simpa using he) (by simpa using he')

/-- A significand that rounding has carried over to 54 bits. -/
theorem nearest_carry {e : Int} (he : -1075 ≤ e) :
    nearest (2 ^ 53) e = nearest (2 ^ 52) (e + 1) := by
  rw [nearest_eq (t := 1) (by norm_num) (by norm_num) (by push_cast; omega), roundDiv_carry]
  rfl

theorem normal_nearest_carry {e : Int} (he : -1075 ≤ e) (he' : e ≤ 970) :
    Normal (nearest (2 ^ 53) e) (2 ^ 52) (e + 1) := by
  rw [nearest_carry he]
  exact normal_nearest le_rfl (by norm_num) (by omega) (by omega)

/-! ## Operations -/

section Operations

variable {x y : Float} {m n : Nat} {e f : Int}

theorem Normal.pos (hx : Normal x m e) : 0 < m := by
  have := hx.low
  omega

theorem Normal.packed_eq (hx : Normal x m e) {h : 0 < m} :
    packed (.finite .positive m e h) = nearest m e := by
  obtain ⟨_, heq⟩ := nearest_eq_packed (m := m) (s := 0) (e := e) (by simpa using hx.low)
    (by simpa using hx.high) (by simpa using hx.least)
  rw [heq]
  simp

theorem exists_bits {m : Nat} (h : 2 ^ 52 ≤ m) :
    ∃ t, 2 ^ 52 * 2 ^ t ≤ m ∧ m < 2 ^ 53 * 2 ^ t := by
  have hm : m ≠ 0 := by omega
  have hlog : 52 ≤ m.log2 := (Nat.le_log2 hm).mpr h
  refine ⟨m.log2 - 52, ?_, ?_⟩
  · rw [← Nat.pow_add, Nat.add_sub_cancel' hlog]
    exact Nat.log2_self_le hm
  · rw [← Nat.pow_add, show 53 + (m.log2 - 52) = m.log2 + 1 by omega]
    exact Nat.lt_log2_self

theorem normalize_of_pos {n : Nat} (h : 0 < n) (e : Int) :
    UnpackedFloat.normalize .binary64 n e .positive =
      UnpackedFloat.round .binary64 .positive n e := by
  have hcompare : compare (n : Int) 0 = .gt := by
    rw [compare_gt_iff_gt]
    omega
  rw [UnpackedFloat.normalize, hcompare]
  rfl

/-- The sum of two doubles, over the smaller one of their exponents. -/
theorem Normal.add (hx : Normal x m e) (hy : Normal y n f) {g : Int} {s t : Nat}
    (hs : e = g + s) (ht : f = g + t) (hmin : s = 0 ∨ t = 0) :
    x + y = nearest (m * 2 ^ s + n * 2 ^ t) g := by
  obtain ⟨hm, hx'⟩ := hx.value
  obtain ⟨hn, hy'⟩ := hy.value
  have hexponent : min e f = g := by omega
  have hfirst : (e - g).toNat = s := by omega
  have hsecond : (f - g).toNat = t := by omega
  have hsum : Sign.positive.apply ((m * 2 ^ s : Nat) : Int) +
      Sign.positive.apply ((n * 2 ^ t : Nat) : Int) = ((m * 2 ^ s + n * 2 ^ t : Nat) : Int) := rfl
  have hpos : 0 < m * 2 ^ s + n * 2 ^ t := Nat.add_pos_left (Nat.mul_pos hm (Nat.two_pow_pos s)) _
  show packed (UnpackedFloat.add .binary64 (unpacked x) (unpacked y)) = _
  rw [hx', hy', UnpackedFloat.add]
  simp only [hexponent, decreaseExponent, hfirst, hsecond, Nat.shiftLeft_eq, hsum]
  rw [normalize_of_pos hpos]
  rfl

section Zero

variable {zero : Float} (hzero : unpacked zero = .zero .positive) (hx : Normal x m e)
include hzero hx

theorem Normal.zero_add : zero + x = nearest m e := by
  obtain ⟨hm, hx'⟩ := hx.value
  show packed (UnpackedFloat.add .binary64 (unpacked zero) (unpacked x)) = _
  rw [hzero, hx']
  exact hx.packed_eq

theorem Normal.add_zero : x + zero = nearest m e := by
  obtain ⟨hm, hx'⟩ := hx.value
  show packed (UnpackedFloat.add .binary64 (unpacked x) (unpacked zero)) = _
  rw [hzero, hx']
  exact hx.packed_eq

theorem Normal.sub_zero : x - zero = nearest m e := by
  obtain ⟨hm, hx'⟩ := hx.value
  show packed (UnpackedFloat.sub .binary64 (unpacked x) (unpacked zero)) = _
  rw [hzero, hx']
  exact hx.packed_eq

end Zero

/-- The difference of two doubles of one exponent is exact. -/
theorem Normal.sub (hx : Normal x m e) (hy : Normal y n e) (h : n < m) :
    x - y = nearest (m - n) e := by
  obtain ⟨hm, hx'⟩ := hx.value
  obtain ⟨hn, hy'⟩ := hy.value
  have hdifference : Sign.positive.apply (m : Int) - Sign.positive.apply (n : Int) =
      ((m - n : Nat) : Int) := by
    simp only [Sign.apply]
    omega
  show packed (UnpackedFloat.sub .binary64 (unpacked x) (unpacked y)) = _
  rw [hx', hy', UnpackedFloat.sub]
  simp only [Int.min_self, decreaseExponent, Int.sub_self, Int.toNat_zero, Nat.shiftLeft_zero,
    hdifference]
  rw [normalize_of_pos (by omega)]
  rfl

theorem Normal.mul (hx : Normal x m e) (hy : Normal y n f) (he : -1074 ≤ e + f) :
    x * y = nearest (m * n) (e + f) := by
  obtain ⟨hm, hx'⟩ := hx.value
  obtain ⟨hn, hy'⟩ := hy.value
  have hlow : 2 ^ 52 ≤ m * n := le_trans hx.low (Nat.le_mul_of_pos_right m hn)
  obtain ⟨t, low, high⟩ := exists_bits hlow
  show packed (UnpackedFloat.mul .binary64 (unpacked x) (unpacked y)) = _
  rw [hx', hy', UnpackedFloat.mul, nearest, round_eq_cut .positive low high (by omega),
    roundWithAccuracy_eq_cut _ low high (by omega)]
  rfl

theorem normal_two : Normal 2.0 (2 ^ 52) (-51) :=
  ⟨⟨by decide, rfl⟩, le_rfl, by norm_num, by norm_num, by norm_num⟩

/-- Half of a double is exact. -/
theorem Normal.half (hx : Normal x m e) (he : -1072 ≤ e) : x / 2.0 = nearest m (e - 1) := by
  obtain ⟨hm, hx'⟩ := hx.value
  obtain ⟨htwo, htwo'⟩ := normal_two.value
  have hlow := hx.low
  have hhigh := hx.high
  have hlog : m.log2 = 52 := by
    rw [Nat.log2_eq_iff hm.ne']
    exact ⟨hlow, hhigh⟩
  have htarget : min (e - -51) (Format.binary64.targetExponent
      (totalExponent m e - totalExponent (2 ^ 52) (-51))) = e - 2 := by
    show min (e - -51) (max (((m.log2 : Int) + 1 + e) - 2 - ((1 + 52 : Nat) : Int)) (-1074)) = _
    omega
  have hshift : (e - -51 - (e - 2)).toNat = 53 := by omega
  have hdivide : divCore .binary64 m e (2 ^ 52) (-51) = (2 * m, e - 2, .exact) := by
    have hquotient : m * 2 ^ 53 / 2 ^ 52 = 2 * m := by omega
    have hrest : m * 2 ^ 53 % 2 ^ 52 = 0 := by omega
    rw [divCore]
    simp only [htarget, hshift, Nat.shiftLeft_eq, hquotient, hrest, accuracyOfFraction, if_true]
  have hexact : roundDiv (2 * m) (2 ^ 1) = m := by
    rw [Nat.mul_comm]
    exact roundDiv_mul_self m 2 (by norm_num)
  have hcut := roundWithAccuracy_eq_cut (m := 2 * m) (t := 1) (e := e - 2) .positive
    (by omega) (by omega) (by omega)
  rw [hexact, Nat.cast_one, show e - 2 + 1 = e - 1 by omega] at hcut
  have hround := round_eq_cut (m := m) (t := 0) (e := e - 1) .positive (by simpa using hlow)
    (by simpa using hhigh) (by simp; omega)
  rw [pow_zero, roundDiv_one, Nat.cast_zero, Int.add_zero] at hround
  show packed (UnpackedFloat.div .binary64 (unpacked x) (unpacked 2.0)) = _
  rw [hx', htwo', UnpackedFloat.div, nearest, hround]
  simp only [hdivide]
  exact congrArg packed hcut

theorem nearest_mul_two_pow {n t : Nat} {e : Int} (low : 2 ^ 52 ≤ n) (high : n ≤ 2 ^ 53)
    (he : -1074 ≤ e + t) : nearest (n * 2 ^ t) e = nearest n (e + t) := by
  have hpos : 0 < 2 ^ t := Nat.two_pow_pos t
  have hlow : 2 ^ 52 * 2 ^ t ≤ n * 2 ^ t := Nat.mul_le_mul_right _ low
  rcases Nat.lt_or_eq_of_le high with hlt | rfl
  · rw [nearest_eq hlow (Nat.mul_lt_mul_of_pos_right hlt hpos) he, roundDiv_mul_self _ _ hpos]
  · -- both sides round a power of two
    have hpow : 2 ^ 53 * 2 ^ t = 2 ^ 52 * 2 ^ (t + 1) := by
      rw [Nat.pow_succ 2 t]
      omega
    have hstep : (2 : Nat) ^ (t + 1) = 2 * 2 ^ t := by rw [Nat.pow_succ, Nat.mul_comm]
    rw [nearest_carry (by omega), nearest_eq (t := t + 1) (by omega) (by omega)
      (by push_cast; omega), hpow, roundDiv_mul_self _ _ (Nat.two_pow_pos _)]
    congr 1
    push_cast
    omega

theorem nearest_half {n : Nat} {e : Int} (low : 2 ^ 52 ≤ n) (high : n ≤ 2 ^ 53)
    (he : -1072 ≤ e) (he' : e ≤ 970) : nearest n e / 2.0 = nearest n (e - 1) := by
  rcases Nat.lt_or_eq_of_le high with hlt | rfl
  · exact (normal_nearest low hlt (by omega) (by omega)).half he
  · rw [(normal_nearest_carry (by omega) he').half (by omega), nearest_carry (by omega)]
    congr 1
    omega

end Operations

/-! ## Reading a double -/

section Reading

variable {x y : Float} {m n : Nat} {e : Int}

theorem toNat_unpackExponent (b : UInt64) :
    ((b >>> 52) &&& 0x7FF).toNat =
      (@unpackExponent .binary64 b.toBitVec).toNat := by
  have hmask : ∀ n : Nat, n &&& 2047 = n % 2 ^ 11 := fun n => Nat.and_two_pow_sub_one_eq_mod n 11
  rw [unpackExponent, BitVec.toNat_cast, BitVec.extractLsb_toNat]
  simp [hmask]

theorem toNat_unpackMantissa (b : UInt64) :
    (b &&& 0xFFFFFFFFFFFFF).toNat =
      (@unpackMantissa .binary64 b.toBitVec).toNat := by
  have hmask : ∀ n : Nat, n &&& 4503599627370495 = n % 2 ^ 52 :=
    fun n => Nat.and_two_pow_sub_one_eq_mod n 52
  rw [unpackMantissa, BitVec.toNat_cast, BitVec.extractLsb_toNat]
  simp [hmask]

theorem toNat_unpackSign (b : UInt64) :
    (b >>> 63).toNat = (@unpackSign .binary64 b.toBitVec).toNat := by
  have hb : b.toNat < 2 ^ 64 := b.toNat_lt
  rw [unpackSign, BitVec.toNat_cast, BitVec.extractLsb_toNat]
  simp
  omega

/-- The exact value of a double is what is computed from its bits. -/
theorem Normal.ofFloat_eq (hx : Normal x m e) : Binary64.ofFloat x = ⟨false, m, e⟩ := by
  obtain ⟨hm, hx'⟩ := hx.value
  have hlow := hx.low
  change UnpackedFloat.unpack .binary64 x.toBits.toBitVec = _ at hx'
  rw [UnpackedFloat.unpack] at hx'
  simp only at hx'
  have hbits : (1#1 ++ @unpackMantissa .binary64 x.toBits.toBitVec).toNat =
      2 ^ 52 + (@unpackMantissa .binary64 x.toBits.toBitVec).toNat := by
    have hrest := (@unpackMantissa .binary64 x.toBits.toBitVec).isLt
    rw [BitVec.toNat_append, ← Nat.shiftLeft_add_eq_or_of_lt hrest]
    rfl
  split at hx'
  · split at hx' <;> cases hx'
  · rename_i hlast
    split at hx'
    · split at hx'
      · cases hx'
      · -- a subnormal significand has fewer bits
        have hrest := (@unpackMantissa .binary64 x.toBits.toBitVec).isLt
        injection hx' with hsign hmantissa hexponent
        change _ < 2 ^ 52 at hrest
        omega
    · rename_i hzero
      injection hx' with hsign hmantissa hexponent
      have hpositive : x.toBits >>> 63 = 0 := by
        have hbit : @unpackSign .binary64 x.toBits.toBitVec = 0#1 := by
          by_contra hne
          rw [Sign.ofBitVec, if_neg hne] at hsign
          cases hsign
        rw [← UInt64.toNat_inj, toNat_unpackSign, hbit]
        rfl
      have hbiased : (@unpackExponent .binary64 x.toBits.toBitVec).toNat ≠ 0 :=
        fun heq => hzero (BitVec.eq_of_toNat_eq heq)
      rw [Binary64.ofFloat, Binary64.ofBits]
      simp only [toNat_unpackExponent, toNat_unpackMantissa, if_neg hbiased, hpositive]
      rw [hbits] at hmantissa
      rw [Binary64.mk.injEq]
      exact ⟨rfl, hmantissa, hexponent⟩

theorem Normal.isNaN (hx : Normal x m e) : x.isNaN = false := by
  obtain ⟨hm, hx'⟩ := hx.value
  show (unpacked x).isNaN = false
  rw [hx']
  rfl

theorem Normal.isInf (hx : Normal x m e) : x.isInf = false := by
  obtain ⟨hm, hx'⟩ := hx.value
  show (unpacked x).isInf = false
  rw [hx']
  rfl

/-- The whole part of a double below `2 ^ 53`. -/
theorem Normal.floor_eq (hx : Normal x m e) :
    Arithmetic.floor x = .ok (Binary64.mk false m e).floor := by
  show (if x.isNaN = true then _ else if x.isInf = true then _ else
    Except.ok (Binary64.ofFloat x).floor) = _
  rw [hx.isNaN, hx.isInf, hx.ofFloat_eq]
  rfl

theorem Normal.round_eq (hx : Normal x m e) :
    Arithmetic.round x = (Binary64.mk false m e).round := by
  show (Binary64.ofFloat x).round = _
  rw [hx.ofFloat_eq]

end Reading

end Double
end Number
end TenderPricing
