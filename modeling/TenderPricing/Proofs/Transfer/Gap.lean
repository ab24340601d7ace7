import TenderPricing.Proofs.Number.Value
import TenderPricing.Transfer.Numbering
/-!
The steps of a numbering, in doubles.

Up to nine tenths a number is the parent's number plus some tenths.  From there on each number
takes half of the gap to the next whole number.  Counted in units of the last bit the gap is a whole
number, so halving it is `roundDiv` by two, and a gap of one unit is halved to nothing.
-/
namespace TenderPricing
namespace Transfer

open Number Number.Double Float.Model Float.Model.UnpackedFloat

/-- The double for `j` tenths. -/
def tenth (j : Int) : Float := Arithmetic.ofInt j / 10.0

/-- The number that many tenths above a whole one. -/
def plusTenths (p : Nat) (j : Int) : Float := Arithmetic.ofInt p + tenth j

/-- The units of the last bit between a whole number and the next one. -/
def unitsPerWhole (p : Nat) : Nat := 2 ^ (53 - p.size)

/-- The double that many units below the next whole number. -/
def belowNext (p gap : Nat) : Float :=
  nearest ((p + 1) * unitsPerWhole p - gap) (p.size - 53)

theorem nextTenth_eq (last : Float) (p : Nat) :
    nextTenth last p =
      plusTenths p (Arithmetic.round ((last - Arithmetic.ofInt p + 0.1) * 10.0)) := rfl

/-! ## Units -/

section Units

variable {p : Nat}

theorem size_le_twenty (hp : p < 10 ^ 6) : p.size ≤ 20 := by
  rw [Nat.size_le]
  omega

theorem unitsPerWhole_eq {p : Nat} (hp : p < 10 ^ 6) :
    unitsPerWhole p = 8 * 2 ^ (50 - p.size) := by
  have hsize := size_le_twenty hp
  rw [unitsPerWhole, show 53 - p.size = 3 + (50 - p.size) by omega, Nat.pow_add]

theorem le_unitsPerWhole (hp : p < 10 ^ 6) : 2 ^ 33 ≤ unitsPerWhole p := by
  have hsize := size_le_twenty hp
  exact Nat.pow_le_pow_right Nat.two_pos (by omega)

theorem unitsPerWhole_mul (hp : p < 10 ^ 6) : unitsPerWhole p * 2 ^ p.size = 2 ^ 53 := by
  have hsize := size_le_twenty hp
  rw [unitsPerWhole, ← Nat.pow_add, Nat.sub_add_cancel (by omega)]

theorem units_le (hp : p < 10 ^ 6) : (p + 1) * unitsPerWhole p ≤ 2 ^ 53 := by
  rw [← unitsPerWhole_mul hp, Nat.mul_comm]
  exact Nat.mul_le_mul_left _ (Nat.lt_size_self p)

theorem le_units (hp : p < 10 ^ 6) (h : 0 < p) : 2 ^ 52 ≤ p * unitsPerWhole p := by
  have hsize := size_le_twenty hp
  have hsize' : 0 < p.size := Nat.size_pos.mpr h
  have hlow : 2 ^ (p.size - 1) ≤ p := Nat.lt_size.mp (by omega)
  calc 2 ^ 52 = 2 ^ (p.size - 1) * 2 ^ (53 - p.size) := by rw [← Nat.pow_add]; congr 1; omega
    _ ≤ p * 2 ^ (53 - p.size) := Nat.mul_le_mul_right _ hlow

theorem succ_mul_units (p : Nat) :
    (p + 1) * unitsPerWhole p = p * unitsPerWhole p + unitsPerWhole p := Nat.succ_mul ..

end Units

section Below

variable {p gap : Nat} (hp : p < 10 ^ 6)
include hp

theorem ofInt_eq_units (h : 0 < p) :
    (Arithmetic.ofInt p : Float) = nearest (p * unitsPerWhole p) (p.size - 53) := by
  have hsize := size_le_twenty hp
  have hless : p * unitsPerWhole p < 2 ^ 53 := by
    have := le_unitsPerWhole hp
    have := units_le hp
    rw [succ_mul_units] at this
    omega
  rw [ofInt_eq_nearest (le_units hp h) hless]
  congr 1
  omega

theorem normal_ofInt (h : 0 < p) :
    Normal (Arithmetic.ofInt p) (p * unitsPerWhole p) (p.size - 53) := by
  have hsize := size_le_twenty hp
  have hunits := le_unitsPerWhole hp
  have hmost := units_le hp
  rw [succ_mul_units] at hmost
  rw [ofInt_eq_units hp h]
  exact normal_nearest (le_units hp h) (by omega) (by omega) (by omega)

theorem normal_belowNext (h : 0 < gap) (h' : 2 * gap ≤ unitsPerWhole p) :
    Normal (belowNext p gap) ((p + 1) * unitsPerWhole p - gap) (p.size - 53) := by
  have hsize := size_le_twenty hp
  have hunits := units_le hp
  have hlow : 2 ^ 52 ≤ (p + 1) * unitsPerWhole p - gap := by
    rw [succ_mul_units]
    rcases Nat.eq_zero_or_pos p with rfl | hpos
    · have : unitsPerWhole 0 = 2 ^ 53 := rfl
      omega
    · have := le_units hp hpos
      omega
  exact normal_nearest hlow (by omega) (by omega) (by omega)

/-- The gap is a whole number of units. -/
theorem hasValue_belowNext (h : 0 < gap) (h' : 2 * gap ≤ unitsPerWhole p) :
    HasValue (belowNext p gap) (p + 1 - gap / unitsPerWhole p) := by
  refine ⟨_, _, normal_belowNext hp h h', ?_⟩
  have hsize := size_le_twenty hp
  have hunit : (2 : ℚ) ^ ((p.size : ℤ) - 53) = 1 / unitsPerWhole p := by
    rw [unitsPerWhole, show (p.size : ℤ) - 53 = -((53 - p.size : ℕ) : ℤ) by omega, zpow_neg,
      zpow_natCast, one_div]
    norm_cast
  have hgap : gap ≤ (p + 1) * unitsPerWhole p := by
    rw [succ_mul_units]
    omega
  have hpos : (unitsPerWhole p : ℚ) ≠ 0 := by
    have := le_unitsPerWhole hp
    exact_mod_cast (by omega : unitsPerWhole p ≠ 0)
  rw [hunit, Nat.cast_sub hgap]
  push_cast
  field_simp

end Below

/-! ## Halving -/

section Halving

variable {p gap : Nat}

/-- Below one the first sum is exact and the second one rounds. -/
theorem halfway_belowNext_zero (h : 0 < gap) (h' : 2 * gap ≤ unitsPerWhole 0) :
    halfway (belowNext 0 gap) 0 = belowNext 0 (roundDiv gap 2) := by
  have hunits : unitsPerWhole 0 = 2 ^ 53 := rfl
  have hwhole : (0 + 1) * unitsPerWhole 0 = 2 ^ 53 := rfl
  have hexponent : ((Nat.size 0 : ℕ) : ℤ) - 53 = -53 := rfl
  have hless : roundDiv gap 2 ≤ gap := roundDiv_two_le gap
  have hnormal := normal_belowNext (p := 0) (by norm_num) h h'
  rw [hwhole, hexponent] at hnormal
  have hfirst : belowNext 0 gap + Arithmetic.ofInt 0 = nearest (2 ^ 53 - gap) (-53) :=
    hnormal.add_zero unpacked_zero
  have hsum := normal_nearest hnormal.low hnormal.high hnormal.least hnormal.most
  have hrounded : roundDiv ((2 ^ 53 - gap) * 2 ^ 0 + 2 ^ 52 * 2 ^ 1) (2 ^ 1) =
      2 ^ 53 - roundDiv gap 2 := by
    have hhalf := roundDiv_two_sub (a := 2 ^ 52) (n := gap) (by omega)
    rw [show (2 ^ 53 - gap) * 2 ^ 0 + 2 ^ 52 * 2 ^ 1 = 4 * 2 ^ 52 - gap by omega]
    exact hhalf
  show (belowNext 0 gap + Arithmetic.ofInt 0 + 1.0) / 2.0 = _
  rw [hfirst, hsum.add normal_one (g := -53) (s := 0) (t := 1) (by omega) (by omega) (.inl rfl),
    nearest_eq (t := 1) (by omega) (by omega) (by omega), hrounded,
    nearest_half (by omega) (by omega) (by omega) (by omega), belowNext, hwhole, hexponent]
  rfl

variable (hp : p < 10 ^ 6)
include hp

/-- From one on the first sum rounds, to twice the unit. -/
theorem belowNext_add_whole (hpos : 0 < p) (h : 0 < gap) (h' : 2 * gap ≤ unitsPerWhole p) :
    belowNext p gap + Arithmetic.ofInt p =
      nearest (p * unitsPerWhole p + unitsPerWhole p / 2 - roundDiv gap 2) (p.size - 52) := by
  have hsize := size_le_twenty hp
  have hunits := unitsPerWhole_eq hp
  have hlow := le_units hp hpos
  have hmost := units_le hp
  have hnormal := normal_belowNext hp h h'
  rw [succ_mul_units] at hnormal hmost
  have hfour : p * unitsPerWhole p = 4 * (p * (2 * 2 ^ (50 - p.size))) := by
    rw [hunits]
    ring
  have hrounded : roundDiv (p * unitsPerWhole p + unitsPerWhole p - gap + p * unitsPerWhole p)
      (2 ^ 1) = p * unitsPerWhole p + unitsPerWhole p / 2 - roundDiv gap 2 := by
    have hhalf := roundDiv_two_sub
      (a := 2 * (p * (2 * 2 ^ (50 - p.size))) + 2 * 2 ^ (50 - p.size)) (n := gap) (by omega)
    rw [show p * unitsPerWhole p + unitsPerWhole p - gap + p * unitsPerWhole p =
      4 * (2 * (p * (2 * 2 ^ (50 - p.size))) + 2 * 2 ^ (50 - p.size)) - gap by omega,
      pow_one, hhalf]
    omega
  rw [hnormal.add (normal_ofInt hp hpos) (g := p.size - 53) (s := 0) (t := 0) (by omega) (by omega)
    (.inl rfl), pow_zero, Nat.mul_one, Nat.mul_one,
    nearest_eq (t := 1) (by omega) (by omega) (by omega), hrounded]
  congr 1
  push_cast
  omega

/-- Adding one is then exact. -/
theorem nearest_add_one (hpos : 0 < p) {rest : Nat} (h : 2 * rest ≤ unitsPerWhole p) :
    nearest (p * unitsPerWhole p + unitsPerWhole p / 2 - rest) (p.size - 52) + 1.0 =
      nearest (p * unitsPerWhole p + unitsPerWhole p - rest) (p.size - 52) := by
  have hsize := size_le_twenty hp
  have hunits := le_unitsPerWhole hp
  have height := unitsPerWhole_eq hp
  have hscale := unitsPerWhole_mul hp
  have hlow := le_units hp hpos
  have hmost := units_le hp
  rw [succ_mul_units] at hmost
  have hsum : (p * unitsPerWhole p + unitsPerWhole p / 2 - rest) * 2 ^ p.size + 2 ^ 52 * 2 ^ 0 =
      (p * unitsPerWhole p + unitsPerWhole p - rest) * 2 ^ p.size := by
    have hone : 2 ^ 52 = unitsPerWhole p / 2 * 2 ^ p.size := by
      rw [height] at hscale ⊢
      rw [show 8 * 2 ^ (50 - p.size) / 2 = 4 * 2 ^ (50 - p.size) by omega]
      linarith
    rw [pow_zero, Nat.mul_one, hone, ← Nat.add_mul]
    congr 1
    omega
  have hnormal := normal_nearest (m := p * unitsPerWhole p + unitsPerWhole p / 2 - rest)
    (e := (p.size : ℤ) - 52) (by omega) (by omega) (by omega) (by omega)
  rw [hnormal.add normal_one (g := -52) (s := p.size) (t := 0) (by omega) (by omega) (.inr rfl),
    hsum, nearest_mul_two_pow (by omega) (by omega) (by omega),
    show (-52 : Int) + p.size = p.size - 52 by omega]

/-- A gap is halved, and an odd one rounded to even. -/
theorem halfway_belowNext (h : 0 < gap) (h' : 2 * gap ≤ unitsPerWhole p) :
    halfway (belowNext p gap) p = belowNext p (roundDiv gap 2) := by
  have hsize := size_le_twenty hp
  have hunits := le_unitsPerWhole hp
  have hmost := units_le hp
  have hless : roundDiv gap 2 ≤ gap := roundDiv_two_le gap
  rcases Nat.eq_zero_or_pos p with rfl | hpos
  · exact halfway_belowNext_zero h h'
  · have hlow := le_units hp hpos
    rw [succ_mul_units] at hmost
    show (belowNext p gap + Arithmetic.ofInt p + 1.0) / 2.0 = _
    rw [belowNext_add_whole hp hpos h h', nearest_add_one hp hpos (by omega),
      nearest_half (by omega) (by omega) (by omega) (by omega), belowNext, succ_mul_units]
    congr 1
    omega

/-- Without a gap the number is the next whole one. -/
theorem belowNext_zero : belowNext p 0 = Arithmetic.ofInt (p + 1 : ℕ) := by
  have hsize := size_le_twenty hp
  have hmost := units_le hp
  rw [belowNext, Nat.sub_zero]
  rcases Nat.lt_or_eq_of_le hmost with hlt | heq
  · have hlow : 2 ^ 52 ≤ (p + 1) * unitsPerWhole p := by
      rcases Nat.eq_zero_or_pos p with rfl | hpos
      · exact absurd hlt (by decide)
      · have := le_units hp hpos
        rw [succ_mul_units]
        omega
    rw [ofInt_eq_nearest hlow hlt]
    congr 1
    omega
  · -- the next whole number begins a binade
    have hdouble : unitsPerWhole p = 2 * 2 ^ (52 - p.size) := by
      rw [unitsPerWhole, ← Nat.pow_succ', show (52 - p.size).succ = 53 - p.size by omega]
    have hhalf : (p + 1) * 2 ^ (52 - p.size) = 2 ^ 52 := by
      rw [hdouble, Nat.mul_left_comm] at heq
      omega
    rw [heq, ofInt_eq_nearest hhalf.ge (by omega), hhalf, nearest_carry (by omega)]
    congr 1
    omega

end Halving

/-! ## Tenths -/

/-- A positive value that is `j` tenths to half a unit of the last bit of one. -/
def IsTenths (j : Nat) : UnpackedFloat → Prop
  | .finite .positive m e _ =>
    (2 ^ 52 ≤ m ∧ m < 2 ^ 53 ∧ -1074 ≤ e ∧ e ≤ -52) ∧
      (10 * m - j * 2 ^ (-e).toNat : ℤ).natAbs * 2 ^ 53 ≤ 10 * 2 ^ (-e).toNat
  | _ => False

instance (j : Nat) (a : UnpackedFloat) : Decidable (IsTenths j a) :=
  match a with
  | .finite .positive _ _ _ => inferInstanceAs (Decidable (_ ∧ _))
  | .finite .negative _ _ _ | .zero _ | .infinity _ | .notANumber => .isFalse nofun

theorem isTenths_tenth : ∀ j < 12, 0 < j → IsTenths j (unpacked (tenth j)) := by decide +kernel

theorem exists_value_of_isTenths {x : Float} {j : Nat} (h : IsTenths j (unpacked x)) :
    ∃ q, HasValue x q ∧ |q - j / 10| ≤ 1 / 2 ^ 53 := by
  obtain ⟨m, e, hm, hx⟩ : ∃ m e hm, unpacked x = .finite .positive m e hm := by
    generalize unpacked x = a at h ⊢
    rcases a with s | _ | s | ⟨_ | _, m, e, hm⟩
    · exact h.elim
    · exact h.elim
    · exact h.elim
    · exact h.elim
    · exact ⟨m, e, hm, rfl⟩
  rw [hx] at h
  obtain ⟨⟨hlow, hhigh, hleast, hmost⟩, hnear⟩ := h
  refine ⟨_, ⟨m, e, ⟨⟨hm, hx⟩, hlow, hhigh, hleast, by omega⟩, rfl⟩, ?_⟩
  obtain ⟨s, rfl⟩ : ∃ s : ℕ, e = -s := ⟨(-e).toNat, by omega⟩
  rw [Int.neg_neg, Int.toNat_natCast] at hnear
  have hpos : (0 : ℚ) < 2 ^ s := by positivity
  have hnear' : |10 * (m : ℚ) - j * 2 ^ s| * 2 ^ 53 ≤ 10 * 2 ^ s := by
    rw [← Nat.cast_le (α := ℤ)] at hnear
    push_cast [Int.natCast_natAbs] at hnear
    exact_mod_cast hnear
  obtain ⟨habove, hbelow⟩ := abs_le.mp ((le_div_iff₀ (by positivity)).mpr hnear')
  rw [zpow_neg, zpow_natCast, ← div_eq_mul_inv, abs_le]
  constructor
  · rw [neg_le_sub_iff_le_add, ← sub_le_iff_le_add, le_div_iff₀ hpos]
    linarith
  · rw [sub_le_iff_le_add, div_le_iff₀ hpos]
    linarith

theorem exists_value_tenth {j : Nat} (h : 0 < j) (h' : j < 12) :
    ∃ q, HasValue (tenth j) q ∧ |q - j / 10| ≤ 1 / 2 ^ 53 :=
  exists_value_of_isTenths (isTenths_tenth j h' h)

/-- The significand of the double for nine tenths. -/
def nineTenths : Nat := 8106479329266893

theorem nineTenths_near : 9 * 2 ^ 53 ≤ 10 * nineTenths + 5 ∧ 10 * nineTenths ≤ 9 * 2 ^ 53 + 5 := by
  decide

theorem normal_tenth_nine : Normal (tenth 9) nineTenths (-53) :=
  ⟨⟨by decide, rfl⟩, by decide, by decide, by norm_num, by norm_num⟩

theorem normal_tenth_ten : Normal (tenth 10) (2 ^ 52) (-52) :=
  ⟨⟨by decide, rfl⟩, by norm_num, by norm_num, by norm_num, by norm_num⟩

section PlusTenths

variable {p : Nat} (hp : p < 10 ^ 6)
include hp

theorem exists_value_plusTenths {j : Nat} (h : 0 < j) (h' : j < 12) :
    ∃ v, HasValue (plusTenths p j) v ∧ |v - (p + j / 10)| ≤ 1 / 2 ^ 32 := by
  obtain ⟨q, hq, hnear⟩ := exists_value_tenth h h'
  obtain ⟨hbelow, habove⟩ := abs_le.mp hnear
  have hj : (1 : ℚ) ≤ j := by exact_mod_cast h
  have hj' : (j : ℚ) ≤ 11 := by exact_mod_cast Nat.le_of_lt_succ h'
  rcases Nat.eq_zero_or_pos p with rfl | hpos
  · obtain ⟨m, e, hnormal, rfl⟩ := hq
    refine ⟨m * 2 ^ e, ⟨m, e, ?_, rfl⟩, ?_⟩
    · rw [plusTenths, Nat.cast_zero, hnormal.zero_add unpacked_zero]
      exact normal_nearest hnormal.low hnormal.high hnormal.least hnormal.most
    · rw [Nat.cast_zero, zero_add]
      exact hnear.trans (by norm_num)
  · have hwhole := hasValue_ofInt hpos (by omega : p < 2 ^ 53)
    have hp' : (p : ℚ) ≤ 10 ^ 6 := by exact_mod_cast hp.le
    have hpos' : (1 : ℚ) ≤ p := by exact_mod_cast hpos
    obtain ⟨v, hv, hrounded⟩ := hwhole.add hq (by norm_num; linarith) (by norm_num; linarith)
    obtain ⟨hbelow', habove'⟩ := abs_le.mp hrounded
    refine ⟨v, hv, abs_le.mpr ⟨?_, ?_⟩⟩
    · linarith
    · linarith

/-- Ten tenths make a whole. -/
theorem plusTenths_ten : plusTenths p 10 = Arithmetic.ofInt (p + 1 : ℕ) := by
  have hsize := size_le_twenty hp
  rcases Nat.eq_zero_or_pos p with rfl | hpos
  · rw [plusTenths, Nat.cast_zero, normal_tenth_ten.zero_add unpacked_zero]
    exact (ofInt_eq_nearest (n := 1) (s := 52) (by norm_num) (by norm_num)).symm
  · have hlow := le_units hp hpos
    have hmost := units_le hp
    have hsize' : 0 < p.size := Nat.size_pos.mpr hpos
    have hone : 2 ^ 52 = unitsPerWhole p * 2 ^ (p.size - 1) := by
      rw [unitsPerWhole, ← Nat.pow_add]
      congr 1
      omega
    have hsum : p * unitsPerWhole p * 2 ^ (p.size - 1) + 2 ^ 52 * 2 ^ 0 =
        (p + 1) * unitsPerWhole p * 2 ^ (p.size - 1) := by
      rw [pow_zero, Nat.mul_one, succ_mul_units, Nat.add_mul, ← hone]
    rw [plusTenths, (normal_ofInt hp hpos).add normal_tenth_ten (g := -52) (s := p.size - 1)
      (t := 0) (by omega) (by omega) (.inr rfl), hsum,
      nearest_mul_two_pow (by rw [succ_mul_units]; omega) hmost (by omega), ← belowNext_zero hp,
      belowNext, Nat.sub_zero]
    congr 1
    omega

/-- The significand of nine tenths over the units of a whole number. -/
theorem plusTenths_nine_eq (hpos : 0 < p) :
    plusTenths p 9 =
      nearest (roundDiv (p * 2 ^ 53 + nineTenths) (2 ^ p.size)) (p.size - 53) := by
  have hsize := size_le_twenty hp
  have hscale : p * unitsPerWhole p * 2 ^ p.size = p * 2 ^ 53 := by
    rw [Nat.mul_assoc, unitsPerWhole_mul hp]
  have hlow : 2 ^ 52 * 2 ^ p.size ≤ p * 2 ^ 53 + nineTenths := by
    rw [← hscale]
    exact Nat.le_add_right_of_le (Nat.mul_le_mul_right _ (le_units hp hpos))
  have hhigh : p * 2 ^ 53 + nineTenths < 2 ^ 53 * 2 ^ p.size := by
    have hless : nineTenths < 2 ^ 53 := by decide
    calc p * 2 ^ 53 + nineTenths < (p + 1) * 2 ^ 53 := by
          rw [Nat.succ_mul]
          exact Nat.add_lt_add_left hless _
      _ ≤ 2 ^ 53 * 2 ^ p.size := by
          rw [Nat.mul_comm]
          exact Nat.mul_le_mul_left _ (Nat.lt_size_self p)
  have hsum : p * unitsPerWhole p * 2 ^ p.size + nineTenths * 2 ^ 0 =
      p * 2 ^ 53 + nineTenths := by
    rw [hscale, pow_zero, Nat.mul_one]
  rw [plusTenths, (normal_ofInt hp hpos).add normal_tenth_nine (g := -53) (s := p.size) (t := 0)
    (by omega) (by omega) (.inr rfl), hsum,
    nearest_eq hlow hhigh (by omega), show (-53 : Int) + p.size = p.size - 53 by omega]

/-- Nine tenths leave about a tenth of the units. -/
theorem plusTenths_nine :
    ∃ gap, plusTenths p 9 = belowNext p gap ∧ 3 * unitsPerWhole p ≤ 32 * gap ∧
      8 * gap ≤ unitsPerWhole p := by
  have hsize := size_le_twenty hp
  have hnear := nineTenths_near
  rcases Nat.eq_zero_or_pos p with rfl | hpos
  · have hunits : unitsPerWhole 0 = 2 ^ 53 := rfl
    refine ⟨2 ^ 53 - nineTenths, ?_, by omega, by omega⟩
    rw [plusTenths, Nat.cast_zero, normal_tenth_nine.zero_add unpacked_zero, belowNext, hunits]
    rfl
  · have hpow : 0 < 2 ^ p.size := Nat.two_pow_pos _
    have hsize' : (2 : ℕ) ^ p.size ≤ 2 ^ 20 := Nat.pow_le_pow_right Nat.two_pos hsize
    have hscale := unitsPerWhole_mul hp
    obtain ⟨habove, hbelow⟩ :=
      two_mul_roundDiv_near (p * 2 ^ 53 + nineTenths) (2 ^ p.size) hpow
    have hsum := plusTenths_nine_eq hp hpos
    generalize roundDiv (p * 2 ^ 53 + nineTenths) (2 ^ p.size) = rounded at *
    have hwhole : (p + 1) * unitsPerWhole p * 2 ^ p.size = p * 2 ^ 53 + 2 ^ 53 := by
      rw [Nat.mul_assoc, hscale, Nat.succ_mul]
    have hrounded : rounded ≤ (p + 1) * unitsPerWhole p := by
      refine Nat.le_of_mul_le_mul_right ?_ hpow
      omega
    obtain ⟨gap, hgap⟩ := Nat.exists_eq_add_of_le hrounded
    rw [hgap, Nat.add_mul] at hwhole
    refine ⟨gap, ?_, ?_, ?_⟩
    · rw [hsum, belowNext, hgap, Nat.add_sub_cancel]
    · refine Nat.le_of_mul_le_mul_right ?_ hpow
      calc 3 * unitsPerWhole p * 2 ^ p.size = 3 * (unitsPerWhole p * 2 ^ p.size) :=
            Nat.mul_assoc ..
        _ ≤ 32 * (gap * 2 ^ p.size) := by omega
        _ = 32 * gap * 2 ^ p.size := (Nat.mul_assoc ..).symm
    · refine Nat.le_of_mul_le_mul_right ?_ hpow
      calc 8 * gap * 2 ^ p.size = 8 * (gap * 2 ^ p.size) := Nat.mul_assoc ..
        _ ≤ unitsPerWhole p * 2 ^ p.size := by omega

end PlusTenths

end Transfer
end TenderPricing
