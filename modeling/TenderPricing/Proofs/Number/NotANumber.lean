import Mathlib
import TenderPricing.Number.Arithmetic
/-!
NaN and the infinities in arithmetic on doubles.

An operation with NaN gives NaN, and so does the difference of two quantities relative to their
mean as soon as one of them is not finite: both the difference and the mean are then infinite.
-/
namespace TenderPricing
namespace Number
namespace Double

open Float.Model Float.Model.UnpackedFloat

/-- What a double stands for: NaN, an infinity, a zero or a finite value. -/
def unpacked (x : Float) : UnpackedFloat := x.toModel.unpack

/-- The double nearest to a value. -/
def packed (a : UnpackedFloat) : Float := ⟨Float.Model.pack a⟩

variable {x y : Float}

theorem isNaN_iff : x.isNaN = true ↔ unpacked x = .notANumber := UnpackedFloat.isNaN_iff

theorem isFinite_eq_false_iff :
    x.isFinite = false ↔ unpacked x = .notANumber ∨ ∃ s, unpacked x = .infinity s := by
  show (unpacked x).isFinite = false ↔ _
  cases unpacked x <;> simp [UnpackedFloat.isFinite]

theorem unpacked_packed_nan : unpacked (packed .notANumber) = .notANumber := rfl

theorem unpacked_packed_infinity (s : Sign) : unpacked (packed (.infinity s)) = .infinity s := by
  cases s <;> rfl

theorem unpacked_packed_zero (s : Sign) : unpacked (packed (.zero s)) = .zero s :=
  unpack_packedZero

/-! ## Signs -/

/-- Values of a sign, the zero and the infinity of this sign included. -/
inductive HasSign (s : Sign) : UnpackedFloat → Prop
  | infinity : HasSign s (.infinity s)
  | zero : HasSign s (.zero s)
  | finite (m : Nat) (e : Int) (h : 0 < m) : HasSign s (.finite s m e h)

theorem hasSign_packComponents (s : Sign) {exponent : BitVec 11} (h : exponent ≠ -1#11)
    (mantissa : BitVec 52) :
    HasSign s (UnpackedFloat.unpack .binary64 (packComponents .binary64 s exponent mantissa)) := by
  rw [UnpackedFloat.unpack]
  simp only [unpackExponent_packComponents, unpackSign_packComponents, Sign.ofBitVec_toBitVec]
  rw [if_neg h]
  split
  · split
    · exact .zero
    · exact .finite ..
  · exact .finite ..

/-- Rounding a finite value keeps its sign, even where the value overflows. -/
theorem hasSign_packed_finite (s : Sign) (m : Nat) (e : Int) (h : 0 < m) :
    HasSign s (unpacked (packed (.finite s m e h))) := by
  show HasSign s (UnpackedFloat.unpack .binary64 (UnpackedFloat.pack .binary64 _))
  rw [UnpackedFloat.pack]
  split
  · have hinfinity := unpacked_packed_infinity s
    change UnpackedFloat.unpack .binary64 (packedInfinity .binary64 s) = _ at hinfinity
    exact hinfinity ▸ .infinity
  · rename_i hsmall
    -- without overflow the exponent's bits are not all set, so what is read back is a number
    split
    · refine hasSign_packComponents s (fun heq => hsmall ?_) _
      have hbits := congrArg BitVec.toNat heq
      rw [BitVec.toNat_ofNat] at hbits
      change _ % 2048 = 2047 at hbits
      show 2048 ≤ _
      omega
    · exact hasSign_packComponents s (by decide) _

/-! ## Operations on values -/

section Values

variable {f : Float.Model.Format} {a b : UnpackedFloat} {s t : Sign}

theorem add_nan : UnpackedFloat.add f a .notANumber = .notANumber := by
  cases a <;> simp only [UnpackedFloat.add]

theorem nan_sub : UnpackedFloat.sub f .notANumber a = .notANumber := by
  cases a <;> simp only [UnpackedFloat.sub]

theorem sub_nan : UnpackedFloat.sub f a .notANumber = .notANumber := by
  cases a <;> simp only [UnpackedFloat.sub]

theorem nan_mul : UnpackedFloat.mul f .notANumber a = .notANumber := by
  cases a <;> simp only [UnpackedFloat.mul]

theorem nan_div : UnpackedFloat.div f .notANumber a = .notANumber := by
  cases a <;> simp only [UnpackedFloat.div]

theorem infinity_div_infinity :
    UnpackedFloat.div f (.infinity s) (.infinity t) = .notANumber := by
  simp only [UnpackedFloat.div]

theorem infinity_add_of_sign (h : HasSign s a) :
    UnpackedFloat.add f (.infinity s) a = .infinity s := by
  cases h with
  | infinity => simp only [UnpackedFloat.add, beq_self_eq_true, if_true]
  | zero | finite => simp only [UnpackedFloat.add]

theorem add_infinity_of_sign (h : HasSign s a) :
    UnpackedFloat.add f a (.infinity s) = .infinity s := by
  cases h with
  | infinity => simp only [UnpackedFloat.add, beq_self_eq_true, if_true]
  | zero | finite => simp only [UnpackedFloat.add]

theorem infinity_half : UnpackedFloat.div f (.infinity s) (unpacked 2.0) = .infinity s := by
  have htwo : ∃ m e h, unpacked 2.0 = .finite .positive m e h := ⟨_, _, by decide, rfl⟩
  obtain ⟨m, e, h, htwo⟩ := htwo
  rw [htwo]
  cases s <;> simp only [UnpackedFloat.div] <;> rfl

theorem isFinite_sub_value (h : a.isFinite = false ∨ b.isFinite = false) :
    (UnpackedFloat.sub f a b).isFinite = false := by
  cases a <;> cases b <;> simp only [UnpackedFloat.sub] <;> grind [UnpackedFloat.isFinite]

end Values

/-! ## NaN -/

theorem isNaN_abs (h : x.isNaN = true) : x.abs.isNaN = true := by
  refine isNaN_iff.mpr ?_
  show unpacked (packed (unpacked x).abs) = _
  rw [isNaN_iff.mp h, UnpackedFloat.abs, unpacked_packed_nan]

theorem isNaN_add_right (h : y.isNaN = true) : (x + y).isNaN = true := by
  refine isNaN_iff.mpr ?_
  show unpacked (packed (UnpackedFloat.add .binary64 (unpacked x) (unpacked y))) = _
  rw [isNaN_iff.mp h, add_nan, unpacked_packed_nan]

theorem isNaN_sub_left (h : x.isNaN = true) : (x - y).isNaN = true := by
  refine isNaN_iff.mpr ?_
  show unpacked (packed (UnpackedFloat.sub .binary64 (unpacked x) (unpacked y))) = _
  rw [isNaN_iff.mp h, nan_sub, unpacked_packed_nan]

theorem isNaN_sub_right (h : y.isNaN = true) : (x - y).isNaN = true := by
  refine isNaN_iff.mpr ?_
  show unpacked (packed (UnpackedFloat.sub .binary64 (unpacked x) (unpacked y))) = _
  rw [isNaN_iff.mp h, sub_nan, unpacked_packed_nan]

theorem isNaN_mul_left (h : x.isNaN = true) : (x * y).isNaN = true := by
  refine isNaN_iff.mpr ?_
  show unpacked (packed (UnpackedFloat.mul .binary64 (unpacked x) (unpacked y))) = _
  rw [isNaN_iff.mp h, nan_mul, unpacked_packed_nan]

theorem isNaN_div_left (h : x.isNaN = true) : (x / y).isNaN = true := by
  refine isNaN_iff.mpr ?_
  show unpacked (packed (UnpackedFloat.div .binary64 (unpacked x) (unpacked y))) = _
  rw [isNaN_iff.mp h, nan_div, unpacked_packed_nan]

/-! ## Infinities -/

theorem isFinite_packed {a : UnpackedFloat} (h : a.isFinite = false) :
    (packed a).isFinite = false := by
  cases a with
  | notANumber => rfl
  | infinity s => cases s <;> rfl
  | zero | finite => cases h

theorem isFinite_abs (h : x.isFinite = false) : x.abs.isFinite = false := by
  refine isFinite_packed (a := (unpacked x).abs) ?_
  rcases isFinite_eq_false_iff.mp h with hx | ⟨s, hx⟩ <;> rw [hx, UnpackedFloat.abs] <;> rfl

theorem isFinite_sub (h : x.isFinite = false ∨ y.isFinite = false) :
    (x - y).isFinite = false :=
  isFinite_packed (isFinite_sub_value h)

theorem unpacked_abs_of_infinite {s : Sign} (h : unpacked x = .infinity s) :
    unpacked x.abs = .infinity .positive := by
  show unpacked (packed (unpacked x).abs) = _
  rw [h, UnpackedFloat.abs, unpacked_packed_infinity]

theorem hasSign_abs (h : unpacked x ≠ .notANumber) : HasSign .positive (unpacked x.abs) := by
  show HasSign .positive (unpacked (packed (unpacked x).abs))
  cases hx : unpacked x with
  | infinity s =>
    rw [UnpackedFloat.abs, unpacked_packed_infinity]
    exact .infinity
  | notANumber => exact absurd hx h
  | zero s =>
    rw [UnpackedFloat.abs, unpacked_packed_zero]
    exact .zero
  | finite s m e hm =>
    rw [UnpackedFloat.abs]
    exact hasSign_packed_finite ..

theorem unpacked_add_abs {s : Sign} (hx : unpacked x ≠ .notANumber)
    (hy : unpacked y ≠ .notANumber) (h : unpacked x = .infinity s ∨ unpacked y = .infinity s) :
    unpacked (x.abs + y.abs) = .infinity .positive := by
  show unpacked (packed (UnpackedFloat.add .binary64 (unpacked x.abs) (unpacked y.abs))) = _
  rcases h with h | h
  · rw [unpacked_abs_of_infinite h, infinity_add_of_sign (hasSign_abs hy), unpacked_packed_infinity]
  · rw [unpacked_abs_of_infinite h, add_infinity_of_sign (hasSign_abs hx), unpacked_packed_infinity]

theorem unpacked_half {s : Sign} (h : unpacked x = .infinity s) :
    unpacked (x / 2.0) = .infinity s := by
  show unpacked (packed (UnpackedFloat.div .binary64 (unpacked x) (unpacked 2.0))) = _
  rw [h, infinity_half, unpacked_packed_infinity]

/-- Nothing that is not finite can be divided by an infinity. -/
theorem isNaN_div_infinity {s : Sign} (hx : x.isFinite = false) (hy : unpacked y = .infinity s) :
    (x / y).isNaN = true := by
  rcases isFinite_eq_false_iff.mp hx with hx | ⟨t, hx⟩
  · exact isNaN_div_left (isNaN_iff.mpr hx)
  · refine isNaN_iff.mpr ?_
    show unpacked (packed (UnpackedFloat.div .binary64 (unpacked x) (unpacked y))) = _
    rw [hx, hy, infinity_div_infinity, unpacked_packed_nan]

/-- A difference relative to the mean says nothing where one of the two is not finite. -/
theorem isNaN_relative (h : x.isFinite = false ∨ y.isFinite = false) :
    ((x - y).abs / ((x.abs + y.abs) / 2.0)).isNaN = true := by
  by_cases hx : unpacked x = .notANumber
  · exact isNaN_div_left (isNaN_abs (isNaN_sub_left (isNaN_iff.mpr hx)))
  by_cases hy : unpacked y = .notANumber
  · exact isNaN_div_left (isNaN_abs (isNaN_sub_right (isNaN_iff.mpr hy)))
  have hinfinite : ∃ s, unpacked x = .infinity s ∨ unpacked y = .infinity s := by
    rcases h with h | h
    · exact ((isFinite_eq_false_iff.mp h).resolve_left hx).imp fun _ => .inl
    · exact ((isFinite_eq_false_iff.mp h).resolve_left hy).imp fun _ => .inr
  obtain ⟨s, hs⟩ := hinfinite
  exact isNaN_div_infinity (isFinite_abs (isFinite_sub h)) (unpacked_half (unpacked_add_abs hx hy hs))

end Double
end Number
end TenderPricing
