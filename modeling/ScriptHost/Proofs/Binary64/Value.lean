import Mathlib.Algebra.Order.Ring.Int
import Mathlib.Algebra.Order.Ring.Nat
import ScriptHost.Binary64.Basic

/-!
# Values of numbers

The value of a finite number is an integer in units of `2 ^ -1074` (`units`), so values are compared without fractions.
Its absolute value is a significand below `2 ^ 53` times a power of two, and the significand has its highest bit unless
the power is the least (`Normal`). There is one such form for each absolute value, so that finite numbers are equal
just where their values are (`eq_iff_units`).
-/

namespace ScriptHost.Binary64

variable {x y : Binary64}

/-! ## Fields -/

theorem implicitBit_eq : implicitBit = 2 ^ 52 := rfl

theorem bits_eq (x : Binary64) :
    x.bits.toNat = (if x.negative then signBit else 0) + (x.exponentField * implicitBit + x.fraction) := by
  have hlt : x.bits.toNat < 2 ^ 64 := x.bits.toNat_lt
  unfold negative exponentField fraction signBit implicitBit
  by_cases hneg : 0x8000000000000000 ≤ x.bits.toNat
  · rw [if_pos (decide_eq_true hneg)]
    omega
  · rw [if_neg (by simpa using hneg)]
    omega

theorem fraction_lt (x : Binary64) : x.fraction < 2 ^ 52 := Nat.mod_lt _ (by decide)

theorem isNaN_of_isFinite (h : x.isFinite = true) : x.isNaN = false := by
  unfold isFinite at h
  unfold isNaN
  simp [bne_iff_ne.1 h]

/-! ## Values -/

/-- Power of two that the significand counts, in units of `2 ^ -1074`. -/
def exponent (x : Binary64) : Nat := max x.exponentField 1 - 1

/-- Absolute value of a finite number, in units of `2 ^ -1074`. -/
def magnitude (x : Binary64) : Nat := x.significand * 2 ^ x.exponent

/-- Value of a finite number, in units of `2 ^ -1074`. -/
def units (x : Binary64) : Int := x.unitsAt (-1074)

theorem units_eq (x : Binary64) : x.units = if x.negative then -(x.magnitude : Int) else x.magnitude := by
  have hscale : (x.scale - -1074).toNat = x.exponent := by
    unfold scale exponent
    omega
  unfold units unitsAt
  rw [hscale]
  rfl

theorem natAbs_units (x : Binary64) : x.units.natAbs = x.magnitude := by
  rw [units_eq]
  split
  · rw [Int.natAbs_neg, Int.natAbs_natCast]
  · rw [Int.natAbs_natCast]

theorem negative_eq (h : x.magnitude ≠ 0) : x.negative = decide (x.units < 0) := by
  rw [units_eq]
  cases x.negative with
  | true => exact (decide_eq_true (by rw [if_pos rfl]; omega)).symm
  | false => exact (decide_eq_false (by rw [if_neg Bool.false_ne_true]; omega)).symm

/-! ## Normal forms -/

/-- A significand and a power of two as finite numbers have them. -/
structure Normal (m p : Nat) : Prop where
  lt : m < 2 ^ 53
  high : 2 ^ 52 ≤ m ∨ p = 0

theorem normal (x : Binary64) : Normal x.significand x.exponent := by
  have hfraction := x.fraction_lt
  refine ⟨?_, ?_⟩ <;> unfold significand
  · rw [implicitBit_eq]
    split <;> omega
  · rw [implicitBit_eq, exponent]
    split
    · next h => exact .inr (by rw [h]; rfl)
    · exact .inl (by omega)

namespace Normal

variable {m p n q : Nat}

/-- The greater of two powers leaves the other significand too large. -/
theorem exponent_le (h : Normal m p) (h' : Normal n q) (he : m * 2 ^ p = n * 2 ^ q) : q ≤ p := by
  refine Nat.le_of_not_lt fun hlt => ?_
  have hn : 2 ^ 52 ≤ n := h'.high.resolve_right (by omega)
  have hsplit : m = n * 2 ^ (q - p) := by
    have hpow : n * 2 ^ q = n * 2 ^ (q - p) * 2 ^ p := by rw [Nat.mul_assoc, ← Nat.pow_add, Nat.sub_add_cancel (Nat.le_of_lt hlt)]
    exact Nat.eq_of_mul_eq_mul_right (Nat.two_pow_pos p) (he.trans hpow)
  have htwo : 2 ^ 1 ≤ 2 ^ (q - p) := Nat.pow_le_pow_right (by decide) (by omega)
  have hlarge : 2 ^ 52 * 2 ^ 1 ≤ n * 2 ^ (q - p) := Nat.mul_le_mul hn htwo
  have hm := h.lt
  omega

theorem inj (h : Normal m p) (h' : Normal n q) (he : m * 2 ^ p = n * 2 ^ q) : m = n ∧ p = q := by
  have hpq : p = q := Nat.le_antisymm (exponent_le h' h he.symm) (exponent_le h h' he)
  subst hpq
  exact ⟨Nat.eq_of_mul_eq_mul_right (Nat.two_pow_pos p) he, rfl⟩

end Normal

theorem fields_eq (hm : x.significand = y.significand) (hp : x.exponent = y.exponent) :
    x.exponentField = y.exponentField ∧ x.fraction = y.fraction := by
  have hx := x.fraction_lt
  have hy := y.fraction_lt
  simp only [significand, implicitBit_eq] at hm
  simp only [exponent] at hp
  split at hm <;> split at hm <;> omega

section

variable (neg : Bool) {m p : Nat} (hm : 2 ^ 52 ≤ m) (hm' : m ≤ 2 ^ 53) (hp : p ≤ 2044)

/-- The number with a significand in its place in the bits. The significand is added to the exponent field as a whole. -/
def assemble (m p : Nat) : Binary64 := ofNatBits ((if neg then signBit else 0) + (p * implicitBit + m))

include hm' hp

theorem toNat_assemble : (assemble neg m p).bits.toNat = (if neg then signBit else 0) + (p * implicitBit + m) := by
  refine UInt64.toNat_ofNat_of_lt' ?_
  unfold signBit implicitBit UInt64.size
  split <;> omega

theorem negative_assemble : (assemble neg m p).negative = neg := by
  rw [negative, toNat_assemble neg hm' hp]
  unfold signBit implicitBit
  cases neg with
  | false => exact decide_eq_false (by rw [if_neg Bool.false_ne_true]; omega)
  | true => exact decide_eq_true (by rw [if_pos rfl]; omega)

theorem assemble_fields :
    (assemble neg m p).exponentField * 2 ^ 52 + (assemble neg m p).fraction = p * 2 ^ 52 + m := by
  have hbits := (assemble neg m p).bits_eq
  rw [toNat_assemble neg hm' hp, negative_assemble neg hm' hp, implicitBit_eq] at hbits
  omega

theorem isFinite_assemble : (assemble neg m p).isFinite = true := by
  have hfields := assemble_fields neg hm' hp
  have hfraction := (assemble neg m p).fraction_lt
  rw [isFinite, bne_iff_ne]
  omega

include hm

/-- A significand of `2 ^ 53` counts as the least one of the next power. -/
theorem magnitude_assemble : (assemble neg m p).magnitude = m * 2 ^ p := by
  have hfields := assemble_fields neg hm' hp
  have hfraction := (assemble neg m p).fraction_lt
  rw [magnitude, significand, exponent, implicitBit_eq, if_neg (by omega), Nat.max_eq_left (by omega)]
  by_cases hcarry : m = 2 ^ 53
  · have hexponent : (assemble neg m p).exponentField - 1 = p + 1 := by omega
    have hzero : (assemble neg m p).fraction = 0 := by omega
    rw [hexponent, hzero, hcarry, Nat.pow_succ]
    omega
  · have hexponent : (assemble neg m p).exponentField - 1 = p := by omega
    have hsignificand : 2 ^ 52 + (assemble neg m p).fraction = m := by omega
    rw [hexponent, hsignificand]

end

theorem eq_of_magnitude (hmag : x.magnitude = y.magnitude) (hneg : x.negative = y.negative) : x = y := by
  obtain ⟨hm, hp⟩ := x.normal.inj y.normal hmag
  obtain ⟨hexponent, hfraction⟩ := fields_eq hm hp
  have hbits : x.bits.toNat = y.bits.toNat := by rw [bits_eq x, bits_eq y, hneg, hexponent, hfraction]
  cases x
  cases y
  rw [Binary64.mk.injEq]
  exact UInt64.toNat_inj.1 hbits

theorem isZero_iff : x.isZero = true ↔ x.magnitude = 0 := by
  have hpow := Nat.two_pow_pos x.exponent
  rw [magnitude, Nat.mul_eq_zero, or_iff_left (by omega), isZero, significand, implicitBit_eq, Bool.and_eq_true,
    beq_iff_eq, beq_iff_eq]
  split <;> omega

theorem eq_iff_units (hx : x.isFinite = true) (hy : y.isFinite = true) : x.eq y = true ↔ x.units = y.units := by
  have hboth : x.eq y = true ↔ x = y ∨ (x.magnitude = 0 ∧ y.magnitude = 0) := by
    rw [← isZero_iff, ← isZero_iff, eq, isNaN_of_isFinite hx, isNaN_of_isFinite hy]
    cases x
    cases y
    simp
  rw [hboth]
  constructor
  · rintro (rfl | ⟨hzero, hzero'⟩)
    · rfl
    · rw [units_eq, units_eq, hzero, hzero']
      simp
  · intro h
    have hmag : x.magnitude = y.magnitude := by rw [← natAbs_units, ← natAbs_units, h]
    by_cases hzero : x.magnitude = 0
    · exact .inr ⟨hzero, hmag ▸ hzero⟩
    · refine .inl (eq_of_magnitude hmag ?_)
      rw [negative_eq hzero, negative_eq (hmag ▸ hzero), h]

/-! ## Integers -/

def unitsOfOne : Nat := 2 ^ 1074

theorem unitsOfOne_pos : 0 < unitsOfOne := pow_pos two_pos _

theorem pow_mul_pow {j k : Nat} (h : j + k = 1074) : 2 ^ j * 2 ^ k = unitsOfOne := by
  rw [unitsOfOne, ← pow_add, h]

/-- A number is finite and has the value of an integer. -/
def Denotes (x : Binary64) (i : Int) : Prop := x.isFinite = true ∧ x.units = i * unitsOfOne

instance (x : Binary64) (i : Int) : Decidable (x.Denotes i) := inferInstanceAs (Decidable (_ ∧ _))

theorem mul_unitsOfOne_inj {i j : Int} (h : i * unitsOfOne = j * unitsOfOne) : i = j :=
  Int.eq_of_mul_eq_mul_right (Int.natCast_ne_zero.2 (Nat.ne_of_gt unitsOfOne_pos)) h

theorem Denotes.unique {i j : Int} (h : x.Denotes i) (h' : x.Denotes j) : i = j :=
  mul_unitsOfOne_inj (h.2.symm.trans h'.2)

theorem Denotes.eq_iff {i j : Int} (hx : x.Denotes i) (hy : y.Denotes j) : x.eq y = true ↔ i = j := by
  rw [eq_iff_units hx.1 hy.1, hx.2, hy.2]
  exact ⟨mul_unitsOfOne_inj, fun he => by rw [he]⟩

end ScriptHost.Binary64
