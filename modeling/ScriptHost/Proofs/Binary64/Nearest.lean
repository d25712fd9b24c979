import ScriptHost.Proofs.Binary64.Value

/-!
# Rounding integers

The numbers around an integer are a power of two apart (`gap`), and an integer rounds to the multiple of it that is
nearest, of two such to the even one (`nearest`). That is what the number made of an integer denotes (`denotes_ofInt`),
no finite number is nearer (`nearest_le`), and the integers that stay what they are are those that some number denotes
(`nearest_eq_iff`, `representable_iff`).
-/

namespace ScriptHost.Binary64

/-! ## Quotients -/

section

variable {n d : Nat}

theorem divHalfEven_cases (n d : Nat) :
    (divHalfEven n d = n / d ∧ 2 * (n % d) ≤ d) ∨ (divHalfEven n d = n / d + 1 ∧ d ≤ 2 * (n % d)) := by
  unfold divHalfEven
  dsimp only
  split
  · exact .inl ⟨rfl, by omega⟩
  · split
    · exact .inr ⟨rfl, by omega⟩
    · rcases Nat.mod_two_eq_zero_or_one (n / d) with heven | hodd
      · exact .inl ⟨by rw [heven, Nat.add_zero], by omega⟩
      · exact .inr ⟨by rw [hodd], by omega⟩

theorem divHalfEven_of_dvd (h : d ∣ n) (hd : 0 < d) : divHalfEven n d = n / d := by
  have hmod : n % d = 0 := Nat.mod_eq_zero_of_dvd h
  rcases divHalfEven_cases n d with ⟨hq, -⟩ | ⟨-, hr⟩
  · exact hq
  · omega

theorem divHalfEven_tie (h : 2 * (n % d) = d) : divHalfEven n d % 2 = 0 := by
  unfold divHalfEven
  dsimp only
  rw [if_neg (by omega), if_neg (by omega)]
  omega

theorem divHalfEven_one (n : Nat) : divHalfEven n 1 = n := by
  rw [divHalfEven_of_dvd (Nat.one_dvd n) Nat.one_pos, Nat.div_one]

/-- Rounding to multiples keeps the multiples and nothing else. -/
theorem divHalfEven_mul_eq_iff (hd : 0 < d) : divHalfEven n d * d = n ↔ d ∣ n := by
  constructor
  · intro h
    exact ⟨_, by rw [Nat.mul_comm, h]⟩
  · intro h
    rw [divHalfEven_of_dvd h hd, Nat.div_mul_cancel h]

theorem divHalfEven_le (hd : 0 < d) (k : Nat) :
    ((divHalfEven n d * d : Nat) - n : Int).natAbs ≤ ((k * d : Nat) - n : Int).natAbs := by
  have hdiv : n / d * d + n % d = n := Nat.div_add_mod' n d
  have hmod := Nat.mod_lt n hd
  have hsucc : (n / d + 1) * d = n / d * d + d := Nat.succ_mul ..
  -- A multiple is at most the quotient's or at least the one after it.
  have hside : k * d ≤ n / d * d ∨ n / d * d + d ≤ k * d := by
    rcases Nat.lt_or_ge (n / d) k with hk | hk
    · exact .inr (hsucc ▸ Nat.mul_le_mul_right d hk)
    · exact .inl (Nat.mul_le_mul_right d hk)
  rcases divHalfEven_cases n d with ⟨hq, hr⟩ | ⟨hq, hr⟩
  · rw [hq]
    omega
  · rw [hq, hsucc]
    omega

end

/-! ## Nearest integers -/

/-- How far the numbers around an integer are apart, if they are not less than one apart. -/
def gap (n : Nat) : Nat := 2 ^ (n.log2 - 52)

/-- The multiple of the gap that is nearest to a natural number. -/
def nearestNat (n : Nat) : Nat := divHalfEven n (gap n) * gap n

def nearest (i : Int) : Int := if i < 0 then -(nearestNat i.natAbs : Int) else nearestNat i.natAbs

section

variable {n : Nat}

theorem gap_pos (n : Nat) : 0 < gap n := Nat.two_pow_pos _

theorem gap_eq_one (h : n.log2 ≤ 52) : gap n = 1 := by rw [gap, Nat.sub_eq_zero_of_le h, Nat.pow_zero]

theorem nearestNat_of_log2 (h : n.log2 ≤ 52) : nearestNat n = n := by
  rw [nearestNat, gap_eq_one h, divHalfEven_one, Nat.mul_one]

theorem ratioScale_one (hn : n ≠ 0) : ratioScale n 1 = (n.log2 : Int) - 52 := by
  have hlog : Nat.log2 1 = 0 := rfl
  have hlow := Nat.log2_self_le hn
  have hreached : 2 * implicitBit * (1 * Nat.pow 2 ((n.log2 : Int) - 53).toNat) ≤
      n * Nat.pow 2 (-((n.log2 : Int) - 53)).toNat := by
    calc 2 * implicitBit * (1 * Nat.pow 2 ((n.log2 : Int) - 53).toNat)
        = 2 ^ 53 * 2 ^ ((n.log2 : Int) - 53).toNat := by rw [Nat.one_mul]; rfl
      _ = 2 ^ n.log2 * 2 ^ (-((n.log2 : Int) - 53)).toNat := by
          rw [← Nat.pow_add, ← Nat.pow_add]
          congr 1
          omega
      _ ≤ n * Nat.pow 2 (-((n.log2 : Int) - 53)).toNat := Nat.mul_le_mul_right _ hlow
  unfold ratioScale
  dsimp only
  rw [hlog, Int.natCast_zero, Int.sub_zero, if_neg (by simpa using hreached)]
  omega

def lead (n : Nat) : Nat := divHalfEven (n * 2 ^ (52 - n.log2)) (gap n)

theorem lead_mul (n : Nat) : lead n * 2 ^ n.log2 = nearestNat n * 2 ^ 52 := by
  rcases Nat.le_total n.log2 52 with h | h
  · rw [nearestNat_of_log2 h, lead, gap_eq_one h, divHalfEven_one, Nat.mul_assoc, ← Nat.pow_add, Nat.sub_add_cancel h]
  · have hsplit : 2 ^ n.log2 = gap n * 2 ^ 52 := by rw [gap, ← Nat.pow_add, Nat.sub_add_cancel h]
    rw [lead, Nat.sub_eq_zero_of_le h, Nat.pow_zero, Nat.mul_one, hsplit, ← Nat.mul_assoc, nearestNat]

theorem lead_bounds (hn : n ≠ 0) : 2 ^ 52 ≤ lead n ∧ lead n ≤ 2 ^ 53 := by
  have hlow := Nat.log2_self_le hn
  have hhigh := Nat.lt_log2_self (n := n)
  -- The quotient has 53 bits, and rounding adds one at most.
  have hquotient : 2 ^ 52 ≤ n * 2 ^ (52 - n.log2) / gap n ∧ n * 2 ^ (52 - n.log2) / gap n < 2 ^ 53 := by
    have hpow : 2 ^ n.log2 * 2 ^ (52 - n.log2) = 2 ^ 52 * gap n := by
      rw [gap, ← Nat.pow_add, ← Nat.pow_add]
      congr 1
      omega
    rw [Nat.le_div_iff_mul_le (gap_pos n), Nat.div_lt_iff_lt_mul (gap_pos n)]
    constructor
    · rw [← hpow]
      exact Nat.mul_le_mul_right _ hlow
    · have hnext : 2 ^ (n.log2 + 1) * 2 ^ (52 - n.log2) = 2 ^ 53 * gap n := by
        rw [Nat.pow_succ, Nat.mul_right_comm, hpow]
        omega
      rw [← hnext]
      exact Nat.mul_lt_mul_of_pos_right hhigh (Nat.two_pow_pos _)
  rcases divHalfEven_cases (n * 2 ^ (52 - n.log2)) (gap n) with ⟨hq, -⟩ | ⟨hq, -⟩ <;> rw [lead, hq] <;> omega

theorem ofRatio_one (neg : Bool) (hn : n ≠ 0) (hlog : n.log2 ≤ 1022) :
    ofRatio neg n 1 = assemble neg (lead n) (n.log2 + 1022) := by
  have hlead := (lead_bounds hn).2
  have hup : ((n.log2 : Int) - 52).toNat = n.log2 - 52 := by omega
  have hdown : (-((n.log2 : Int) - 52)).toNat = 52 - n.log2 := by omega
  have hscale : ((n.log2 : Int) - 52 + 1074).toNat = n.log2 + 1022 := by omega
  have hm : divHalfEven (n * Nat.pow 2 (52 - n.log2)) (1 * Nat.pow 2 (n.log2 - 52)) = lead n := by
    rw [Nat.one_mul]
    rfl
  unfold ofRatio
  dsimp only
  rw [if_neg hn, ratioScale_one hn, hup, hdown, hscale, hm, if_neg (by unfold implicitBit; omega)]
  rfl

end

/-- The number made of an integer of 64 bits denotes the integer that it is rounded to. -/
theorem denotes_ofInt {i : Int} (h : i.natAbs < 2 ^ 64) : (ofInt i).Denotes (nearest i) := by
  by_cases hi : i = 0
  · subst hi
    have hzero : nearest 0 = 0 := rfl
    refine ⟨rfl, ?_⟩
    rw [hzero, Int.zero_mul]
    rfl
  · have hn : i.natAbs ≠ 0 := Int.natAbs_ne_zero.2 hi
    have hlog : i.natAbs.log2 < 64 := (Nat.log2_lt hn).2 h
    obtain ⟨hlow, hhigh⟩ := lead_bounds hn
    have hp : i.natAbs.log2 + 1022 ≤ 2044 := by omega
    rw [ofInt, ofRatio_one _ hn (by omega)]
    refine ⟨isFinite_assemble _ hhigh hp, ?_⟩
    have hmagnitude : (assemble (decide (i < 0)) (lead i.natAbs) (i.natAbs.log2 + 1022)).magnitude =
        nearestNat i.natAbs * unitsOfOne := by
      rw [magnitude_assemble _ hlow hhigh hp, pow_add, ← Nat.mul_assoc, lead_mul, Nat.mul_assoc,
        @pow_mul_pow 52 1022 rfl]
    rw [units_eq, negative_assemble _ hhigh hp, hmagnitude, nearest]
    by_cases hneg : i < 0
    · rw [if_pos (decide_eq_true hneg), if_pos hneg, Int.natCast_mul, Int.neg_mul]
    · rw [if_neg (by simpa using hneg), if_neg hneg, Int.natCast_mul]

/-! ## Nearness -/

/-- An absolute value is a multiple of the gap at an integer, or it is below the significands that have 53 bits at that
gap. -/
theorem magnitude_cases (x : Binary64) (n : Nat) :
    (∃ k, x.magnitude = k * gap n * unitsOfOne) ∨ x.magnitude < 2 ^ 52 * gap n * unitsOfOne := by
  have hgap : gap n * unitsOfOne = 2 ^ (n.log2 - 52 + 1074) := by rw [gap, unitsOfOne, Nat.pow_add]
  simp only [Nat.mul_assoc, hgap]
  rcases Nat.lt_or_ge x.exponent (n.log2 - 52 + 1074) with h | h
  · refine .inr ?_
    calc x.significand * 2 ^ x.exponent
        < 2 ^ 53 * 2 ^ x.exponent := Nat.mul_lt_mul_of_pos_right x.normal.lt (Nat.two_pow_pos _)
      _ = 2 ^ 52 * 2 ^ (x.exponent + 1) := by rw [Nat.pow_succ]; omega
      _ ≤ 2 ^ 52 * 2 ^ (n.log2 - 52 + 1074) := Nat.mul_le_mul_left _ (Nat.pow_le_pow_right (by decide) h)
  · refine .inl ⟨x.significand * 2 ^ (x.exponent - (n.log2 - 52 + 1074)), ?_⟩
    rw [magnitude, Nat.mul_assoc, ← Nat.pow_add, Nat.sub_add_cancel h]

theorem natAbs_mul_sub (a b u : Nat) :
    ((a * u : Nat) - (b * u : Nat) : Int).natAbs = ((a : Int) - b).natAbs * u := by
  rw [Int.natCast_mul, Int.natCast_mul, ← Int.sub_mul, Int.natAbs_mul, Int.natAbs_natCast]

theorem nearestNat_le (x : Binary64) (n : Nat) :
    ((nearestNat n * unitsOfOne : Nat) - (n * unitsOfOne : Nat) : Int).natAbs ≤
      ((x.magnitude : Int) - (n * unitsOfOne : Nat)).natAbs := by
  rw [natAbs_mul_sub]
  rcases x.magnitude_cases n with ⟨k, hk⟩ | hlow
  · rw [hk, natAbs_mul_sub]
    exact Nat.mul_le_mul_right _ (divHalfEven_le (gap_pos n) k)
  · rcases Nat.le_total n.log2 52 with hlog | hlog
    · rw [nearestNat_of_log2 hlog, Int.sub_self, Int.natAbs_zero, Nat.zero_mul]
      exact Nat.zero_le _
    · -- The least significand of 53 bits is a multiple that is not above the integer.
      have hn : n ≠ 0 := by
        rintro rfl
        exact absurd hlog (by decide)
      have hleast : 2 ^ 52 * gap n ≤ n := by
        rw [gap, ← Nat.pow_add, Nat.add_sub_cancel' hlog]
        exact Nat.log2_self_le hn
      have hscaled := Nat.mul_le_mul_right unitsOfOne hleast
      have hnearest := Nat.mul_le_mul_right unitsOfOne (divHalfEven_le (n := n) (gap_pos n) (2 ^ 52))
      rw [← natAbs_mul_sub (2 ^ 52 * gap n)] at hnearest
      exact Nat.le_trans hnearest (by omega)

/-- No finite number is nearer to an integer than the one that it is rounded to. -/
theorem nearest_le (x : Binary64) (i : Int) :
    (nearest i * unitsOfOne - i * unitsOfOne).natAbs ≤ (x.units - i * unitsOfOne).natAbs := by
  have habs := x.nearestNat_le i.natAbs
  have hx := x.natAbs_units
  have hi : (i * unitsOfOne).natAbs = i.natAbs * unitsOfOne := by rw [Int.natAbs_mul, Int.natAbs_natCast]
  have hnear : (nearest i * unitsOfOne - i * unitsOfOne).natAbs =
      ((nearestNat i.natAbs * unitsOfOne : Nat) - (i.natAbs * unitsOfOne : Nat) : Int).natAbs := by
    rw [natAbs_mul_sub, ← Int.sub_mul, Int.natAbs_mul, Int.natAbs_natCast, nearest]
    split <;> congr 1 <;> omega
  omega

/-! ## Exact integers -/

/-- An integer has 53 significant bits at most. -/
def Representable (i : Int) : Prop := ∃ m e : Nat, m < 2 ^ 53 ∧ i.natAbs = m * 2 ^ e

theorem gap_dvd_iff (n : Nat) : gap n ∣ n ↔ ∃ m e : Nat, m < 2 ^ 53 ∧ n = m * 2 ^ e := by
  constructor
  · rintro ⟨m, hm⟩
    refine ⟨m, n.log2 - 52, ?_, by rw [Nat.mul_comm]; exact hm⟩
    have hlt : gap n * m < gap n * 2 ^ 53 := by
      calc gap n * m = n := hm.symm
        _ < 2 ^ (n.log2 + 1) := Nat.lt_log2_self
        _ ≤ 2 ^ (n.log2 - 52 + 53) := Nat.pow_le_pow_right (by decide) (by omega)
        _ = gap n * 2 ^ 53 := Nat.pow_add ..
    exact Nat.lt_of_mul_lt_mul_left hlt
  · rintro ⟨m, e, hm, he⟩
    by_cases hn : n = 0
    · rw [hn]
      exact Nat.dvd_zero _
    · have hlog : n.log2 < 53 + e := by
        rw [Nat.log2_lt hn, Nat.pow_add, he]
        exact Nat.mul_lt_mul_of_pos_right hm (Nat.two_pow_pos e)
      have hpow : gap n ∣ 2 ^ e := Nat.pow_dvd_pow 2 (by omega)
      calc gap n ∣ m * 2 ^ e := Nat.dvd_trans hpow (Nat.dvd_mul_left ..)
        _ = n := he.symm

/-- Rounding keeps the integers of 53 significant bits and nothing else. -/
theorem nearest_eq_iff (i : Int) : nearest i = i ↔ Representable i := by
  have hsign : nearest i = i ↔ nearestNat i.natAbs = i.natAbs := by
    unfold nearest
    split <;> omega
  rw [hsign, nearestNat, divHalfEven_mul_eq_iff (gap_pos _), gap_dvd_iff, Representable]

theorem representable_of_le {i : Int} (h : i.natAbs ≤ 2 ^ 53) : Representable i := by
  rcases Nat.lt_or_eq_of_le h with hlt | heq
  · exact ⟨i.natAbs, 0, hlt, by rw [Nat.pow_zero, Nat.mul_one]⟩
  · exact ⟨1, 53, by decide, by rw [heq, Nat.one_mul]⟩

theorem Denotes.representable {x : Binary64} {i : Int} (h : x.Denotes i) : Representable i := by
  have hvalue : x.significand * 2 ^ x.exponent = i.natAbs * unitsOfOne := by
    calc x.magnitude = x.units.natAbs := x.natAbs_units.symm
      _ = i.natAbs * unitsOfOne := by rw [h.2, Int.natAbs_mul, Int.natAbs_natCast]
  rcases Nat.le_total 1074 x.exponent with hge | hle
  · refine ⟨x.significand, x.exponent - 1074, x.normal.lt, ?_⟩
    have hsplit : 2 ^ x.exponent = 2 ^ (x.exponent - 1074) * unitsOfOne := by
      rw [unitsOfOne, ← pow_add, Nat.sub_add_cancel hge]
    rw [hsplit, ← Nat.mul_assoc] at hvalue
    exact (Nat.eq_of_mul_eq_mul_right unitsOfOne_pos hvalue).symm
  · refine ⟨i.natAbs, 0, ?_, by rw [Nat.pow_zero, Nat.mul_one]⟩
    have hsplit : unitsOfOne = 2 ^ (1074 - x.exponent) * 2 ^ x.exponent := (pow_mul_pow (Nat.sub_add_cancel hle)).symm
    rw [hsplit, ← Nat.mul_assoc] at hvalue
    have hsignificand := Nat.eq_of_mul_eq_mul_right (Nat.two_pow_pos _) hvalue
    have hlt := x.normal.lt
    rw [hsignificand] at hlt
    exact Nat.lt_of_le_of_lt (Nat.le_mul_of_pos_right _ (Nat.two_pow_pos _)) hlt

/-- Rounding is exact wherever any number is. -/
theorem representable_iff {i : Int} (h : i.natAbs < 2 ^ 64) : Representable i ↔ ∃ x : Binary64, x.Denotes i := by
  constructor
  · intro hi
    have hdenotes := denotes_ofInt h
    rw [(nearest_eq_iff i).2 hi] at hdenotes
    exact ⟨ofInt i, hdenotes⟩
  · rintro ⟨x, hx⟩
    exact hx.representable

end ScriptHost.Binary64
