import ScriptHost.Code.Flags

/-!
# Flag words

What the flags of a word are after a program point or another flag was put into it: the point is above
the flags, and a flag does not touch the others.
-/

namespace ScriptHost.SiteFlags

theorem testBit_low (i : Nat) : Nat.testBit 2047 i = decide (i < 11) := Nat.testBit_two_pow_sub_one 11 i

theorem testBit_point (pp : Int32) {i : Nat} (hi : i < 11) :
    (pp.toUInt32 <<< pointShift).toNat.testBit i = false := by
  rw [UInt32.toNat_shiftLeft]
  show Nat.testBit ((pp.toUInt32.toNat <<< 11) % 2 ^ 32) i = false
  rw [Nat.testBit_mod_two_pow, Nat.testBit_shiftLeft]
  simp [Nat.not_le.2 hi]

theorem contains_congr {f g k : SiteFlags} (h : ∀ i, k.bits.toNat.testBit i = true →
    f.bits.toNat.testBit i = g.bits.toNat.testBit i) : f.contains k = g.contains k := by
  have hbits : f.bits &&& k.bits = g.bits &&& k.bits := by
    apply UInt32.toNat_inj.1
    apply Nat.eq_of_testBit_eq
    intro i
    rw [UInt32.toNat_and, UInt32.toNat_and, Nat.testBit_and, Nat.testBit_and]
    cases hk : k.bits.toNat.testBit i with
    | false => rw [Bool.and_false, Bool.and_false]
    | true => rw [h i hk]
  rw [contains, contains, hbits]

theorem contains_withPoint (f : SiteFlags) (pp : Int32) {k : SiteFlags} (hk : k.bits.toNat < 2048) :
    (f.withPoint pp).contains k = f.contains k := by
  apply contains_congr
  intro i hi
  have hpow : 2 ^ i < 2 ^ 11 := Nat.lt_of_le_of_lt (Nat.ge_two_pow_of_testBit hi) hk
  have hlt : i < 11 := (Nat.pow_lt_pow_iff_right (by decide)).1 hpow
  show (f.bits &&& 2047 ||| pp.toUInt32 <<< pointShift).toNat.testBit i = _
  rw [UInt32.toNat_or, Nat.testBit_or, testBit_point pp hlt, UInt32.toNat_and, Nat.testBit_and]
  show (f.bits.toNat.testBit i && Nat.testBit 2047 i || false) = _
  rw [testBit_low, decide_eq_true hlt, Bool.and_true, Bool.or_false]

theorem isScope_withPoint (f : SiteFlags) (pp : Int32) : (f.withPoint pp).isScope = f.isScope :=
  contains_withPoint f pp (by decide)

theorem isOptimistic_withPoint (f : SiteFlags) (pp : Int32) : (f.withPoint pp).isOptimistic = f.isOptimistic :=
  contains_withPoint f pp (by decide)

theorem testBit_or (f g : SiteFlags) (i : Nat) :
    (f ||| g).bits.toNat.testBit i = (f.bits.toNat.testBit i || g.bits.toNat.testBit i) := by
  show (f.bits ||| g.bits).toNat.testBit i = _
  rw [UInt32.toNat_or, Nat.testBit_or]

theorem isScope_or (f : SiteFlags) : (f ||| .optimistic).isScope = f.isScope := by
  apply contains_congr
  intro i hi
  obtain rfl : i = 0 := Nat.testBit_one_eq_true_iff_self_eq_zero.1 hi
  rw [testBit_or]
  exact Bool.or_false _

theorem isOptimistic_or (f : SiteFlags) : (f ||| .optimistic).isOptimistic = true := by
  have h : (f ||| .optimistic).contains .optimistic = SiteFlags.contains .optimistic .optimistic := by
    apply contains_congr
    intro i hi
    rw [testBit_or, hi, Bool.or_true]
  exact h

theorem validPoint_le {pp : Int32} (h : validPoint pp = true) : pp.toUInt32.toNat ≤ 2097151 := by
  rw [validPoint, Bool.and_eq_true, decide_eq_true_eq, decide_eq_true_eq] at h
  have hlow : 0 ≤ pp.toInt := Int32.le_iff_toInt_le.1 h.1
  have hhigh : pp.toInt ≤ 2097151 := Int32.le_iff_toInt_le.1 h.2
  rw [← Int32.toInt_toBitVec] at hlow hhigh
  rw [BitVec.toInt_eq_toNat_of_lt (BitVec.toInt_pos_iff.1 hlow), Int32.toNat_toBitVec] at hhigh
  omega

/-- A valid program point is read back from the word that it was put into. -/
theorem point_withPoint (f : SiteFlags) {pp : Int32} (h : validPoint pp = true) : (f.withPoint pp).point = pp := by
  have hbits : (f.bits &&& 2047 ||| pp.toUInt32 <<< pointShift) >>> pointShift = pp.toUInt32 := by
    apply UInt32.toNat_inj.1
    apply Nat.eq_of_testBit_eq
    intro i
    rw [UInt32.toNat_shiftRight, UInt32.toNat_or, UInt32.toNat_and, UInt32.toNat_shiftLeft]
    show Nat.testBit ((f.bits.toNat &&& 2047 ||| (pp.toUInt32.toNat <<< 11) % 2 ^ 32) >>> 11) i = _
    rw [Nat.testBit_shiftRight, Nat.testBit_or, Nat.testBit_and, testBit_low, Nat.testBit_mod_two_pow,
      Nat.testBit_shiftLeft]
    by_cases hi : i < 21
    · have h₁ : ¬11 + i < 11 := by omega
      have h₂ : 11 + i < 32 := by omega
      simp [h₁, h₂]
    · -- above the word there is nothing, and a point has no bits there either
      have hpow : (2 : Nat) ^ 21 ≤ 2 ^ i := Nat.pow_le_pow_right (by decide) (Nat.le_of_not_lt hi)
      have hnone : pp.toUInt32.toNat.testBit i = false :=
        Nat.testBit_lt_two_pow (Nat.lt_of_lt_of_le (Nat.lt_succ_of_le (validPoint_le h)) hpow)
      have h₁ : ¬11 + i < 11 := by omega
      have h₂ : ¬11 + i < 32 := by omega
      simp [h₁, h₂, hnone]
  rw [point, withPoint, hbits]
  simp

end ScriptHost.SiteFlags
