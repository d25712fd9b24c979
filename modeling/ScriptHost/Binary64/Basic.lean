/-!
# Binary64 numbers

A number is its 64 bits: sign, eleven exponent bits, fifty-two fraction bits. A finite one is
`± significand · 2 ^ scale` with natural `significand`, and every operation below is computed
exactly on that pair and rounded once, to the nearest number, a tie going to the even significand.
Nothing here uses the machine's floating point unit, so each operation can be evaluated in a proof.
-/

namespace ScriptHost

/-- A binary64 number, held as its bits. Two NaNs with different payloads are different values here;
numeric equality is `Binary64.eq`. -/
structure Binary64 where
  bits : UInt64
deriving DecidableEq, Inhabited

namespace Binary64

def signBit : Nat := 0x8000000000000000

/-- The implicit bit of a significand, and so one step of the exponent field. -/
def implicitBit : Nat := 0x10000000000000

def ofNatBits (n : Nat) : Binary64 := ⟨UInt64.ofNat n⟩

def negative (x : Binary64) : Bool := decide (signBit ≤ x.bits.toNat)

def exponentField (x : Binary64) : Nat := x.bits.toNat / implicitBit % 2048

def fraction (x : Binary64) : Nat := x.bits.toNat % implicitBit

def isNaN (x : Binary64) : Bool := x.exponentField == 2047 && x.fraction != 0

def isFinite (x : Binary64) : Bool := x.exponentField != 2047

def isZero (x : Binary64) : Bool := x.exponentField == 0 && x.fraction == 0

/-- Significand of a finite number; the implicit bit is set unless the exponent field is zero. -/
def significand (x : Binary64) : Nat :=
  if x.exponentField = 0 then x.fraction else implicitBit + x.fraction

/-- Power of two that the significand counts. -/
def scale (x : Binary64) : Int := (max x.exponentField 1 : Nat) - (1075 : Int)

/-! ## Constants -/

def nan : Binary64 := ofNatBits (2047 * implicitBit + implicitBit / 2)

def infinity (neg : Bool) : Binary64 := ofNatBits ((if neg then signBit else 0) + 2047 * implicitBit)

def zero (neg : Bool) : Binary64 := ofNatBits (if neg then signBit else 0)

/-! ## Rounding -/

/-- The integer nearest to `num / den`, a tie going to the even one. -/
def divHalfEven (num den : Nat) : Nat :=
  let q := num / den
  let r := num % den
  if 2 * r < den then q
  else if den < 2 * r then q + 1
  else q + q % 2

/-- The least scale, from `-1074` on, whose significands reach `num / den`: the quotient in units of
`2 ^ scale` is below `2 ^ 53`. -/
def ratioScale (num den : Nat) : Int :=
  let estimate : Int := (Nat.log2 num : Int) - (Nat.log2 den : Int) - 53
  let reached (s : Int) : Bool :=
    num * Nat.pow 2 (-s).toNat < 2 * implicitBit * (den * Nat.pow 2 s.toNat)
  let s := if reached estimate then estimate else estimate + 1
  max s (-1074)

/-- `± num / den` rounded to the nearest number. The significand is added to the exponent field as a
whole, so that a significand rounded up to `2 ^ 53` moves on to the next exponent by itself. -/
def ofRatio (neg : Bool) (num den : Nat) : Binary64 :=
  if num = 0 then zero neg
  else
    let s := ratioScale num den
    let m := divHalfEven (num * Nat.pow 2 (-s).toNat) (den * Nat.pow 2 s.toNat)
    let magnitude := (s + 1074).toNat * implicitBit + m
    if 2047 * implicitBit ≤ magnitude then infinity neg
    else ofNatBits ((if neg then signBit else 0) + magnitude)

def ofScaled (neg : Bool) (m : Nat) (s : Int) : Binary64 :=
  ofRatio neg (m * Nat.pow 2 s.toNat) (Nat.pow 2 (-s).toNat)

def ofInt (i : Int) : Binary64 := ofRatio (decide (i < 0)) i.natAbs 1

/-! ## Operations -/

/-- Numeric equality: no NaN equals anything, and the two zeros are equal. -/
def eq (x y : Binary64) : Bool :=
  !x.isNaN && !y.isNaN && (x.bits == y.bits || (x.isZero && y.isZero))

/-- The value of a finite number as a multiple of `2 ^ s`, for an `s` that is at most its scale. -/
def unitsAt (s : Int) (x : Binary64) : Int :=
  let m : Int := x.significand * Nat.pow 2 (x.scale - s).toNat
  if x.negative then -m else m

/-- Sum, rounded once. Opposite infinities give NaN; an exact zero is negative only if both are. -/
def add (x y : Binary64) : Binary64 :=
  if x.isNaN || y.isNaN then nan
  else if !x.isFinite then
    if !y.isFinite && x.negative != y.negative then nan else x
  else if !y.isFinite then y
  else
    let s := min x.scale y.scale
    let sum := x.unitsAt s + y.unitsAt s
    if sum = 0 then zero (x.negative && y.negative)
    else ofScaled (decide (sum < 0)) sum.natAbs s

/-- The integer part of a finite number, toward zero; `0` for the others. -/
def truncate (x : Binary64) : Int :=
  if x.isFinite then
    let m := x.significand * Nat.pow 2 x.scale.toNat / Nat.pow 2 (-x.scale).toNat
    if x.negative then -(m : Int) else m
  else 0

/-- The integer part reduced modulo `2 ^ 32` into the signed range. -/
def toInt32 (x : Binary64) : Int32 := Int32.ofInt (x.truncate.bmod 0x100000000)

/-- The integer part, clamped to the signed 64-bit range. -/
def toInt64 (x : Binary64) : Int64 :=
  Int64.ofInt (max (-0x8000000000000000) (min 0x7fffffffffffffff x.truncate))

end Binary64
end ScriptHost
