import ScriptHost.Binary64.Basic

/-!
# Shortest decimal digits

A finite number is written with the fewest decimal digits that read back as the same number. The
reals that round to `m · 2 ^ s` form an interval around it whose ends belong to it when `m` is even.
For `1, 2, …, 17` digits the two neighbours of the value on the grid of that many digits are tried
against the interval; the first grid with a hit wins, of two hits the nearer, and of two equally near
ones the greater.
-/

namespace ScriptHost.Binary64

structure Decimal where
  digits : Nat
  exponent : Int
deriving DecidableEq, Inhabited

def digitCount (n : Nat) : Nat := (Nat.toDigits 10 n).length

def leadingExponent (num den : Nat) : Int :=
  if den ≤ num then (digitCount (num / den) : Int) - 1
  else -(digitCount ((den - 1) / num) : Int)

/-- The interval of reals that round to a number, in units of `2 ^ unit`. -/
structure Interval where
  low : Nat
  value : Nat
  high : Nat
  closed : Bool
  unit : Int

/-- The gap below a power of two is half the gap above it, unless the number is among the smallest. -/
def interval (x : Binary64) : Interval :=
  let m := x.significand
  { low := if x.fraction = 0 ∧ 1 < x.exponentField then 4 * m - 1 else 4 * m - 2
    value := 4 * m
    high := 4 * m + 2
    closed := m % 2 == 0
    unit := x.scale - 2 }

namespace Interval

/-- `p` in units of `2 ^ unit` and `d · 10 ^ k`, brought to one denominator. -/
def common (i : Interval) (p d : Nat) (k : Int) : Nat × Nat :=
  (p * Nat.pow 2 i.unit.toNat * Nat.pow 10 (-k).toNat, d * Nat.pow 10 k.toNat * Nat.pow 2 (-i.unit).toNat)

def contains (i : Interval) (d : Nat) (k : Int) : Bool :=
  let (low, x) := i.common i.low d k
  let (high, _) := i.common i.high d k
  if i.closed then low ≤ x && x ≤ high else low < x && x < high

/-- Distance of `d · 10 ^ k` from the value, over a denominator that depends on `k` only. -/
def distance (i : Interval) (d : Nat) (k : Int) : Nat :=
  let (v, x) := i.common i.value d k
  (v - x) + (x - v)

/-- The best of the two neighbours of the value among the multiples of `10 ^ k`, if one is inside. -/
def onGrid (i : Interval) (k : Int) : Option Decimal :=
  let (v, one) := i.common i.value 1 k
  let d := v / one
  match i.contains d k && decide (d ≠ 0), i.contains (d + 1) k with
  | true, true => some ⟨if i.distance d k < i.distance (d + 1) k then d else d + 1, k⟩
  | true, false => some ⟨d, k⟩
  | false, true => some ⟨d + 1, k⟩
  | false, false => none

/-- The first grid, from exponent `k` down, that has a point inside. -/
def search (i : Interval) : Nat → Int → Decimal
  | 0, k => ⟨i.value * Nat.pow 2 i.unit.toNat * Nat.pow 10 (-k).toNat / (Nat.pow 2 (-i.unit).toNat * Nat.pow 10 k.toNat), k⟩
  | n + 1, k => (i.onGrid k).getD (i.search n (k - 1))

end Interval

/-- Drop zeros from the end of the digits, at most `fuel` of them. -/
def Decimal.strip : Nat → Decimal → Decimal
  | 0, d => d
  | fuel + 1, d => if d.digits % 10 = 0 ∧ d.digits ≠ 0 then Decimal.strip fuel ⟨d.digits / 10, d.exponent + 1⟩ else d

/-- The shortest digits of a finite number other than zero, its sign left out. -/
def shortest (x : Binary64) : Decimal :=
  let i := x.interval
  let e := leadingExponent (i.value * Nat.pow 2 i.unit.toNat) (Nat.pow 2 (-i.unit).toNat)
  let d := i.search 17 e
  d.strip (digitCount d.digits)

end ScriptHost.Binary64
