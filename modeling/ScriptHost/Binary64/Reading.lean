import ScriptHost.Binary64.Basic

/-!
# Reading decimals

A decimal is an optional sign, then `inf`, `infinity` or `nan` in any case, or ASCII digits with an
optional point among or around them and an optional exponent. It reads as the nearest number.
-/

namespace ScriptHost.Binary64

def digitValue (c : Char) : Nat := c.toNat - '0'.toNat

def natOfDigits (ds : List Char) : Nat := ds.foldl (fun n c => 10 * n + digitValue c) 0

def lowerAscii (c : Char) : Char := if 'A' ≤ c ∧ c ≤ 'Z' then Char.ofNat (c.toNat + 32) else c

/-- Sign of a text and what follows it; a text without a sign is positive. -/
def splitSign : List Char → Bool × List Char
  | '-' :: cs => (true, cs)
  | '+' :: cs => (false, cs)
  | cs => (false, cs)

/-- The exponent part: nothing, or `e` with an optionally signed row of digits up to the end. -/
def readExponent : List Char → Option Int
  | [] => some 0
  | e :: cs =>
    let (neg, ds) := splitSign cs
    if (e = 'e' ∨ e = 'E') ∧ ds ≠ [] ∧ ds.all Char.isDigit then
      some (if neg then -(natOfDigits ds : Int) else natOfDigits ds)
    else none

/-- `± digits · 10 ^ exponent`. Decimals far outside the range are settled by their leading digit, so
that no power of ten is larger than the digits and the range need. -/
def ofDecimal (neg : Bool) (digits : Nat) (exponent : Int) : Binary64 :=
  let leading := exponent + ((toString digits).length : Int)
  if digits = 0 ∨ leading < -330 then zero neg
  else if 311 < leading then infinity neg
  else ofRatio neg (digits * Nat.pow 10 exponent.toNat) (Nat.pow 10 (-exponent).toNat)

/-- Digits around an optional point, then the exponent. At least one digit is needed. -/
def readUnsigned (neg : Bool) (cs : List Char) : Option Binary64 := do
  let whole := cs.takeWhile Char.isDigit
  let rest := cs.dropWhile Char.isDigit
  let (part, tail) := match rest with
    | '.' :: r => (r.takeWhile Char.isDigit, r.dropWhile Char.isDigit)
    | r => ([], r)
  if whole.isEmpty && part.isEmpty then none
  else
    let e ← readExponent tail
    return ofDecimal neg (natOfDigits (whole ++ part)) (e - (part.length : Int))

def read? (cs : List Char) : Option Binary64 :=
  let (neg, body) := splitSign cs
  let word := String.ofList (body.map lowerAscii)
  if word = "inf" ∨ word = "infinity" then some (infinity neg)
  else if word = "nan" then some nan
  else readUnsigned neg body

end ScriptHost.Binary64
