import ScriptHost.Binary64.Shortest

/-!
# Number text

Two layouts of the shortest digits. The plain one is always positional and writes an integer without
a point. The marked one writes an integer with `.0` and turns to exponent form when the absolute
value is at least `10 ^ 16` or below `10 ^ -4`.
-/

namespace ScriptHost.Binary64

def Decimal.positional (d : Decimal) : String :=
  let text := toString d.digits
  if 0 ≤ d.exponent then text ++ String.ofList (List.replicate d.exponent.toNat '0')
  else
    let places := (-d.exponent).toNat
    if places < text.length then
      String.ofList (text.toList.take (text.length - places)) ++ "." ++
        String.ofList (text.toList.drop (text.length - places))
    else "0." ++ String.ofList (List.replicate (places - text.length) '0') ++ text

def Decimal.scientific (d : Decimal) : String :=
  let text := (toString d.digits).toList
  let exponent := d.exponent + (text.length : Int) - 1
  String.ofList (text.take 1) ++ (if text.length ≤ 1 then "" else "." ++ String.ofList (text.drop 1)) ++
    "e" ++ toString exponent

/-- Exponent of the first digit. -/
def Decimal.magnitude (d : Decimal) : Int := d.exponent + (digitCount d.digits : Int) - 1

/-- Sign and the texts that both layouts share; `write` lays out the digits of a finite number. -/
def textWith (zeroText : String) (write : Decimal → String) (x : Binary64) : String :=
  if x.isNaN then "NaN"
  else
    let sign := if x.negative then "-" else ""
    if !x.isFinite then sign ++ "inf"
    else if x.isZero then sign ++ zeroText
    else sign ++ write x.shortest

def plain (x : Binary64) : String := x.textWith "0" Decimal.positional

def marked (x : Binary64) : String :=
  x.textWith "0.0" fun d =>
    if 16 ≤ d.magnitude ∨ d.magnitude < -4 then d.scientific
    else if 0 ≤ d.exponent then d.positional ++ ".0"
    else d.positional

end ScriptHost.Binary64
