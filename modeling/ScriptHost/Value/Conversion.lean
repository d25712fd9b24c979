import ScriptHost.Binary64.Reading
import ScriptHost.Code.Ty
import ScriptHost.Text.Blank
import ScriptHost.Value.Basic

/-!
# Conversion between kinds of values

`fits` says which values may stand where a static type is assumed; `coerce` turns any value into one
of the type, with loss where there is no other way.
-/

namespace ScriptHost.Val

/-- Whether a value may stand for the type without conversion of its kind losing anything. -/
def fits (v : Val) : Ty → Bool
  | .object => true
  | .int => match v with | .int _ => true | _ => false
  | .long => match v with | .int _ | .long _ => true | _ => false
  | .number => match v with | .int _ | .long _ | .number _ => true | _ => false
  | .boolean => match v with | .bool _ => true | _ => false

/-- The number a text stands for: blank ones are zero, and what is no decimal is NaN. -/
def numberOfText (s : String) : Binary64 :=
  match Text.trim s.toList with
  | [] => Binary64.ofInt 0
  | cs => (Binary64.read? cs).getD Binary64.nan

def toNumber : Val → Binary64
  | .undefined => Binary64.nan
  | .bool b => Binary64.ofInt (if b then 1 else 0)
  | .int i => Binary64.ofInt i.toInt
  | .long l => Binary64.ofInt l.toInt
  | .number x => x
  | .str s => numberOfText s
  | .object _ | .function _ => Binary64.nan

def truthy : Val → Bool
  | .undefined => false
  | .bool b => b
  | .int i => i != 0
  | .long l => l != 0
  | .number x => !x.isZero && !x.isNaN
  | .str s => s != ""
  | .object _ | .function _ => true

/-- Conversion to a type, used where no assumption is made. -/
def coerce (v : Val) : Ty → Val
  | .object => v
  | .boolean => .bool v.truthy
  | .number => match v with | .number _ => v | _ => .number v.toNumber
  | .int => match v with | .int _ => v | _ => .int v.toNumber.toInt32
  | .long => match v with
    | .long _ => v
    | .int i => .long i.toInt64
    | _ => .long v.toNumber.toInt64

theorem fits_coerce (v : Val) (t : Ty) : (v.coerce t).fits t = true := by
  cases t <;> cases v <;> rfl

end ScriptHost.Val
