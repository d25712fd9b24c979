import ScriptHost.Error

/-!
# Slots in words

Generated code counts local slots in words of sixteen bits. A row of parameters that takes more slots than such a word
can count is an overflow, wherever its slots are counted.
-/

namespace ScriptHost

/-- Count on in a word of sixteen bits. -/
def countOn (slot : UInt16) (n : Nat) : Except Fault UInt16 :=
  if slot.toNat + n < UInt16.size then .ok (UInt16.ofNat (slot.toNat + n)) else .error .overflow

/-- The slot behind a row of parameters. -/
def slotBehind (slot : UInt16) (params : List Ty) : Except Fault UInt16 :=
  params.foldlM (fun slot ty => countOn slot ty.slots) slot

def offsetWords (slot : UInt16) : List Ty → Except Fault (List UInt16)
  | [] => .ok []
  | ty :: tys => do
    let next ← countOn slot ty.slots
    let rest ← offsetWords next tys
    return slot :: rest

end ScriptHost
