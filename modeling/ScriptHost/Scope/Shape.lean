import ScriptHost.Assoc
import ScriptHost.Code.Insn
import ScriptHost.Error
import ScriptHost.Options

/-!
# Shapes of scope accesses

What makes two accesses to scope variables alike: the symbol, whether it is read or called and with
which types, the flags, and whether types are assumed. Accesses of one shape can share one generated
unit once there are enough of them.
-/

namespace ScriptHost

/-- Distance from a scope to the one that holds a variable. -/
inductive ScopeDepth where
  | known (links : UInt32)
  /-- Not known when the code is generated. -/
  | dynamic
deriving DecidableEq, Inhabited

/-- The depth as generated code passes it; `-1` stands for an unknown one. -/
def ScopeDepth.encode : ScopeDepth → Except InternalFault Int32
  | .known d => if d.toNat < 0x80000000 then .ok (Int32.ofNat d.toNat) else .error (.depthRange d.toNat)
  | .dynamic => .ok (-1)

/-- A scope variable, with the depth at which its declaration was seen. -/
structure ScopeSymbol where
  name : String
  hint : ScopeDepth
deriving DecidableEq, Inhabited

def ScopeSymbol.isDynamic (s : ScopeSymbol) : Bool := s.hint == .dynamic

inductive Access where
  | read (ty : Ty)
  | call (result : Ty) (params : List Ty)
deriving DecidableEq, Inhabited

structure Shape where
  symbol : ScopeSymbol
  access : Access
  flags : SiteFlags
  /-- Whether the type of the value read or of the result is an assumption. -/
  optimistic : Bool
deriving DecidableEq, Inhabited

def maxParamSlots : Nat := 255

/-- Slots of the leading parameters of a shared unit: scope, depth, program point. -/
def fixedSlots : Nat := 3

namespace Shape

def isCall (s : Shape) : Bool :=
  match s.access with
  | .read _ => false
  | .call .. => true

/-- Type as which the variable is read; callables are read as objects. -/
def valueType (s : Shape) : Ty :=
  match s.access with
  | .read t => t
  | .call .. => .object

def returnType (s : Shape) : Ty :=
  match s.access with
  | .read t => t
  | .call t _ => t

def params (s : Shape) : List Ty :=
  match s.access with
  | .read _ => []
  | .call _ ps => ps

/-- The parameters of a shared unit of the shape take no more slots than they may. -/
def Fits (s : Shape) : Prop := fixedSlots + slotCount s.params ≤ maxParamSlots

/-- Operands of the call (callee, receiver, arguments), if the parameters of a shared unit fit. -/
def callOperands (s : Shape) : Except InternalFault Nat :=
  let slots := fixedSlots + slotCount s.params
  if maxParamSlots < slots then .error (.paramSlots s.symbol.name slots)
  else .ok (2 + s.params.length)

/-- Signature of a shared unit: scope, depth and program point come first. -/
def unitSignature (s : Shape) : Signature := ⟨s.returnType, .object :: .int :: .int :: s.params⟩

def siteSignature (s : Shape) : Signature := ⟨s.returnType, .object :: s.params⟩

end Shape

/-! ## Sharing -/

/-- How many accesses of one shape there may be before they share a unit. -/
structure Thresholds where
  get : UInt32
  call : UInt32
deriving DecidableEq, Inhabited

namespace Thresholds

def ofOptions (o : Options) : Thresholds := ⟨o.getThreshold, o.callThreshold⟩

def shares (t : Thresholds) (count : UInt32) (isCall : Bool) : Bool :=
  decide ((if isCall then t.call else t.get) < count)

end Thresholds

/-- The number after `n`, in a word of 32 bits. -/
def countedUp (n : UInt32) : Except Fault UInt32 :=
  if n.toNat + 1 < UInt32.size then .ok (n + 1) else .error .overflow

structure Census where
  counts : Assoc Shape UInt32 := ⟨[]⟩
deriving DecidableEq, Inhabited

namespace Census

def count (c : Census) (s : Shape) : UInt32 := (c.counts.get? s).getD 0

def record (c : Census) (s : Shape) : Except Fault Census := do
  return ⟨c.counts.put s (← countedUp (c.count s))⟩

end Census

end ScriptHost
