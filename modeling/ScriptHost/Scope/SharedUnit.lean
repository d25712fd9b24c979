import ScriptHost.Code.Machine
import ScriptHost.Scope.Shape

/-!
# Code of scope accesses

The instructions of one access: walk to the target scope, read the variable, and call it if the shape
is a call. They stand in a shared unit, which is given depth and program point as arguments, or in a
method of the site itself, where both are constants. A shared unit that runs under an assumption
catches its failure and attributes it to the program point it was given.
-/

namespace ScriptHost

def loadParams (start : Nat) (params : List Ty) : List Insn :=
  (params.zip (slotOffsets start params)).map fun (ty, slot) => .load ty slot

namespace Shape

/-- Read the variable of the scope on the stack, and call it if the shape is a call. `flags` are those
of the operation whose type may be assumed; the arguments start at slot `start`. -/
def accessCode (s : Shape) (flags : SiteFlags) (start : Nat) : List Insn :=
  match s.access with
  | .read ty => [.dynGet ty s.symbol.name flags]
  | .call result params =>
    [.dynGet .object s.symbol.name s.flags, .convert .object, .undefined] ++
      loadParams start params ++ [.dynCall result (2 + params.length) flags s.symbol.name]

/-- Flags of the operation in a shared unit: the program point is left at zero. -/
def unitFlags (s : Shape) : SiteFlags := if s.optimistic then s.flags ||| .optimistic else s.flags

def siteFlags (s : Shape) (pp : Int32) : Except InternalFault SiteFlags :=
  if s.optimistic then (s.flags ||| .optimistic).withPoint? pp else .ok s.flags

end Shape

/-- A generated unit that all accesses of a shape can use. -/
structure SharedUnit where
  shape : Shape
  cls : String
  name : String
deriving DecidableEq, Inhabited

namespace SharedUnit

def signature (u : SharedUnit) : Signature := u.shape.unitSignature

def text (u : SharedUnit) : String := u.name ++ " " ++ u.signature.text

def walk : List Insn := [.load .object 0, .load .int 1, .climb]

def operation (u : SharedUnit) : List Insn := u.shape.accessCode u.shape.unitFlags fixedSlots

/-- Attribute a caught failure to the program point that the unit was given. -/
def recovery : List Insn := [.load .int 2, .reattribute, .rethrow]

def method (u : SharedUnit) : Method where
  cls := u.cls
  name := u.name
  signature := u.signature
  code := walk ++ u.operation ++ [.ret u.shape.returnType] ++ if u.shape.optimistic then recovery else []
  handlers :=
    if u.shape.optimistic then
      [⟨walk.length, walk.length + u.operation.length, walk.length + u.operation.length + 1⟩]
    else []

/-- The static call of the unit, whose arguments are on the stack. -/
def invocation (u : SharedUnit) : Insn := .invoke u.cls u.name u.signature

def invoke {σ : Type} (u : SharedUnit) (m : Module) (l : Linker σ) (scope : ObjRef) (depth : ScopeDepth)
    (pp : Int32) (args : List Val) : Run σ Val :=
  match depth.encode with
  | .ok d => m.invoke l u.cls u.name (.object scope :: .int d :: .int pp :: args)
  | .error e => Run.fail e

end SharedUnit

/-- One access as the compiler describes it. -/
structure Site where
  shape : Shape
  /-- Depth from the scope of the site. -/
  depth : ScopeDepth
  point : Int32
deriving DecidableEq, Inhabited

namespace Site

def validate (s : Site) : Except InternalFault Unit := do
  if SiteFlags.validPoint s.point then
    let _ ← s.depth.encode
    if s.shape.isCall then
      let _ ← s.shape.callOperands
  else .error (.sitePointRange s.shape.symbol.name s.point)

def signature (s : Site) : Signature := s.shape.siteSignature

def sharedCode (s : Site) (u : SharedUnit) : Except InternalFault (List Insn) := do
  return [.load .object 0, .pushInt (← s.depth.encode), .pushInt s.point] ++
    loadParams 1 s.shape.params ++ [u.invocation, .ret s.shape.returnType]

def inlineCode (s : Site) : Except InternalFault (List Insn) := do
  return [.load .object 0, .pushInt (← s.depth.encode), .climb] ++
    s.shape.accessCode (← s.shape.siteFlags s.point) 1 ++ [.ret s.shape.returnType]

/-- The method of the site under a class and a name, with or without a shared unit. -/
def method (s : Site) (cls name : String) (shared : Option SharedUnit) : Except InternalFault Method := do
  let code ← match shared with
    | some u => s.sharedCode u
    | none => s.inlineCode
  return { cls, name, signature := s.signature, code }

end Site
end ScriptHost
