import ScriptHost.Code.Draft
import ScriptHost.Engine.Linker

/-!
# Running methods

A frame has locals, a stack of operands, and the place of the next instruction. Operands are values
or caught failures. A failed assumption goes to the first handler that covers the instruction, with
the failure as the only operand; without one it ends the frame. Static calls nest frames up to a
limit. A frame is given a number of steps: enough for code whose handlers go forward, where no
instruction runs twice, and a large budget for other code. Its slots are plain numbers: a method is
finished only if they fit their words.
-/

namespace ScriptHost.Machine

def maxDepth : Nat := 256

inductive Operand where
  | value (v : Val)
  | caught (m : Misspeculation)
deriving DecidableEq, Inhabited

abbrev Stack := List Operand

abbrev Checked (α : Type) := Except EngineError α

def popValue : Stack → Checked (Val × Stack)
  | .value v :: rest => .ok (v, rest)
  | .caught _ :: _ => .error InternalFault.caughtAsValue
  | [] => .error InternalFault.operandUnderflow

def popInt (s : Stack) : Checked (Int32 × Stack) := do
  let (v, rest) ← popValue s
  match v with
  | .int i => .ok (i, rest)
  | v => .error (InternalFault.intOperand v.typeName)

/-- Pop a number of values, given back in the order in which they were pushed. -/
def popValues : Nat → Stack → Checked (List Val × Stack)
  | 0, s => .ok ([], s)
  | n + 1, s => do
    let (v, rest) ← popValue s
    let (vs, rest) ← popValues n rest
    return (vs ++ [v], rest)

/-- The scope that many links up; a negative depth means the scope itself. -/
def climb (scope : ObjRef) (depth : Int32) : Checked ObjRef :=
  if depth < 0 then .ok scope
  else
    match scope.ancestor? depth.toInt.toNat with
    | some o => .ok o
    | none => .error (InternalFault.chainEnds scope.ancestors.length depth.toInt.toNat)

/-- A failure may surface from operations that run under an assumption only. -/
def unmet (m : Misspeculation) (flags : SiteFlags) (operation name : String) : EngineError :=
  if flags.isOptimistic then .misspeculation m
  else InternalFault.uncheckedSpeculation operation name m

/-- The value of a linked operation. A failure that the callee raised counts like one of the operation
itself. -/
def settle {σ : Type} (x : Run σ Speculation) (flags : SiteFlags) (operation name : String) : Run σ Val := do
  match ← x.attempt with
  | .ok (.held v) => pure v
  | .ok (.failed m) => Run.fail (unmet m flags operation name)
  | .error (.error (.misspeculation m)) => Run.fail (unmet m flags operation name)
  | .error f => throw f

/-- The locals of a frame: each argument at the slot where its parameter starts. -/
def locals (offsets : List Nat) (args : List Val) : List (Nat × Val) := offsets.zip args

inductive Effect where
  | next (s : Stack)
  | done (v : Val)

/-- Run one instruction. `call` runs another method in a frame of its own. -/
def step {σ : Type} (code : Module) (l : Linker σ) (call : Method → List Val → Run σ Val)
    (slots : List (Nat × Val)) (s : Stack) : Insn → Run σ Effect
  | .load _ slot =>
    match slots.lookup slot with
    | some v => pure (.next (.value v :: s))
    | none => Run.fail (InternalFault.uninitializedSlot slot)
  | .pushInt i => pure (.next (.value (.int i) :: s))
  | .climb => Run.ofExcept do
    let (depth, s) ← popInt s
    let (v, s) ← popValue s
    match v with
    | .object o => return .next (.value (.object (← climb o depth)) :: s)
    | v => .error (InternalFault.scopeOperand v.typeName)
  | .dynGet ty name flags => do
    let (receiver, s) ← Run.ofExcept (popValue s)
    let v ← settle (l.get receiver name ty flags) flags "get" name
    return .next (.value v :: s)
  | .convert ty => Run.ofExcept do
    let (v, s) ← popValue s
    return .next (.value (v.coerce ty) :: s)
  | .undefined => pure (.next (.value .undefined :: s))
  | .dynCall ret operands flags name => do
    if operands < 2 ∨ s.length < operands then Run.fail (InternalFault.callOperands name operands)
    else
      let (args, s) ← Run.ofExcept (popValues (operands - 2) s)
      let (this, s) ← Run.ofExcept (popValue s)
      let (callee, s) ← Run.ofExcept (popValue s)
      let v ← settle (l.call callee this args ret flags name) flags "call" name
      return .next (.value v :: s)
  | .reattribute => Run.ofExcept do
    let (pp, s) ← popInt s
    match s with
    | .caught m :: s => return .next (.caught (m.reattribute pp) :: s)
    | _ => .error InternalFault.nothingToReattribute
  | .rethrow =>
    match s with
    | .caught m :: _ => Run.fail (.misspeculation m)
    | _ => Run.fail InternalFault.nothingToThrow
  | .ret _ => Run.ofExcept do
    let (v, _) ← popValue s
    return .done v
  | .invoke cls method signature => do
    match code.method? cls method with
    | none => Run.fail (InternalFault.unresolvedMethod cls method)
    | some target =>
      if target.signature ≠ signature then
        Run.fail (InternalFault.signatureMismatch cls method signature target.signature)
      else if s.length < signature.params.length then
        Run.fail (InternalFault.argumentUnderflow cls method)
      else
        let (args, s) ← Run.ofExcept (popValues signature.params.length s)
        let v ← call target args
        return .next (.value v :: s)

def frame {σ : Type} (code : Module) (l : Linker σ) (call : Method → List Val → Run σ Val)
    (m : Method) (slots : List (Nat × Val)) : Nat → Nat → Stack → Run σ Val
  | 0, _, _ => throw Fault.exhausted
  | n + 1, pc, s =>
    match m.code[pc]? with
    | none => Run.fail (InternalFault.fellOff m.cls m.name)
    | some insn => do
      match ← (step code l call slots s insn).attempt with
      | .ok (.next s) => frame code l call m slots n (pc + 1) s
      | .ok (.done v) => pure v
      | .error (.error (.misspeculation u)) =>
        match m.handlerFor pc with
        | some h => frame code l call m slots n h.target [.caught u]
        | none => Run.fail (.misspeculation u)
      | .error f => throw f

/-- How often code that jumps back may go over its instructions. -/
def rounds : Nat := 100000

def budget (m : Method) : Nat := (m.code.length + 1) * rounds

/-- Run a method in a frame of its own, with as many more frames allowed as given. -/
def run {σ : Type} (code : Module) (l : Linker σ) : Nat → Method → List Val → Run σ Val
  | 0, _, _ => Run.fail ScriptFault.callDepth
  | n + 1, m, args =>
    if args.length ≠ m.signature.params.length then
      Run.fail (InternalFault.argumentCount m.cls m.name m.signature.params.length args.length)
    else frame code l (run code l n) m (locals m.signature.paramOffsets args) (budget m) 0 []

def execute {σ : Type} (code : Module) (l : Linker σ) (m : Method) (args : List Val) : Run σ Val :=
  run code l maxDepth m args

end ScriptHost.Machine

namespace ScriptHost.Module

def invoke {σ : Type} (m : Module) (l : Linker σ) (cls method : String) (args : List Val) : Run σ Val :=
  match m.method? cls method with
  | some target => Machine.execute m l target args
  | none => Run.fail (InternalFault.noSuchMethod cls method m.name)

end ScriptHost.Module
