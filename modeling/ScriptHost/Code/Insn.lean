import ScriptHost.Code.Flags
import ScriptHost.Code.Ty

/-!
# Instructions and methods

A small stack machine: enough for walks along scope chains, property reads, calls, static calls
between methods, and regions that catch failed assumptions. A finished method does not change.
-/

namespace ScriptHost

inductive Insn where
  | load (ty : Ty) (slot : Nat)
  | pushInt (i : Int32)
  /-- Pop a depth and a scope, push the scope that many links up. -/
  | climb
  /-- Pop a receiver, push the named property. -/
  | dynGet (ty : Ty) (name : String) (flags : SiteFlags)
  | convert (ty : Ty)
  | undefined
  /-- Pop as many operands as given (callee, receiver, arguments), push the result. -/
  | dynCall (ty : Ty) (operands : Nat) (flags : SiteFlags) (name : String)
  /-- Pop a program point and a caught failure, push the failure attributed to the point. -/
  | reattribute
  | rethrow
  | ret (ty : Ty)
  | invoke (cls method : String) (signature : Signature)
deriving DecidableEq, Inhabited

namespace Insn

def text : Insn → String
  | .load ty slot => "load " ++ ty.name ++ " " ++ toString slot
  | .pushInt i => "iconst " ++ toString i.toInt
  | .climb => "invoke getProto(int)"
  | .dynGet ty name flags => "dyn:get " ++ name ++ " -> " ++ ty.name ++ " [" ++ flags.text ++ "]"
  | .convert ty => "convert " ++ ty.name
  | .undefined => "undefined"
  | .dynCall ty operands flags name =>
    "dyn:call " ++ name ++ "/" ++ toString operands ++ " -> " ++ ty.name ++ " [" ++ flags.text ++ "]"
  | .reattribute => "invoke replaceProgramPoint(int)"
  | .rethrow => "athrow"
  | .ret ty => "return " ++ ty.name
  | .invoke cls method signature => "invokestatic " ++ cls ++ "." ++ method ++ signature.text

end Insn

/-- A region of instructions `[start, stop)` whose failed assumptions go on at `target`. -/
structure Handler where
  start : Nat
  stop : Nat
  target : Nat
deriving DecidableEq, Inhabited

def Handler.covers (h : Handler) (pc : Nat) : Bool := h.start ≤ pc && pc < h.stop

structure Method where
  cls : String
  name : String
  signature : Signature
  isStatic : Bool := true
  code : List Insn
  handlers : List Handler := []
deriving DecidableEq, Inhabited

namespace Method

def maxLocals (m : Method) : Nat := m.signature.paramSlots

def handlerFor (m : Method) (pc : Nat) : Option Handler := m.handlers.find? fun h => h.covers pc

def invokes (m : Method) (cls method : String) : Bool :=
  m.code.any fun
    | .invoke c n _ => c == cls && n == method
    | _ => false

/-! ## Disassembly -/

def column (n : Nat) : String :=
  let s := toString n
  String.ofList (List.replicate (4 - s.length) ' ') ++ s

/-- The lines of the instructions from `pc` on, each after the handlers that go on there. -/
def codeLines (handlers : List Handler) : Nat → List Insn → List String
  | _, [] => []
  | pc, i :: is =>
    (handlers.filter fun h => h.target == pc).map (fun h =>
      "  catch [" ++ toString h.start ++ ", " ++ toString h.stop ++ "):\n") ++
      ("  " ++ column pc ++ ": " ++ i.text ++ "\n") :: codeLines handlers (pc + 1) is

def text (m : Method) : String :=
  (if m.isStatic then "static " else "") ++ m.cls ++ "." ++ m.name ++ m.signature.text ++ "\n" ++
    String.join (codeLines m.handlers 0 m.code)

end Method
end ScriptHost
