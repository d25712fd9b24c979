import ScriptHost.Engine.Basic
import ScriptHost.Value.Conversion

/-!
# Dynamic linking

Generated code reads properties and calls values through a linker. An operation that ran under a type
assumption reports whether the assumption held. The scope linker looks names up along the chain of
the receiver and runs functions; the others watch or refuse.
-/

namespace ScriptHost

/-- Outcome of an operation that may run under a type assumption. -/
inductive Speculation where
  | held (v : Val)
  | failed (m : Misspeculation)
deriving DecidableEq, Inhabited

namespace Speculation

/-- Without an assumption the value is converted. Under one it must fit. -/
def check (v : Val) (ty : Ty) (flags : SiteFlags) : Speculation :=
  if !flags.isOptimistic || v.fits ty then .held (v.coerce ty)
  else .failed ⟨v, flags.point⟩

end Speculation

structure Linker (σ : Type) where
  get (receiver : Val) (name : String) (ty : Ty) (flags : SiteFlags) : Run σ Speculation
  call (callee this : Val) (args : List Val) (ret : Ty) (flags : SiteFlags) (name : String) :
    Run σ Speculation

namespace Linker

/-- Read a name along the chain of an object. A scope must hold it somewhere. -/
def scopeGet (receiver : Val) (name : String) (ty : Ty) (flags : SiteFlags) : EngineM Speculation := do
  match receiver with
  | .object o =>
    match ← Engine.getProperty? o name with
    | some v => return .check v ty flags
    | none =>
      if flags.isScope then Run.fail (ScriptFault.notDefined name)
      else return .check .undefined ty flags
  | v => Run.fail (ScriptFault.unreadable name v.typeName)

def scopeCall (bodies : Bodies) (callee this : Val) (args : List Val) (ret : Ty) (flags : SiteFlags)
    (name : String) : EngineM Speculation := do
  match callee with
  | .function f => return .check (← f.callFromSite bodies this args flags) ret flags
  | v => Run.fail (ScriptFault.notCallable name v.typeName)

def scope (bodies : Bodies) : Linker World where
  get := scopeGet
  call := scopeCall bodies

/-- A linker under which every assumption fails, on the receiver. -/
def refusing (σ : Type) : Linker σ where
  get receiver _ _ flags := return .failed ⟨receiver, flags.point⟩
  call _ this _ _ flags _ := return .failed ⟨this, flags.point⟩

def getLine (receiver : Val) (name : String) (ty : Ty) (flags : SiteFlags) : String :=
  "get " ++ name ++ " of " ++ receiver.display ++ " as " ++ ty.name ++ " [" ++ flags.text ++ "]"

def callLine (callee this : Val) (args : List Val) (ret : Ty) (flags : SiteFlags) (name : String) :
    String :=
  "call " ++ name ++ " " ++ callee.display ++ " this " ++ this.display ++ " (" ++
    ", ".intercalate (args.map Val.debug) ++ ") as " ++ ret.name ++ " [" ++ flags.text ++ "]"

/-- Run over one part of a state, writing a line to the other part first. -/
def logging {σ α : Type} (line : String) (x : Run σ α) : Run (σ × List String) α :=
  Run.of fun (s, log) =>
    let (r, s') := x.outcome s
    (r, (s', log ++ [line]))

/-- A linker that also writes down what it is asked. -/
def logged {σ : Type} (l : Linker σ) : Linker (σ × List String) where
  get receiver name ty flags := logging (getLine receiver name ty flags) (l.get receiver name ty flags)
  call callee this args ret flags name :=
    logging (callLine callee this args ret flags name) (l.call callee this args ret flags name)

end Linker
end ScriptHost
