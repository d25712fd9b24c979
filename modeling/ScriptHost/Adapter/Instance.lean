import ScriptHost.Adapter.Sandbox
import ScriptHost.Value.Conversion

/-!
# Adapter instances

An instance ties an adapter class to script-side implementations and to the global that was current
when it was made. A method that goes to the script runs under that global; one that goes to the host
runs its body; the rest is unsupported. Arguments are converted to the parameter types and the result
to the declared type.
-/

namespace ScriptHost

namespace Overrides

def functionIn (h : Heap) (o : ObjRef) (method : String) : Option FnRef :=
  match h.find? o method with
  | some (_, .function f) => some f
  | _ => none

/-- Whether the implementations cover an overridable method. -/
def covers (h : Heap) (ov : Overrides) (m : HostMethod) : Bool :=
  match ov with
  | .object o => (functionIn h o m.name).isSome
  | .function _ => m.isAbstract

/-- The overridable methods that the implementations cover, in ascending order. -/
def names (h : Heap) (ov : Overrides) (t : HostType) : List String :=
  sortNames ((t.overridable.filter (covers h ov)).map HostMethod.name)

def functionFor (h : Heap) (ov : Overrides) (method : String) : Option FnRef :=
  match ov with
  | .object o => functionIn h o method
  | .function f => some f

def receiver : Overrides → Val
  | .object o => .object o
  | .function _ => .undefined

end Overrides

namespace AdapterClass

/-- How often the privileged setter of the class was bound. -/
def setups (c : AdapterClass) (w : World) : Nat := ((w.definition? c.sandbox).map Definition.setups).getD 0

def instanceWith (c : AdapterClass) (ov : Overrides) : EngineM Instance :=
  Run.of fun w => (.ok ⟨c, ov, w.thread.global⟩, w.retain c.sandbox)

/-- An instance with implementations of its own. They must cover just the methods that the class sends
to the script. -/
def newInstance (c : AdapterClass) (ov : Overrides) : EngineM Instance := do
  if c.isClassLevel then Run.fail (ScriptFault.classLevelOverrides c.name)
  else
    let supplied := ov.names (← get).heap c.target
    if supplied ≠ c.descriptor.overrides then
      Run.fail (ScriptFault.overrideMismatch supplied c.name c.descriptor.overrides)
    else c.instanceWith ov

def instantiate (c : AdapterClass) : EngineM Instance := do
  match c.overrides with
  | some ov => c.instanceWith ov
  | none => Run.fail (ScriptFault.noClassLevelOverrides c.name)

/-- The setter of the class. It is bound on first use, under the right to do so. -/
def setter (c : AdapterClass) : EngineM Unit := do
  match (← get).definition? c.sandbox with
  | some d =>
    if d.bound then pure ()
    else
      Engine.privileged [.setGlobal] do
        let _ ← GlobalSetter.new
        modify fun w => w.setDefinition c.sandbox { d with bound := true, setups := d.setups + 1 }
  | none => pure ()

end AdapterClass

namespace Instance

def coerceAll (args : List Val) (params : List Ty) : List Val := List.zipWith Val.coerce args params

def runScript (i : Instance) (bodies : Bodies) (method : String) (args : List Val) : EngineM Val := do
  i.cls.setter
  match i.overrides.functionFor (← get).heap method with
  | none => Run.fail (ScriptFault.noScript i.cls.target.name method)
  | some f => Engine.underGlobal i.global (f.call bodies i.overrides.receiver args)

def runSuper (i : Instance) (bodies : Bodies) (method : String) (args : List Val) : EngineM Val := do
  match (i.cls.target.method? method).bind HostMethod.body with
  | none => Run.fail (InternalFault.noSuperBody i.cls.target.name method)
  | some b => bodies b .undefined args

def invoke (i : Instance) (bodies : Bodies) (method : String) (args : List Val) : EngineM Val := do
  match i.cls.file.method? method with
  | none => Run.fail (ScriptFault.noMethod i.cls.target.name method)
  | some entry =>
    let params := entry.signature.params
    if args.length ≠ params.length then
      Run.fail (ScriptFault.argumentCount i.cls.target.name method params.length args.length)
    else
      let args := coerceAll args params
      match entry.dispatch with
      | .script => return (← i.runScript bodies method args).coerce entry.signature.ret
      | .super => return (← i.runSuper bodies method args).coerce entry.signature.ret
      | .unsupported => Run.fail (.unsupported (i.cls.target.name ++ "." ++ method))

end Instance
end ScriptHost
