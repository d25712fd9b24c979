import ScriptHost.Adapter.ClassFile.Reader
import ScriptHost.Engine.Basic

/-!
# Sandboxes

A sandbox answers a symbol in three steps. The policy of its domain comes first, and its denial is
final unless the symbol is one of the few that every adapter may see, which the engine's loader then
answers. Next comes the parent, as far as the sandbox's module may access what it finds. What the
parent does not know is unknown, but for the class that the sandbox itself defines.

A sandbox lives as long as there are handles to it. Its module has edges in the module graph for just
that time.
-/

namespace ScriptHost

/-! ## Parents -/

def Context.resolveHost (ctx : Context) (name : String) : Except EngineError LoadedType :=
  match ctx.classPath.get? name with
  | some t => .ok (.host t)
  | none => .error (.classNotFound name)

/-- The engine's symbols; the packages of the engine are closed to host types. -/
def Context.resolve (ctx : Context) (name : String) : Except EngineError LoadedType :=
  if Symbols.internal.contains name then .ok (.internal name)
  else if Symbols.isInternalPackage (Text.packageOf name) then .error (.classNotFound name)
  else ctx.resolveHost name

def Parent.resolve (p : Parent) (ctx : Context) (name : String) : Except EngineError LoadedType :=
  match p with
  | .engine => ctx.resolve name
  | .classPath => ctx.resolveHost name
  | .broken => .error (InternalFault.raised ("broken parent: " ++ name))
  | .publishing cls => if name = cls.name then .ok (.adapter cls) else ctx.resolve name

/-! ## Handles -/

namespace World

def retain (w : World) (s : Sandbox) : World :=
  { w with sandboxes := w.sandboxes.adjust s.id fun l => { l with handles := l.handles + 1 } }

def forget (w : World) (id : SandboxId) (c : ContextId) (m : ModuleId) : World :=
  let ctx := w.context c
  { w.setContext c { ctx with graph := ctx.graph.removeModule m } with sandboxes := w.sandboxes.erase id }

mutual

/-- One handle less to a sandbox. With the last one the sandbox goes, and gives up its parent. -/
def release (w : World) : Sandbox → World
  | ⟨id, context, _, parent, _, module⟩ =>
    match w.sandboxes.get? id with
    | none => w
    | some live =>
      if live.handles ≤ 1 then releaseParent (w.forget id context module) parent
      else { w with sandboxes := w.sandboxes.put id { live with handles := live.handles - 1 } }

def releaseParent (w : World) : Parent → World
  | .publishing cls => releaseClass w cls
  | .engine | .classPath | .broken => w

def releaseClass (w : World) : AdapterClass → World
  | ⟨s, _, _⟩ => release w s

end

/-- What is given out counts as a handle if it is an adapter class. -/
def retainLoaded (w : World) : LoadedType → World
  | .adapter c => w.retain c.sandbox
  | _ => w

def liveSandbox? (w : World) (s : Sandbox) : Option LiveSandbox := w.sandboxes.get? s.id

def definition? (w : World) (s : Sandbox) : Option Definition := (w.liveSandbox? s).bind fun l => l.definition

def setDefinition (w : World) (s : Sandbox) (d : Definition) : World :=
  { w with sandboxes := w.sandboxes.adjust s.id fun l => { l with definition := some d } }

end World

namespace Sandbox

/-- The edges that a sandbox's module is given: the engine exports its runtime packages to it and reads
it, and nothing goes the other way. -/
def grant (g : ModuleGraph) (m : ModuleId) : ModuleGraph :=
  ((g.addExport .engine Symbols.runtimePackage m).addExport .engine Symbols.linkerPackage m).addRead .engine m

def new (c : ContextId) (descriptor : Descriptor) (parent : Parent) (domain : Domain) :
    EngineM Sandbox := do
  Engine.check .createClassLoader
  Run.of fun w =>
    let ctx := w.context c
    let (m, g) := ctx.graph.newAdapterModule
    let s : Sandbox := ⟨w.nextSandbox, c, descriptor, parent, domain, m⟩
    let w := w.setContext c { ctx with graph := grant g m }
    let w := match parent with
      | .publishing cls => w.retain cls.sandbox
      | _ => w
    (.ok s, { w with
      nextSandbox := w.nextSandbox + 1
      sandboxes := w.sandboxes.put s.id { sandbox := s, handles := 1 } })

/-! ## Loading -/

/-- What a sandbox finds outside itself; `none` if only the sandbox itself could know the symbol. -/
def outside? (s : Sandbox) (ctx : Context) (name : String) : Except EngineError (Option LoadedType) :=
  let package := Text.packageOf name
  match s.domain.check name package with
  | .error denied =>
    if Symbols.visible.contains name then (ctx.resolve name).map some else .error denied
  | .ok () =>
    match s.parent.resolve ctx name with
    | .ok found =>
      let package := Text.packageOf found.name
      if ctx.graph.canAccess s.module found.module package then .ok (some found)
      else .error (.accessDenied found.name package)
    | .error (.classNotFound _) => .ok none
    | .error e => .error e

def searchOutside (s : Sandbox) (name : String) : EngineM (Option LoadedType) := do
  Run.ofExcept (s.outside? ((← get).context s.context) name)

/-- Look up the symbols that a class links against. They lie outside the sandbox. -/
def link (s : Sandbox) (cls : String) : List String → EngineM Unit
  | [] => pure ()
  | symbol :: rest => do
    if symbol = cls then Run.fail (.inconsistentDefinition (.selfReference cls))
    else
      match ← s.searchOutside symbol with
      | some _ => link s cls rest
      | none => Run.fail (.classNotFound symbol)

/-- Hand the bytes of the descriptor's class to the dump of the context. -/
def dump (s : Sandbox) : EngineM Unit :=
  Engine.modifyContext s.context fun ctx =>
    { ctx with dumps := ctx.dumps ++ [(s.descriptor.className, s.descriptor.bytes)] }

/-- Define the descriptor's class: its bytes must be those of that class, and all it links against
must be found. -/
def define (s : Sandbox) : EngineM ClassFile := do
  let name := s.descriptor.className
  s.dump
  match ClassFile.decode s.descriptor.bytes with
  | .error e => Run.fail (.malformedClass (name ++ ": " ++ e.message))
  | .ok file =>
    if file.name ≠ name then Run.fail (.inconsistentDefinition (.otherClass file.name name))
    else if file.target ≠ s.descriptor.target.name then
      Run.fail (.inconsistentDefinition (.otherTarget name file.target s.descriptor.target.name))
    else
      s.link name file.refs
      modify fun w => w.setDefinition s { file }
      return file

/-- The class that the sandbox defines, defined when it is first asked for. -/
def ownClass (s : Sandbox) (name : String) : EngineM AdapterClass := do
  if name ≠ s.descriptor.className then Run.fail (.classNotFound name)
  else
    match (← get).definition? s with
    | some d => return ⟨s, d.file, none⟩
    | none => return ⟨s, ← s.define, none⟩

def resolve (s : Sandbox) (name : String) : EngineM LoadedType := do
  match ← s.searchOutside name with
  | some found => return found
  | none => .adapter <$> s.ownClass name

/-- Load a symbol; an adapter class is given out as a handle. -/
def load (s : Sandbox) (name : String) : EngineM LoadedType := do
  let t ← s.resolve name
  modify fun w => w.retainLoaded t
  return t

def find (s : Sandbox) (name : String) : EngineM AdapterClass := do
  let c ← s.ownClass name
  modify fun w => w.retain c.sandbox
  return c

end Sandbox

/-- Load a descriptor's class in a fresh sandbox. The right to make loading contexts is granted for that
time only, and the sandbox stays if its class does. -/
def Descriptor.load (d : Descriptor) (c : ContextId) (parent : Parent) (domain : Domain) :
    EngineM AdapterClass :=
  Engine.privileged [.createClassLoader] do
    let s ← Sandbox.new c d parent domain
    Run.ensuring (do
      match ← s.load d.className with
      | .adapter cls => return cls
      | other => Run.fail (.inconsistentDefinition (.foreignResolution d.className other.name)))
      fun w => w.release s

end ScriptHost
