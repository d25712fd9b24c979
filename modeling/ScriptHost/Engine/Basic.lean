import ScriptHost.Run
import ScriptHost.World

/-!
# The engine

Computations over the whole engine state, and the operations on objects, permissions, contexts and
the current global. Every scope (a privileged frame, an entered context, an installed global) is left
as it was entered, whatever happens inside.
-/

namespace ScriptHost

abbrev EngineM (α : Type) := Run World α

/-- What bodies do: script functions by their number, and bodies of host methods by theirs, which are
given no receiver. -/
abbrev Bodies := BodyId → Val → List Val → EngineM Val

namespace Engine

def onThread (f : Thread → Thread) (w : World) : World := { w with thread := f w.thread }

/-! ## Objects -/

def newObject (parent : Option ObjRef) (isScope : Bool) : EngineM ObjRef :=
  Run.of fun w =>
    let (o, heap) := w.heap.alloc parent isScope
    (.ok o, { w with heap })

/-- Set a property; the value it had is given back. -/
def setProperty (o : ObjRef) (name : String) (v : Val) : EngineM (Option Val) :=
  Run.of fun w => (.ok (w.heap.own? o.id name), { w with heap := w.heap.set o.id name v })

def getProperty? (o : ObjRef) (name : String) : EngineM (Option Val) :=
  return (← get).heap.find? o name |>.map Prod.snd

/-! ## Permissions -/

def check (p : Permission) : EngineM Unit := do
  if (← get).thread.grants p then pure () else Run.fail (.privilege p)

/-- Run `x` in a frame that grants the permissions and nothing else. -/
def privileged {α : Type} (ps : List Permission) (x : EngineM α) : EngineM α :=
  Run.of fun w =>
    (x.ensuring (onThread fun t => t.truncate w.thread.frames.length)).outcome
      (onThread (fun t => t.pushFrame ps) w)

/-! ## Contexts and globals -/

def newContext (options : Options) : EngineM ContextId :=
  Run.of fun w =>
    let (global, heap) := w.heap.alloc none false
    let id := w.contexts.size
    (.ok id, { w with heap, contexts := w.contexts.put id { options, global } })

def enter (c : ContextId) : EngineM Guard :=
  Run.of fun w =>
    let (g, t) := w.thread.enter c (w.context c).global
    (.ok g, { w with thread := t })

def install (global : Option ObjRef) : EngineM Guard :=
  Run.of fun w =>
    let (g, t) := w.thread.install global
    (.ok g, { w with thread := t })

def restore (g : Guard) : EngineM Unit := modify (onThread fun t => t.restore g)

def currentContext : EngineM (Option ContextId) := do
  check .getContext
  return (← get).thread.context

def currentGlobal : EngineM (Option ObjRef) := return (← get).thread.global

def within {α : Type} (c : ContextId) (x : EngineM α) : EngineM α :=
  Run.of fun w =>
    let (g, t) := w.thread.enter c (w.context c).global
    (x.ensuring (onThread fun t => t.restore g)).outcome { w with thread := t }

def underGlobal {α : Type} (global : Option ObjRef) (x : EngineM α) : EngineM α :=
  Run.of fun w =>
    let (g, t) := w.thread.install global
    (x.ensuring (onThread fun t => t.restore g)).outcome { w with thread := t }

def modifyContext (c : ContextId) (f : Context → Context) : EngineM Unit :=
  modify fun w => w.setContext c (f (w.context c))

end Engine

/-- The right to replace the current global. Only `GlobalSetter.new` makes one. -/
structure GlobalSetter where
  private mk ::

namespace GlobalSetter

def new : EngineM GlobalSetter := do
  Engine.check .setGlobal
  return ⟨⟩

def install (_ : GlobalSetter) (global : Option ObjRef) : EngineM Guard := Engine.install global

end GlobalSetter

/-! ## Calls -/

namespace FnRef

def call (f : FnRef) (bodies : Bodies) (this : Val) (args : List Val) : EngineM Val :=
  bodies f.id this args

/-- The receiver that a scope call gives a function: a sloppy one sees the current global where there
is no receiver. -/
def receiverFor (f : FnRef) (this : Val) (global : Option ObjRef) : Val :=
  if this.isUndefined && !f.strict then
    match global with
    | some g => .object g
    | none => .undefined
  else this

/-- Call a function from a call site. Scope calls are counted. -/
def callFromSite (f : FnRef) (bodies : Bodies) (this : Val) (args : List Val) (flags : SiteFlags) :
    EngineM Val := do
  if flags.isScope then
    modify fun w => { w with scopeCalls := w.scopeCalls.put f.id (w.scopeCallCount f + 1) }
    f.call bodies (f.receiverFor this (← Engine.currentGlobal)) args
  else f.call bodies this args

end FnRef
end ScriptHost
