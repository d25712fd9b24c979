import ScriptHost.Adapter.Loaded
import ScriptHost.Heap
import ScriptHost.Options

/-!
# Engine state

All that a run can change: objects, counters, the bindings of the thread, engine contexts, sandboxes
that are still referenced, and the caches of adapter factories.
-/

namespace ScriptHost

/-- An engine context: its options, its global object, the host types it knows, its module graph, and
the classes that were handed to its dump, in order. -/
structure Context where
  options : Options
  global : ObjRef
  classPath : Assoc String HostType := ⟨[]⟩
  graph : ModuleGraph := {}
  dumps : List (String × List UInt8) := []

instance : Inhabited Context := ⟨{ options := {}, global := default }⟩

/-- A class that a sandbox has defined. The privileged setter is bound on the first adapted call. -/
structure Definition where
  file : ClassFile
  bound : Bool := false
  setups : Nat := 0

/-- A sandbox that is referenced, with the number of its handles. -/
structure LiveSandbox where
  sandbox : Sandbox
  handles : Nat
  definition : Option Definition := none

abbrev FactoryId := Nat

/-- Requests that share one descriptor. -/
structure DescriptorKey where
  target : String
  overrides : List String
deriving DecidableEq, Inhabited

/-- An adapter factory: the context it works for, and what it has made. -/
structure Factory where
  context : ContextId
  descriptors : Assoc DescriptorKey Descriptor := ⟨[]⟩
  classes : Assoc String AdapterClass := ⟨[]⟩

instance : Inhabited Factory := ⟨{ context := 0 }⟩

structure World where
  heap : Heap := {}
  /-- Calls of each function that came through a scope call site. -/
  scopeCalls : Assoc Nat Nat := ⟨[]⟩
  /-- Counters that function bodies keep for themselves. -/
  tallies : Assoc Nat Nat := ⟨[]⟩
  thread : Thread := {}
  contexts : Assoc ContextId Context := ⟨[]⟩
  sandboxes : Assoc SandboxId LiveSandbox := ⟨[]⟩
  nextSandbox : SandboxId := 0
  factories : Assoc FactoryId Factory := ⟨[]⟩

instance : Inhabited World := ⟨{}⟩

namespace World

def context (w : World) (c : ContextId) : Context := (w.contexts.get? c).getD default

def setContext (w : World) (c : ContextId) (ctx : Context) : World :=
  { w with contexts := w.contexts.put c ctx }

def scopeCallCount (w : World) (f : FnRef) : Nat := (w.scopeCalls.get? f.id).getD 0

end World
end ScriptHost
