import ScriptHost.Adapter.Factory
import ScriptHost.Engine.Body

/-!
# Handles

What host code can hold while it works with the engine, by kind, and what happens when it lets go. An
adapter class, an instance, a sandbox and a factory hold on to sandboxes; the others hold nothing that
the engine counts.
-/

namespace ScriptHost

inductive HandleKind where
  | object
  | function
  | setter
  | context
  | graph
  | hostType
  | descriptor
  | factory
  | adapterClass
  | sandbox
  | inst
deriving DecidableEq, Inhabited

/-- A module graph that host code works on: that of a context, or one of its own. -/
inductive GraphHandle where
  | ofContext (c : ContextId)
  | free (g : ModuleGraph)
deriving Inhabited

/-- A descriptor, with the cache entry it comes from if a factory made it. -/
structure DescriptorHandle where
  descriptor : Descriptor
  origin : Option (FactoryId × DescriptorKey) := none
deriving Inhabited

namespace HandleKind

abbrev Held : HandleKind → Type
  | .object => ObjRef
  | .function => FnRef
  | .setter => GlobalSetter
  | .context => ContextId
  | .graph => GraphHandle
  | .hostType => HostType
  | .descriptor => DescriptorHandle
  | .factory => FactoryId
  | .adapterClass => AdapterClass
  | .sandbox => Sandbox
  | .inst => Instance

def release : (k : HandleKind) → k.Held → World → World
  | .factory, f, w => ((Factory.drop f).outcome w).2
  | .adapterClass, c, w => w.releaseClass c
  | .sandbox, s, w => w.release s
  | .inst, i, w => w.releaseClass i.cls
  | .object, _, w | .function, _, w | .setter, _, w | .context, _, w | .graph, _, w | .hostType, _, w
  | .descriptor, _, w => w

end HandleKind
end ScriptHost
