import ScriptHost.Adapter.Instance

/-!
# Adapter factories

A factory turns a host type and script-side implementations into adapters. Requests with the same
target name and the same covered methods share one descriptor, and descriptors of one class name share
one loaded class. Classes with class-level implementations are always new.
-/

namespace ScriptHost.Factory

def get? (id : FactoryId) : EngineM Factory := return ((← get).factories.get? id).getD default

def modifyFactory (id : FactoryId) (f : Factory → Factory) : EngineM Unit :=
  modify fun w => { w with factories := w.factories.adjust id f }

def new (c : ContextId) (id : FactoryId) : EngineM Unit :=
  modify fun w => { w with factories := w.factories.put id { context := c } }

/-- A new factory for the context bound to the thread. -/
def forCurrent (id : FactoryId) : EngineM ContextId := do
  match ← Engine.privileged [.getContext] Engine.currentContext with
  | some c =>
    new c id
    return c
  | none => Run.fail InternalFault.noContext

def drop (id : FactoryId) : EngineM Unit :=
  modify fun w =>
    let classes := ((w.factories.get? id).map fun f => f.classes.entries).getD []
    classes.foldl (fun w e => w.releaseClass e.2) { w with factories := w.factories.erase id }

/-- What decides which descriptor a request gets. -/
def keyFor (h : Heap) (target : HostType) (ov : Overrides) : DescriptorKey := ⟨target.name, ov.names h target⟩

def descriptor (id : FactoryId) (target : HostType) (ov : Overrides) : EngineM Descriptor := do
  let key := keyFor (← get).heap target ov
  match (← get? id).descriptors.get? key with
  | some d => return d
  | none =>
    let d ← Run.ofExcept (Descriptor.generate target key.overrides false)
    modifyFactory id fun f => { f with descriptors := f.descriptors.put key d }
    return d

/-- Load a descriptor's class under the target's domain. The context learns of the target if it knows
no type of that name. -/
def load (id : FactoryId) (target : HostType) (d : Descriptor) : EngineM AdapterClass := do
  let c := (← get? id).context
  Engine.modifyContext c fun ctx =>
    if ctx.classPath.contains target.name then ctx
    else { ctx with classPath := ctx.classPath.put target.name target }
  d.load c .engine d.domain

/-- The adapter class of a target for implementations that come with each instance, as a handle. -/
def adapterClass (id : FactoryId) (target : HostType) (ov : Overrides) : EngineM AdapterClass := do
  let d ← descriptor id target ov
  match (← get? id).classes.get? d.className with
  | some c =>
    modify fun w => w.retain c.sandbox
    return c
  | none =>
    let c ← load id target d
    modifyFactory id fun f => { f with classes := f.classes.put d.className c }
    modify fun w => w.retain c.sandbox
    return c

def newAdapter (id : FactoryId) (target : HostType) (ov : Overrides) : EngineM Instance := do
  let c ← adapterClass id target ov
  Run.ensuring (c.newInstance ov) fun w => w.releaseClass c

/-- A new class with class-level implementations, as a handle. -/
def extend (id : FactoryId) (target : HostType) (ov : Overrides) : EngineM AdapterClass := do
  let d ← Run.ofExcept (Descriptor.generate target (ov.names (← get).heap target) true)
  let c ← load id target d
  return { c with overrides := some ov }

end ScriptHost.Factory
