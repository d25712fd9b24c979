import ScriptHost.Adapter.Descriptor
import ScriptHost.Adapter.Modules
import ScriptHost.Thread

/-!
# Loaded types

A sandbox is a loading context made for one descriptor: it holds a module of its own and asks its
parent for every symbol but the descriptor's class. An adapter class is a handle to the class that a
sandbox has defined. What can change about a sandbox (whether its class is defined, the handles to it)
is state of the engine and not part of these values.
-/

namespace ScriptHost

abbrev SandboxId := Nat

inductive Overrides where
  /-- Function-valued properties implement the methods of the same name. -/
  | object (o : ObjRef)
  /-- One function implements every abstract method. -/
  | function (f : FnRef)
deriving DecidableEq, Inhabited

mutual

/-- A loading context for one adapter class. -/
structure Sandbox where
  id : SandboxId
  context : ContextId
  descriptor : Descriptor
  parent : Parent
  domain : Domain
  module : ModuleId

/-- Where a sandbox looks up the symbols it does not define. -/
inductive Parent where
  /-- The engine's loader: its own symbols first, then the class path. -/
  | engine
  | classPath
  /-- A loader that fails with an error of its own for every name. -/
  | broken
  /-- A loader that knows one adapter class, and asks the engine's loader for the rest. -/
  | publishing (cls : AdapterClass)

/-- A handle to a defined adapter class. Class-level overrides come with the handle. -/
structure AdapterClass where
  sandbox : Sandbox
  file : ClassFile
  overrides : Option Overrides

end

instance : Inhabited Sandbox := ⟨⟨0, 0, default, .engine, default, default⟩⟩
instance : Inhabited AdapterClass := ⟨⟨default, default, none⟩⟩

namespace AdapterClass

def name (c : AdapterClass) : String := c.file.name

def descriptor (c : AdapterClass) : Descriptor := c.sandbox.descriptor

def target (c : AdapterClass) : HostType := c.sandbox.descriptor.target

def module (c : AdapterClass) : ModuleId := c.sandbox.module

def domain (c : AdapterClass) : Domain := c.sandbox.domain

def isClassLevel (c : AdapterClass) : Bool := c.file.classLevel

/-- Whether two handles are to the same defined class: a sandbox defines at most one. -/
def sameType (a b : AdapterClass) : Bool := a.sandbox.id == b.sandbox.id

end AdapterClass

structure Instance where
  cls : AdapterClass
  overrides : Overrides
  /-- The global that was current when the instance was made. -/
  global : Option ObjRef

inductive LoadedType where
  | host (t : HostType)
  | internal (name : String)
  | adapter (c : AdapterClass)

namespace LoadedType

def name : LoadedType → String
  | .host t => t.name
  | .internal n => n
  | .adapter c => c.name

def module : LoadedType → ModuleId
  | .host _ => .host
  | .internal _ => .engine
  | .adapter c => c.module

def isInternal : LoadedType → Bool
  | .internal _ => true
  | _ => false

end LoadedType
end ScriptHost
