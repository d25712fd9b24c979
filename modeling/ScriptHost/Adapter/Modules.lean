import ScriptHost.Text.Dotted
import ScriptHost.Text.Order

/-!
# Module graph

Directed relations between the engine's module and those of adapters: a module exports a package to
another, and a module reads another. Each loading context of an adapter gets a module of its own; its
edges go when the context goes.
-/

namespace ScriptHost

structure ModuleId where
  name : String
deriving DecidableEq, Inhabited

namespace ModuleId

def engine : ModuleId := ⟨"scopelink.core"⟩

/-- Host classes live in one open module. -/
def host : ModuleId := ⟨"host"⟩

/-- The module of the `n`-th adapter loading context. -/
def adapter (n : Nat) : ModuleId := ⟨"scopelink.adapters.unnamed$" ++ toString n⟩

end ModuleId

/-- `owner` exports `package` to `target`. -/
structure ExportEdge where
  owner : ModuleId
  package : String
  target : ModuleId
deriving DecidableEq, Inhabited

structure ReadEdge where
  reader : ModuleId
  target : ModuleId
deriving DecidableEq, Inhabited

structure ModuleGraph where
  exports : List ExportEdge := []
  reads : List ReadEdge := []
  nextAdapter : Nat := 0
deriving DecidableEq, Inhabited

namespace ModuleGraph

/-- Add an element to a list that stands for a set. -/
def withMember {α : Type} [DecidableEq α] (x : α) (xs : List α) : List α := if x ∈ xs then xs else xs ++ [x]

def newAdapterModule (g : ModuleGraph) : ModuleId × ModuleGraph :=
  (.adapter g.nextAdapter, { g with nextAdapter := g.nextAdapter + 1 })

def addExport (g : ModuleGraph) (owner : ModuleId) (package : String) (target : ModuleId) : ModuleGraph :=
  { g with exports := withMember ⟨owner, package, target⟩ g.exports }

def addRead (g : ModuleGraph) (reader target : ModuleId) : ModuleGraph :=
  { g with reads := withMember ⟨reader, target⟩ g.reads }

def isExported (g : ModuleGraph) (owner : ModuleId) (package : String) (target : ModuleId) : Bool :=
  g.exports.contains ⟨owner, package, target⟩

def readsModule (g : ModuleGraph) (reader target : ModuleId) : Bool := g.reads.contains ⟨reader, target⟩

/-- Whether code of `source` may link against a package of `owner`: its own module, the open host
module, and packages exported to it. -/
def canAccess (g : ModuleGraph) (source owner : ModuleId) (package : String) : Bool :=
  source == owner || owner == .host || g.isExported owner package source

def exportsTo (g : ModuleGraph) (owner target : ModuleId) : List String :=
  Text.sort ((g.exports.filter fun e => e.owner == owner && e.target == target).map ExportEdge.package)

/-- Forget every edge that starts or ends at a module. -/
def removeModule (g : ModuleGraph) (m : ModuleId) : ModuleGraph :=
  { g with
    exports := g.exports.filter fun e => e.owner != m && e.target != m
    reads := g.reads.filter fun e => e.reader != m && e.target != m }

def edgeCount (g : ModuleGraph) : Nat := g.exports.length + g.reads.length

def hasOutgoingEdges (g : ModuleGraph) (m : ModuleId) : Bool :=
  g.exports.any (fun e => e.owner == m) || g.reads.any (fun e => e.reader == m)

end ModuleGraph
end ScriptHost
