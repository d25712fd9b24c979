import ScriptHost.Assoc
import ScriptHost.Text.Order
import ScriptHost.Value.Basic

/-!
# Properties of objects

The state of all objects: their properties, and the number that the next object gets. A name is
looked for on an object itself and then along its chain, nearest first.
-/

namespace ScriptHost

structure Heap where
  next : Nat := 1
  properties : Assoc Nat (Assoc String Val) := ⟨[]⟩
deriving DecidableEq

namespace Heap

instance : Inhabited Heap := ⟨{}⟩

def alloc (h : Heap) (parent : Option ObjRef) (isScope : Bool) : ObjRef × Heap :=
  let ancestors := match parent with
    | none => []
    | some p => p.cell :: p.ancestors
  (⟨⟨h.next, isScope⟩, ancestors⟩, { h with next := h.next + 1 })

def propertiesOf (h : Heap) (id : Nat) : Assoc String Val := (h.properties.get? id).getD ⟨[]⟩

def own? (h : Heap) (id : Nat) (name : String) : Option Val := (h.propertiesOf id).get? name

def set (h : Heap) (id : Nat) (name : String) (v : Val) : Heap :=
  { h with properties := h.properties.put id ((h.propertiesOf id).put name v) }

/-- The nearest object of a chain that holds a name, with the value it holds. -/
def findFrom (h : Heap) (name : String) : Cell → List Cell → Option (ObjRef × Val)
  | c, cs =>
    match h.own? c.id name with
    | some v => some (⟨c, cs⟩, v)
    | none =>
      match cs with
      | [] => none
      | p :: ps => findFrom h name p ps
termination_by structural _ cs => cs

def find? (h : Heap) (o : ObjRef) (name : String) : Option (ObjRef × Val) :=
  h.findFrom name o.cell o.ancestors

def keys (h : Heap) (id : Nat) : List String := Text.sort (h.propertiesOf id).keys

end Heap
end ScriptHost
