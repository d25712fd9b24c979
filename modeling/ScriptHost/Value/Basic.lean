import ScriptHost.Binary64.Basic

/-!
# Values

The values that generated units, script functions and adapters exchange. An object's link to its
parent and whether it is a scope are fixed when it is made, so a reference carries the whole chain of
links; only properties are state. A function is known by its number; what it does is given from
outside (see `ScriptHost.Engine`).
-/

namespace ScriptHost

structure Cell where
  id : Nat
  isScope : Bool
deriving DecidableEq, Inhabited

/-- A reference to an object: its own cell and those of its ancestors, nearest first. -/
structure ObjRef where
  cell : Cell
  ancestors : List Cell
deriving DecidableEq, Inhabited

namespace ObjRef

def id (o : ObjRef) : Nat := o.cell.id

def isScope (o : ObjRef) : Bool := o.cell.isScope

def parent? (o : ObjRef) : Option ObjRef :=
  match o.ancestors with
  | [] => none
  | c :: cs => some ⟨c, cs⟩

/-- The object exactly `n` links up; `none` if the chain has fewer links. -/
def climb? : Nat → Cell → List Cell → Option ObjRef
  | 0, c, cs => some ⟨c, cs⟩
  | _ + 1, _, [] => none
  | n + 1, _, c :: cs => climb? n c cs

def ancestor? (o : ObjRef) (n : Nat) : Option ObjRef := climb? n o.cell o.ancestors

end ObjRef

structure FnRef where
  id : Nat
  name : String
  strict : Bool
deriving DecidableEq, Inhabited

inductive Val where
  | undefined
  | bool (b : Bool)
  | int (i : Int32)
  | long (l : Int64)
  | number (x : Binary64)
  | str (s : String)
  | object (o : ObjRef)
  | function (f : FnRef)
deriving DecidableEq, Inhabited

namespace Val

def isUndefined (v : Val) : Bool := v == .undefined

/-- Name of the value's kind in messages; the three numeric kinds share one. -/
def typeName : Val → String
  | .undefined => "undefined"
  | .bool _ => "boolean"
  | .int _ | .long _ | .number _ => "number"
  | .str _ => "string"
  | .object _ => "object"
  | .function _ => "function"

/-- Equality of values as the program sees it: kinds are never mixed, numbers compare numerically, and
objects and functions by identity. -/
def same : Val → Val → Bool
  | .undefined, .undefined => true
  | .bool a, .bool b => a == b
  | .int a, .int b => a == b
  | .long a, .long b => a == b
  | .number a, .number b => a.eq b
  | .str a, .str b => a == b
  | .object a, .object b => a.id == b.id
  | .function a, .function b => a.id == b.id
  | _, _ => false

end Val
end ScriptHost
