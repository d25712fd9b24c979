import ScriptHost.Assoc
import ScriptHost.Code.Insn
import ScriptHost.Code.Slots

/-!
# Drafts of methods

A method under construction: instructions are added at the end, labels are bound to the place of the
next instruction, and catch regions are given by labels that may be bound later. Finishing a draft
resolves the labels.
-/

namespace ScriptHost

structure Label where
  id : Nat
  name : String
deriving DecidableEq, Inhabited

/-- A catch region by its labels. -/
structure Region where
  start : Label
  stop : Label
  target : Label
deriving DecidableEq, Inhabited

structure Draft where
  cls : String
  name : String
  signature : Signature
  isStatic : Bool
  code : List Insn := []
  bound : List (Nat × Nat) := []
  regions : List Region := []
  /-- Names of the labels, in the order in which they were made. -/
  labels : List String := []
  begun : Bool := false
deriving DecidableEq, Inhabited

namespace Draft

def start (cls name : String) (signature : Signature) (isStatic : Bool) : Draft :=
  { cls, name, signature, isStatic }

def begin (d : Draft) : Except Fault Draft :=
  if d.begun then .error (.panic ("method " ++ d.name ++ " begun twice"))
  else .ok { d with begun := true }

def newLabel (d : Draft) (name : String) : Label × Draft :=
  (⟨d.labels.length, name⟩, { d with labels := d.labels ++ [name] })

def label? (d : Draft) (i : Nat) : Option Label := d.labels[i]?.map fun name => ⟨i, name⟩

def emit (d : Draft) (i : Insn) : Draft := { d with code := d.code ++ [i] }

def bind (d : Draft) (l : Label) : Except Fault Draft :=
  if (d.bound.lookup l.id).isSome then .error (.panic ("label " ++ l.name ++ " bound twice"))
  else .ok { d with bound := (l.id, d.code.length) :: d.bound }

def addRegion (d : Draft) (r : Region) : Draft := { d with regions := d.regions ++ [r] }

def place (d : Draft) (l : Label) : Except InternalFault Nat :=
  match d.bound.lookup l.id with
  | some pc => .ok pc
  | none => .error (.unboundLabel l.name d.name)

def handler (d : Draft) (r : Region) : Except InternalFault Handler := do
  let h : Handler := ⟨← d.place r.start, ← d.place r.stop, ← d.place r.target⟩
  if h.stop < h.start then .error (.invertedRegion d.name) else .ok h

/-- The finished method. Its local slots are counted last. -/
def finish (d : Draft) : Except Fault Method := do
  if !d.begun then .error (.error (.internal (.notBegun d.name)))
  else
    let handlers ← asInternal (d.regions.mapM d.handler)
    let _ ← slotBehind 0 d.signature.params
    return {
      cls := d.cls
      name := d.name
      signature := d.signature
      isStatic := d.isStatic
      code := d.code
      handlers }

end Draft

/-- A class that methods are added to. -/
structure ClassBody where
  name : String
  methods : List Method := []
deriving DecidableEq, Inhabited

namespace ClassBody

/-- Add a method of the class under a name it does not have yet. -/
def add (c : ClassBody) (m : Method) : Except InternalFault ClassBody :=
  if m.cls ≠ c.name then .error (.foreignMethod m.name m.cls c.name)
  else if c.methods.any fun m' => m'.name == m.name then .error (.duplicateMethod m.name c.name)
  else .ok { c with methods := c.methods ++ [m] }

def method? (c : ClassBody) (name : String) : Option Method := c.methods.find? fun m => m.name == name

end ClassBody

structure Module where
  name : String
  classes : Assoc String ClassBody
deriving DecidableEq, Inhabited

namespace Module

def method? (m : Module) (cls method : String) : Option Method :=
  (m.classes.get? cls).bind fun c => c.method? method

def methods (m : Module) : List Method := m.classes.entries.flatMap fun e => e.2.methods

end Module
end ScriptHost
