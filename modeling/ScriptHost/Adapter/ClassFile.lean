import ScriptHost.Adapter.HostType
import ScriptHost.Text.Order

/-!
# Adapter classes

What a generated adapter class consists of: its name and target, the symbols it links against, one
entry per method with the way it is dispatched, and optional annotations.
-/

namespace ScriptHost

/-- How a method of an adapter is answered. -/
inductive Dispatch where
  /-- By the implementation that the script supplied. -/
  | script
  /-- By the superclass body or the interface default. -/
  | super
  | unsupported
deriving DecidableEq, Inhabited

namespace Dispatch

def all : List Dispatch := [.script, .super, .unsupported]

def name : Dispatch → String
  | .script => "script"
  | .super => "super"
  | .unsupported => "unsupported"

end Dispatch

structure MethodEntry where
  name : String
  signature : Signature
  dispatch : Dispatch
deriving DecidableEq, Inhabited

/-! ## Annotations -/

/-- Put a pair into a list in ascending order of keys, in place of one with an equal key. -/
def insertPair (k v : String) : List (String × String) → List (String × String)
  | [] => [(k, v)]
  | (k', v') :: rest =>
    if Text.before k k' then (k, v) :: (k', v') :: rest
    else if Text.before k' k then (k', v') :: insertPair k v rest
    else (k, v) :: rest

def KeysAscend (ps : List (String × String)) : Prop := ps.Pairwise fun a b => Text.before a.1 b.1

theorem before_of_mem_insertPair {a k v : String} {ps : List (String × String)} (hk : Text.before a k)
    (h : ∀ p ∈ ps, Text.before a p.1) : ∀ p ∈ insertPair k v ps, Text.before a p.1 := by
  induction ps with
  | nil => simp [insertPair, hk]
  | cons q rest ih =>
    obtain ⟨k', v'⟩ := q
    intro p hp
    simp only [insertPair] at hp
    split at hp
    · rcases List.mem_cons.1 hp with rfl | hp
      · exact hk
      · exact h p hp
    · split at hp
      · rcases List.mem_cons.1 hp with rfl | hp
        · exact h _ (List.mem_cons_self ..)
        · exact ih (fun p hp => h p (List.mem_cons_of_mem _ hp)) p hp
      · rcases List.mem_cons.1 hp with rfl | hp
        · exact hk
        · exact h p (List.mem_cons_of_mem _ hp)

theorem keysAscend_insertPair {k v : String} {ps : List (String × String)} (h : KeysAscend ps) :
    KeysAscend (insertPair k v ps) := by
  induction ps with
  | nil => simp [insertPair, KeysAscend]
  | cons q rest ih =>
    obtain ⟨k', v'⟩ := q
    obtain ⟨hq, hrest⟩ := List.pairwise_cons.1 h
    simp only [insertPair]
    split
    · next hlt =>
      refine List.pairwise_cons.2 ⟨?_, h⟩
      intro p hp
      rcases List.mem_cons.1 hp with rfl | hp
      · exact hlt
      · exact Text.before_trans hlt (hq p hp)
    · next hnlt =>
      split
      · next hlt => exact List.pairwise_cons.2 ⟨before_of_mem_insertPair hlt hq, ih hrest⟩
      · next hnlt' =>
        have : k = k' := Text.eq_of_not_before (by simpa using hnlt) (by simpa using hnlt')
        subst this
        exact List.pairwise_cons.2 ⟨hq, hrest⟩

/-- Tags by name, in ascending order of names, each name once. -/
structure Tags where
  pairs : List (String × String)
  ascend : KeysAscend pairs
deriving DecidableEq

namespace Tags

def empty : Tags := ⟨[], List.Pairwise.nil⟩

instance : Inhabited Tags := ⟨empty⟩

def insert (t : Tags) (k v : String) : Tags := ⟨insertPair k v t.pairs, keysAscend_insertPair t.ascend⟩

/-- Later pairs take the place of earlier ones of the same name. -/
def ofList (ps : List (String × String)) : Tags := ps.foldl (fun t p => t.insert p.1 p.2) empty

end Tags

/-- Annotations that only diagnostics read. -/
structure Annotations where
  targetDomain : Option String
  tags : Tags
deriving DecidableEq, Inhabited

namespace Annotations

def isEmpty (a : Annotations) : Bool := a.targetDomain.isNone && a.tags.pairs.isEmpty

end Annotations

/-! ## The class -/

def currentVersion : UInt16 := 1

structure ClassFile where
  version : UInt16
  name : String
  target : String
  kind : TypeKind
  classLevel : Bool
  /-- Symbols that the class links against when it is defined. -/
  refs : List String
  methods : List MethodEntry
  annotations : Option Annotations
deriving DecidableEq, Inhabited

namespace ClassFile

def method? (c : ClassFile) (name : String) : Option MethodEntry :=
  c.methods.find? fun m => m.name == name

end ClassFile
end ScriptHost
