import ScriptHost.Permission
import ScriptHost.Value.Basic

/-!
# Thread state

What is bound to a thread: its privileged frames, innermost first, the engine context, and the
current global object. A permission is granted by the innermost frame alone, so that a wide outer
frame does not reach into a narrow inner one.
-/

namespace ScriptHost

abbrev ContextId := Nat

structure Thread where
  frames : List (List Permission) := []
  context : Option ContextId := none
  global : Option ObjRef := none
deriving DecidableEq, Inhabited

namespace Thread

def grants (t : Thread) (p : Permission) : Bool :=
  match t.frames with
  | [] => false
  | f :: _ => f.contains p

def isElevated (t : Thread) : Bool := !t.frames.isEmpty

def pushFrame (t : Thread) (ps : List Permission) : Thread := { t with frames := ps :: t.frames }

def truncate (t : Thread) (depth : Nat) : Thread :=
  { t with frames := t.frames.drop (t.frames.length - depth) }

end Thread

/-- What leaving a scope puts back: the bindings before a context was entered, or the global before
another one was installed. -/
inductive Guard where
  | entered (context : Option ContextId) (global : Option ObjRef)
  | installed (global : Option ObjRef)
deriving DecidableEq, Inhabited

namespace Thread

/-- Bind a context and its global; the guard holds what was bound. -/
def enter (t : Thread) (c : ContextId) (global : ObjRef) : Guard × Thread :=
  (.entered t.context t.global, { t with context := some c, global := some global })

def install (t : Thread) (global : Option ObjRef) : Guard × Thread :=
  (.installed t.global, { t with global := global })

def restore (t : Thread) : Guard → Thread
  | .entered c g => { t with context := c, global := g }
  | .installed g => { t with global := g }

end Thread
end ScriptHost
