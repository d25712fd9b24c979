/-!
# Permissions

The capabilities that a privileged frame can grant.
-/

namespace ScriptHost

inductive Permission where
  /-- Make an isolated loading context and define a class into it. -/
  | createClassLoader
  /-- Read the engine context bound to the thread. -/
  | getContext
  | setGlobal
deriving DecidableEq, Inhabited

namespace Permission

def all : List Permission := [.createClassLoader, .getContext, .setGlobal]

def name : Permission → String
  | .createClassLoader => "createClassLoader"
  | .getContext => "getContext"
  | .setGlobal => "setGlobal"

def ofName? (s : String) : Option Permission := all.find? fun p => p.name == s

end Permission
end ScriptHost
