import ScriptHost.Adapter.Domain

/-!
# Host types

The interfaces and extensible classes that adapters implement. A method with a body (an interface
default or a superclass body) names it by number; what a body does is given from outside, as for
script functions. A method without a body is abstract.
-/

namespace ScriptHost

inductive TypeKind where
  | interface
  | classType
deriving DecidableEq, Inhabited

def TypeKind.name : TypeKind → String
  | .interface => "interface"
  | .classType => "class"

abbrev BodyId := Nat

structure HostMethod where
  name : String
  signature : Signature
  isFinal : Bool
  body : Option BodyId
deriving DecidableEq, Inhabited

namespace HostMethod

def isAbstract (m : HostMethod) : Bool := m.body.isNone

end HostMethod

structure HostType where
  name : String
  kind : TypeKind
  domain : Domain
  methods : List HostMethod
deriving DecidableEq, Inhabited

namespace HostType

def empty (name : String) (kind : TypeKind) (domain : Domain) : HostType := ⟨name, kind, domain, []⟩

/-- Add a method at the end, in place of an earlier one of the same name. -/
def withMethod (t : HostType) (m : HostMethod) : HostType :=
  { t with methods := t.methods.filter (fun m' => m'.name != m.name) ++ [m] }

def simpleName (t : HostType) : String := Text.simpleName t.name

def method? (t : HostType) (name : String) : Option HostMethod := t.methods.find? fun m => m.name == name

/-- The methods that an adapter may override: those that are not final. -/
def overridable (t : HostType) : List HostMethod := t.methods.filter fun m => !m.isFinal

end HostType
end ScriptHost
