import ScriptHost.Adapter.ClassFile.Writer
import ScriptHost.Adapter.NameHash
import ScriptHost.Adapter.Symbols

/-!
# Adapter descriptors

From a host type and the names that a script implements, the class of a bridge: overridden methods go
to the script, the others to the superclass body or nowhere. Names that are no overridable method of
the target have no influence. The class runs under the target's own domain.
-/

namespace ScriptHost

/-- Everything needed to load one generated class. -/
structure Descriptor where
  target : HostType
  className : String
  bytes : List UInt8
  domain : Domain
  classLevel : Bool
  /-- The methods that go to the script, in ascending order. -/
  overrides : List String
deriving DecidableEq, Inhabited

def insertName (x : String) : List String → List String
  | [] => [x]
  | y :: ys => if Text.before x y then x :: y :: ys else if Text.before y x then y :: insertName x ys else y :: ys

def sortNames (xs : List String) : List String := xs.foldr insertName []

namespace Descriptor

/-- The requested names that are overridable methods of the target, in ascending order. -/
def effective (target : HostType) (requested : List String) : List String :=
  sortNames ((target.overridable.filter fun m => requested.contains m.name).map HostMethod.name)

/-- The name of the generated class: the adapters' package, the target's simple name, and the hash. -/
def nameFor (target : HostType) (overrides : List String) (classLevel : Bool) : String :=
  Symbols.adapterPackage ++ "." ++ target.simpleName ++ "$$Adapter$" ++
    Text.hexPadded 16 (NameHash.adapterHash target overrides classLevel).toNat

def dispatchOf (overrides : List String) (m : HostMethod) : Dispatch :=
  if overrides.contains m.name then .script else if m.isAbstract then .unsupported else .super

/-- The symbols that a generated class links against: the engine's four, then the target. -/
def linkedSymbols (target : HostType) : List String := Symbols.visible ++ [target.name]

def classFile (target : HostType) (overrides : List String) (classLevel : Bool) : ClassFile where
  version := currentVersion
  name := nameFor target overrides classLevel
  target := target.name
  kind := target.kind
  classLevel := classLevel
  refs := linkedSymbols target
  methods := target.methods.map fun m => ⟨m.name, m.signature, dispatchOf overrides m⟩
  annotations := some ⟨some target.domain.name, .empty⟩

def generate (target : HostType) (requested : List String) (classLevel : Bool) :
    Except EngineError Descriptor :=
  let overrides := effective target requested
  let c := classFile target overrides classLevel
  match c.encode with
  | .ok bytes => .ok ⟨target, c.name, bytes, target.domain, classLevel, overrides⟩
  | .error e => .error (InternalFault.unencodable c.name e.fullMessage)

end Descriptor
end ScriptHost
