import ScriptHost.Error
import ScriptHost.Text.Dotted

/-!
# Protection domains

A domain is the trust boundary under which a class is defined. Its policy either allows every package
or denies those that equal one of its entries or are nested under one, part by part.
-/

namespace ScriptHost

/-- Which packages code of a domain may name. -/
inductive PackageAccess where
  | allowAll
  | deny (entries : List String)
deriving DecidableEq, Inhabited

namespace PackageAccess

/-- Whether the text of `entry` starts `package` and ends there at its end or at a dot. -/
def covers (entry package : List Char) : Bool :=
  match entry, package with
  | [], [] => true
  | [], c :: _ => c == '.'
  | _ :: _, [] => false
  | a :: as, b :: bs => a == b && covers as bs

def permits (access : PackageAccess) (package : String) : Bool :=
  match access with
  | .allowAll => true
  | .deny entries => !entries.any fun e => covers e.toList package.toList

end PackageAccess

structure Domain where
  name : String
  access : PackageAccess
deriving DecidableEq, Inhabited

namespace Domain

def trusted (name : String) : Domain := ⟨name, .allowAll⟩

def restricted (name : String) (denied : List String) : Domain := ⟨name, .deny denied⟩

def permits (d : Domain) (package : String) : Bool := d.access.permits package

/-- The default package is open to every domain. -/
def check (d : Domain) (symbol package : String) : Except EngineError Unit :=
  if package = "" ∨ d.permits package then .ok ()
  else .error (.accessDenied symbol package)

end Domain
end ScriptHost
