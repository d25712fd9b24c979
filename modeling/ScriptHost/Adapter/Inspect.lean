import ScriptHost.Adapter.Factory

/-!
# Inspection texts

One-line descriptions for diagnostics: the name of the kind of thing, then its fields by name in
braces.
-/

namespace ScriptHost.Inspect

def record (name : String) (fields : List (String × String)) : String :=
  name ++ " \x7b " ++ ", ".intercalate (fields.map fun f => f.1 ++ ": " ++ f.2) ++ " \x7d"

def bool (b : Bool) : String := if b then "true" else "false"

def object (w : World) (o : ObjRef) : String :=
  record "ScriptObject"
    [("id", toString o.id), ("scope", bool o.isScope), ("keys", Text.quoteList (w.heap.keys o.id))]

def function (f : FnRef) : String :=
  record "ScriptFunction" [("name", Text.quote f.name), ("strict", bool f.strict)]

def access : PackageAccess → String
  | .allowAll => "AllowAll"
  | .deny entries => "Deny(" ++ Text.quoteList entries ++ ")"

def domain (d : Domain) : String :=
  record "ProtectionDomain" [("name", Text.quote d.name), ("access", access d.access)]

def method (m : HostMethod) : String :=
  record "HostMethod"
    [("name", Text.quote m.name), ("signature", Text.quote m.signature.text), ("is_final", bool m.isFinal),
      ("abstract", bool m.isAbstract)]

def kind : TypeKind → String
  | .interface => "Interface"
  | .classType => "Class"

def hostType (t : HostType) : String :=
  record "HostType"
    [("name", Text.quote t.name), ("kind", kind t.kind),
      ("methods", "[" ++ ", ".intercalate (t.methods.map method) ++ "]"), ("domain", domain t.domain)]

def module (m : ModuleId) : String := "ModuleId(" ++ Text.quote m.name ++ ")"

def adapterClass (c : AdapterClass) : String :=
  record "AdapterClass"
    [("name", Text.quote c.name), ("target", Text.quote c.target.name), ("module", module c.module)]

def sandbox (w : World) (s : Sandbox) : String :=
  record "SandboxContext"
    [("class", Text.quote s.descriptor.className), ("module", module s.module), ("domain", domain s.domain),
      ("defined", bool (w.definition? s).isSome)]

end ScriptHost.Inspect
