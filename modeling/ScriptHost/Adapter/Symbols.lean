import ScriptHost.Text.Dotted

/-!
# Engine symbols

The engine's own packages and the symbols it defines in them. Four of the symbols are what generated
adapters link against; they stay visible under every domain.
-/

namespace ScriptHost.Symbols

def runtimePackage : String := "scopelink.internal.runtime"
def linkerPackage : String := "scopelink.internal.runtime.linker"
def codegenPackage : String := "scopelink.internal.codegen"
def objectsPackage : String := "scopelink.internal.objects"

/-- The packages whose symbols only the engine defines. -/
def internalPackages : List String := [runtimePackage, linkerPackage, codegenPackage, objectsPackage]

def adapterPackage : String := "scopelink.adapters"

def scriptObject : String := "scopelink.internal.runtime.ScriptObject"
def scriptFunction : String := "scopelink.internal.runtime.ScriptFunction"
def jsType : String := "scopelink.internal.runtime.JSType"
def adapterServices : String := "scopelink.internal.runtime.linker.AdapterServices"

/-- The symbols that adapters may resolve even where the engine's packages are denied. -/
def visible : List String := [adapterServices, scriptObject, scriptFunction, jsType]

def internal : List String :=
  [scriptObject, scriptFunction, jsType, "scopelink.internal.runtime.Context", adapterServices,
    "scopelink.internal.runtime.linker.Bootstrap", "scopelink.internal.codegen.Compiler",
    "scopelink.internal.objects.Global"]

def isInternalPackage (package : String) : Bool := internalPackages.contains package

end ScriptHost.Symbols
