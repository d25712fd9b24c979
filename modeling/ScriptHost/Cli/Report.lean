import ScriptHost.Adapter.Factory
import ScriptHost.Cli.Command
import ScriptHost.Dump.Files
import ScriptHost.Engine.Body
import ScriptHost.Scope.Builder
import ScriptHost.Value.Text

/-!
# Reports

What a command prints, and the classes it leaves to be dumped. A failure ends a report; what was
printed before stays. The environment and the content of the options file are given, so a report
depends on nothing else.
-/

namespace ScriptHost.Cli

structure Outcome where
  code : Nat
  stdout : String := ""
  stderr : String := ""
  dumpDir : Option String := none
  /-- The classes to dump, in order. -/
  dumps : List (String × List UInt8) := []
deriving Inhabited

inductive Failure where
  | options (e : Options.LoadError) (cause : Option Files.ReadFault)
  | depth (n : Int)
  | engine (f : Fault)
  | invocation (method : String) (f : Fault)

def faultText : Fault → String
  | .error e => e.message
  | .panic text => text
  | .exhausted => "no result"

/-- A text with the lines after the first moved in like the first. -/
def indented (s : String) : String := String.ofList (s.toList.flatMap fun c => if c = '\n' then "\n    ".toList else [c])

def withCause (message cause : String) : String :=
  message ++ "\n\nCaused by:\n    " ++ indented cause

def Failure.message : Failure → String
  | .options e none => e.message
  | .options e (some cause) => withCause e.message cause.message
  | .depth n => "invalid scope depth " ++ toString n ++ "; use -1 for an unknown depth"
  | .engine f => faultText f
  | .invocation method f => withCause ("invoke " ++ method) (faultText f)

def Outcome.failed (stdout : String) (f : Failure) : Outcome :=
  { code := 1, stdout, stderr := "Error: " ++ f.message ++ "\n" }

def lines (ls : List String) : String := String.join (ls.map fun l => l ++ "\n")

/-! ## Shared units -/

namespace SharedRequest

/-- The engine options of the request: those of the file, or else the defaults and the environment,
with the request's own over them. -/
def engineOptions (r : SharedRequest) (env : String → Option String)
    (content : Except Files.ReadFault (List UInt8)) : Except Failure Options := do
  let base ← match r.config with
    | none => pure ((({} : Options)).withEnvironment env)
    | some path =>
      match content with
      | .error cause => throw (.options (.unreadable path) (some cause))
      | .ok bytes =>
        match Text.ofBytes? bytes with
        | none => throw (.options (.unreadable path) (some .notText))
        | some text => (Options.ofDocument text).mapError fun e => .options e none
  return { base with
    getThreshold := r.getThreshold.getD base.getThreshold
    callThreshold := r.callThreshold.getD base.callThreshold
    optimisticTypes := base.optimisticTypes && !r.noOptimistic }

def scopeDepth (r : SharedRequest) : Except Failure ScopeDepth :=
  if r.depth = -1 then .ok .dynamic
  else if 0 ≤ r.depth then .ok (.known (UInt32.ofNat r.depth.toNat))
  else .error (.depth r.depth)

def shape (r : SharedRequest) (depth : ScopeDepth) (o : Options) : Shape where
  symbol := ⟨r.symbol, depth⟩
  access := if r.call then .call r.valueType (List.replicate r.arity .int) else .read r.valueType
  flags := if r.strict then .scope ||| .strict else .scope
  optimistic := o.optimisticTypes && !r.valueType.isObject

/-- The accesses of the request, with program points from 1 on. -/
def batch (r : SharedRequest) (depth : ScopeDepth) (o : Options) : List Site :=
  (List.range r.sites).map fun i => ⟨r.shape depth o, depth, Int32.ofNat (i + 1)⟩

def lowered (r : SharedRequest) (depth : ScopeDepth) (o : Options) : Except Fault (Module × List LoweredSite) :=
  let steps : Build (List LoweredSite) := do
    let unit ← ModuleBuilder.addUnit "Cli$script"
    ModuleBuilder.lower unit (r.batch depth o)
  let (result, builder) := steps.outcome { name := "cli", thresholds := .ofOptions o }
  result.map fun sites => (builder.finish, sites)

def methodText (m : Module) (cls name : String) : String := ((m.method? cls name).map Method.text).getD ""

def report (r : SharedRequest) (depth : Int32) (o : Options) (m : Module) (sites : List LoweredSite) : String :=
  let units := (sites.filterMap LoweredSite.shared).eraseReps
  let summary := lines <|
    ["sites: " ++ toString sites.length ++ " (" ++ (if r.call then "call " else "get ") ++ r.symbol ++
      ", depth " ++ toString depth.toInt ++ ")",
     "thresholds: get " ++ toString o.getThreshold.toNat ++ " call " ++ toString o.callThreshold.toNat,
     "shared units: " ++ toString units.length] ++ units.map fun u => "  " ++ u.cls ++ "." ++ u.text
  let listings := units.map (fun u => methodText m u.cls u.name) ++
    (sites.take 1).map fun s => methodText m s.cls s.name
  if r.disasm then summary ++ String.join listings else summary

def run (r : SharedRequest) (env : String → Option String) (content : Except Files.ReadFault (List UInt8)) :
    Outcome :=
  let result : Except Failure String := do
    let o ← r.engineOptions env content
    let depth ← r.scopeDepth
    let (m, sites) ← (r.lowered depth o).mapError .engine
    let encoded ← depth.encode.mapError fun e => .engine (.error (.internal e))
    return r.report encoded o m sites
  match result with
  | .ok stdout => { code := 0, stdout }
  | .error f => .failed "" f

end SharedRequest

/-! ## Adapters -/

namespace AdapterRequest

/-- The texts that the bodies of the request return: the concrete methods first, then the functions of
the script. -/
def bodyTexts (r : AdapterRequest) : List String :=
  r.concretes.map ("super:" ++ ·) ++ (if r.overrides.isEmpty then ["lambda"] else r.overrides).map ("script:" ++ ·)

def bodies (r : AdapterRequest) : Bodies :=
  BodyTable.bodies (r.bodyTexts.zipIdx.map fun b => (b.2, Body.const (.str b.1)))

def hostType (r : AdapterRequest) : HostType :=
  let domain : Domain := if r.denied.isEmpty then .trusted "cli" else .restricted "cli" r.denied
  let abstracts := (if r.abstracts.isEmpty then ["run"] else r.abstracts).map fun n =>
    (⟨n, ⟨.object, []⟩, false, none⟩ : HostMethod)
  let concretes := r.concretes.zipIdx.map fun c => (⟨c.1, ⟨.object, []⟩, false, some c.2⟩ : HostMethod)
  (abstracts ++ concretes).foldl HostType.withMethod
    (HostType.empty r.target (if r.concretes.isEmpty then .interface else .classType) domain)

/-- The script's side: one function, or an object with a function for each name. -/
def implementations (r : AdapterRequest) : EngineM Overrides := do
  if r.overrides.isEmpty then return .function ⟨r.concretes.length, "lambda", false⟩
  else
    let o ← Engine.newObject none false
    r.overrides.zipIdx.forM fun c => do
      let _ ← Engine.setProperty o c.1 (.function ⟨r.concretes.length + c.2, c.1, false⟩)
    return .object o

def make (r : AdapterRequest) (o : Options) : EngineM Instance := do
  let c ← Engine.newContext o
  let _ ← Engine.enter c
  Factory.new c 0
  let ov ← r.implementations
  if r.classLevel then (← Factory.extend 0 r.hostType ov).instantiate
  else (← Factory.adapterClass 0 r.hostType ov).newInstance ov

def report (i : Instance) : String :=
  let c := i.cls
  lines <|
    ["class: " ++ c.name, "target: " ++ c.target.name ++ " (" ++ c.target.kind.name ++ ")",
     "module: " ++ c.module.name, "domain: " ++ c.domain.name,
     "class level: " ++ (if c.isClassLevel then "true" else "false"), "methods:"] ++
    c.file.methods.map fun m => "  " ++ m.name ++ m.signature.text ++ " " ++ m.dispatch.name

def run (r : AdapterRequest) (env : String → Option String) : Outcome :=
  let base := ({} : Options).withEnvironment env
  let o := { base with dumpDir := r.dumpDir.or base.dumpDir }
  let (made, w) := (r.make o).outcome {}
  let outcome : Outcome :=
    match made, r.invoke with
    | .error f, _ => .failed "" (.engine f)
    | .ok i, none => { code := 0, stdout := report i }
    | .ok i, some method =>
      match ((i.invoke r.bodies method []).outcome w).1 with
      | .ok v => { code := 0, stdout := report i ++ method ++ " -> " ++ v.display ++ "\n" }
      | .error f => .failed (report i) (.invocation method f)
  { outcome with dumpDir := o.dumpDir, dumps := w.contexts.entries.flatMap fun e => e.2.dumps }

end AdapterRequest

/-! ## Commands -/

def versionText : String := "scopelink 0.1.0\n"

def helpText : String := lines
  ["Inspect shared scope-call units and generated adapters", "", "Usage: scopelink <COMMAND>", "", "Commands:",
   "  shared   Lower N identical scope accesses and report which shared units they use",
   "  adapter  Generate and load an adapter for a synthetic host type",
   "  help     Print this message", "", "Options:", "  -h, --help     Print help", "  -V, --version  Print version"]

def usageText : String := lines ["error: invalid arguments", "", "For more information, try '--help'."]

/-- What a command line does. `content` is the options file that it names. -/
def run (args : List String) (env : String → Option String) (content : Except Files.ReadFault (List UInt8)) :
    Outcome :=
  match Command.ofArguments? args with
  | none => { code := 2, stderr := usageText }
  | some .version => { code := 0, stdout := versionText }
  | some .help => { code := 0, stdout := helpText }
  | some (.shared r) => r.run env content
  | some (.adapter r) => r.run env

end ScriptHost.Cli
