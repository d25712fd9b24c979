import ScriptHost.Cli.Arguments
import ScriptHost.Code.Ty
import ScriptHost.Dump.Path

/-!
# Commands

What the command line can ask for: a batch of equal scope accesses to be lowered, or an adapter of a
made-up host type to be generated and tried. Each option has a default.
-/

namespace ScriptHost.Cli

/-- Lower a number of equal scope accesses. -/
structure SharedRequest where
  symbol : String := "x"
  sites : Nat := 6
  /-- Depth of the symbol; -1 if it is unknown. -/
  depth : Int := 0
  call : Bool := false
  arity : Nat := 0
  valueType : Ty := .object
  strict : Bool := false
  config : Option String := none
  getThreshold : Option UInt32 := none
  callThreshold : Option UInt32 := none
  noOptimistic : Bool := false
  disasm : Bool := false
deriving Inhabited

structure AdapterRequest where
  target : String := "host.api.Runnable"
  /-- Abstract methods of the target; one named `run` if none are given. -/
  abstracts : List String := []
  concretes : List String := []
  /-- Methods that the script implements; without any, one function implements all abstract methods. -/
  overrides : List String := []
  classLevel : Bool := false
  denied : List String := []
  dumpDir : Option String := none
  invoke : Option String := none
deriving Inhabited

/-- A path without a part that leads upwards. -/
def path? (s : String) : Option String := if ['.', '.'] ∈ Dump.parts s.toList then none else some s

def word? (s : String) : Option UInt32 := (integer? 0 0xffffffff s).map fun i => UInt32.ofNat i.toNat

def valueType? : String → Option Ty
  | "int" => some .int
  | "long" => some .long
  | "number" => some .number
  | "boolean" => some .boolean
  | "object" => some .object
  | _ => none

def SharedRequest.options : List (Opt SharedRequest) :=
  [⟨"symbol", .single fun v r => some { r with symbol := v }, false⟩,
   ⟨"sites", .single fun v r => (word? v).map fun n => { r with sites := n.toNat }, false⟩,
   ⟨"depth", .single fun v r => (integer? (-0x80000000) 0x7fffffff v).map fun i => { r with depth := i }, true⟩,
   ⟨"call", .switch fun r => { r with call := true }, false⟩,
   ⟨"arity", .single fun v r => (integer? 0 65535 v).map fun i => { r with arity := i.toNat }, false⟩,
   ⟨"value-type", .single fun v r => (valueType? v).map fun t => { r with valueType := t }, false⟩,
   ⟨"strict", .switch fun r => { r with strict := true }, false⟩,
   ⟨"config", .single fun v r => (path? v).map fun p => { r with config := some p }, false⟩,
   ⟨"get-threshold", .single fun v r => (word? v).map fun n => { r with getThreshold := some n }, false⟩,
   ⟨"call-threshold", .single fun v r => (word? v).map fun n => { r with callThreshold := some n }, false⟩,
   ⟨"no-optimistic", .switch fun r => { r with noOptimistic := true }, false⟩,
   ⟨"disasm", .switch fun r => { r with disasm := true }, false⟩]

def AdapterRequest.options : List (Opt AdapterRequest) :=
  [⟨"target", .single fun v r => some { r with target := v }, false⟩,
   ⟨"abstract", .collect fun v r => some { r with abstracts := r.abstracts ++ [v] }, false⟩,
   ⟨"concrete", .collect fun v r => some { r with concretes := r.concretes ++ [v] }, false⟩,
   ⟨"override", .collect fun v r => some { r with overrides := r.overrides ++ [v] }, false⟩,
   ⟨"class-level", .switch fun r => { r with classLevel := true }, false⟩,
   ⟨"deny", .collect fun v r => some { r with denied := r.denied ++ [v] }, false⟩,
   ⟨"dump-dir", .single fun v r => (path? v).map fun p => { r with dumpDir := some p }, false⟩,
   ⟨"invoke", .single fun v r => some { r with invoke := some v }, false⟩]

inductive Command where
  | shared (r : SharedRequest)
  | adapter (r : AdapterRequest)
  | version
  | help
deriving Inhabited

namespace Command

def ofParsed {ρ : Type} (make : ρ → Command) : Parsed ρ → Option Command
  | .request r => some (make r)
  | .help => some .help
  | .usage => none

def names : List String := ["shared", "adapter", "help"]

def ofArguments? : List String → Option Command
  | [] => none
  | "shared" :: args => ofParsed .shared (readOptions SharedRequest.options none [] {} args)
  | "adapter" :: args => ofParsed .adapter (readOptions AdapterRequest.options none [] {} args)
  | "help" :: args =>
    match args with
    | [] => some .help
    | [topic] => if names.contains topic then some .help else none
    | _ => none
  | arg :: _ =>
    match Argument.ofString arg with
    | .long "version" none => some .version
    | .long "help" none => some .help
    | .short ('V' :: _) => some .version
    | .short ('h' :: _) => some .help
    | _ => none

def configPath? : Command → Option String
  | .shared r => r.config
  | _ => none

end Command
end ScriptHost.Cli
