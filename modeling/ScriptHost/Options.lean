import ScriptHost.Text.Blank
import ScriptHost.Toml.Document

/-!
# Engine options

Options come in three layers: defaults, an optional TOML document, and the environment. The document
must have the right type of value under each known key and may hold anything else; an environment
value that is no number leaves a threshold as it was.
-/

namespace ScriptHost

structure Options where
  /-- Number of identical scope reads that must be exceeded before they share a unit. -/
  getThreshold : UInt32 := 100
  callThreshold : UInt32 := 5
  dumpDir : Option String := none
  /-- Whether scope accesses are compiled under type assumptions. -/
  optimisticTypes : Bool := true
deriving DecidableEq, Inhabited

namespace Options

/-! ## Document -/

def wordAt (es : Toml.Entries) (key : String) (default : UInt32) : Option UInt32 :=
  match es.get? key with
  | none => some default
  | some (.value (.word (.integer i))) => if 0 ≤ i ∧ i < 0x100000000 then some (UInt32.ofNat i.toNat) else none
  | some _ => none

def boolAt (es : Toml.Entries) (key : String) (default : Bool) : Option Bool :=
  match es.get? key with
  | none => some default
  | some (.value (.word (.boolean b))) => some b
  | some _ => none

def textAt (es : Toml.Entries) (key : String) : Option (Option String) :=
  match es.get? key with
  | none => some none
  | some (.value (.str s)) => some (some s)
  | some _ => none

def ofToml? (text : String) : Option Options := do
  let es ← Toml.read? text
  let standard : Options := {}
  return {
    getThreshold := ← wordAt es "shared-get-threshold" standard.getThreshold
    callThreshold := ← wordAt es "shared-call-threshold" standard.callThreshold
    dumpDir := ← textAt es "dump-dir"
    optimisticTypes := ← boolAt es "optimistic-types" standard.optimisticTypes }

/-! ## Environment -/

def getThresholdVariable : String := "SCOPELINK_SHARED_GET_THRESHOLD"
def callThresholdVariable : String := "SCOPELINK_SHARED_CALL_THRESHOLD"
def dumpDirVariable : String := "SCOPELINK_DUMP_DIR"

/-- An unsigned 32-bit number: ASCII digits after an optional plus sign. -/
def word32? (cs : List Char) : Option UInt32 :=
  let ds := match cs with | '+' :: r => r | r => r
  if ds ≠ [] ∧ ds.all Char.isDigit then
    let n := Binary64.natOfDigits ds
    if n < 0x100000000 then some (UInt32.ofNat n) else none
  else none

def overrideWord (value : Option String) (current : UInt32) : UInt32 :=
  match value with
  | some raw => (word32? (Text.trim raw.toList)).getD current
  | none => current

/-- The options with the environment's values put over them. A blank directory turns dumps off. -/
def withEnvironment (o : Options) (lookup : String → Option String) : Options :=
  { o with
    getThreshold := overrideWord (lookup getThresholdVariable) o.getThreshold
    callThreshold := overrideWord (lookup callThresholdVariable) o.callThreshold
    dumpDir := match lookup dumpDirVariable with
      | none => o.dumpDir
      | some raw => match Text.trim raw.toList with
        | [] => none
        | cs => some (String.ofList cs) }

/-! ## Loading -/

inductive LoadError where
  | unreadable (path : String)
  | notOptions
deriving DecidableEq, Inhabited

def LoadError.message : LoadError → String
  | .unreadable path => "read options file " ++ path
  | .notOptions => "parse engine options"

def ofDocument (text : String) : Except LoadError Options :=
  match ofToml? text with
  | some o => .ok o
  | none => .error .notOptions

/-- The options in a file, whose content is given if it could be read. -/
def ofFile (path : String) (content : Option String) : Except LoadError Options :=
  match content with
  | some text => ofDocument text
  | none => .error (.unreadable path)

end Options
end ScriptHost
