import ScriptHost.Code.Flags
import ScriptHost.Code.Ty
import ScriptHost.Permission
import ScriptHost.Value.Text

/-!
# Errors

Every failure is a cause with the data that belongs to it; the wording is in one place, the functions
`message` at the end. `EngineError` is what an operation of the engine can fail with. `Fault` adds the
two ways in which a computation ends without an answer: a panic, and a run cut off by its step budget.
-/

namespace ScriptHost

/-- An assumed type did not hold: the value that was found, and the program point to which the failed
assumption is attributed. -/
structure Misspeculation where
  value : Val
  point : Int32
deriving DecidableEq, Inhabited

namespace Misspeculation

/-- The same failure attributed to another program point. -/
def reattribute (m : Misspeculation) (pp : Int32) : Misspeculation := { m with point := pp }

def message (m : Misspeculation) : String :=
  "unwarranted optimism at program point " ++ toString m.point.toInt ++ ": got " ++ m.value.display ++
    " (" ++ m.value.typeName ++ ")"

end Misspeculation

/-- Categories of errors that scripts can tell apart. -/
inductive ScriptErrorKind where
  | typeError
  | referenceError
  | rangeError
deriving DecidableEq, Inhabited

def ScriptErrorKind.name : ScriptErrorKind → String
  | .typeError => "TypeError"
  | .referenceError => "ReferenceError"
  | .rangeError => "RangeError"

inductive ScriptFault where
  | unreadable (property kind : String)
  | notCallable (name kind : String)
  | notDefined (name : String)
  | callDepth
  | classLevelOverrides (cls : String)
  | noClassLevelOverrides (cls : String)
  | overrideMismatch (supplied : List String) (cls : String) (expected : List String)
  | noMethod (target method : String)
  | argumentCount (target method : String) (expected got : Nat)
  | noScript (target method : String)
  | raised (kind : ScriptErrorKind) (text : String)
deriving DecidableEq, Inhabited

def ScriptFault.kind : ScriptFault → ScriptErrorKind
  | .notDefined _ => .referenceError
  | .callDepth => .rangeError
  | .raised k _ => k
  | _ => .typeError

/-- Causes of a class definition being refused. -/
inductive DefinitionFault where
  | otherClass (defined expected : String)
  | otherTarget (cls defined expected : String)
  | selfReference (cls : String)
  | foreignResolution (cls found : String)
  | raised (text : String)
deriving DecidableEq, Inhabited

/-- Violations of the engine's own consistency. -/
inductive InternalFault where
  -- sites and shapes
  | pointRange (pp : Int32)
  | sitePointRange (symbol : String) (pp : Int32)
  | depthRange (depth : Nat)
  | paramSlots (symbol : String) (slots : Nat)
  | chainEnds (hops depth : Nat)
  -- assembling methods and classes
  | notBegun (method : String)
  | unboundLabel (label method : String)
  | invertedRegion (method : String)
  | foreignMethod (method owner cls : String)
  | duplicateMethod (method cls : String)
  -- running methods
  | noSuchMethod (cls method module : String)
  | argumentCount (cls method : String) (expected got : Nat)
  | fellOff (cls method : String)
  | uninitializedSlot (slot : Nat)
  | scopeOperand (kind : String)
  | callOperands (name : String) (argc : Nat)
  | nothingToReattribute
  | nothingToThrow
  | unresolvedMethod (cls method : String)
  | signatureMismatch (cls method : String) (expected found : Signature)
  | argumentUnderflow (cls method : String)
  | caughtAsValue
  | operandUnderflow
  | intOperand (kind : String)
  | uncheckedSpeculation (operation name : String) (failure : Misspeculation)
  -- adapters
  | unencodable (cls reason : String)
  | noSuperBody (target method : String)
  | noContext
  /-- Raised by a function body or a parent loading context. -/
  | raised (text : String)
deriving DecidableEq, Inhabited

inductive EngineError where
  | misspeculation (m : Misspeculation)
  | accessDenied (symbol package : String)
  | classNotFound (name : String)
  | inconsistentDefinition (cause : DefinitionFault)
  | malformedClass (text : String)
  | privilege (p : Permission)
  | script (cause : ScriptFault)
  | unsupported (operation : String)
  | internal (cause : InternalFault)
deriving DecidableEq, Inhabited

/-- How a computation ends when it gives no result. -/
inductive Fault where
  | error (e : EngineError)
  | panic (text : String)
  | exhausted
deriving DecidableEq, Inhabited

/-- Counting on past the last number of a word. -/
def Fault.overflow : Fault := .panic "attempt to add with overflow"

instance : Coe EngineError Fault := ⟨.error⟩
instance : Coe InternalFault EngineError := ⟨.internal⟩
instance : Coe ScriptFault EngineError := ⟨.script⟩

/-- A result of the code generator, its fault raised as an internal error. -/
def asInternal {α : Type} (x : Except InternalFault α) : Except Fault α := x.mapError fun e => .error (.internal e)

@[simp] theorem asInternal_ok {α : Type} (a : α) : asInternal (.ok a) = .ok a := rfl

/-! ## Wording -/

def ScriptFault.message : ScriptFault → String
  | .unreadable property kind => "cannot read property '" ++ property ++ "' of " ++ kind
  | .notCallable name kind => name ++ " is not a function (" ++ kind ++ ")"
  | .notDefined name => "\"" ++ name ++ "\" is not defined"
  | .callDepth => "maximum call stack size exceeded"
  | .classLevelOverrides cls => cls ++ " has class-level overrides; use instantiate()"
  | .noClassLevelOverrides cls => cls ++ " has no class-level overrides"
  | .overrideMismatch supplied cls expected =>
    "overrides " ++ Text.quoteSet supplied ++ " do not match adapter " ++ cls ++ " (" ++
      Text.quoteList expected ++ ")"
  | .noMethod target method => target ++ " has no method " ++ method
  | .argumentCount target method expected got =>
    target ++ "." ++ method ++ " expects " ++ toString expected ++ " arguments, got " ++ toString got
  | .noScript target method => "no script implementation for " ++ target ++ "." ++ method
  | .raised _ text => text

def DefinitionFault.message : DefinitionFault → String
  | .otherClass defined expected => "bytes define " ++ defined ++ " but this context loads " ++ expected
  | .otherTarget cls defined expected =>
    cls ++ " targets " ++ defined ++ " but its descriptor targets " ++ expected
  | .selfReference cls => cls ++ " references itself"
  | .foreignResolution cls found => cls ++ " resolved to " ++ found ++ " outside its sandbox"
  | .raised text => text

def InternalFault.message : InternalFault → String
  | .pointRange pp =>
    "program point " ++ toString pp.toInt ++ " outside 0..=" ++ toString SiteFlags.maxPoint.toInt
  | .sitePointRange symbol pp =>
    "site for " ++ symbol ++ " has program point " ++ toString pp.toInt ++ " outside 0..=" ++
      toString SiteFlags.maxPoint.toInt
  | .depthRange depth => "scope depth " ++ toString depth ++ " exceeds 2147483647"
  | .paramSlots symbol slots =>
    "scope call " ++ symbol ++ " needs " ++ toString slots ++ " parameter slots, at most 255 allowed"
  | .chainEnds hops depth =>
    "scope chain ends after " ++ toString hops ++ " of " ++ toString depth ++ " levels"
  | .notBegun method => "method " ++ method ++ " ended without begin()"
  | .unboundLabel label method => "unbound label " ++ label ++ " in " ++ method
  | .invertedRegion method => "inverted try region in " ++ method
  | .foreignMethod method owner cls => "method " ++ method ++ " belongs to " ++ owner ++ ", not " ++ cls
  | .duplicateMethod method cls => "duplicate method " ++ method ++ " in " ++ cls
  | .noSuchMethod cls method module => "no method " ++ cls ++ "." ++ method ++ " in module " ++ module
  | .argumentCount cls method expected got =>
    cls ++ "." ++ method ++ " expects " ++ toString expected ++ " arguments, got " ++ toString got
  | .fellOff cls method => cls ++ "." ++ method ++ " fell off the end"
  | .uninitializedSlot slot => "load from uninitialized slot " ++ toString slot
  | .scopeOperand kind => "scope argument is " ++ kind ++ ", not an object"
  | .callOperands name argc => "dyn:call " ++ name ++ " with bad operand count " ++ toString argc
  | .nothingToReattribute => "replaceProgramPoint without a caught condition"
  | .nothingToThrow => "athrow without a caught condition"
  | .unresolvedMethod cls method => "unresolved invokestatic " ++ cls ++ "." ++ method
  | .signatureMismatch cls method expected found =>
    "invokestatic " ++ cls ++ "." ++ method ++ expected.text ++ " does not match " ++ found.text
  | .argumentUnderflow cls method => "invokestatic " ++ cls ++ "." ++ method ++ " stack underflow"
  | .caughtAsValue => "caught condition used as a value"
  | .operandUnderflow => "operand stack underflow"
  | .intOperand kind => "expected int operand, got " ++ kind
  | .uncheckedSpeculation operation name failure =>
    "speculative failure from non-optimistic dyn:" ++ operation ++ " " ++ name ++ ": " ++ failure.message
  | .unencodable cls reason => "encode " ++ cls ++ ": " ++ reason
  | .noSuperBody target method => target ++ "." ++ method ++ " has no super implementation"
  | .noContext => "no engine context bound to this thread"
  | .raised text => text

def EngineError.message : EngineError → String
  | .misspeculation m => m.message
  | .accessDenied symbol package => "access denied: " ++ symbol ++ " (package '" ++ package ++ "')"
  | .classNotFound name => "class not found: " ++ name
  | .inconsistentDefinition cause => "inconsistent definition: " ++ cause.message
  | .malformedClass text => "malformed adapter class: " ++ text
  | .privilege p => "operation requires privilege " ++ p.name
  | .script cause => cause.kind.name ++ ": " ++ cause.message
  | .unsupported operation => "unsupported operation: " ++ operation
  | .internal cause => "internal error: " ++ cause.message

/-! ## Checked program points -/

def SiteFlags.withPoint? (f : SiteFlags) (pp : Int32) : Except InternalFault SiteFlags :=
  if SiteFlags.validPoint pp then .ok (f.withPoint pp) else .error (.pointRange pp)

/-- Set the program point; a point out of range is a programming error. -/
def SiteFlags.withPoint! (f : SiteFlags) (pp : Int32) : Except Fault SiteFlags :=
  if SiteFlags.validPoint pp then .ok (f.withPoint pp)
  else .error (.panic ("program point " ++ toString pp.toInt ++ " out of range"))

end ScriptHost
