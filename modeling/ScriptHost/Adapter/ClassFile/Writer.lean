import ScriptHost.Adapter.ClassFile.AnnotationText

/-!
# Writing adapter classes

A class is written as the magic word, its version, two reserved bytes, and then sections: a tag of
four letters, the length of the payload, the payload. `HEAD` holds names and kind, `REFS` the linked
symbols, `MTHD` the methods, and `META` the annotations unless they are empty. Numbers are
little-endian; lists start with a count and texts with the number of their bytes.
-/

namespace ScriptHost.ClassFile

inductive EncodeError where
  | tooManyParameters
  | sectionTooLarge
deriving DecidableEq, Inhabited

namespace EncodeError

def message : EncodeError → String
  | .tooManyParameters => "too many parameters"
  | .sectionTooLarge => "section too large"

def fullMessage (e : EncodeError) : String :=
  e.message ++ ": number too large to fit in target type"

end EncodeError

/-! ## Numbers and texts -/

def magic : List UInt8 := [0x53, 0x4c, 0x41, 0x44]

def headTag : List UInt8 := [0x48, 0x45, 0x41, 0x44]
def refsTag : List UInt8 := [0x52, 0x45, 0x46, 0x53]
def methodsTag : List UInt8 := [0x4d, 0x54, 0x48, 0x44]
def annotationsTag : List UInt8 := [0x4d, 0x45, 0x54, 0x41]

def bytes16 (n : Nat) : List UInt8 := [UInt8.ofNat n, UInt8.ofNat (n / 256)]

def bytes32 (n : Nat) : List UInt8 :=
  [UInt8.ofNat n, UInt8.ofNat (n / 256), UInt8.ofNat (n / 65536), UInt8.ofNat (n / 16777216)]

/-- A count, if it fits its field. -/
def countBytes (n : Nat) : Except EncodeError (List UInt8) :=
  if n < 0x100000000 then .ok (bytes32 n) else .error .sectionTooLarge

def textBytes (s : String) : List UInt8 :=
  let bs := Text.toBytes s
  bytes32 bs.length ++ bs

def sectionBytes (tag payload : List UInt8) : List UInt8 := tag ++ bytes32 payload.length ++ payload

/-! ## Payloads -/

def kindByte : TypeKind → UInt8
  | .interface => 0
  | .classType => 1

def dispatchByte : Dispatch → UInt8
  | .script => 0
  | .super => 1
  | .unsupported => 2

def headPayload (c : ClassFile) : List UInt8 :=
  textBytes c.name ++ textBytes c.target ++ [kindByte c.kind, if c.classLevel then 1 else 0]

def refsPayload (refs : List String) : Except EncodeError (List UInt8) := do
  return (← countBytes refs.length) ++ refs.flatMap textBytes

def methodBytes (m : MethodEntry) : Except EncodeError (List UInt8) :=
  if m.signature.params.length < 0x10000 then
    .ok (textBytes m.name ++ [m.signature.ret.tag] ++ bytes16 m.signature.params.length ++
      m.signature.params.map Ty.tag ++ [dispatchByte m.dispatch])
  else .error .tooManyParameters

/-- The methods one after another; the first that cannot be written decides the error. -/
def methodsBytes : List MethodEntry → Except EncodeError (List UInt8)
  | [] => .ok []
  | m :: ms => do return (← methodBytes m) ++ (← methodsBytes ms)

def methodsPayload (ms : List MethodEntry) : Except EncodeError (List UInt8) := do
  return (← countBytes ms.length) ++ (← methodsBytes ms)

def annotationsSection : Option Annotations → List UInt8
  | none => []
  | some a => if a.isEmpty then [] else sectionBytes annotationsTag (Text.toBytes a.write)

def encode (c : ClassFile) : Except EncodeError (List UInt8) := do
  let refs ← refsPayload c.refs
  let methods ← methodsPayload c.methods
  return magic ++ bytes16 c.version.toNat ++ [0, 0] ++
    sectionBytes headTag (headPayload c) ++
    sectionBytes refsTag refs ++
    sectionBytes methodsTag methods ++
    annotationsSection c.annotations

end ScriptHost.ClassFile
