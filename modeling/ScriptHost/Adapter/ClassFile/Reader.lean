import ScriptHost.Adapter.ClassFile.Writer

/-!
# Reading adapter classes

The bytes after the header are cut into sections; the known ones are read, each at most once and to
its last byte, and unknown ones are passed over. `HEAD` and `MTHD` are needed. The first fault decides
the error: sections are read in their order, and a fault in the cutting counts after the sections
before it.
-/

namespace ScriptHost.ClassFile

/-- What a reader was about to read when the bytes ended. -/
inductive Item where
  | u8 | u16 | u32 | string | sectionTag
deriving DecidableEq, Inhabited

def Item.name : Item → String
  | .u8 => "u8"
  | .u16 => "u16"
  | .u32 => "u32"
  | .string => "string"
  | .sectionTag => "section tag"

inductive Part where
  | head | refs | methods | annotations
deriving DecidableEq, Inhabited

def Part.name : Part → String
  | .head => "HEAD"
  | .refs => "REFS"
  | .methods => "MTHD"
  | .annotations => "META"

def Part.tag : Part → List UInt8
  | .head => headTag
  | .refs => refsTag
  | .methods => methodsTag
  | .annotations => annotationsTag

inductive DecodeError where
  | tooSmall
  | badMagic
  | version (v : Nat)
  | unexpectedEnd (item : Item)
  | overrun
  | duplicate (part : Part)
  | missing (part : Part)
  | trailing (part : Part)
  | invalidText
  | typeTag (b : UInt8)
  | dispatchTag (b : UInt8)
  | kindTag (b : UInt8)
  | annotations
deriving DecidableEq, Inhabited

def DecodeError.message : DecodeError → String
  | .tooSmall => "class too small"
  | .badMagic => "invalid SLAD magic"
  | .version v =>
    "unsupported SLAD version " ++ toString v ++ " (reader supports <= " ++
      toString currentVersion.toNat ++ ")"
  | .unexpectedEnd item => "unexpected end of input while reading " ++ item.name
  | .overrun => "section overruns payload"
  | .duplicate part => "duplicate " ++ part.name ++ " section"
  | .missing part => "missing " ++ part.name ++ " section"
  | .trailing part => "trailing bytes in " ++ part.name ++ " section"
  | .invalidText => "invalid UTF-8 in string"
  | .typeTag b => "unknown type tag " ++ toString b.toNat
  | .dispatchTag b => "unknown dispatch tag " ++ toString b.toNat
  | .kindTag b => "unknown target kind " ++ toString b.toNat
  | .annotations => "decode META section"

abbrev Reader (α : Type) := List UInt8 → Except DecodeError (α × List UInt8)

/-- Whether there are fewer than `n` bytes. Only that many are looked at. -/
def isShort (bs : List UInt8) : Nat → Bool
  | 0 => false
  | n + 1 => (bs.drop n).isEmpty

theorem isShort_iff (bs : List UInt8) (n : Nat) : isShort bs n = true ↔ bs.length < n := by
  cases n with
  | zero => simp [isShort]
  | succ n =>
    rw [isShort, List.isEmpty_iff, List.drop_eq_nil_iff]
    omega

/-! ## Numbers and texts -/

def readU8 : Reader UInt8
  | b :: rest => .ok (b, rest)
  | [] => .error (.unexpectedEnd .u8)

def readU16 : Reader Nat
  | a :: b :: rest => .ok (a.toNat + 256 * b.toNat, rest)
  | _ => .error (.unexpectedEnd .u16)

def readU32 : Reader Nat
  | a :: b :: c :: d :: rest =>
    .ok (a.toNat + 256 * b.toNat + 65536 * c.toNat + 16777216 * d.toNat, rest)
  | _ => .error (.unexpectedEnd .u32)

def readString : Reader String := fun bs => do
  let (len, rest) ← readU32 bs
  if isShort rest len then .error (.unexpectedEnd .string)
  else
    match Text.ofBytes? (rest.take len) with
    | some s => .ok (s, rest.drop len)
    | none => .error .invalidText

def readType : Reader Ty := fun bs => do
  let (b, rest) ← readU8 bs
  match Ty.ofTag? b with
  | some t => .ok (t, rest)
  | none => .error (.typeTag b)

def readKind : Reader TypeKind := fun bs => do
  let (b, rest) ← readU8 bs
  if b = 0 then .ok (.interface, rest)
  else if b = 1 then .ok (.classType, rest)
  else .error (.kindTag b)

def readDispatch : Reader Dispatch := fun bs => do
  let (b, rest) ← readU8 bs
  if b = 0 then .ok (.script, rest)
  else if b = 1 then .ok (.super, rest)
  else if b = 2 then .ok (.unsupported, rest)
  else .error (.dispatchTag b)

def readMany {α : Type} (read : Reader α) : Nat → Reader (List α)
  | 0, bs => .ok ([], bs)
  | n + 1, bs => do
    let (x, rest) ← read bs
    let (xs, rest) ← readMany read n rest
    return (x :: xs, rest)

/-! ## Payloads -/

structure Head where
  name : String
  target : String
  kind : TypeKind
  classLevel : Bool
deriving DecidableEq, Inhabited

def readHead : Reader Head := fun bs => do
  let (name, bs) ← readString bs
  let (target, bs) ← readString bs
  let (kind, bs) ← readKind bs
  let (level, bs) ← readU8 bs
  return (⟨name, target, kind, level != 0⟩, bs)

def readRefs : Reader (List String) := fun bs => do
  let (count, bs) ← readU32 bs
  readMany readString count bs

def readMethod : Reader MethodEntry := fun bs => do
  let (name, bs) ← readString bs
  let (ret, bs) ← readType bs
  let (arity, bs) ← readU16 bs
  let (params, bs) ← readMany readType arity bs
  let (dispatch, bs) ← readDispatch bs
  return (⟨name, ⟨ret, params⟩, dispatch⟩, bs)

def readMethods : Reader (List MethodEntry) := fun bs => do
  let (count, bs) ← readU32 bs
  readMany readMethod count bs

def whole {α : Type} (part : Part) (read : Reader α) (payload : List UInt8) : Except DecodeError α := do
  let (x, rest) ← read payload
  if rest.isEmpty then .ok x else .error (.trailing part)

/-! ## Sections -/

structure Section where
  tag : List UInt8
  payload : List UInt8
deriving DecidableEq, Inhabited

def cutSection (bs : List UInt8) : Except DecodeError (Section × List UInt8) := do
  if isShort bs 4 then .error (.unexpectedEnd .sectionTag)
  else
    let (len, rest) ← readU32 (bs.drop 4)
    if isShort rest len then .error .overrun
    else .ok (⟨bs.take 4, rest.take len⟩, rest.drop len)

/-- The sections up to the end or the first fault, and that fault. The first argument bounds their
number; the number of bytes is always enough. -/
def cutSections : Nat → List UInt8 → List Section × Option DecodeError
  | 0, _ => ([], none)
  | _ + 1, [] => ([], none)
  | n + 1, bs =>
    match cutSection bs with
    | .error e => ([], some e)
    | .ok (s, rest) =>
      let (ss, e) := cutSections n rest
      (s :: ss, e)

/-- The known sections read so far. -/
structure Parts where
  head : Option Head := none
  refs : Option (List String) := none
  methods : Option (List MethodEntry) := none
  annotations : Option Annotations := none
deriving DecidableEq, Inhabited

def Parts.add (p : Parts) (s : Section) : Except DecodeError Parts :=
  if s.tag = headTag then
    if p.head.isSome then .error (.duplicate .head)
    else do return { p with head := some (← whole .head readHead s.payload) }
  else if s.tag = refsTag then
    if p.refs.isSome then .error (.duplicate .refs)
    else do return { p with refs := some (← whole .refs readRefs s.payload) }
  else if s.tag = methodsTag then
    if p.methods.isSome then .error (.duplicate .methods)
    else do return { p with methods := some (← whole .methods readMethods s.payload) }
  else if s.tag = annotationsTag then
    if p.annotations.isSome then .error (.duplicate .annotations)
    else
      match Annotations.read? s.payload with
      | some a => .ok { p with annotations := some a }
      | none => .error .annotations
  else .ok p

def Parts.toClass (version : UInt16) (p : Parts) : Except DecodeError ClassFile :=
  match p.head, p.methods with
  | none, _ => .error (.missing .head)
  | some _, none => .error (.missing .methods)
  | some h, some ms =>
    .ok {
      version := version
      name := h.name
      target := h.target
      kind := h.kind
      classLevel := h.classLevel
      refs := p.refs.getD []
      methods := ms
      annotations := p.annotations }

/-- The version in a header, and the bytes after the header. -/
def readHeader (bs : List UInt8) : Except DecodeError (UInt16 × List UInt8) := do
  if bs.length < 8 then .error .tooSmall
  else if bs.take 4 ≠ magic then .error .badMagic
  else
    let (version, rest) ← readU16 (bs.drop 4)
    if currentVersion.toNat < version then .error (.version version)
    else .ok (UInt16.ofNat version, rest.drop 2)

/-- The class that the bytes are the written form of. -/
def decode (bs : List UInt8) : Except DecodeError ClassFile := do
  let (version, body) ← readHeader bs
  let (sections, fault) := cutSections body.length body
  let parts ← sections.foldlM Parts.add {}
  match fault with
  | some e => .error e
  | none => parts.toClass version

end ScriptHost.ClassFile
