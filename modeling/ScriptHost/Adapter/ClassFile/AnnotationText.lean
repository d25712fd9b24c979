import ScriptHost.Adapter.ClassFile
import ScriptHost.Json.Value

/-!
# Annotations as JSON

Annotations are written as a compact object with the two members `target_domain` and `tags`. Reading
takes members in any order, skips unknown ones, and takes an array of the two values as well. Each
known member may occur once; a missing domain is none and missing tags are empty.
-/

namespace ScriptHost.Annotations

/-! ## Writing -/

def writeTags (ps : List (String × String)) : String :=
  "\x7b" ++ ",".intercalate (ps.map fun p => Json.write p.1 ++ ":" ++ Json.write p.2) ++ "\x7d"

def write (a : Annotations) : String :=
  "\x7b\"target_domain\":" ++ (match a.targetDomain with | some d => Json.write d | none => "null") ++
    ",\"tags\":" ++ writeTags a.tags.pairs ++ "\x7d"

/-! ## Reading -/

def readText (bs : List UInt8) : Option (String × List UInt8) :=
  match bs with
  | q :: r => if q = 0x22 then Json.readText r else none
  | [] => none

/-- `null` or a text. -/
def readDomain (bs : List UInt8) : Option (Option String × List UInt8) :=
  match bs with
  | n :: r =>
    if n = 0x6e then (Json.expect Json.ull r).map fun r' => (none, r')
    else (readText bs).map fun (s, r') => (some s, r')
  | [] => none

def readTag (t : Tags) (name : String) (bs : List UInt8) : Option (Tags × List UInt8) :=
  (readText bs).map fun (v, r) => (t.insert name v, r)

def readTags (bs : List UInt8) : Option (Tags × List UInt8) :=
  match bs with
  | b :: r => if b = 0x7b then Json.readObject readTag .empty r else none
  | [] => none

structure Members where
  domain : Option (Option String) := none
  tags : Option Tags := none

def readMember (m : Members) (name : String) (bs : List UInt8) : Option (Members × List UInt8) :=
  if name = "target_domain" then
    if m.domain.isSome then none
    else (readDomain bs).map fun (d, r) => ({ m with domain := some d }, r)
  else if name = "tags" then
    if m.tags.isSome then none
    else (readTags bs).map fun (t, r) => ({ m with tags := some t }, r)
  else (Json.skipValue (bs.length + 1) bs).map fun r => (m, r)

def ofMembers (m : Members) : Annotations := ⟨m.domain.getD none, m.tags.getD .empty⟩

/-- The array form, after its opening bracket: the domain, and the tags unless they are left out. -/
def readRow (bs : List UInt8) : Option (Annotations × List UInt8) := do
  let (domain, r) ← readDomain (Json.skipBlank bs)
  match Json.skipBlank r with
  | [] => none
  | c :: r₁ =>
    if c = 0x5d then return (⟨domain, .empty⟩, r₁)
    else if c = 0x2c then
      let (tags, r₂) ← readTags (Json.skipBlank r₁)
      match Json.skipBlank r₂ with
      | [] => none
      | c :: r₃ => if c = 0x5d then return (⟨domain, tags⟩, r₃) else none
    else none

/-- Annotations that fill the whole text. -/
def read? (bs : List UInt8) : Option Annotations := do
  let (a, rest) ← match Json.skipBlank bs with
    | [] => none
    | b :: r =>
      if b = 0x7b then (Json.readObject readMember {} r).map fun (m, r') => (ofMembers m, r')
      else if b = 0x5b then readRow r
      else none
  if Json.skipBlank rest = [] then some a else none

end ScriptHost.Annotations
