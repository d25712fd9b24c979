import ScriptHost.Dump.Path
import ScriptHost.Text.Order

/-!
# Files of a directory

The files below one directory, as far as dumps and option files can show them: each is known by the
names on its way, and they are kept in ascending order, name by name. A directory exists where a file
lies below it, and is made on the way when a file is written. Writing where a file stands in the way,
where a directory stands, or under too long a name changes nothing.
-/

namespace ScriptHost

/-- Files by the names on their way, in ascending order. -/
structure Files where
  entries : List (List String × List UInt8) := []
deriving Inhabited

namespace Files

def isFile (fs : Files) (p : List String) : Bool := fs.entries.any fun e => e.1 == p

def isDirectory (fs : Files) (p : List String) : Bool :=
  p.isEmpty || fs.entries.any fun e => p.isPrefixOf e.1 && p.length < e.1.length

def insert (p : List String) (bytes : List UInt8) :
    List (List String × List UInt8) → List (List String × List UInt8)
  | [] => [(p, bytes)]
  | (q, b) :: rest =>
    if Text.rowBefore p q then (p, bytes) :: (q, b) :: rest
    else if Text.rowBefore q p then (q, b) :: insert p bytes rest
    else (p, bytes) :: rest

/-- Why a path leads nowhere, or why what it leads to cannot be read as text. -/
inductive ReadFault where
  | missing
  | notDirectory
  | directory
  /-- A name on the way is too long, or the path is. -/
  | nameTooLong
  | notText
  | other (text : String)
deriving DecidableEq, Inhabited

def ReadFault.message : ReadFault → String
  | .missing => "No such file or directory (os error 2)"
  | .notDirectory => "Not a directory (os error 20)"
  | .directory => "Is a directory (os error 21)"
  | .nameTooLong => "File name too long (os error 36)"
  | .notText => "stream did not contain valid UTF-8"
  | .other text => text

/-! ## Paths -/

def maxName : Nat := 255

def maxPath : Nat := 4095

def byteCount (cs : List Char) : Nat := (String.ofList cs).utf8ByteSize

/-- Follow the parts of a path, from the directory with the names in `back` on, the last name first.
There must be a directory before every part, also before an empty one; `making` says that missing ones
are made on the way. Empty parts and single dots stay, and two dots lead back, but not out. -/
def follow (fs : Files) (making : Bool) : List (List Char) → List String → Except ReadFault (List String)
  | [], back => .ok back.reverse
  | part :: rest, back =>
    if fs.isFile back.reverse then .error .notDirectory
    else if !making && !fs.isDirectory back.reverse then .error .missing
    else if part = [] ∨ part = ['.'] then follow fs making rest back
    else if part = ['.', '.'] then
      match back with
      | [] => .error .missing
      | _ :: up => follow fs making rest up
    else if maxName < byteCount part then .error .nameTooLong
    else follow fs making rest (String.ofList part :: back)

/-- The names that a path leads through, if it is relative and stays below the directory. -/
def locate (fs : Files) (making : Bool) (path : List Char) : Except ReadFault (List String) :=
  if path.contains '\x00' then .error (.other "file name contained an unexpected NUL byte")
  else if maxPath < byteCount path then .error .nameTooLong
  else if path.isEmpty || Dump.isAbsolute path then .error .missing
  else fs.follow making (Dump.parts path) []

def write (fs : Files) (path : List Char) (bytes : List UInt8) : Files :=
  match fs.locate true path with
  | .error _ => fs
  | .ok p => if fs.isDirectory p then fs else ⟨insert p bytes fs.entries⟩

def read (fs : Files) (path : List Char) : Except ReadFault (List UInt8) := do
  let p ← fs.locate false path
  match fs.entries.lookup p with
  | some bytes => .ok bytes
  | none => .error (if fs.isDirectory p then .directory else .missing)

def listing (fs : Files) : List (String × List UInt8) :=
  fs.entries.map fun e => ("/".intercalate e.1, e.2)

def dumpAll (dir : Option String) (classes : List (String × List UInt8)) (fs : Files) : Files :=
  classes.foldl (fun fs c =>
    match Dump.pathFor dir c.1 with
    | some path => fs.write path.toList c.2
    | none => fs) fs

end Files
end ScriptHost
