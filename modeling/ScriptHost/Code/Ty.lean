/-!
# Static types and signatures

The five types known to the code generator, and method signatures over them. A value of a wide type
(`long`, `number`) takes two local slots, any other takes one.
-/

namespace ScriptHost

inductive Ty where
  | int
  | long
  | number
  | boolean
  | object
deriving DecidableEq, Inhabited

namespace Ty

def all : List Ty := [.int, .long, .number, .boolean, .object]

def slots : Ty → Nat
  | .long | .number => 2
  | .int | .boolean | .object => 1

def isObject (t : Ty) : Bool := t == .object

/-- The letter that stands for the type in a signature. -/
def letter : Ty → Char
  | .int => 'I'
  | .long => 'J'
  | .number => 'D'
  | .boolean => 'Z'
  | .object => 'L'

/-- The byte that stands for the type in a class file. -/
def tag : Ty → UInt8
  | .int => 0
  | .long => 1
  | .number => 2
  | .boolean => 3
  | .object => 4

def ofTag? (b : UInt8) : Option Ty := all.find? fun t => t.tag == b

def ofLetter? (c : Char) : Option Ty := all.find? fun t => t.letter == c

def name : Ty → String
  | .int => "int"
  | .long => "long"
  | .number => "double"
  | .boolean => "boolean"
  | .object => "object"

theorem ofTag?_tag (t : Ty) : ofTag? t.tag = some t := by cases t <;> rfl

theorem slots_pos (t : Ty) : 0 < t.slots := by cases t <;> decide

end Ty

/-- Local slots taken by a row of parameters. -/
def slotCount : List Ty → Nat
  | [] => 0
  | t :: ts => t.slots + slotCount ts

/-- The slot at which each parameter starts when the first one starts at `start`. -/
def slotOffsets (start : Nat) : List Ty → List Nat
  | [] => []
  | t :: ts => start :: slotOffsets (start + t.slots) ts

structure Signature where
  ret : Ty
  params : List Ty
deriving DecidableEq, Inhabited

namespace Signature

def paramSlots (s : Signature) : Nat := slotCount s.params

def paramOffsets (s : Signature) : List Nat := slotOffsets 0 s.params

def text (s : Signature) : String :=
  "(" ++ String.ofList (s.params.map Ty.letter) ++ ")" ++ s.ret.letter.toString

end Signature
end ScriptHost
