/-!
# Dotted names

A type name is a row of parts separated by dots. What stands before the last dot is its package,
what follows is its simple name; a name without a dot has the empty package.
-/

namespace ScriptHost.Text

/-- What stands before and after the last dot, if there is one. -/
def splitLastDot : List Char → Option (List Char × List Char)
  | [] => none
  | c :: cs =>
    match splitLastDot cs with
    | some (before, after) => some (c :: before, after)
    | none => if c = '.' then some ([], cs) else none

/-- The parts between the dots. A text without a dot is its own only part. -/
def segments : List Char → List (List Char)
  | [] => [[]]
  | c :: cs =>
    if c = '.' then [] :: segments cs
    else
      match segments cs with
      | [] => [[c]]
      | s :: rest => (c :: s) :: rest

def packageOf (name : String) : String :=
  match splitLastDot name.toList with
  | some (before, _) => String.ofList before
  | none => ""

def simpleName (name : String) : String :=
  match splitLastDot name.toList with
  | some (_, after) => String.ofList after
  | none => name

end ScriptHost.Text
