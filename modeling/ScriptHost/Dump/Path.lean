/-!
# Dump paths

A class is dumped below the dump directory, at its name with a slash for every dot and the suffix
`.slad`.
-/

namespace ScriptHost.Dump

/-- The path of a class relative to the dump directory. -/
def relativePath (cls : List Char) : List Char :=
  cls.map (fun c => if c = '.' then '/' else c) ++ ".slad".toList

def isAbsolute (path : List Char) : Bool := path.head? == some '/'

/-- A path taken from a directory. An absolute path stands for itself. -/
def joinPath (dir path : List Char) : List Char :=
  if isAbsolute path then path
  else if dir.isEmpty || dir.getLast? == some '/' then dir ++ path
  else dir ++ '/' :: path

def pathFor (dir : Option String) (cls : String) : Option String :=
  dir.map fun d => String.ofList (joinPath d.toList (relativePath cls.toList))

def parts (path : List Char) : List (List Char) :=
  match path with
  | [] => [[]]
  | c :: cs =>
    if c = '/' then [] :: parts cs
    else
      match parts cs with
      | [] => [[c]]
      | p :: rest => (c :: p) :: rest

/-- What stands before the last slash of a path; nothing if there is none. -/
def parentOf (path : List Char) : List Char := (path.reverse.dropWhile (· != '/')).drop 1 |>.reverse

end ScriptHost.Dump
