/-!
# Command line options

Options are written with two dashes. A switch stands alone; the others take a value, either as the next
argument or after an equals sign. A value that follows as an argument of its own does not begin with a
dash, unless it is the dash alone, or a negative number for an option that allows one. Only options
that collect values may be given more than once.
-/

namespace ScriptHost.Cli

/-- What an option does to the request it belongs to. A value can be refused. -/
inductive Effect (ρ : Type) where
  | switch (set : ρ → ρ)
  | single (set : String → ρ → Option ρ)
  | collect (add : String → ρ → Option ρ)

structure Opt (ρ : Type) where
  name : String
  effect : Effect ρ
  /-- Whether a negative number may follow as the value. -/
  negative : Bool := false

inductive Parsed (ρ : Type) where
  | request (r : ρ)
  | help
  /-- The arguments follow none of the rules. -/
  | usage

/-! ## Arguments -/

inductive Argument where
  /-- Two dashes, after which no option can follow. -/
  | terminator
  | long (name : String) (value : Option String)
  | short (letters : List Char)
  | plain

def Argument.ofString (arg : String) : Argument :=
  match arg.toList with
  | ['-', '-'] => .terminator
  | '-' :: '-' :: cs =>
    let name := String.ofList (cs.takeWhile (· != '='))
    match cs.dropWhile (· != '=') with
    | [] => .long name none
    | _ :: value => .long name (some (String.ofList value))
  | '-' :: c :: cs => .short (c :: cs)
  | _ => .plain

def isValueOf {ρ : Type} (o : Opt ρ) (arg : String) : Bool :=
  match Argument.ofString arg with
  | .plain => true
  | .short letters => o.negative && letters.all Char.isDigit
  | .terminator | .long .. => false

/-! ## Reading -/

section
variable {ρ : Type}

def Opt.take (o : Opt ρ) (value : String) (r : ρ) : Option ρ :=
  match o.effect with
  | .switch _ => none
  | .single set => set value r
  | .collect add => add value r

def Opt.repeats (o : Opt ρ) : Bool :=
  match o.effect with
  | .collect _ => true
  | _ => false

/-- Read arguments into a request. `waiting` is an option that has no value yet, and `given` are the
names that may not come again. -/
def readOptions (opts : List (Opt ρ)) (waiting : Option (Opt ρ)) (given : List String) (r : ρ) :
    List String → Parsed ρ
  | [] => if waiting.isSome then .usage else .request r
  | arg :: args =>
    match waiting with
    | some o =>
      if isValueOf o arg then
        match o.take arg r with
        | some r => readOptions opts none given r args
        | none => .usage
      else .usage
    | none =>
      match Argument.ofString arg with
      | .terminator => if args.isEmpty then .request r else .usage
      | .plain => .usage
      | .short letters => if letters.head? = some 'h' then .help else .usage
      | .long name value =>
        if name = "help" ∧ value = none then .help
        else
          match opts.find? fun o => o.name == name with
          | none => .usage
          | some o =>
            if given.contains name then .usage
            else
              let given := if o.repeats then given else name :: given
              match o.effect, value with
              | .switch set, none => readOptions opts none given (set r) args
              | .switch _, some _ => .usage
              | _, none => readOptions opts (some o) given r args
              | _, some v =>
                match o.take v r with
                | some r => readOptions opts none given r args
                | none => .usage

end

/-! ## Values -/

/-- An integer of a range, written in ASCII digits after an optional sign. -/
def integer? (low high : Int) (s : String) : Option Int :=
  let (negative, digits) := match s.toList with
    | '-' :: ds => (true, ds)
    | '+' :: ds => (false, ds)
    | ds => (false, ds)
  if digits ≠ [] ∧ digits.all Char.isDigit then
    let n : Int := digits.foldl (fun n c => 10 * n + (c.toNat - '0'.toNat)) (0 : Nat)
    let i := if negative then -n else n
    if low ≤ i ∧ i ≤ high then some i else none
  else none

end ScriptHost.Cli
