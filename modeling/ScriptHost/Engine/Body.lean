import ScriptHost.Engine.Basic
import ScriptHost.Value.Conversion

/-!
# Ready-made bodies

Bodies of functions and host methods that are given as data: constants, arguments, looks at the
receiver and at the thread, failures, and combinations. A table of them says what every number does;
a body may call those that stand before it in the table.
-/

namespace ScriptHost

inductive Body where
  | const (v : Val)
  | arg (n : Nat)
  | this
  /-- A property of the receiver, looked for along its chain. -/
  | thisProperty (name : String)
  /-- Set a property of the receiver to the first argument; the value it had is the result. -/
  | setThis (name : String)
  | sum
  | argc
  | describe
  /-- How often this body has run, with the number of its counter. -/
  | tally (counter : Nat)
  | global
  | elevated
  | granted (p : Permission)
  | raise (e : EngineError)
  | panic (text : String)
  | call (f : FnRef)
  /-- One of two bodies, by whether there is a first argument that fits a type. -/
  | ifFits (ty : Ty) (yes no : Body)
deriving Inhabited

namespace Body

def orUndefined (v : Option Val) : Val := v.getD .undefined

/-- What a body does. `earlier` are the bodies that it may call. -/
def run (earlier : Bodies) (this : Val) (args : List Val) : Body → EngineM Val
  | .const v => return v
  | .arg n => return orUndefined args[n]?
  | .this => return this
  | .thisProperty name => do
    match this with
    | .object o => return orUndefined (← Engine.getProperty? o name)
    | _ => return .undefined
  | .setThis name => do
    match this with
    | .object o => return orUndefined (← Engine.setProperty o name (orUndefined args.head?))
    | _ => return .undefined
  | .sum => return .number (args.foldl (fun s v => s.add v.toNumber) (Binary64.zero false))
  | .argc => return .int (Int32.ofNat args.length)
  | .describe => return .str (",".intercalate (args.map fun v => v.typeName ++ ":" ++ v.display))
  | .tally counter => Run.of fun w =>
    let n := (w.tallies.get? counter).getD 0 + 1
    (.ok (.int (Int32.ofNat n)), { w with tallies := w.tallies.put counter n })
  | .global => do
    match ← Engine.currentGlobal with
    | some g => return .object g
    | none => return .undefined
  | .elevated => return .bool (← get).thread.isElevated
  | .granted p => return .bool ((← get).thread.grants p)
  | .raise e => Run.fail e
  | .panic text => throw (Fault.panic text)
  | .call f => f.call earlier this args
  | .ifFits ty yes no =>
    if (args.head?.map fun v => v.fits ty).getD false then run earlier this args yes
    else run earlier this args no

end Body

abbrev BodyTable := List (BodyId × Body)

/-- What the bodies of a table do. A number without a body gives undefined. -/
def BodyTable.bodies : BodyTable → Bodies
  | [], _, _, _ => return .undefined
  | (id, b) :: earlier, k, this, args =>
    if id = k then b.run (bodies earlier) this args else bodies earlier k this args

end ScriptHost
