import ScriptHost.Scope.SharedUnit

/-!
# Module builders

A module under construction: its classes, the shared units made so far, and the thresholds of
sharing. Each shape gets one shared unit, made in the class from which it was first asked for. Sites
are lowered in batches; how many sites of the batch have a shape decides whether they share.
-/

namespace ScriptHost

structure ModuleBuilder where
  name : String
  thresholds : Thresholds
  units : List ClassBody := []
  /-- The shared units, one for each shape. -/
  shared : List SharedUnit := []
  nextGet : UInt32 := 0
  nextCall : UInt32 := 0
deriving DecidableEq, Inhabited

abbrev Build (α : Type) := Run ModuleBuilder α

/-- A site after lowering: its method, and the shared unit it uses. -/
structure LoweredSite where
  cls : String
  name : String
  shared : Option SharedUnit
deriving DecidableEq, Inhabited

namespace ModuleBuilder

def addUnit (cls : String) : Build Nat :=
  Run.of fun b => (.ok b.units.length, { b with units := b.units ++ [⟨cls, []⟩] })

def unit (i : Nat) : Build ClassBody := do
  let b ← get
  match b.units[i]? with
  | some c => return c
  | none =>
    throw (Fault.panic ("index out of bounds: the len is " ++ toString b.units.length ++
      " but the index is " ++ toString i))

def addMethod (i : Nat) (m : Method) : Build Unit := do
  match (← unit i).add m with
  | .ok c => modify fun b => { b with units := b.units.set i c }
  | .error e => Run.fail e

def findShared (b : ModuleBuilder) (s : Shape) : Option SharedUnit := b.shared.find? fun u => u.shape == s

/-- The next name of a shared unit for reads or for calls. Its number is used up. -/
def freshName (isCall : Bool) : Build String :=
  Run.of fun b =>
    match countedUp (if isCall then b.nextCall else b.nextGet) with
    | .error f => (.error f, b)
    | .ok next =>
      if isCall then (.ok (":scopeCall$" ++ toString b.nextCall), { b with nextCall := next })
      else (.ok (":scopeGet$" ++ toString b.nextGet), { b with nextGet := next })

/-- The shared unit of a shape, made in the class at a place the first time. -/
def sharedUnit (i : Nat) (s : Shape) : Build SharedUnit := do
  let c ← unit i
  if s.symbol.isDynamic then
    throw (Fault.panic ("shared scope call requested for dynamically scoped symbol '" ++ s.symbol.name ++ "'"))
  match (← get).findShared s with
  | some u => return u
  | none =>
    if s.isCall then
      if let .error e := s.callOperands then Run.fail e
    let u : SharedUnit := ⟨s, c.name, ← freshName s.isCall⟩
    addMethod i u.method
    modify fun b => { b with shared := b.shared ++ [u] }
    return u

/-- Whether a site uses a shared unit when its shape occurs `count` times in its batch. -/
def sharesSite (t : Thresholds) (count : UInt32) (s : Site) : Bool :=
  !s.shape.symbol.isDynamic && s.depth != .dynamic && t.shares count s.shape.isCall

def lowerSite (i : Nat) (census : Census) (index : Nat) (s : Site) : Build LoweredSite := do
  let shared ←
    if sharesSite (← get).thresholds (census.count s.shape) s then some <$> sharedUnit i s.shape
    else pure none
  let c ← unit i
  let name := "site$" ++ toString index
  match s.method c.name name shared with
  | .error e => Run.fail e
  | .ok m =>
    addMethod i m
    return ⟨c.name, name, shared⟩

def lowerFrom (i : Nat) (census : Census) : Nat → List Site → Build (List LoweredSite)
  | _, [] => pure []
  | n, s :: ss => do
    let l ← lowerSite i census n s
    let ls ← lowerFrom i census (n + 1) ss
    return l :: ls

/-- Validate the sites of a batch and count on their shapes, one site after the other. -/
def survey (census : Census) : List Site → Except Fault Census
  | [] => .ok census
  | s :: ss => do
    asInternal s.validate
    survey (← census.record s.shape) ss

/-- Lower a batch of sites into the class at a place. Nothing is generated unless all are valid. -/
def lower (i : Nat) (sites : List Site) : Build (List LoweredSite) :=
  match survey {} sites with
  | .error f => throw f
  | .ok census => lowerFrom i census 0 sites

/-- The finished module. Of classes with one name the last is kept. -/
def finish (b : ModuleBuilder) : Module :=
  ⟨b.name, b.units.foldl (fun cs c => cs.put c.name c) ⟨[]⟩⟩

end ModuleBuilder
end ScriptHost
