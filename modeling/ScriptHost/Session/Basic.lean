import ScriptHost.Scope.Builder
import ScriptHost.Session.Handle

/-!
# Host sessions

A session is the engine as one host program uses it: the state of the engine, the bodies that the
program has given to functions and methods, its handles by kind and name, the scopes it has entered
and not left, and the module it is building. A name that is given to another handle, or dropped, gives
up the handle it stood for, so that a sandbox lives as long as some name leads to it.
-/

namespace ScriptHost

structure Session where
  world : World := {}
  /-- What functions and host methods do. -/
  table : BodyTable := []
  nextTally : Nat := 0
  nextFactory : FactoryId := 0
  held : (k : HandleKind) → Assoc String k.Held := fun _ => ⟨[]⟩
  /-- The scopes that are entered, innermost first. -/
  guards : List Guard := []
  modulesBegun : Nat := 0
  builder : Option ModuleBuilder := none
  finished : Option Module := none
  /-- The shared units seen so far, each with the number of its module. -/
  sharedUnits : List (Nat × SharedUnit) := []

instance : Inhabited Session := ⟨{}⟩

namespace Session

/-! ## Handles -/

def look? (s : Session) (k : HandleKind) (name : String) : Option k.Held := (s.held k).get? name

def withTable (s : Session) (k : HandleKind) (t : Assoc String k.Held) : Session :=
  { s with held := fun k' => if h : k = k' then h ▸ t else s.held k' }

def giveUp (s : Session) (k : HandleKind) (old : Option k.Held) : Session :=
  match old with
  | some x => { s with world := k.release x s.world }
  | none => s

def keep (s : Session) (k : HandleKind) (name : String) (x : k.Held) : Session :=
  (s.withTable k ((s.held k).put name x)).giveUp k (s.look? k name)

/-- Keep a handle under a name, or give it up if there is no name for it. -/
def keepAs (s : Session) (k : HandleKind) (name : Option String) (x : k.Held) : Session :=
  match name with
  | some n => s.keep k n x
  | none => s.giveUp k (some x)

def drop (s : Session) (k : HandleKind) (name : String) : Session :=
  (s.withTable k ((s.held k).erase name)).giveUp k (s.look? k name)

/-- The least name whose handle has a property. -/
def leastName (s : Session) (k : HandleKind) (p : k.Held → Bool) : Option String :=
  match (s.held k).keysWhere p with
  | [] => none
  | n :: ns => some (ns.foldl (fun a b => if Text.before b a then b else a) n)

/-! ## Computations -/

def engine {α : Type} (x : EngineM α) : StateM Session (Except Fault α) := fun s =>
  let (r, world) := x.outcome s.world
  (r, { s with world })

def bodies (s : Session) : Bodies := s.table.bodies

def addBody (b : Body) : StateM Session BodyId := fun s =>
  (s.table.length, { s with table := (s.table.length, b) :: s.table })

def newTally : StateM Session Body := fun s => (.tally s.nextTally, { s with nextTally := s.nextTally + 1 })

def addFactory (make : FactoryId → EngineM ContextId) : StateM Session (Except Fault (FactoryId × ContextId)) :=
  fun s =>
    let (r, world) := (make s.nextFactory).outcome s.world
    (r.map fun c => (s.nextFactory, c), { s with world, nextFactory := s.nextFactory + 1 })

/-! ## Scopes -/

/-- Enter a scope; it is left by its guard. -/
def enterScope (x : EngineM Guard) : StateM Session (Except Fault Unit) := fun s =>
  match x.outcome s.world with
  | (.ok g, world) => (.ok (), { s with world, guards := g :: s.guards })
  | (.error f, world) => (.error f, { s with world })

def leaveScope : StateM Session Bool := fun s =>
  match s.guards with
  | [] => (false, s)
  | g :: guards => (true, { s with guards, world := Engine.onThread (fun t => t.restore g) s.world })

def elevated {m : Type → Type} [Monad m] [MonadStateOf Session m] {α : Type} (ps : List Permission)
    (x : m α) : m α := do
  let depth := (← get).world.thread.frames.length
  modify fun s => { s with world := Engine.onThread (fun t => t.pushFrame ps) s.world }
  let a ← x
  modify fun s => { s with world := Engine.onThread (fun t => t.truncate depth) s.world }
  return a

/-- Run `x` on a thread of its own, which has entered nothing. -/
def onThread {m : Type → Type} [Monad m] [MonadStateOf Session m] {α : Type} (x : m α) : m α := do
  let outer ← get
  modify fun s => { s with guards := [], world := Engine.onThread (fun _ => {}) s.world }
  let a ← x
  modify fun s =>
    { s with guards := outer.guards, world := Engine.onThread (fun _ => outer.world.thread) s.world }
  return a

/-! ## Modules -/

def beginModule (b : ModuleBuilder) (s : Session) : Session :=
  { s with builder := some b, modulesBegun := s.modulesBegun + 1 }

/-- Run a step of building on the module that was begun; `none` if there is no such module. -/
def build {α : Type} (x : Build α) : StateM Session (Option (Except Fault α)) := fun s =>
  match s.builder with
  | none => (none, s)
  | some b =>
    let (r, b) := x.outcome b
    (some r, { s with builder := some b })

def finishModule : StateM Session (Option Module) := fun s =>
  match s.builder with
  | none => (none, s)
  | some b => (some b.finish, { s with builder := none, finished := some b.finish })

/-- The place of a shared unit among those seen so far; a new one comes last. -/
def placeOf (u : SharedUnit) : StateM Session Nat := fun s =>
  match s.sharedUnits.findIdx? fun e => e.1 == s.modulesBegun && e.2.name == u.name with
  | some i => (i, s)
  | none => (s.sharedUnits.length, { s with sharedUnits := s.sharedUnits ++ [(s.modulesBegun, u)] })

end Session
end ScriptHost
