import ScriptHost.Proofs.Code.Projection

/-!
# Watched runs

Running generated code under the scope linker while writing down which bodies its sites run, in order,
with the receiver and the arguments that each is given (`BodyRun`). Writing down changes nothing
(`invoke_scope`), so what is proved of a watched run holds of the run itself and says in addition how
often callees have run and on what.
-/

namespace ScriptHost

open Run

structure BodyRun where
  body : BodyId
  this : Val
  args : List Val
deriving DecidableEq, Inhabited

/-- An engine state, and the body runs that led to it. -/
abbrev Watched := World × List BodyRun

namespace FnRef

/-- The state in which the body of a function is run from a site: scope calls are counted. -/
def counted (f : FnRef) (isScope : Bool) (w : World) : World :=
  if isScope then { w with scopeCalls := w.scopeCalls.put f.id (w.scopeCallCount f + 1) } else w

def bodyRun (f : FnRef) (this : Val) (args : List Val) (isScope : Bool) (w : World) : BodyRun :=
  ⟨f.id, if isScope then f.receiverFor this w.thread.global else this, args⟩

/-- A call from a site is a single run of the body, the one that `bodyRun` tells. -/
theorem outcome_callFromSite (f : FnRef) (bodies : Bodies) (this : Val) (args : List Val) (flags : SiteFlags)
    (w : World) : (f.callFromSite bodies this args flags).outcome w =
      (bodies (f.bodyRun this args flags.isScope w).body (f.bodyRun this args flags.isScope w).this
        (f.bodyRun this args flags.isScope w).args).outcome (f.counted flags.isScope w) := by
  by_cases h : flags.isScope
  · simp only [callFromSite, bodyRun, counted, if_pos h]
    rfl
  · simp only [callFromSite, bodyRun, counted, if_neg h]
    rfl

def watchedCall (f : FnRef) (bodies : Bodies) (this : Val) (args : List Val) (isScope : Bool) :
    Run Watched Val :=
  Run.of fun (w, log) =>
    let r := f.bodyRun this args isScope w
    let (result, w') := (bodies r.body r.this r.args).outcome (f.counted isScope w)
    (result, (w', log ++ [r]))

end FnRef

namespace Run

/-- The computation on an engine state, which runs no body. -/
def unwatched {α : Type} (x : EngineM α) : Run Watched α :=
  Run.of fun (w, log) => ((x.outcome w).1, ((x.outcome w).2, log))

theorem unwatched_bind_pure {α β : Type} (x : EngineM α) (f : α → β) :
    unwatched (x >>= fun a => pure (f a)) = unwatched x >>= fun a => pure (f a) := by
  apply ext
  intro (w, log)
  rw [bind_pure_comp, bind_pure_comp, outcome_map]
  show ((((f <$> x).outcome w).1, (((f <$> x).outcome w).2, log)) : Except Fault β × Watched) = _
  rw [outcome_map]
  rfl

theorem definite_unwatched {α : Type} {x : EngineM α} (hx : Definite x) : Definite (unwatched x) :=
  fun s => hx s.1

theorem projects_unwatched {α : Type} (x : EngineM α) : Projects Prod.fst (unwatched x) x := fun _ => rfl

end Run

theorem FnRef.projects_watchedCall (f : FnRef) (bodies : Bodies) (this : Val) (args : List Val)
    (flags : SiteFlags) :
    Projects Prod.fst (f.watchedCall bodies this args flags.isScope) (f.callFromSite bodies this args flags) :=
  fun s => f.outcome_callFromSite bodies this args flags s.1

namespace Linker

def watching (bodies : Bodies) : Linker Watched where
  get receiver name ty flags := unwatched (scopeGet receiver name ty flags)
  call callee this args ret flags name :=
    match callee with
    | .function f => do
      let v ← f.watchedCall bodies this args flags.isScope
      return .check v ret flags
    | v => Run.fail (ScriptFault.notCallable name v.typeName)

theorem projects_watching (bodies : Bodies) : Projects Prod.fst (watching bodies) (scope bodies) where
  get receiver name ty flags := projects_unwatched _
  call callee this args ret flags name := by
    cases callee with
    | function f => exact (f.projects_watchedCall bodies this args flags).bind fun v => projects_pure _
    | _ => exact projects_fail _

end Linker

namespace Module

/-- The bodies that running a method runs from its sites, in order. -/
def bodyRuns (m : Module) (bodies : Bodies) (cls method : String) (args : List Val) (w : World) :
    List BodyRun :=
  ((m.invoke (.watching bodies) cls method args).outcome (w, [])).2.2

theorem invoke_scope (m : Module) (bodies : Bodies) (cls method : String) (args : List Val) (w : World) :
    (m.invoke (.scope bodies) cls method args).outcome w =
      (((m.invoke (.watching bodies) cls method args).outcome (w, [])).1,
        ((m.invoke (.watching bodies) cls method args).outcome (w, [])).2.1) :=
  m.projects_invoke (Linker.projects_watching bodies) cls method args (w, [])

end Module
end ScriptHost
