import ScriptHost.Proofs.Scope.Batch
import ScriptHost.Proofs.Scope.Direct
import ScriptHost.Proofs.Scope.Watching

/-!
# Evaluating lowered sites

Invoking a lowered site in its finished module is the direct access of the site (`Installed.invoke`), in
the shared or in the inline form. Under the watching linker the access depends on the flag word in three
ways only: whether it is a scope access, whether it runs under an assumption, and the point to which a
failure is attributed (`perform_read`, `perform_call`).
-/

namespace ScriptHost

open Machine ModuleBuilder

variable {σ : Type}

/-! ## Invocations -/

namespace Site

/-- Flags of the operation where the site does the access itself. -/
def inlineFlags (s : Site) : SiteFlags :=
  if s.shape.optimistic then (s.shape.flags ||| .optimistic).withPoint s.point else s.shape.flags

/-- The access of a site on its target scope, through a shared unit or not. -/
def perform (s : Site) (shared : Bool) (l : Linker σ) (target : ObjRef) (args : List Val) : Run σ Val :=
  if shared then s.shape.performShared l s.point target args
  else s.shape.perform l s.inlineFlags target args

theorem validate_ok {s : Site} (h : s.validate = .ok ()) :
    SiteFlags.validPoint s.point = true ∧ ∃ depth, s.depth.encode = .ok depth := by
  rw [validate] at h
  split at h
  · next hp =>
    refine ⟨hp, ?_⟩
    cases hd : s.depth.encode with
    | ok depth => exact ⟨depth, rfl⟩
    | error e => simp [hd, bind, Except.bind] at h
  · cases h

theorem siteFlags_ok {s : Site} (h : SiteFlags.validPoint s.point = true) :
    s.shape.siteFlags s.point = .ok s.inlineFlags := by
  rw [Shape.siteFlags, inlineFlags, SiteFlags.withPoint?, if_pos h]
  split <;> rfl

end Site

theorem Module.invoke_some {m : Module} {cls name : String} {target : Method}
    (h : m.method? cls name = some target) (linker : Linker σ) (args : List Val) :
    m.invoke linker cls name args = execute m linker target args := by
  rw [Module.invoke, h]

namespace ModuleBuilder.Installed

variable {m : Module} {cls : String} {index : Nat} {s : Site} {l : LoweredSite}

theorem invoke_argumentCount (h : Installed m cls index s l) (linker : Linker σ) {args : List Val}
    (hn : args.length ≠ s.shape.params.length + 1) :
    m.invoke linker l.cls l.name args =
      Run.fail (InternalFault.argumentCount cls ("site$" ++ toString index) (s.shape.params.length + 1)
        args.length) := by
  obtain ⟨m', hm', hok⟩ := h.method
  obtain ⟨hc, hname, hsig⟩ := method_ok hok
  have hparams : m'.signature.params.length = s.shape.params.length + 1 := by rw [hsig]; rfl
  have hcount : args.length ≠ m'.signature.params.length := by
    rw [hparams]
    exact hn
  rw [Module.invoke_some hm', execute, show maxDepth = 255 + 1 from rfl, run_argumentCount hcount, hparams, hc,
    hname, h.cls, h.name]

/-- Running a lowered site is the direct access, in the form that the site was lowered to. -/
theorem invoke (h : Installed m cls index s l) (linker : Linker σ) (scope : Val) {args : List Val}
    (hn : args.length = s.shape.params.length) {depth : Int32} (hd : s.depth.encode = .ok depth) :
    m.invoke linker l.cls l.name (scope :: args) =
      targetOf scope depth >>= fun o => s.perform l.shared.isSome linker o args := by
  obtain ⟨m', hm', hok⟩ := h.method
  rw [Module.invoke_some hm', execute]
  cases hshared : l.shared with
  | none =>
    rw [hshared] at hok
    simp only [Site.perform, Option.isSome_none, Bool.false_eq_true, if_false]
    exact run_inline hok hd (Site.siteFlags_ok (Site.validate_ok h.valid).1) scope hn 255
  | some u =>
    rw [hshared] at hok
    obtain ⟨hu, hshape⟩ := h.unit u hshared
    simp only [Site.perform, Option.isSome_some, if_true]
    exact run_sharing hok hd hu hshape scope hn 254

end ModuleBuilder.Installed

/-! ## Accesses under the watching linker -/

/-- The value as a type, checked first if the flags say that the type is an assumption. -/
def checked (v : Val) (ty : Ty) (flags : SiteFlags) : Run σ Val :=
  if !flags.isOptimistic || v.fits ty then pure (v.coerce ty) else Run.escape ⟨v, flags.point⟩

theorem settle_check (x : Run σ Val) (ty : Ty) (flags : SiteFlags) (operation name : String) :
    settle (x >>= fun v => pure (.check v ty flags)) flags operation name =
      Run.catching x (fun u => Run.fail (unmet u flags operation name)) fun v => checked v ty flags := by
  apply Run.ext
  intro s
  rw [settle, Run.outcome_bind, Run.outcome_attempt, bind_pure_comp, Run.outcome_map, Run.outcome_catching]
  rcases x.outcome s with ⟨r, s'⟩
  cases r with
  | ok v =>
    dsimp only [Except.map]
    by_cases hc : !flags.isOptimistic || v.fits ty
    · rw [Speculation.check, if_pos hc, checked, if_pos hc]
    · have ho : flags.isOptimistic = true := by
        cases h : flags.isOptimistic with
        | true => rfl
        | false => simp [h] at hc
      rw [Speculation.check, if_neg hc, checked, if_neg hc]
      dsimp only
      rw [unmet, if_pos ho]
      rfl
  | error f =>
    cases f with
    | error e => cases e <;> rfl
    | panic t => rfl
    | exhausted => rfl

def readVar (target : ObjRef) (name : String) (isScope : Bool) : EngineM Val := do
  match ← Engine.getProperty? target name with
  | some v => return v
  | none => if isScope then Run.fail (ScriptFault.notDefined name) else return .undefined

theorem scopeGet_object (target : ObjRef) (name : String) (ty : Ty) (flags : SiteFlags) :
    Linker.scopeGet (.object target) name ty flags =
      readVar target name flags.isScope >>= fun v => pure (.check v ty flags) := by
  simp only [Linker.scopeGet, readVar, bind_assoc]
  congr 1
  funext r
  cases r with
  | some v => rfl
  | none =>
    dsimp only
    split
    · rw [Run.fail_bind]
    · rfl

theorem definite_readVar (target : ObjRef) (name : String) (isScope : Bool) :
    Run.Definite (readVar target name isScope) := by
  refine Run.Definite.bind (fun s u h => nomatch h) fun r => ?_
  cases r with
  | some v => exact Run.definite_pure v
  | none =>
    dsimp only
    split
    · exact Run.definite_fail (by simp)
    · exact Run.definite_pure _

def callVar (bodies : Bodies) (callee : Val) (args : List Val) (isScope : Bool) (name : String) :
    Run Watched Val :=
  match callee with
  | .function f => f.watchedCall bodies .undefined args isScope
  | v => Run.fail (ScriptFault.notCallable name v.typeName)

theorem watching_get (bodies : Bodies) (target : ObjRef) (name : String) (ty : Ty) (flags : SiteFlags) :
    (Linker.watching bodies).get (.object target) name ty flags =
      Run.unwatched (readVar target name flags.isScope) >>= fun v => pure (.check v ty flags) := by
  show Run.unwatched (Linker.scopeGet (.object target) name ty flags) = _
  rw [scopeGet_object, Run.unwatched_bind_pure]

theorem watching_call (bodies : Bodies) (callee : Val) (args : List Val) (ret : Ty) (flags : SiteFlags)
    (name : String) :
    (Linker.watching bodies).call callee .undefined args ret flags name =
      callVar bodies callee args flags.isScope name >>= fun v => pure (.check v ret flags) := by
  cases callee with
  | function f => rfl
  | _ => exact (Run.fail_bind _ _).symm

namespace Shape

variable {s : Shape} (bodies : Bodies) (flags : SiteFlags) (target : ObjRef) (args : List Val)

theorem perform_read {ty : Ty} (hs : s.access = .read ty) :
    s.perform (.watching bodies) flags target args =
      Run.unwatched (readVar target s.symbol.name flags.isScope) >>= fun v => checked v ty flags := by
  rw [perform, hs]
  dsimp only
  rw [watching_get, settle_check, Run.catching_definite (Run.definite_unwatched (definite_readVar _ _ _))]

theorem perform_call {ret : Ty} {params : List Ty} (hs : s.access = .call ret params) :
    s.perform (.watching bodies) flags target args =
      Run.unwatched (readVar target s.symbol.name s.flags.isScope) >>= fun v =>
        checked v .object s.flags >>= fun callee =>
          Run.catching (callVar bodies callee args flags.isScope s.symbol.name)
            (fun u => Run.fail (unmet u flags "call" s.symbol.name)) fun v => checked v ret flags := by
  rw [perform, hs]
  dsimp only
  rw [watching_get, settle_check, Run.catching_definite (Run.definite_unwatched (definite_readVar _ _ _)),
    bind_assoc]
  simp only [watching_call, settle_check]

end Shape
end ScriptHost
