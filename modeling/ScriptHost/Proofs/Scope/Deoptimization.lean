import ScriptHost.Proofs.Scope.Sharing

/-!
# Deoptimization

A failed assumption carries the value that did not fit, before it is converted. Converting it gives what
the access without the assumption gives (`settled_checked`), so a program can go on in the code that assumes
nothing, without repeating the access.
-/

namespace ScriptHost

open Machine ModuleBuilder

variable {σ : Type}

/-- The same access without an assumption. -/
def Shape.deoptimized (s : Shape) : Shape := { s with optimistic := false }

@[simp] theorem Shape.deoptimized_symbol (s : Shape) : s.deoptimized.symbol = s.symbol := rfl

@[simp] theorem Shape.deoptimized_flags (s : Shape) : s.deoptimized.flags = s.flags := rfl

/-! ## Going on after a failed assumption -/

/-- A result with a failed assumption replaced by its value, converted to a type. -/
def deoptimized (ty : Ty) : Except Fault Val → Except Fault Val
  | .error (.error (.misspeculation u)) => .ok (u.value.coerce ty)
  | r => r

/-- The same computation, going on with the value of a failed assumption. -/
def settled (ty : Ty) (x : Run σ Val) : Run σ Val := Run.catching x (fun u => pure (u.value.coerce ty)) pure

theorem outcome_settled (ty : Ty) (x : Run σ Val) (s : σ) :
    (settled ty x).outcome s = (deoptimized ty (x.outcome s).1, (x.outcome s).2) := by
  rw [settled, Run.outcome_catching]
  rcases x.outcome s with ⟨r, s'⟩
  cases r with
  | ok v => rfl
  | error f =>
    cases f with
    | error e => cases e <;> rfl
    | panic t => rfl
    | exhausted => rfl

theorem settled_definite {x : Run σ Val} (hx : Run.Definite x) (ty : Ty) : settled ty x = x := by
  rw [settled, Run.catching_definite hx, bind_pure]

theorem settled_bind {α : Type} {x : Run σ α} (hx : Run.Definite x) (ty : Ty) (k : α → Run σ Val) :
    settled ty (x >>= k) = x >>= fun a => settled ty (k a) := by
  rw [settled, Run.catching_bind, Run.catching_definite hx]
  rfl

theorem settled_restamp (ty : Ty) (pp : Int32) (x : Run σ Val) : settled ty (restamp pp x) = settled ty x := by
  rw [settled, restamp, Run.catching_catching]
  simp only [Run.catching_escape, Run.catching_pure]
  rfl

theorem checked_plain (v : Val) (ty : Ty) {flags : SiteFlags} (h : flags.isOptimistic = false) :
    (checked v ty flags : Run σ Val) = pure (v.coerce ty) := by
  rw [checked, h, if_pos (by simp)]

/-- Under an assumption, checking a value and going on with it is converting it. -/
theorem settled_checked (v : Val) (ty : Ty) (flags : SiteFlags) :
    settled ty (checked v ty flags : Run σ Val) = pure (v.coerce ty) := by
  rw [settled, checked]
  split
  · exact Run.catching_pure ..
  · exact Run.catching_escape ..

/-! ## Accesses -/

theorem definite_callVar {bodies : Bodies} (hb : ∀ id this args, Run.Definite (bodies id this args))
    (callee : Val) (args : List Val) (isScope : Bool) (name : String) :
    Run.Definite (callVar bodies callee args isScope name) := by
  cases callee with
  | function f => exact fun s => hb _ _ _ _
  | _ => exact Run.definite_fail (by simp)

theorem settled_perform {s : Shape} {bodies : Bodies}
    (hb : ∀ id this args, Run.Definite (bodies id this args)) (hs : s.flags.isOptimistic = false)
    {flags : SiteFlags} (hf : flags.isScope = s.flags.isScope) (target : ObjRef) (args : List Val) :
    settled s.returnType (s.perform (.watching bodies) flags target args) =
      s.deoptimized.perform (.watching bodies) s.flags target args := by
  have hread := Run.definite_unwatched (definite_readVar target s.symbol.name s.flags.isScope)
  cases ha : s.access with
  | read ty =>
    have hty : s.returnType = ty := by rw [Shape.returnType, ha]
    rw [Shape.perform_read _ _ _ _ ha, Shape.perform_read _ _ _ _ (s := s.deoptimized) ha, hf, hty,
      settled_bind hread]
    simp only [settled_checked, checked_plain _ _ hs, Shape.deoptimized_symbol]
  | call ret params =>
    have hty : s.returnType = ret := by rw [Shape.returnType, ha]
    have hcall := definite_callVar hb
    rw [Shape.perform_call _ _ _ _ ha, Shape.perform_call _ _ _ _ (s := s.deoptimized) ha, hf, hty,
      settled_bind hread]
    simp only [Run.catching_definite (hcall _ _ _ _), Shape.deoptimized_symbol, Shape.deoptimized_flags]
    simp only [checked_plain _ _ hs, pure_bind, settled_bind (hcall _ _ _ _), settled_checked]

theorem Site.settled_perform {s s' : Site} (hshape : s'.shape = s.shape.deoptimized)
    {bodies : Bodies} (hb : ∀ id this args, Run.Definite (bodies id this args))
    (ho : s.shape.optimistic = true) (hs : s.shape.flags.isOptimistic = false) (shared shared' : Bool)
    (target : ObjRef) (args : List Val) :
    settled s.shape.returnType (s.perform shared (.watching bodies) target args) =
      s'.perform shared' (.watching bodies) target args := by
  have hinline : settled s.shape.returnType (s.perform false (.watching bodies) target args) =
      s'.perform false (.watching bodies) target args := by
    have hf : s.inlineFlags.isScope = s.shape.flags.isScope := by
      rw [Site.inlineFlags, if_pos ho, SiteFlags.isScope_withPoint, SiteFlags.isScope_or]
    have hf' : s'.inlineFlags = s.shape.flags := by
      rw [Site.inlineFlags, hshape]
      rfl
    simp only [Site.perform, Bool.false_eq_true, if_false, hf', hshape]
    exact ScriptHost.settled_perform hb hs hf target args
  have hshared' : s'.perform shared' (.watching bodies) target args =
      s'.perform false (.watching bodies) target args := by
    cases shared' with
    | false => rfl
    | true => rw [Site.perform_shared, if_neg (by simp [hshape, Shape.deoptimized])]
  cases shared with
  | false => rw [hinline, hshared']
  | true => rw [Site.perform_shared, if_pos ho, settled_restamp, hinline, hshared']

/-! ## Lowered sites -/

/-- An optimistic site, watched beside the same site without its assumption. -/
theorem settled_watching {m m' : Module} {cls : String} {index : Nat} {s s' : Site} {l l' : LoweredSite}
    (h : Installed m cls index s l) (h' : Installed m' cls index s' l')
    (hshape : s'.shape = s.shape.deoptimized) (hdepth : s'.depth = s.depth) {bodies : Bodies}
    (hb : ∀ id this args, Run.Definite (bodies id this args)) (ho : s.shape.optimistic = true)
    (hs : s.shape.flags.isOptimistic = false) (args : List Val) :
    settled s.shape.returnType (m.invoke (.watching bodies) l.cls l.name args) =
      m'.invoke (.watching bodies) l'.cls l'.name args := by
  have hparams : s'.shape.params = s.shape.params := by rw [hshape]; rfl
  by_cases hn : args.length = s.shape.params.length + 1
  · obtain ⟨-, depth, hd⟩ := Site.validate_ok h.valid
    obtain ⟨scope, rest, rfl⟩ := List.exists_cons_of_length_eq_add_one hn
    have hrest : rest.length = s.shape.params.length := Nat.succ.inj hn
    rw [h.invoke _ scope hrest hd, h'.invoke _ scope (hparams ▸ hrest) (hdepth ▸ hd),
      settled_bind (definite_targetOf scope depth)]
    simp only [Site.settled_perform hshape hb ho hs l.shared.isSome l'.shared.isSome]
  · rw [h.invoke_argumentCount _ hn, h'.invoke_argumentCount _ (hparams ▸ hn), hparams,
      settled_definite (Run.definite_fail (by simp))]

/-- An optimistic access and the same access without its assumption, each lowered in whatever way its module
shares, leave the same state and run the same callees. They give the same result, except that a failed
assumption becomes its value, converted to the type that was assumed. -/
theorem deoptimization_sound {t t' : Thresholds} {cls : String} {sites sites' : List Site}
    {ls ls' : List LoweredSite} {m m' : Module} (h : Lowered t cls sites ls m)
    (h' : Lowered t' cls sites' ls' m') {k : Nat} {s s' : Site} (hk : sites[k]? = some s)
    (hk' : sites'[k]? = some s') (hshape : s'.shape = s.shape.deoptimized) (hdepth : s'.depth = s.depth)
    (ho : s.shape.optimistic = true) (hs : s.shape.flags.isOptimistic = false) {bodies : Bodies}
    (hb : ∀ id this args, Run.Definite (bodies id this args)) :
    ∃ l l', ls[k]? = some l ∧ ls'[k]? = some l' ∧ ∀ args w,
      ((m'.invoke (.scope bodies) l'.cls l'.name args).outcome w).1 =
        deoptimized s.shape.returnType ((m.invoke (.scope bodies) l.cls l.name args).outcome w).1 ∧
      ((m'.invoke (.scope bodies) l'.cls l'.name args).outcome w).2 =
        ((m.invoke (.scope bodies) l.cls l.name args).outcome w).2 ∧
      m'.bodyRuns bodies l'.cls l'.name args w = m.bodyRuns bodies l.cls l.name args w := by
  obtain ⟨l, hl, -, hi⟩ := h.installed hk
  obtain ⟨l', hl', -, hi'⟩ := h'.installed hk'
  refine ⟨l, l', hl, hl', fun args w => ?_⟩
  rw [Module.invoke_scope, Module.invoke_scope, Module.bodyRuns, Module.bodyRuns,
    ← settled_watching hi hi' hshape hdepth hb ho hs args, outcome_settled]
  exact ⟨rfl, rfl, rfl⟩

def loweredPlainPair (t : Thresholds) : Except Fault (List LoweredSite) × ModuleBuilder :=
  (lower 0 (callPair.map fun s => { s with shape := s.shape.deoptimized })).outcome
    ((new "m" t).after [.openClass "Script"])

theorem deoptimization_sound_callPair :
    Lowered ⟨1, 1⟩ "Script" callPair
      [⟨"Script", "site$0", some pairUnit⟩, ⟨"Script", "site$1", some pairUnit⟩] (loweredPair ⟨1, 1⟩).2.finish ∧
    Lowered ⟨2, 2⟩ "Script" (callPair.map fun s => { s with shape := s.shape.deoptimized })
      [⟨"Script", "site$0", none⟩, ⟨"Script", "site$1", none⟩] (loweredPlainPair ⟨2, 2⟩).2.finish ∧
    ∀ v args w,
      (((loweredPlainPair ⟨2, 2⟩).2.finish.invoke (.scope fun _ _ _ => pure v) "Script" "site$0" args).outcome w).1 =
        deoptimized .int
          (((loweredPair ⟨1, 1⟩).2.finish.invoke (.scope fun _ _ _ => pure v) "Script" "site$0" args).outcome w).1 := by
  have h' : Lowered ⟨2, 2⟩ "Script" (callPair.map fun s => { s with shape := s.shape.deoptimized })
      [⟨"Script", "site$0", none⟩, ⟨"Script", "site$1", none⟩] (loweredPlainPair ⟨2, 2⟩).2.finish :=
    lowered_new (rfl : loweredPlainPair ⟨2, 2⟩ = (.ok [_, _], _))
  refine ⟨lowered_callPair, h', fun v args w => ?_⟩
  have hb : ∀ id this args, Run.Definite ((fun _ _ _ => pure v : Bodies) id this args) :=
    fun _ _ _ => Run.definite_pure v
  obtain ⟨l, l', hl, hl', hrun⟩ :=
    deoptimization_sound lowered_callPair h' (k := 0) rfl rfl rfl rfl rfl (by decide) hb
  cases hl
  cases hl'
  exact (hrun args w).1

end ScriptHost
