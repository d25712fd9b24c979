import ScriptHost.Proofs.Scope.Sharing

/-!
# Attribution of failed assumptions

What an optimistic access reads or is returned is its value (`Shape.fetch`), and the access checks it under
the flag word that it runs with (`perform_optimistic`). A value that does not fit is thus attributed to the
point in that word, which is the point of the site in both forms. A failure that the callee itself raised comes
with a point of its own: a shared unit attributes it to the site, an inline site lets it through as it is.
-/

namespace ScriptHost

open Machine ModuleBuilder

/-! ## The value of an access -/

def callRead (bodies : Bodies) (callee : Val) (args : List Val) (flags : SiteFlags) (name : String) :
    EngineM Val :=
  match callee with
  | .function f => f.callFromSite bodies .undefined args flags
  | v => Run.fail (ScriptFault.notCallable name v.typeName)

/-- The value of an access on its target scope, as it is read or returned, before it is checked or converted. -/
def Shape.fetch (s : Shape) (bodies : Bodies) (target : ObjRef) (args : List Val) : EngineM Val :=
  match s.access with
  | .read _ => readVar target s.symbol.name s.flags.isScope
  | .call .. => do
    callRead bodies (← readVar target s.symbol.name s.flags.isScope) args s.flags s.symbol.name

theorem scope_get (bodies : Bodies) (target : ObjRef) (name : String) (ty : Ty) (flags : SiteFlags) :
    (Linker.scope bodies).get (.object target) name ty flags =
      readVar target name flags.isScope >>= fun v => pure (.check v ty flags) :=
  scopeGet_object target name ty flags

theorem scope_call (bodies : Bodies) (callee : Val) (args : List Val) (ret : Ty) (flags : SiteFlags)
    (name : String) :
    (Linker.scope bodies).call callee .undefined args ret flags name =
      callRead bodies callee args flags name >>= fun v => pure (.check v ret flags) := by
  cases callee with
  | function f => rfl
  | _ => exact (Run.fail_bind _ _).symm

theorem callRead_congr {flags flags' : SiteFlags} (h : flags.isScope = flags'.isScope) (bodies : Bodies)
    (callee : Val) (args : List Val) (name : String) :
    callRead bodies callee args flags name = callRead bodies callee args flags' name := by
  cases callee with
  | function f =>
    apply Run.ext
    intro w
    show (f.callFromSite bodies .undefined args flags).outcome w =
      (f.callFromSite bodies .undefined args flags').outcome w
    rw [FnRef.outcome_callFromSite, FnRef.outcome_callFromSite, h]
  | _ => rfl

theorem checked_object {σ : Type} (v : Val) (flags : SiteFlags) : (checked v .object flags : Run σ Val) = pure v := by
  rw [checked, if_pos (by simp [Val.fits])]
  rfl

/-- An operation under an assumption lets through what its computation raised. -/
theorem settle_optimistic {σ : Type} (x : Run σ Val) (ty : Ty) {flags : SiteFlags}
    (ho : flags.isOptimistic = true) (operation name : String) :
    settle (x >>= fun v => pure (.check v ty flags)) flags operation name =
      x >>= fun v => checked v ty flags := by
  have hunmet : (fun u => Run.fail (unmet u flags operation name) : Misspeculation → Run σ Val) = Run.escape := by
    funext u
    rw [unmet, if_pos ho]
    rfl
  rw [settle_check, hunmet, Run.catching_escape_right]

theorem perform_optimistic {s : Shape} {flags : SiteFlags} (ho : flags.isOptimistic = true)
    (hf : flags.isScope = s.flags.isScope) (bodies : Bodies) (target : ObjRef) (args : List Val) :
    s.perform (.scope bodies) flags target args =
      s.fetch bodies target args >>= fun v => checked v s.returnType flags := by
  cases hs : s.access with
  | read ty =>
    have hty : s.returnType = ty := by rw [Shape.returnType, hs]
    rw [Shape.perform, Shape.fetch, hs, hty]
    dsimp only
    rw [scope_get, settle_optimistic _ _ ho, hf]
  | call ret params =>
    have hty : s.returnType = ret := by rw [Shape.returnType, hs]
    rw [Shape.perform, Shape.fetch, hs, hty]
    dsimp only
    rw [scope_get, settle_check, Run.catching_definite (definite_readVar _ _ _), bind_assoc, bind_assoc]
    simp only [checked_object, pure_bind, scope_call, settle_optimistic _ _ ho, callRead_congr hf]

theorem isCall_of_fetch {s : Shape} {bodies : Bodies} {target : ObjRef} {args : List Val} {w : World}
    {u : Misspeculation}
    (h : ((s.fetch bodies target args).outcome w).1 = .error (.error (.misspeculation u))) : s.isCall = true := by
  cases hs : s.access with
  | read ty =>
    rw [Shape.fetch, hs] at h
    exact absurd h (definite_readVar _ _ _ w u)
  | call ret params => rw [Shape.isCall, hs]

/-! ## Failures of sites -/

/-- A checked computation fails its assumption on a value that does not fit, or raised the failure itself. -/
theorem outcome_checked {x : EngineM Val} {ty : Ty} {flags : SiteFlags} {w : World} {u : Misspeculation}
    (h : ((x >>= fun v => checked v ty flags).outcome w).1 = .error (.error (.misspeculation u))) :
    (∃ v, (x.outcome w).1 = .ok v ∧ v.fits ty = false ∧ u = ⟨v, flags.point⟩) ∨
      (x.outcome w).1 = .error (.error (.misspeculation u)) := by
  rw [Run.outcome_bind] at h
  rcases hx : x.outcome w with ⟨r, w'⟩
  rw [hx] at h
  cases r with
  | error f => exact .inr h
  | ok v =>
    dsimp only at h
    rw [checked] at h
    split at h
    · cases h
    · next hc =>
      rw [Bool.or_eq_true, not_or] at hc
      cases h
      exact .inl ⟨v, rfl, Bool.eq_false_iff.2 hc.2, rfl⟩

theorem attributed_eq {pp : Int32} {r : Except Fault Val} {u : Misspeculation}
    (h : attributed pp r = .error (.error (.misspeculation u))) :
    ∃ u₀, r = .error (.error (.misspeculation u₀)) ∧ u = u₀.reattribute pp := by
  unfold attributed at h
  split at h
  · next u₀ =>
    cases h
    exact ⟨u₀, rfl, rfl⟩
  · next hne => exact absurd h (hne u)

/-- A failure of an optimistic site: its value did not fit, or its callee raised the failure. -/
theorem Site.perform_failed {s : Site} (ho : s.shape.optimistic = true) (hp : SiteFlags.validPoint s.point = true)
    {shared : Bool} {bodies : Bodies} {target : ObjRef} {args : List Val} {w : World} {u : Misspeculation}
    (h : ((s.perform shared (.scope bodies) target args).outcome w).1 = .error (.error (.misspeculation u))) :
    (∃ v, ((s.shape.fetch bodies target args).outcome w).1 = .ok v ∧ v.fits s.shape.returnType = false ∧
      u = ⟨v, s.point⟩) ∨
    s.shape.isCall = true ∧ ∃ u₀,
      ((s.shape.fetch bodies target args).outcome w).1 = .error (.error (.misspeculation u₀)) ∧
      u = if shared then u₀.reattribute s.point else u₀ := by
  have hinline : s.inlineFlags = (s.shape.flags ||| .optimistic).withPoint s.point := if_pos ho
  have hunit : s.shape.unitFlags = s.shape.flags ||| .optimistic := if_pos ho
  cases shared with
  | true =>
    simp only [Site.perform, if_true, Shape.performShared, if_pos ho] at h
    rw [outcome_restamp] at h
    obtain ⟨u₁, hu₁, rfl⟩ := attributed_eq h
    rw [perform_optimistic (by rw [hunit, SiteFlags.isOptimistic_or]) (by rw [hunit, SiteFlags.isScope_or])] at hu₁
    rcases outcome_checked hu₁ with ⟨v, hv, hfits, rfl⟩ | hraised
    · exact .inl ⟨v, hv, hfits, rfl⟩
    · exact .inr ⟨isCall_of_fetch hraised, u₁, hraised, rfl⟩
  | false =>
    simp only [Site.perform, Bool.false_eq_true, if_false] at h
    have hoptimistic : s.inlineFlags.isOptimistic = true := by
      rw [hinline, SiteFlags.isOptimistic_withPoint, SiteFlags.isOptimistic_or]
    have hscope : s.inlineFlags.isScope = s.shape.flags.isScope := by
      rw [hinline, SiteFlags.isScope_withPoint, SiteFlags.isScope_or]
    rw [perform_optimistic hoptimistic hscope] at h
    rcases outcome_checked h with ⟨v, hv, hfits, rfl⟩ | hraised
    · rw [hinline, SiteFlags.point_withPoint _ hp]
      exact .inl ⟨v, hv, hfits, rfl⟩
    · exact .inr ⟨isCall_of_fetch hraised, u, hraised, rfl⟩

theorem targetOf_bind {σ : Type} {scope : Val} {depth : Int32} {k : ObjRef → Run σ Val} {st : σ} {u : Misspeculation}
    (h : ((targetOf scope depth >>= k).outcome st).1 = .error (.error (.misspeculation u))) :
    ∃ o target, scope = .object o ∧ climb o depth = .ok target ∧
      ((k target).outcome st).1 = .error (.error (.misspeculation u)) := by
  cases scope with
  | object o =>
    simp only [targetOf] at h
    cases hc : climb o depth with
    | ok target =>
      rw [hc] at h
      exact ⟨o, target, rfl, hc, h⟩
    | error e =>
      have hdefinite := definite_targetOf (.object o) depth st u
      simp only [targetOf, hc] at hdefinite
      rw [hc] at h
      change ((Run.fail e >>= k).outcome st).1 = _ at h
      rw [Run.fail_bind] at h
      cases h
      exact absurd rfl hdefinite
  | _ => cases h

/-! ## Lowered sites -/

/-- When an optimistic site of a batch ends in a failed assumption, either the value that it read or was
returned does not fit its type, and the failure carries that value and the point of the site; or its callee
raised a failure, and the value of that failure is kept. The point is then that of the site where the access is
shared, and the callee's own where it is inline. -/
theorem failures_attributed {t : Thresholds} {cls : String} {sites : List Site} {ls : List LoweredSite}
    {m : Module} (h : Lowered t cls sites ls m) {k : Nat} {s : Site} (hk : sites[k]? = some s)
    (ho : s.shape.optimistic = true) :
    ∃ l depth, ls[k]? = some l ∧ s.depth.encode = .ok depth ∧
      ∀ (bodies : Bodies) (args : List Val) (w : World) (u : Misspeculation),
        ((m.invoke (.scope bodies) l.cls l.name args).outcome w).1 = .error (.error (.misspeculation u)) →
        ∃ scope rest target, args = .object scope :: rest ∧ climb scope depth = .ok target ∧
          ((∃ v, ((s.shape.fetch bodies target rest).outcome w).1 = .ok v ∧
              v.fits s.shape.returnType = false ∧ u = ⟨v, s.point⟩) ∨
            s.shape.isCall = true ∧ ∃ u₀,
              ((s.shape.fetch bodies target rest).outcome w).1 = .error (.error (.misspeculation u₀)) ∧
              u = if l.shared.isSome then u₀.reattribute s.point else u₀) := by
  obtain ⟨l, hl, -, hi⟩ := h.installed hk
  obtain ⟨hp, depth, hd⟩ := Site.validate_ok hi.valid
  refine ⟨l, depth, hl, hd, fun bodies args w u hu => ?_⟩
  by_cases hn : args.length = s.shape.params.length + 1
  · obtain ⟨first, rest, rfl⟩ := List.exists_cons_of_length_eq_add_one hn
    rw [hi.invoke _ first (Nat.succ.inj hn) hd] at hu
    obtain ⟨scope, target, rfl, hclimb, hfailed⟩ := targetOf_bind hu
    exact ⟨scope, rest, target, rfl, hclimb, Site.perform_failed ho hp hfailed⟩
  · rw [hi.invoke_argumentCount _ hn] at hu
    cases hu

theorem failures_attributed_callPair :
    Lowered ⟨1, 1⟩ "Script" callPair
      [⟨"Script", "site$0", some pairUnit⟩, ⟨"Script", "site$1", some pairUnit⟩] (loweredPair ⟨1, 1⟩).2.finish ∧
    ∀ bodies args w u,
      (((loweredPair ⟨1, 1⟩).2.finish.invoke (.scope bodies) "Script" "site$0" args).outcome w).1 =
        .error (.error (.misspeculation u)) → u.point = 7 := by
  refine ⟨lowered_callPair, fun bodies args w u hu => ?_⟩
  obtain ⟨l, depth, hl, -, hfailed⟩ := failures_attributed lowered_callPair (k := 0) rfl rfl
  cases hl
  obtain ⟨scope, rest, target, -, -, h⟩ := hfailed bodies args w u hu
  rcases h with ⟨v, -, -, rfl⟩ | ⟨-, u₀, -, rfl⟩
  · rfl
  · rfl

/-- Bodies that raise a failure of their own. -/
def raising : Bodies := fun _ _ _ => Run.fail (.misspeculation ⟨.str "late", 99⟩)

def holdingFunction : World := { heap := ({} : Heap).set 1 "f" (.function ⟨1, "f", false⟩) }

/-- An inline site with program point 7 whose callee raises a failure at point 99 fails at point 99. -/
theorem inline_failure_keeps_point :
    callPair[0]?.map Site.point = some 7 ∧
    (loweredPair ⟨2, 2⟩).1 = .ok [⟨"Script", "site$0", none⟩, ⟨"Script", "site$1", none⟩] ∧
    (((loweredPair ⟨2, 2⟩).2.finish.invoke (.scope raising) "Script" "site$0" [.object ⟨⟨1, true⟩, []⟩]).outcome
      holdingFunction).1 = .error (.error (.misspeculation ⟨.str "late", 99⟩)) :=
  ⟨rfl, rfl, rfl⟩

end ScriptHost
