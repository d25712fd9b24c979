import ScriptHost.Proofs.Code.Flags
import ScriptHost.Proofs.Scope.Evaluation

/-!
# Sharing is not observable

A shared unit runs under a flag word without a program point and attributes a failed assumption to the
point that its site passes; an inline site has the point in its flag word. Once failures of both are
attributed to the same point, no difference is left (`perform_congr`): reads and calls look at the flag
word only for being scope accesses and for running under an assumption, and the two words agree on both.
-/

namespace ScriptHost

open Machine ModuleBuilder

variable {σ : Type}

/-! ## Attributing failures -/

/-- A result with a failed assumption attributed to a program point. -/
def attributed (pp : Int32) : Except Fault Val → Except Fault Val
  | .error (.error (.misspeculation u)) => .error (.error (.misspeculation (u.reattribute pp)))
  | r => r

theorem outcome_restamp (pp : Int32) (x : Run σ Val) (s : σ) :
    (restamp pp x).outcome s = (attributed pp (x.outcome s).1, (x.outcome s).2) := by
  rw [restamp, Run.outcome_catching]
  rcases x.outcome s with ⟨r, s'⟩
  cases r with
  | ok v => rfl
  | error f =>
    cases f with
    | error e => cases e <;> rfl
    | panic t => rfl
    | exhausted => rfl

theorem restamp_bind {α : Type} (x : Run σ α) (pp : Int32) (k : α → Run σ Val) :
    restamp pp (x >>= k) =
      Run.catching x (fun u => Run.escape (u.reattribute pp)) fun a => restamp pp (k a) :=
  Run.catching_bind ..

theorem restamp_catching {α : Type} (x : Run σ α) (pp : Int32) (h : Misspeculation → Run σ Val)
    (k : α → Run σ Val) :
    restamp pp (Run.catching x h k) =
      Run.catching x (fun u => restamp pp (h u)) fun a => restamp pp (k a) :=
  Run.catching_catching ..

theorem restamp_checked (pp : Int32) (v : Val) (ty : Ty) (flags : SiteFlags) :
    restamp pp (checked v ty flags : Run σ Val) =
      if !flags.isOptimistic || v.fits ty then pure (v.coerce ty) else Run.escape ⟨v, pp⟩ := by
  rw [checked]
  split
  · exact Run.catching_pure ..
  · exact Run.catching_escape ..

/-- Two flag words under which an access does the same, other than attributing its failures. -/
structure SameChecks (flags flags' : SiteFlags) : Prop where
  isScope : flags.isScope = flags'.isScope
  isOptimistic : flags.isOptimistic = flags'.isOptimistic

theorem restamp_checked_congr {flags flags' : SiteFlags} (h : SameChecks flags flags') (pp : Int32) (v : Val)
    (ty : Ty) : restamp pp (checked v ty flags : Run σ Val) = restamp pp (checked v ty flags') := by
  rw [restamp_checked, restamp_checked, h.isOptimistic]

theorem unmet_congr {flags flags' : SiteFlags} (h : SameChecks flags flags') (u : Misspeculation)
    (operation name : String) : unmet u flags operation name = unmet u flags' operation name := by
  rw [unmet, unmet, h.isOptimistic]

theorem perform_congr {flags flags' : SiteFlags} (h : SameChecks flags flags') (s : Shape) (bodies : Bodies)
    (pp : Int32) (target : ObjRef) (args : List Val) :
    restamp pp (s.perform (.watching bodies) flags target args) =
      restamp pp (s.perform (.watching bodies) flags' target args) := by
  cases hs : s.access with
  | read ty =>
    rw [Shape.perform_read _ _ _ _ hs, Shape.perform_read _ _ _ _ hs, h.isScope]
    simp only [restamp_bind, restamp_checked_congr h]
  | call ret params =>
    rw [Shape.perform_call _ _ _ _ hs, Shape.perform_call _ _ _ _ hs, h.isScope]
    simp only [restamp_bind, restamp_catching, restamp_checked_congr h, unmet_congr h]

theorem sameChecks_flags {s : Site} (ho : s.shape.optimistic = true) :
    SameChecks s.shape.unitFlags s.inlineFlags := by
  rw [Shape.unitFlags, Site.inlineFlags, if_pos ho, if_pos ho]
  exact ⟨(SiteFlags.isScope_withPoint ..).symm, (SiteFlags.isOptimistic_withPoint ..).symm⟩

/-- The shared form of an access is the inline form with failures attributed to the point of the site, and
for shapes without an assumption the inline form itself. -/
theorem Site.perform_shared (s : Site) (bodies : Bodies) (target : ObjRef) (args : List Val) :
    s.perform true (.watching bodies) target args =
      if s.shape.optimistic then restamp s.point (s.perform false (.watching bodies) target args)
      else s.perform false (.watching bodies) target args := by
  simp only [Site.perform, Bool.false_eq_true, if_false, if_true, Shape.performShared]
  by_cases ho : s.shape.optimistic
  · rw [if_pos ho, if_pos ho]
    exact perform_congr (sameChecks_flags ho) s.shape bodies s.point target args
  · rw [if_neg ho, if_neg ho, Shape.unitFlags, if_neg ho, Site.inlineFlags, if_neg ho]

/-! ## Lowered sites -/

theorem restamp_definite {x : Run σ Val} (hx : Run.Definite x) (pp : Int32) : restamp pp x = x := by
  rw [restamp, Run.catching_definite hx, bind_pure]

/-- A site in a module where it shares, watched beside the same site in a module where it does not. -/
theorem invoke_watching {m m₀ : Module} {cls : String} {index : Nat} {s : Site} {l l₀ : LoweredSite}
    (h : Installed m cls index s l) (h₀ : Installed m₀ cls index s l₀) (hnone : l₀.shared.isSome = false)
    (bodies : Bodies) (args : List Val) :
    m.invoke (.watching bodies) l.cls l.name args =
      if l.shared.isSome && s.shape.optimistic then
        restamp s.point (m₀.invoke (.watching bodies) l₀.cls l₀.name args)
      else m₀.invoke (.watching bodies) l₀.cls l₀.name args := by
  by_cases hn : args.length = s.shape.params.length + 1
  · obtain ⟨-, depth, hd⟩ := Site.validate_ok h.valid
    obtain ⟨scope, rest, rfl⟩ := List.exists_cons_of_length_eq_add_one hn
    have hrest : rest.length = s.shape.params.length := Nat.succ.inj hn
    rw [h.invoke _ scope hrest hd, h₀.invoke _ scope hrest hd, hnone, restamp_bind,
      Run.catching_definite (definite_targetOf scope depth)]
    cases l.shared.isSome with
    | false => rfl
    | true =>
      simp only [Site.perform_shared, Bool.true_and]
      split <;> rfl
  · have hcount : ∀ e : InternalFault, Run.Definite (Run.fail e : Run Watched Val) :=
      fun e => Run.definite_fail (by simp)
    rw [h.invoke_argumentCount _ hn, h₀.invoke_argumentCount _ hn, restamp_definite (hcount _), ite_self]

/-- Invoking a site of a batch gives the same result, the same engine state and the same runs of callees
whatever is shared in the module. Where the site goes through the unit of an optimistic shape, a failed
assumption is attributed to the point of the site. -/
theorem sharing_unobservable {t t₀ : Thresholds} {cls : String} {sites : List Site}
    {ls ls₀ : List LoweredSite} {m m₀ : Module} (h : Lowered t cls sites ls m)
    (h₀ : Lowered t₀ cls sites ls₀ m₀)
    (hnone : ∀ s ∈ sites, ¬Shares t₀ sites s)
    (bodies : Bodies) {k : Nat} {s : Site} (hk : sites[k]? = some s) :
    ∃ l l₀, ls[k]? = some l ∧ ls₀[k]? = some l₀ ∧ ∀ args w,
      ((m.invoke (.scope bodies) l.cls l.name args).outcome w).1 =
        (if l.shared.isSome && s.shape.optimistic then
          attributed s.point ((m₀.invoke (.scope bodies) l₀.cls l₀.name args).outcome w).1
        else ((m₀.invoke (.scope bodies) l₀.cls l₀.name args).outcome w).1) ∧
      ((m.invoke (.scope bodies) l.cls l.name args).outcome w).2 =
        ((m₀.invoke (.scope bodies) l₀.cls l₀.name args).outcome w).2 ∧
      m.bodyRuns bodies l.cls l.name args w = m₀.bodyRuns bodies l₀.cls l₀.name args w := by
  obtain ⟨l, hl, -, hi⟩ := h.installed hk
  obtain ⟨l₀, hl₀, hshares, hi₀⟩ := h₀.installed hk
  have hinline : l₀.shared.isSome = false :=
    Bool.eq_false_iff.2 fun h => hnone s (List.mem_of_getElem? hk) (hshares.1 h)
  refine ⟨l, l₀, hl, hl₀, fun args w => ?_⟩
  rw [Module.invoke_scope, Module.invoke_scope, Module.bodyRuns, Module.bodyRuns,
    invoke_watching hi hi₀ hinline bodies args]
  by_cases hc : l.shared.isSome && s.shape.optimistic
  · simp only [if_pos hc, outcome_restamp, and_self]
  · simp only [if_neg hc, and_self]

/-- Two optimistic calls of one variable, at two program points. -/
def callPair : List Site :=
  [⟨⟨⟨"f", .known 0⟩, .call .int [], .scope, true⟩, .known 0, 7⟩,
    ⟨⟨⟨"f", .known 0⟩, .call .int [], .scope, true⟩, .known 0, 9⟩]

def loweredPair (t : Thresholds) : Except Fault (List LoweredSite) × ModuleBuilder :=
  (lower 0 callPair).outcome ((new "m" t).after [.openClass "Script"])

def pairUnit : SharedUnit := ⟨⟨⟨"f", .known 0⟩, .call .int [], .scope, true⟩, "Script", ":scopeCall$0"⟩

theorem lowered_callPair : Lowered ⟨1, 1⟩ "Script" callPair
    [⟨"Script", "site$0", some pairUnit⟩, ⟨"Script", "site$1", some pairUnit⟩] (loweredPair ⟨1, 1⟩).2.finish :=
  lowered_new (rfl : loweredPair ⟨1, 1⟩ = (.ok [_, _], _))

theorem sharing_unobservable_callPair :
    Lowered ⟨1, 1⟩ "Script" callPair
      [⟨"Script", "site$0", some pairUnit⟩, ⟨"Script", "site$1", some pairUnit⟩] (loweredPair ⟨1, 1⟩).2.finish ∧
    Lowered ⟨2, 2⟩ "Script" callPair [⟨"Script", "site$0", none⟩, ⟨"Script", "site$1", none⟩]
      (loweredPair ⟨2, 2⟩).2.finish ∧
    (∀ s ∈ callPair, ¬Shares ⟨2, 2⟩ callPair s) ∧
    ∀ bodies args w,
      (((loweredPair ⟨1, 1⟩).2.finish.invoke (.scope bodies) "Script" "site$0" args).outcome w).1 =
        attributed 7 (((loweredPair ⟨2, 2⟩).2.finish.invoke (.scope bodies) "Script" "site$0" args).outcome w).1 := by
  have h₀ : Lowered ⟨2, 2⟩ "Script" callPair [⟨"Script", "site$0", none⟩, ⟨"Script", "site$1", none⟩]
      (loweredPair ⟨2, 2⟩).2.finish :=
    lowered_new (rfl : loweredPair ⟨2, 2⟩ = (.ok [_, _], _))
  have hnone : ∀ s ∈ callPair, ¬Shares ⟨2, 2⟩ callPair s := by decide
  refine ⟨lowered_callPair, h₀, hnone, fun bodies args w => ?_⟩
  obtain ⟨l, l₀, hl, hl₀, hrun⟩ := sharing_unobservable lowered_callPair h₀ hnone bodies (k := 0) rfl
  cases hl
  cases hl₀
  exact (hrun args w).1

end ScriptHost
