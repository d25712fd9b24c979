import ScriptHost.Proofs.Code.Assumptions
import ScriptHost.Proofs.Scope.Cache

/-!
# Failures of accesses without an assumption

Whether an operation runs under an assumption is read from its flag word, while a shape says it in a field of
its own. The code of a shape without an assumption carries the flag word of the shape as it is. Where that
word lacks the flag, failures are contained in every run of the code, by a shared unit and by a site alike
(`Performs.assumesNothing`). Where it has the flag, a linker that refuses the first read gets its failure out
(`Performs.exists_perform`).
-/

namespace ScriptHost

open Machine ModuleBuilder

variable {σ : Type}

/-- No run of the method ends in a failed assumption. If one is reported to it, the run ends with the error for
that. -/
structure Module.ContainsFailures (m : Module) (cls name : String) : Prop where
  definite : ∀ {σ : Type} (l : Linker σ) (args : List Val) (s : σ) (u : Misspeculation),
    ((m.invoke l cls name args).outcome s).1 ≠ .error (.error (.misspeculation u))
  reported : ∀ {σ : Type} (l : Linker σ) (args : List Val) (s : σ), ∀ a ∈ m.answers l cls name args s,
    ∀ u, Reports a u → ∃ operation symbol, ((m.invoke l cls name args).outcome s).1 =
      .error (.error (.internal (.uncheckedSpeculation operation symbol u)))

theorem Module.AssumesNothing.containsFailures {m : Module} {cls name : String} {target : Method}
    (hm : m.method? cls name = some target) (h : m.AssumesNothing target) : m.ContainsFailures cls name := by
  have hcontained : ∀ {σ : Type} (l : Linker σ) (args : List Val) (s : σ),
      Contained (fun _ => True) (m.answers l cls name args s) ((m.invoke l cls name args).outcome s).1 := by
    intro σ l args s
    obtain ⟨answers, hlog, hrun⟩ := contains_run l h maxDepth args s []
    rw [m.invoke_recording, Module.answers, Module.invoke_some hm, execute, hlog]
    exact hrun
  exact ⟨fun l args s => (hcontained l args s).definite, fun l args s => (hcontained l args s).reported⟩

/-! ## Generated methods -/

/-- The method of a module was generated for a shape: it is that of a shared unit, or that of a site which does
the access itself or has a shared unit of the module do it. -/
inductive Performs (m : Module) (cls name : String) (s : Shape) : Prop where
  | unit {u : SharedUnit} (hu : u.shape = s) (hm : m.method? cls name = some u.method)
  | inline {site : Site} (hs : site.shape = s) {target : Method} {cls' name' : String}
    (h : site.method cls' name' none = .ok target) (hm : m.method? cls name = some target)
  | sharing {site : Site} (hs : site.shape = s) {u : SharedUnit} {target : Method} {cls' name' : String}
    (h : site.method cls' name' (some u) = .ok target) (hm : m.method? cls name = some target)
    (hu : u.shape = s) (hunit : m.method? u.cls u.name = some u.method)

namespace ModuleBuilder

section

variable {name : String} {t : Thresholds} {requests : List Request}
  (hd : (((new name t).after requests).units.map ClassBody.name).Nodup)

include hd

theorem Granted.performs {s : Shape} {u : SharedUnit} (h : Granted name t requests s u) :
    Performs ((new name t).after requests).finish u.cls u.name s :=
  .unit h.mem.2 (shared_method? (consistent_after (consistent_new name t) requests) hd h.mem.1)

theorem LoweredBy.performs {s : Site} {l : LoweredSite} (h : LoweredBy name t requests s l) :
    Performs ((new name t).after requests).finish l.cls l.name s.shape := by
  obtain ⟨cls, k, hi⟩ := h.installed hd
  obtain ⟨m, hm, hmethod⟩ := hi.method
  cases hshared : l.shared with
  | none => exact .inline rfl (hshared ▸ hmethod) hm
  | some u => exact .sharing rfl (hshared ▸ hmethod) hm (hi.unit u hshared).2 (hi.unit u hshared).1

end

end ModuleBuilder

/-! ## Flag words without the flag -/

section

variable (code : Module)

theorem admits_accessCode {s : Shape} (hs : s.flags.isOptimistic = false) (start : Nat) :
    ∀ i ∈ s.accessCode s.flags start, code.Admits i := by
  refine s.forall_mem_accessCode code.admits_load code.admits_convert code.admits_undefined ?_ ?_ start
  · intro ty name flags hflags
    rw [or_self_iff.1 hflags]
    simpa using hs
  · intro ty operands name
    simpa using hs

theorem SharedUnit.assumesNothing {u : SharedUnit} (ho : u.shape.optimistic = false)
    (hs : u.shape.flags.isOptimistic = false) : code.AssumesNothing u.method := by
  have hcode : u.method.code =
      SharedUnit.walk ++ u.shape.accessCode u.shape.flags fixedSlots ++ [.ret u.shape.returnType] := by
    simp [SharedUnit.method, SharedUnit.operation, Shape.unitFlags, ho]
  rw [Module.assumesNothing_iff, hcode]
  simpa [SharedUnit.walk, or_imp, forall_and] using admits_accessCode code hs fixedSlots

end

namespace Performs

variable {m : Module} {cls name : String} {s : Shape}

/-- Code that was generated for a shape assumes nothing, if neither the field nor the flag word of the shape
does. -/
theorem assumesNothing (h : Performs m cls name s) (ho : s.optimistic = false)
    (hs : s.flags.isOptimistic = false) :
    ∃ target, m.method? cls name = some target ∧ m.AssumesNothing target := by
  cases h with
  | unit hu hm =>
    subst hu
    exact ⟨_, hm, SharedUnit.assumesNothing m ho hs⟩
  | @inline site hsite target cls' name' hmethod hm =>
    subst hsite
    obtain ⟨depth, flags, hdepth, hflags⟩ := inline_ok hmethod
    obtain rfl : site.shape.flags = flags := by simpa [Shape.siteFlags, ho] using hflags
    refine ⟨target, hm, ?_⟩
    rw [Module.assumesNothing_iff, method_inline hmethod hdepth hflags]
    simpa [or_imp, forall_and] using admits_accessCode m hs 1
  | @sharing site hsite u target cls' name' hmethod hm hu hunit =>
    subst hu
    obtain ⟨depth, hdepth⟩ := sharing_ok hmethod
    have hcall : m.Admits u.invocation :=
      Module.admits_invoke u.signature hunit (SharedUnit.assumesNothing m ho hs)
    have hloads := forall_mem_loadParams m.admits_load 1 site.shape.params
    refine ⟨target, hm, ?_⟩
    rw [Module.assumesNothing_iff, method_sharing hmethod hdepth]
    simpa [hcall, or_imp, forall_and] using hloads

end Performs

/-! ## Flag words with the flag -/

/-- Where the flag word assumes something, the refused read ends the access. -/
theorem perform_refusing {s : Shape} (hs : s.flags.isOptimistic = true) (target : ObjRef) (args : List Val) :
    s.perform (.refusing Unit) s.flags target args = Run.escape ⟨.object target, s.flags.point⟩ := by
  have hget : ∀ ty, settle ((Linker.refusing Unit).get (.object target) s.symbol.name ty s.flags) s.flags "get"
      s.symbol.name = Run.escape ⟨.object target, s.flags.point⟩ := by
    intro ty
    show Run.fail (unmet _ _ _ _) = _
    rw [unmet, if_pos hs]
    rfl
  cases ha : s.access with
  | read ty => simp only [Shape.perform, ha, hget]
  | call ret params =>
    simp only [Shape.perform, ha, hget]
    exact Run.fail_bind _ _

theorem exists_targetOf (depth : Int32) :
    ∃ scope target, ∀ σ : Type, (targetOf (.object scope) depth : Run σ ObjRef) = pure target := by
  have hchain : ∀ n (c : Cell), ∃ o, ObjRef.climb? n c (List.replicate n c) = some o := by
    intro n c
    induction n with
    | zero => exact ⟨_, rfl⟩
    | succ n ih => exact ih
  obtain ⟨o, ho⟩ := hchain depth.toInt.toNat ⟨1, true⟩
  by_cases hd : depth < 0
  · refine ⟨⟨⟨1, true⟩, []⟩, ⟨⟨1, true⟩, []⟩, fun σ => ?_⟩
    rw [targetOf, climb, if_pos hd]
    rfl
  · refine ⟨⟨⟨1, true⟩, List.replicate depth.toInt.toNat ⟨1, true⟩⟩, o, fun σ => ?_⟩
    rw [targetOf, climb, if_neg hd, ObjRef.ancestor?, ho]
    rfl

namespace Performs

variable {m : Module} {cls name : String} {s : Shape}

theorem exists_perform (h : Performs m cls name s) (ho : s.optimistic = false) :
    ∃ args target rest, ∀ {σ : Type} (l : Linker σ),
      m.invoke l cls name args = s.perform l s.flags target rest := by
  obtain ⟨rest, hrest⟩ : ∃ rest : List Val, rest.length = s.params.length :=
    ⟨List.replicate s.params.length .undefined, List.length_replicate⟩
  have hshared : ∀ {σ : Type} (l : Linker σ) pp target rest,
      s.performShared l pp target rest = s.perform l s.flags target rest := by
    intro σ l pp target rest
    simp [Shape.performShared, Shape.unitFlags, ho]
  cases h with
  | @unit u hu hm =>
    subst hu
    obtain ⟨scope, target, htarget⟩ := exists_targetOf 0
    refine ⟨.object scope :: .int 0 :: .int 0 :: rest, target, rest, fun l => ?_⟩
    rw [Module.invoke_some hm, execute, show maxDepth = 255 + 1 from rfl, run_unit u _ _ _ hrest, htarget,
      pure_bind, hshared]
  | @inline site hsite target cls' name' hmethod hm =>
    subst hsite
    obtain ⟨depth, flags, hdepth, hflags⟩ := inline_ok hmethod
    obtain rfl : site.shape.flags = flags := by simpa [Shape.siteFlags, ho] using hflags
    obtain ⟨scope, target, htarget⟩ := exists_targetOf depth
    refine ⟨.object scope :: rest, target, rest, fun l => ?_⟩
    rw [Module.invoke_some hm, execute, show maxDepth = 255 + 1 from rfl,
      run_inline hmethod hdepth hflags _ hrest, htarget, pure_bind]
  | @sharing site hsite u target cls' name' hmethod hm hu hunit =>
    subst hsite
    obtain ⟨depth, hdepth⟩ := sharing_ok hmethod
    obtain ⟨scope, target, htarget⟩ := exists_targetOf depth
    refine ⟨.object scope :: rest, target, rest, fun l => ?_⟩
    rw [Module.invoke_some hm, execute, show maxDepth = 254 + 2 from rfl,
      run_sharing hmethod hdepth hunit hu _ hrest, htarget, pure_bind, hshared]

end Performs

/-! ## The condition -/

/-- Code that was generated for a shape without an assumption, as a shared unit or at a site, contains failed
assumptions under every linker exactly if the flag word of the shape does not say that there is an assumption. -/
theorem failures_contained_iff {m : Module} {cls name : String} {s : Shape} (h : Performs m cls name s)
    (ho : s.optimistic = false) : m.ContainsFailures cls name ↔ s.flags.isOptimistic = false := by
  constructor
  · intro hcontains
    by_contra hs
    obtain ⟨args, target, rest, hinvoke⟩ := h.exists_perform ho
    apply hcontains.definite (.refusing Unit) args () ⟨.object target, s.flags.point⟩
    rw [hinvoke, perform_refusing (by simpa using hs)]
    rfl
  · intro hs
    obtain ⟨target, hm, hnothing⟩ := h.assumesNothing ho hs
    exact hnothing.containsFailures hm

def plainRead : Shape := ⟨⟨"x", .known 0⟩, .read .int, .scope, false⟩

def plainRequests : List Request :=
  [.openClass "Script", .sharedUnit 0 plainRead, .lower 0 [⟨plainRead, .known 0, 7⟩]]

theorem failures_contained_iff_plainRead :
    Performs ((new "m" ⟨5, 5⟩).after plainRequests).finish "Script" ":scopeGet$0" plainRead ∧
    Performs ((new "m" ⟨5, 5⟩).after plainRequests).finish "Script" "site$0" plainRead ∧
    plainRead.optimistic = false ∧
    ((new "m" ⟨5, 5⟩).after plainRequests).finish.ContainsFailures "Script" ":scopeGet$0" ∧
    ((new "m" ⟨5, 5⟩).after plainRequests).finish.ContainsFailures "Script" "site$0" := by
  have hd : (((new "m" ⟨5, 5⟩).after plainRequests).units.map ClassBody.name).Nodup := by decide
  have hgranted : Granted "m" ⟨5, 5⟩ plainRequests plainRead ⟨plainRead, "Script", ":scopeGet$0"⟩ :=
    @Granted.unit "m" ⟨5, 5⟩ plainRequests [.openClass "Script"] _ 0 _ _ _ rfl rfl
  have hlowered : LoweredBy "m" ⟨5, 5⟩ plainRequests ⟨plainRead, .known 0, 7⟩ ⟨"Script", "site$0", none⟩ :=
    ⟨plainRequests.take 2, [], 0, _, _, _, 0, rfl, rfl, rfl, rfl⟩
  have hunit := hgranted.performs hd
  have hsite := hlowered.performs hd
  exact ⟨hunit, hsite, rfl, (failures_contained_iff hunit rfl).2 rfl, (failures_contained_iff hsite rfl).2 rfl⟩

/-- A read without an assumption, whose flag word says that there is one. -/
def flaggedRead : Shape := { plainRead with flags := .scope ||| .optimistic }

/-- The failure of a read without an assumption gets out of its shared unit. -/
theorem flagged_failure_escapes :
    flaggedRead.optimistic = false ∧
    Granted "m" ⟨5, 5⟩ [.openClass "Script", .sharedUnit 0 flaggedRead] flaggedRead
      ⟨flaggedRead, "Script", ":scopeGet$0"⟩ ∧
    ((((new "m" ⟨5, 5⟩).after [.openClass "Script", .sharedUnit 0 flaggedRead]).finish.invoke (.refusing Unit)
      "Script" ":scopeGet$0" [.object ⟨⟨1, true⟩, []⟩, .int 0, .int 4]).outcome ()).1 =
        .error (.error (.misspeculation ⟨.object ⟨⟨1, true⟩, []⟩, 0⟩)) :=
  ⟨rfl, @Granted.unit _ _ _ [.openClass "Script"] _ 0 _ _ _ rfl rfl, rfl⟩

end ScriptHost
