import ScriptHost.Proofs.Adapter.Denial
import ScriptHost.Proofs.Adapter.SandboxRuns

/-!
# What a sandbox sees

A sandbox under the engine's loader sees exactly what its domain and its module let it see. The policy of the
domain decides first; where it denies a package, the symbols that every adapter may see are left. Where it
permits one, the engine's symbols are those of the packages that are exported to the sandbox's module
(`World.WellFormed.canAccess_engine`). Host types are never taken for the engine's.
-/

namespace ScriptHost

open Text (packageOf)

namespace Symbols

theorem visible_subset {name : String} (h : name ∈ visible) : name ∈ internal := by
  revert h
  revert name
  decide

theorem packageOf_internal {name : String} (h : name ∈ internal) : packageOf name ∈ internalPackages := by
  revert h
  revert name
  -- eight closed cases, each of which takes a name apart
  decide +kernel

theorem nested_of_internalPackages {package : String} (h : package ∈ internalPackages) :
    ∃ rest, package = "scopelink.internal" ++ "." ++ rest := by
  simp only [internalPackages, List.mem_cons, List.not_mem_nil, or_false] at h
  rcases h with rfl | rfl | rfl | rfl
  · exact ⟨"runtime", rfl⟩
  · exact ⟨"runtime.linker", rfl⟩
  · exact ⟨"codegen", rfl⟩
  · exact ⟨"objects", rfl⟩

end Symbols

/-! ## What the engine's loader gives -/

theorem Context.resolve_cases (ctx : Context) (name : String) :
    name ∈ Symbols.internal ∧ ctx.resolve name = .ok (.internal name) ∨
      name ∉ Symbols.internal ∧ ((∃ t, Symbols.isInternalPackage (packageOf name) = false ∧
          ctx.classPath.get? name = some t ∧ ctx.resolve name = .ok (.host t)) ∨
        ctx.resolve name = .error (.classNotFound name)) := by
  rw [Context.resolve]
  by_cases hname : name ∈ Symbols.internal
  · rw [if_pos (List.contains_iff_mem.2 hname)]
    exact .inl ⟨hname, rfl⟩
  · rw [if_neg (mt List.contains_iff_mem.1 hname)]
    refine .inr ⟨hname, ?_⟩
    by_cases hpackage : Symbols.isInternalPackage (packageOf name) = true
    · rw [if_pos hpackage]
      exact .inr rfl
    · rw [if_neg hpackage, Context.resolveHost]
      cases ht : ctx.classPath.get? name with
      | some t => exact .inl ⟨t, Bool.not_eq_true _ ▸ hpackage, rfl, rfl⟩
      | none => exact .inr rfl

namespace Sandbox

/-! ## What a sandbox gives -/

/-- What the policy and the modules let through of the engine's symbols. -/
def Admits (s : Sandbox) (name : String) : Prop :=
  s.domain.permits (packageOf name) = false ∧ name ∈ Symbols.visible ∨
    s.domain.permits (packageOf name) = true ∧
      (packageOf name = Symbols.runtimePackage ∨ packageOf name = Symbols.linkerPackage)

def Gives (s : Sandbox) (w : World) (name : String) (t : LoadedType) : Prop :=
  ((s.load name).outcome w).1 = .ok t

variable {w : World} {s : Sandbox}

/-- The policy denies the package: what is left are the symbols that every adapter may see. -/
theorem outside_denied (s : Sandbox) (ctx : Context) {name : String} {e : EngineError}
    (h : s.domain.check name (packageOf name) = .error e) :
    name ∈ Symbols.visible ∧ s.outside? ctx name = .ok (some (.internal name)) ∨
      name ∉ Symbols.visible ∧ s.outside? ctx name = .error e := by
  rw [outside?]
  dsimp only
  rw [h]
  dsimp only
  by_cases hvisible : name ∈ Symbols.visible
  · rw [if_pos (List.contains_iff_mem.2 hvisible), Context.resolve,
      if_pos (List.contains_iff_mem.2 (Symbols.visible_subset hvisible))]
    exact .inl ⟨hvisible, rfl⟩
  · rw [if_neg (mt List.contains_iff_mem.1 hvisible)]
    exact .inr ⟨hvisible, rfl⟩

/-- The policy permits the package: the engine's loader answers, as far as the module may access it. -/
theorem outside_permitted (s : Sandbox) (ctx : Context) {name : String} (hp : s.parent = .engine)
    (h : s.domain.check name (packageOf name) = .ok ()) :
    (name ∈ Symbols.internal ∧ s.outside? ctx name =
        if ctx.graph.canAccess s.module .engine (packageOf name) then .ok (some (.internal name))
        else .error (.accessDenied name (packageOf name))) ∨
      name ∉ Symbols.internal ∧ ((∃ t, Symbols.isInternalPackage (packageOf name) = false ∧
          ctx.classPath.get? name = some t ∧ s.outside? ctx name = .ok (some (.host t))) ∨
        s.outside? ctx name = .ok none) := by
  rw [outside?]
  dsimp only
  rw [h, hp, Parent.resolve]
  dsimp only
  rcases ctx.resolve_cases name with ⟨hname, hr⟩ | ⟨hname, ⟨t, hpackage, ht, hr⟩ | hr⟩
  · rw [hr]
    exact .inl ⟨hname, rfl⟩
  · have haccess : ctx.graph.canAccess s.module (LoadedType.host t).module (packageOf t.name) = true := by
      simp [ModuleGraph.canAccess, LoadedType.module]
    rw [hr]
    exact .inr ⟨hname, .inl ⟨t, hpackage, ht, if_pos haccess⟩⟩
  · rw [hr]
    exact .inr ⟨hname, .inr rfl⟩

theorem outside_found {ctx : Context} {name : String} {t : LoadedType} (hp : s.parent = .engine)
    (h : s.outside? ctx name = .ok (some t)) :
    t = .internal name ∨ ∃ t', t = .host t' ∧ Symbols.isInternalPackage (packageOf name) = false ∧
      ctx.classPath.get? name = some t' := by
  rcases s.domain.check_cases name (packageOf name) with ⟨-, hcheck⟩ | ⟨-, hcheck⟩
  · rcases s.outside_permitted ctx hp hcheck with ⟨-, ho⟩ | ⟨-, ⟨t', hpackage, ht, ho⟩ | ho⟩
    · rw [ho] at h
      split at h
      · cases h
        exact .inl rfl
      · cases h
    · rw [ho] at h
      cases h
      exact .inr ⟨t', rfl, hpackage, ht⟩
    · rw [ho] at h
      cases h
  · rcases s.outside_denied ctx hcheck with ⟨-, ho⟩ | ⟨-, ho⟩
    · rw [ho] at h
      cases h
      exact .inl rfl
    · rw [ho] at h
      cases h

theorem outcome_searchOutside (s : Sandbox) (name : String) (w : World) :
    (s.searchOutside name).outcome w = ((s.outside? (w.context s.context) name).mapError Fault.error, w) := by
  rw [searchOutside, Run.outcome_bind, Run.outcome_get]
  dsimp only
  cases s.outside? (w.context s.context) name <;> rfl

theorem ownClass_ok {name : String} {c : AdapterClass} {w' : World}
    (h : (s.ownClass name).outcome w = (.ok c, w')) : c.sandbox = s ∧ name = s.descriptor.className := by
  rw [ownClass] at h
  by_cases hname : name = s.descriptor.className
  · rw [if_neg (not_not_intro hname)] at h
    obtain ⟨w₁, w₂, -, h⟩ := Run.outcome_bind_ok h
    refine ⟨?_, hname⟩
    cases hd : w₁.definition? s with
    | some d =>
      rw [hd] at h
      cases h
      rfl
    | none =>
      rw [hd] at h
      obtain ⟨file, w₃, -, h⟩ := Run.outcome_bind_ok h
      cases h
      rfl
  · rw [if_pos hname] at h
    cases h

theorem load_ok {name : String} {t : LoadedType} {w' : World} (h : (s.load name).outcome w = (.ok t, w')) :
    s.outside? (w.context s.context) name = .ok (some t) ∨
      s.outside? (w.context s.context) name = .ok none ∧
        ∃ c w₁, t = .adapter c ∧ (s.ownClass name).outcome w = (.ok c, w₁) := by
  obtain ⟨t', w₁, hresolve, hload⟩ := Run.outcome_bind_ok h
  cases hload
  obtain ⟨found, w₂, hsearch, hfound⟩ := Run.outcome_bind_ok hresolve
  rw [outcome_searchOutside] at hsearch
  cases hout : s.outside? (w.context s.context) name with
  | error e =>
    rw [hout] at hsearch
    cases hsearch
  | ok o =>
    rw [hout] at hsearch
    cases hsearch
    cases found with
    | some t' =>
      cases hfound
      exact .inl rfl
    | none =>
      rw [Run.outcome_map] at hfound
      cases hown : (s.ownClass name).outcome w with
      | mk r w' =>
        rw [hown] at hfound
        cases r with
        | error f => cases hfound
        | ok c =>
          cases hfound
          exact .inr ⟨rfl, c, w', rfl, rfl⟩

theorem gives_cases {name : String} {t : LoadedType} (h : s.Gives w name t) :
    s.outside? (w.context s.context) name = .ok (some t) ∨
      s.outside? (w.context s.context) name = .ok none ∧
        ∃ c, t = .adapter c ∧ c.sandbox = s ∧ name = s.descriptor.className := by
  rcases load_ok (Prod.ext h rfl) with hout | ⟨hout, c, w₁, ht, hown⟩
  · exact .inl hout
  · exact .inr ⟨hout, c, ht, ownClass_ok hown⟩

theorem gives_of_outside {name : String} {t : LoadedType}
    (h : s.outside? (w.context s.context) name = .ok (some t)) : s.Gives w name t := by
  rw [Gives, load, Run.outcome_bind, resolve, Run.outcome_bind, outcome_searchOutside, h]
  rfl

/-! ## The policy -/

theorem gives_internal_iff (hw : w.WellFormed) (hs : w.Holds s) (hp : s.parent = .engine) (name n : String) :
    s.Gives w name (.internal n) ↔ n = name ∧ name ∈ Symbols.internal ∧ s.Admits name := by
  have houtside : s.Gives w name (.internal n) ↔
      s.outside? (w.context s.context) name = .ok (some (.internal n)) := by
    refine ⟨fun h => ?_, gives_of_outside⟩
    rcases gives_cases h with h | ⟨-, c, hc, -⟩
    · exact h
    · cases hc
  rw [houtside]
  rcases s.domain.check_cases name (packageOf name) with ⟨hopen, hcheck⟩ | ⟨⟨-, hdenied⟩, hcheck⟩
  · rcases s.outside_permitted (w.context s.context) hp hcheck with ⟨hname, ho⟩ | ⟨hname, ⟨t, -, -, ho⟩ | ho⟩
    · have hpermits : s.domain.permits (packageOf name) = true :=
        hopen.resolve_left fun h => absurd (h ▸ Symbols.packageOf_internal hname) (by decide)
      have haccess := hw.canAccess_engine hs (packageOf name)
      rw [World.graph] at haccess
      rw [ho, Admits, hpermits, ← haccess]
      split
      · next hc => simp [hc, hname, eq_comm]
      · next hc => simp [hc]
    · simp [ho, hname]
    · simp [ho, hname]
  · rcases s.outside_denied (w.context s.context) hcheck with ⟨hvisible, ho⟩ | ⟨hvisible, ho⟩
    · simp [ho, Admits, hdenied, hvisible, Symbols.visible_subset hvisible, eq_comm]
    · simp [ho, Admits, hdenied, hvisible]

/-- Where a domain denies all that the engine keeps to itself, just the symbols are left that every adapter may
see. -/
theorem admits_iff_visible (hd : s.domain.permits "scopelink.internal" = false) (name : String) :
    name ∈ Symbols.internal ∧ s.Admits name ↔ name ∈ Symbols.visible := by
  have hdenied : name ∈ Symbols.internal → s.domain.permits (packageOf name) = false := fun hname => by
    obtain ⟨rest, hrest⟩ := Symbols.nested_of_internalPackages (Symbols.packageOf_internal hname)
    rw [hrest]
    exact PackageAccess.permits_under (Text.under_append_dot ..) hd
  constructor
  · rintro ⟨hname, ⟨-, hvisible⟩ | ⟨hpermits, -⟩⟩
    · exact hvisible
    · rw [hdenied hname] at hpermits
      cases hpermits
  · intro hvisible
    have hname := Symbols.visible_subset hvisible
    exact ⟨hname, .inl ⟨hdenied hname, hvisible⟩⟩

/-- At every point of every run, what a sandbox under the engine's loader gives is exactly what the policy of its
domain lets through: of the engine's symbols those that it admits, of the host's types none that lies in a
package of the engine, and of the adapter classes its own. Where the domain denies `scopelink.internal`, there
are just four of the engine's symbols. -/
theorem visibility (hw : w.Reachable) (hs : w.Holds s) (hp : s.parent = .engine) :
    (∀ name, (∃ n, s.Gives w name (.internal n)) ↔ name ∈ Symbols.internal ∧ s.Admits name) ∧
      (∀ name n, s.Gives w name (.internal n) → n = name) ∧
      (∀ name t, s.Gives w name (.host t) → Symbols.isInternalPackage (packageOf name) = false ∧
        (w.context s.context).classPath.get? name = some t) ∧
      (∀ name c, s.Gives w name (.adapter c) → c.sandbox = s ∧ name = s.descriptor.className) ∧
      (s.domain.permits "scopelink.internal" = false →
        ∃ names : List String, names.Nodup ∧ names.length = 4 ∧
          ∀ name, (∃ n, s.Gives w name (.internal n)) ↔ name ∈ names) := by
  have hinternal : ∀ name, (∃ n, s.Gives w name (.internal n)) ↔ name ∈ Symbols.internal ∧ s.Admits name := by
    intro name
    refine ⟨fun ⟨n, hn⟩ => ((gives_internal_iff hw.wellFormed hs hp name n).1 hn).2, fun h => ⟨name, ?_⟩⟩
    exact (gives_internal_iff hw.wellFormed hs hp name name).2 ⟨rfl, h⟩
  refine ⟨hinternal, fun name n h => ((gives_internal_iff hw.wellFormed hs hp name n).1 h).1, fun name t h => ?_,
    fun name c h => ?_, fun hd => ⟨Symbols.visible, by decide, rfl, fun name => ?_⟩⟩
  · rcases gives_cases h with h | ⟨-, c, hc, -⟩
    · rcases outside_found hp h with hn | ⟨t', ht', hpackage, ht⟩
      · cases hn
      · cases ht'
        exact ⟨hpackage, ht⟩
    · cases hc
  · rcases gives_cases h with h | ⟨-, c', hc, hown⟩
    · rcases outside_found hp h with hn | ⟨t', ht', -⟩
      · cases hn
      · cases ht'
    · cases hc
      exact hown
  · rw [hinternal, admits_iff_visible hd]

/-- A world in which sandboxes may be made, and where a host type goes by a name of the engine's. -/
def shadowed : World where
  thread := { frames := [[.createClassLoader]] }
  contexts := ⟨[(0, {
    options := {}, global := default, classPath := ⟨[("scopelink.internal.codegen.Fake", default)]⟩ })]⟩

def secluded : Sandbox := shadowed.fresh 0 default .engine (.restricted "tenant" ["scopelink"])

def secludedWorld : World :=
  ((Sandbox.new 0 default .engine (.restricted "tenant" ["scopelink"])).outcome shadowed).2

theorem visibility_secluded :
    secludedWorld.Reachable ∧ secludedWorld.Holds secluded ∧ secluded.parent = .engine ∧
      (∃ n, secluded.Gives secludedWorld Symbols.jsType (.internal n)) ∧
      (¬ ∃ n, secluded.Gives secludedWorld "scopelink.internal.runtime.Context" (.internal n)) ∧
      ∀ t, ¬ secluded.Gives secludedWorld "scopelink.internal.codegen.Fake" (.host t) := by
  have hw : secludedWorld.Reachable := by
    have hshadowed : World.Reachable shadowed := .step .init (.other ⟨rfl, fun _ => rfl, fun c => ?_⟩)
    · exact .step hshadowed (.create 0 default .engine _ fun cls h => nomatch h)
    · cases c <;> rfl
  have hs : secludedWorld.Holds secluded := rfl
  obtain ⟨hinternal, -, hhost, -⟩ := visibility hw hs rfl
  refine ⟨hw, hs, rfl, (hinternal _).2 ⟨by decide, .inl ⟨by decide, by decide⟩⟩, fun h => ?_, fun t h => ?_⟩
  · obtain ⟨-, ⟨-, hvisible⟩ | ⟨hpermits, -⟩⟩ := (hinternal _).1 h
    · exact absurd hvisible (by decide)
    · exact absurd hpermits (by decide)
  · exact absurd (hhost _ t h).1 (by decide)

end Sandbox
end ScriptHost
