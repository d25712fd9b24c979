import ScriptHost.Proofs.Adapter.Serving
import ScriptHost.Proofs.Engine.Adapters
import ScriptHost.Proofs.Text.Dotted

/-!
# When an adapter loads

A generated class is encoded, decoded again in a sandbox of its own, and linked against five symbols. All this
can fail in two ways only, and both are decided by the domain of the target (`Domain.vet`): it may deny the
package of the generated class, or that of the target. The symbols of the engine that the class links against
are found whatever the domain denies (`Sandbox.outside?_visible`), and host types are found as far as the domain
permits their package (`Sandbox.outside?_host`).
-/

namespace ScriptHost

open Text (packageOf)

/-- What the policy of a domain says about a generated class and its target. -/
def Domain.vet (d : Domain) (cls target : String) : Except EngineError Unit := do
  d.check cls (packageOf cls)
  d.check target (packageOf target)

theorem Domain.vet_cases (d : Domain) (cls target : String) :
    ((packageOf cls = "" ∨ d.permits (packageOf cls) = true) ∧
      (packageOf target = "" ∨ d.permits (packageOf target) = true) ∧ d.vet cls target = .ok ()) ∨
    ((packageOf cls = "" ∨ d.permits (packageOf cls) = true) ∧
      (packageOf target ≠ "" ∧ d.permits (packageOf target) = false) ∧
      d.vet cls target = .error (.accessDenied target (packageOf target))) ∨
    ((packageOf cls ≠ "" ∧ d.permits (packageOf cls) = false) ∧
      d.vet cls target = .error (.accessDenied cls (packageOf cls))) := by
  rw [vet]
  rcases d.check_cases cls (packageOf cls) with ⟨hcls, hcheck⟩ | ⟨hcls, hcheck⟩
  · rw [hcheck]
    rcases d.check_cases target (packageOf target) with ⟨htarget, hcheck'⟩ | ⟨htarget, hcheck'⟩
    · exact .inl ⟨hcls, htarget, hcheck'⟩
    · exact .inr (.inl ⟨hcls, htarget, hcheck'⟩)
  · rw [hcheck]
    exact .inr (.inr ⟨hcls, rfl⟩)

/-! ## Names -/

theorem Descriptor.nameFor_eq (target : HostType) (overrides : List String) (classLevel : Bool) :
    ∃ rest : String, '.' ∉ rest.toList ∧
      nameFor target overrides classLevel = Symbols.adapterPackage ++ "." ++ rest := by
  refine ⟨target.simpleName ++ "$$Adapter$" ++
    Text.hexPadded 16 (NameHash.adapterHash target overrides classLevel).toNat, ?_, ?_⟩
  · rw [String.toList_append, String.toList_append, List.mem_append, List.mem_append, not_or, not_or]
    exact ⟨⟨Text.dot_notMem_simpleName target.name, by decide⟩, Text.dot_notMem_hexPadded _ _⟩
  · rw [nameFor, ← String.append_assoc, ← String.append_assoc]

theorem Descriptor.packageOf_nameOf (target : HostType) (names : List String) (classLevel : Bool) :
    packageOf (nameOf target names classLevel) = Symbols.adapterPackage := by
  obtain ⟨rest, hrest, hname⟩ := nameFor_eq target (effective target names) classLevel
  rw [nameOf, hname]
  exact Text.packageOf_append Symbols.adapterPackage hrest

theorem Descriptor.not_internal_nameOf (target : HostType) (names : List String) (classLevel : Bool) :
    Symbols.isInternalPackage (packageOf (nameOf target names classLevel)) = false := by
  rw [packageOf_nameOf]
  decide

theorem Symbols.notMem_internal {name : String} (h : isInternalPackage (packageOf name) = false) :
    name ∉ internal := by
  intro hname
  rw [isInternalPackage, List.contains_iff_mem.2 (packageOf_internal hname)] at h
  cases h

theorem Symbols.packageOf_visible {name : String} (h : name ∈ visible) :
    packageOf name = runtimePackage ∨ packageOf name = linkerPackage := by
  revert h
  revert name
  decide +kernel

/-! ## What a sandbox finds -/

namespace Sandbox

/-- The sandbox is under the engine's loader, and the engine exports its runtime packages to it. -/
structure Supported (s : Sandbox) (ctx : Context) : Prop where
  parent : s.parent = .engine
  runtime : ctx.graph.canAccess s.module .engine Symbols.runtimePackage = true
  linker : ctx.graph.canAccess s.module .engine Symbols.linkerPackage = true

variable {s : Sandbox} {ctx : Context} {name : String}

theorem outside?_visible (hs : s.Supported ctx) (h : name ∈ Symbols.visible) :
    s.outside? ctx name = .ok (some (.internal name)) := by
  rcases s.domain.check_cases name (packageOf name) with ⟨-, hcheck⟩ | ⟨-, hcheck⟩
  · rcases s.outside_permitted ctx hs.parent hcheck with ⟨-, ho⟩ | ⟨hname, -⟩
    · have haccess : ctx.graph.canAccess s.module .engine (packageOf name) = true := by
        rcases Symbols.packageOf_visible h with hp | hp
        · rw [hp, hs.runtime]
        · rw [hp, hs.linker]
      rw [ho, if_pos haccess]
    · exact absurd (Symbols.visible_subset h) hname
  · rcases s.outside_denied ctx hcheck with ⟨-, ho⟩ | ⟨hvisible, -⟩
    · exact ho
    · exact absurd h hvisible

theorem outside?_host (hs : s.parent = .engine) (h : Symbols.isInternalPackage (packageOf name) = false) :
    s.outside? ctx name =
      (s.domain.check name (packageOf name)).map fun _ => (ctx.classPath.get? name).map LoadedType.host := by
  have hname := Symbols.notMem_internal h
  rcases s.domain.check_cases name (packageOf name) with ⟨-, hcheck⟩ | ⟨-, hcheck⟩
  · have hresolve : ctx.resolve name = ctx.resolveHost name := by
      rw [Context.resolve, if_neg (mt List.contains_iff_mem.1 hname), if_neg (by rw [h]; simp)]
    rw [outside?, hcheck, hs, Parent.resolve, hresolve, Context.resolveHost]
    cases ctx.classPath.get? name with
    | none => rfl
    | some t =>
      have haccess : ctx.graph.canAccess s.module .host (packageOf t.name) = true := by
        simp [ModuleGraph.canAccess]
      exact if_pos haccess
  · rcases s.outside_denied ctx hcheck with ⟨hvisible, -⟩ | ⟨-, ho⟩
    · exact absurd (Symbols.visible_subset hvisible) hname
    · rw [ho, hcheck]
      rfl

variable {w : World} {cls : String}

theorem outcome_link_append {found : List String}
    (h : ∀ n ∈ found, n ≠ cls ∧ ∃ t, s.outside? (w.context s.context) n = .ok (some t)) (rest : List String) :
    (s.link cls (found ++ rest)).outcome w = (s.link cls rest).outcome w := by
  induction found with
  | nil => rfl
  | cons n found ih =>
    obtain ⟨hne, t, ht⟩ := h n (List.mem_cons_self ..)
    rw [List.cons_append, link, if_neg hne, Run.outcome_bind, outcome_searchOutside, ht]
    exact ih fun n' hn' => h n' (List.mem_cons_of_mem _ hn')

variable {target : HostType} {names : List String} {classLevel : Bool}

/-- A context in which the sandbox can define the class of its target: host types are known under the name of the
target and not under that of the class. -/
structure Ready (s : Sandbox) (target : HostType) (cls : String) (ctx : Context) : Prop extends s.Supported ctx where
  target : ∃ t, ctx.classPath.get? target.name = some t
  fresh : ctx.classPath.get? cls = none

theorem Ready.ne (h : s.Ready target cls ctx) : target.name ≠ cls := by
  rintro rfl
  obtain ⟨t, ht⟩ := h.target
  rw [h.fresh] at ht
  cases ht

theorem outcome_link (hs : s.Ready target (Descriptor.nameOf target names classLevel) (w.context s.context))
    (htarget : Symbols.isInternalPackage (packageOf target.name) = false) :
    (s.link (Descriptor.nameOf target names classLevel) (Descriptor.linkedSymbols target)).outcome w =
      ((s.domain.check target.name (packageOf target.name)).mapError Fault.error, w) := by
  have hvisible : ∀ n ∈ Symbols.visible, n ≠ Descriptor.nameOf target names classLevel ∧
      ∃ t, s.outside? (w.context s.context) n = .ok (some t) := by
    intro n hn
    refine ⟨?_, _, outside?_visible hs.toSupported hn⟩
    rintro rfl
    exact Symbols.notMem_internal (Descriptor.not_internal_nameOf target names classLevel) (Symbols.visible_subset hn)
  obtain ⟨t, ht⟩ := hs.target
  rw [Descriptor.linkedSymbols, outcome_link_append hvisible, link, if_neg hs.ne, Run.outcome_bind,
    outcome_searchOutside, outside?_host hs.parent htarget, ht]
  cases s.domain.check target.name (packageOf target.name) <;> rfl

/-- A sandbox for a generated class of the target. -/
structure Generated (s : Sandbox) (target : HostType) (names : List String) (classLevel : Bool) : Prop where
  descriptor : Descriptor.generate target names classLevel = .ok s.descriptor
  fits : (Descriptor.classOf target names classLevel).Fits

theorem outcome_define (hg : s.Generated target names classLevel)
    (hs : s.Ready target (Descriptor.nameOf target names classLevel) (w.context s.context))
    (htarget : Symbols.isInternalPackage (packageOf target.name) = false) :
    (s.define.outcome w).1 = ((s.domain.check target.name (packageOf target.name)).map fun _ =>
      Descriptor.classOf target names classLevel).mapError Fault.error := by
  obtain ⟨hbytes, hd, hname, -⟩ := Descriptor.generate_ok hg.descriptor
  have hdecode : ClassFile.decode s.descriptor.bytes = .ok (Descriptor.classOf target names classLevel) :=
    ClassFile.decode_written hg.fits hbytes
  let dumped : World := w.setContext s.context { w.context s.context with
    dumps := (w.context s.context).dumps ++ [(s.descriptor.className, s.descriptor.bytes)] }
  have hready : s.Ready target (Descriptor.nameOf target names classLevel) (dumped.context s.context) := by
    rw [World.context_setContext, if_pos rfl]
    exact ⟨⟨hs.parent, hs.runtime, hs.linker⟩, hs.target, hs.fresh⟩
  have hlink := outcome_link hready htarget
  rw [define, Run.outcome_bind]
  show Prod.fst (Run.outcome _ dumped) = _
  rw [hdecode]
  dsimp only
  rw [if_neg (by rw [hname]; exact not_not_intro rfl), if_neg (by rw [hd]; exact not_not_intro rfl), hname,
    Run.outcome_bind, show (Descriptor.classOf target names classLevel).refs = Descriptor.linkedSymbols target from rfl,
    hlink]
  cases s.domain.check target.name (packageOf target.name) <;> rfl

theorem outcome_load (hg : s.Generated target names classLevel)
    (hs : s.Ready target (Descriptor.nameOf target names classLevel) (w.context s.context))
    (hnone : w.definition? s = none)
    (htarget : Symbols.isInternalPackage (packageOf target.name) = false) :
    ((s.load (Descriptor.nameOf target names classLevel)).outcome w).1 =
      ((s.domain.vet (Descriptor.nameOf target names classLevel) target.name).map fun _ =>
        LoadedType.adapter ⟨s, Descriptor.classOf target names classLevel, none⟩).mapError Fault.error := by
  have hcls := Descriptor.not_internal_nameOf target names classLevel
  have hname := (Descriptor.generate_ok hg.descriptor).2.2.1
  have hown : ((s.ownClass (Descriptor.nameOf target names classLevel)).outcome w).1 =
      ((s.domain.check target.name (packageOf target.name)).map fun _ =>
        (⟨s, Descriptor.classOf target names classLevel, none⟩ : AdapterClass)).mapError Fault.error := by
    have hdefine := outcome_define hg hs htarget
    rw [ownClass, if_neg (not_not_intro hname.symm), Run.outcome_bind, Run.outcome_get]
    dsimp only
    rw [hnone]
    dsimp only
    rw [bind_pure_comp, Run.outcome_map, hdefine]
    cases s.domain.check target.name (packageOf target.name) <;> rfl
  have hsearch : (s.searchOutside (Descriptor.nameOf target names classLevel)).outcome w =
      (((s.domain.check (Descriptor.nameOf target names classLevel)
        (packageOf (Descriptor.nameOf target names classLevel))).map fun _ => none).mapError Fault.error, w) := by
    rw [outcome_searchOutside, outside?_host hs.parent hcls, hs.fresh]
    rfl
  rw [load, Run.outcome_bind, resolve, Run.outcome_bind, hsearch, Domain.vet]
  cases s.domain.check (Descriptor.nameOf target names classLevel) _ with
  | error e => rfl
  | ok _ =>
    dsimp only [Except.map, Except.mapError]
    rw [Run.outcome_map]
    rcases hrun : (s.ownClass (Descriptor.nameOf target names classLevel)).outcome w with ⟨r, w'⟩
    rw [hrun] at hown
    dsimp only at hown ⊢
    rw [hown]
    cases s.domain.check target.name (packageOf target.name) <;> rfl

theorem supported_fresh (w : World) (c : ContextId) (d : Descriptor) (domain : Domain) :
    (w.fresh c d .engine domain).Supported ((w.granted c).context c) := by
  have haccess : ∀ package, package = Symbols.runtimePackage ∨ package = Symbols.linkerPackage →
      ((w.granted c).context c).graph.canAccess (w.fresh c d .engine domain).module .engine package = true := by
    intro package hpackage
    have hexported : ((w.granted c).context c).graph.isExported .engine package
        (w.fresh c d .engine domain).module = true := by
      rw [ModuleGraph.isExported_iff, World.granted, World.context_setContext, if_pos rfl, World.mem_exports_grant]
      rcases hpackage with rfl | rfl
      · exact .inr (.inl rfl)
      · exact .inr (.inr rfl)
    rw [ModuleGraph.canAccess, hexported, Bool.or_true]
  exact ⟨rfl, haccess _ (.inl rfl), haccess _ (.inr rfl)⟩

end Sandbox

/-! ## Loading a descriptor -/

section

variable {target : HostType} {names : List String} {classLevel : Bool} {w : World} {c : ContextId}

theorem Descriptor.exists_generate (h : (classOf target names classLevel).Fits) :
    ∃ d, generate target names classLevel = .ok d := by
  have hencode := ClassFile.encode_ok h
  rw [classOf] at hencode
  exact ⟨_, by simp only [generate, hencode]; rfl⟩

/-- A descriptor is loaded if its domain admits the class, in a context that knows the target but no type of the
name of the class. -/
theorem Descriptor.outcome_load {d : Descriptor} (hd : generate target names classLevel = .ok d)
    (hfits : (classOf target names classLevel).Fits)
    (htarget : Symbols.isInternalPackage (packageOf target.name) = false)
    (hknown : ∃ t, (w.context c).classPath.get? target.name = some t)
    (hfresh : (w.context c).classPath.get? (nameOf target names classLevel) = none) :
    ((d.load c .engine target.domain).outcome w).1.map (fun _ => ()) =
      (target.domain.vet (nameOf target names classLevel) target.name).mapError Fault.error := by
  let s : Sandbox := w.fresh c d .engine target.domain
  have hready : s.Ready target (nameOf target names classLevel) (((w.granted c).add s).context c) := by
    have hcontext : (((w.granted c).add s).context c).classPath = (w.context c).classPath := by
      show ((w.granted c).context c).classPath = _
      rw [World.granted, World.context_setContext, if_pos rfl]
    exact ⟨Sandbox.supported_fresh w c d target.domain, hcontext ▸ hknown, hcontext ▸ hfresh⟩
  have hload := Sandbox.outcome_load (s := s) ⟨hd, hfits⟩ hready (Sandbox.definition?_add _ s) htarget
  rw [load_eq, Run.outcome_bind]
  show Except.map _ (Prod.fst ((d.loadIn s).outcome ((w.granted c).add s))) = _
  rw [loadIn, Run.outcome_ensuring, Run.outcome_bind, (generate_ok hd).2.2.1]
  rcases hrun : (s.load (nameOf target names classLevel)).outcome ((w.granted c).add s) with ⟨r, w'⟩
  rw [hrun] at hload
  dsimp only at hload ⊢
  rw [hload, show s.domain = target.domain from rfl]
  cases target.domain.vet (nameOf target names classLevel) target.name <;> rfl

end

/-! ## Classes with implementations of their own -/

namespace Factory

def informed (ctx : Context) (target : HostType) : Context :=
  if ctx.classPath.contains target.name then ctx
  else { ctx with classPath := ctx.classPath.put target.name target }

theorem informed_known (ctx : Context) (target : HostType) :
    ∃ t, (informed ctx target).classPath.get? target.name = some t := by
  rw [informed]
  split
  · next h => exact Option.isSome_iff_exists.1 h
  · exact ⟨target, Assoc.get?_put_self ..⟩

theorem informed_other (ctx : Context) {target : HostType} {name : String} (h : target.name ≠ name) :
    (informed ctx target).classPath.get? name = ctx.classPath.get? name := by
  rw [informed]
  split
  · rfl
  · exact Assoc.get?_put_ne _ h _

theorem outcome_load {id : FactoryId} {f : Factory} {w : World} (hf : w.factories.get? id = some f) (target : HostType)
    (d : Descriptor) :
    (load id target d).outcome w = (d.load f.context .engine d.domain).outcome
      (w.setContext f.context (informed (w.context f.context) target)) := by
  have hget : (get? id).outcome w = (.ok f, w) := by
    rw [get?, Run.outcome_bind, Run.outcome_get]
    dsimp only
    rw [hf]
    rfl
  rw [load, Run.outcome_bind, hget]
  rfl

section

variable {id : FactoryId} {f : Factory} {w : World} {target : HostType} {ov : Overrides}
  (hf : w.factories.get? id = some f)
  -- the target is no type of the engine, and what is generated for it can be written
  (htarget : Symbols.isInternalPackage (packageOf target.name) = false)
  (hfits : (Descriptor.classOf target (ov.names w.heap target) true).Fits)
  -- no host type has the name of the generated class
  (hfresh : (w.context f.context).classPath.get? (Descriptor.nameOf target (ov.names w.heap target) true) = none)
  (hne : target.name ≠ Descriptor.nameOf target (ov.names w.heap target) true)

include hf htarget hfits hfresh hne

/-- Whether a class with implementations of its own is made is for the domain of its target to say. -/
theorem outcome_extend :
    ((extend id target ov).outcome w).1.map (fun _ => ()) =
      (target.domain.vet (Descriptor.nameOf target (ov.names w.heap target) true) target.name).mapError
        Fault.error := by
  obtain ⟨d, hd⟩ := Descriptor.exists_generate hfits
  let known : World := w.setContext f.context (informed (w.context f.context) target)
  have hcontext : known.context f.context = informed (w.context f.context) target := by
    rw [World.context_setContext, if_pos rfl]
  have hvet : ((d.load f.context .engine target.domain).outcome known).1.map (fun _ => ()) = _ :=
    Descriptor.outcome_load hd hfits htarget (hcontext ▸ informed_known _ target)
      (by rw [hcontext, informed_other _ hne, hfresh])
  rw [extend, Run.outcome_bind, Run.outcome_get]
  dsimp only
  rw [hd, Run.ofExcept_ok, pure_bind, bind_pure_comp, Run.outcome_map, outcome_load hf,
    (Descriptor.generate_ok hd).2.2.2, ← hvet]
  cases ((d.load f.context .engine target.domain).outcome known).1 <;> rfl

theorem extend_cases :
    (target.domain.permits Symbols.adapterPackage = true ∧
      (packageOf target.name = "" ∨ target.domain.permits (packageOf target.name) = true) ∧
      ∃ c, ((extend id target ov).outcome w).1 = .ok c) ∨
    (target.domain.permits Symbols.adapterPackage = true ∧
      (packageOf target.name ≠ "" ∧ target.domain.permits (packageOf target.name) = false) ∧
      ((extend id target ov).outcome w).1 = .error (.error (.accessDenied target.name (packageOf target.name)))) ∨
    (target.domain.permits Symbols.adapterPackage = false ∧
      ((extend id target ov).outcome w).1 = .error (.error (.accessDenied
        (Descriptor.nameOf target (ov.names w.heap target) true) Symbols.adapterPackage))) := by
  have hextend := outcome_extend hf htarget hfits hfresh hne
  have hdefault : Symbols.adapterPackage ≠ "" := by decide
  have hcases := target.domain.vet_cases (Descriptor.nameOf target (ov.names w.heap target) true) target.name
  rw [Descriptor.packageOf_nameOf] at hcases
  generalize ((extend id target ov).outcome w).1 = r at hextend ⊢
  rcases hcases with ⟨hcls, hpackage, hvet⟩ | ⟨hcls, hpackage, hvet⟩ | ⟨hcls, hvet⟩
  all_goals rw [hvet] at hextend
  · cases r with
    | ok c => exact .inl ⟨hcls.resolve_left hdefault, hpackage, c, rfl⟩
    | error e => cases hextend
  · cases r with
    | ok c => cases hextend
    | error e =>
      obtain rfl := Except.error.inj hextend
      exact .inr (.inl ⟨hcls.resolve_left hdefault, hpackage, rfl⟩)
  · cases r with
    | ok c => cases hextend
    | error e =>
      obtain rfl := Except.error.inj hextend
      exact .inr (.inr ⟨hcls.2, rfl⟩)

/-- A class is made if and only if the domain of its target permits the package of adapters and, unless it is the
default package, that of the target. The denial names the generated class or, if that is permitted, the target. It
never names a symbol of the engine that adapters link against. -/
theorem extend_iff_permitted :
    ((∃ c, ((extend id target ov).outcome w).1 = .ok c) ↔
      target.domain.permits Symbols.adapterPackage = true ∧
        (packageOf target.name = "" ∨ target.domain.permits (packageOf target.name) = true)) ∧
    (target.domain.permits Symbols.adapterPackage = false →
      ((extend id target ov).outcome w).1 = .error (.error (.accessDenied
        (Descriptor.nameOf target (ov.names w.heap target) true) Symbols.adapterPackage))) ∧
    (target.domain.permits Symbols.adapterPackage = true →
      ¬(packageOf target.name = "" ∨ target.domain.permits (packageOf target.name) = true) →
      ((extend id target ov).outcome w).1 = .error (.error (.accessDenied target.name (packageOf target.name)))) ∧
    ∀ e, ((extend id target ov).outcome w).1 = .error e →
      ∃ symbol, symbol ∉ Symbols.visible ∧ e = .error (.accessDenied symbol (packageOf symbol)) := by
  have hnotVisible : ∀ symbol, Symbols.isInternalPackage (packageOf symbol) = false → symbol ∉ Symbols.visible :=
    fun symbol hsymbol h => Symbols.notMem_internal hsymbol (Symbols.visible_subset h)
  rcases extend_cases hf htarget hfits hfresh hne with
    ⟨hcls, hpackage, c, hr⟩ | ⟨hcls, hpackage, hr⟩ | ⟨hcls, hr⟩
  · rw [hr]
    simp [hcls, hpackage]
  · rw [hr]
    refine ⟨by simp [hcls, hpackage], by simp [hcls], fun _ _ => rfl, fun e he => ?_⟩
    obtain rfl := Except.error.inj he
    exact ⟨target.name, hnotVisible _ htarget, rfl⟩
  · rw [hr]
    refine ⟨by simp [hcls], fun _ => rfl, by simp [hcls], fun e he => ?_⟩
    obtain rfl := Except.error.inj he
    refine ⟨_, hnotVisible _ (Descriptor.not_internal_nameOf target (ov.names w.heap target) true), ?_⟩
    rw [Descriptor.packageOf_nameOf]

end

/-- A type whose domain denies all of the engine's packages. -/
theorem extend_iff_permitted_untrusted :
    untrusted.domain.permits Symbols.runtimePackage = false ∧
    ∃ c, ((extend 0 untrusted byFunction).outcome started).1 = .ok c := by
  have hfits : (Descriptor.classOf untrusted (byFunction.names started.heap untrusted) true).Fits := by
    refine ⟨?_, ?_, ?_, ?_, ?_, ?_, ?_⟩
    all_goals decide +kernel
  have hfactory : started.factories.get? 0 = some { context := 0 } := rfl
  have hextend := extend_iff_permitted hfactory (by decide) hfits (by decide +kernel) (by decide +kernel)
  exact ⟨by decide, hextend.1.2 (by decide)⟩

end Factory

end ScriptHost
