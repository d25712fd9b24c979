import ScriptHost.Proofs.Adapter.ClassRequests
import ScriptHost.Proofs.Adapter.Grants

/-!
# What a failed request leaves behind

A request for a class, an instance or a class with implementations of its own may fail when its class is encoded, loaded
or given the implementations. The thread is as it was then, no class is kept, and the module graphs hold the edges that they
held; the target is registered in the class path if the request went on to load its class and no type of that name was
known (`Held.failed_request`). A request for an instance can also be refused the class that it was given; that leaves a class
behind only if the factory had a descriptor for another type of the target's name.
-/

namespace ScriptHost

open World

/-! ## Class paths -/

def World.SameClassPaths (w w' : World) : Prop := ∀ c, (w'.context c).classPath = (w.context c).classPath

theorem World.sameClassPaths_setContext {w : World} {c : ContextId} {ctx : Context}
    (h : ctx.classPath = (w.context c).classPath) : SameClassPaths w (w.setContext c ctx) := by
  intro c'
  rw [context_setContext]
  split
  · next hc => rw [← hc, h]
  · rfl

theorem World.sandboxClosed_sameClassPaths : SandboxClosed SameClassPaths where
  refl _ _ := rfl
  trans h h' c := (h' c).trans (h c)
  thread _ _ _ := rfl
  dump _ _ := sameClassPaths_setContext rfl
  define _ _ _ := rfl
  retain _ _ _ := rfl
  grant _ _ := sameClassPaths_setContext rfl
  add _ _ := rfl
  count _ _ _ _ _ := rfl
  forget w s := by
    have hgraph : ∀ g : ModuleGraph, SameClassPaths w (w.setContext s.context { w.context s.context with graph := g }) :=
      fun _ => sameClassPaths_setContext rfl
    exact hgraph _

/-- The class paths are as they were, but the target has been registered with the context if it knew no type of that
name. -/
def World.Registers (w w' : World) (c : ContextId) (target : HostType) : Prop :=
  ∀ c', (w'.context c').classPath =
    if c = c' then (Factory.informed (w.context c') target).classPath else (w.context c').classPath

theorem World.Registers.trans_same {w w₁ w₂ : World} {c : ContextId} {target : HostType}
    (h : Registers w w₁ c target) (h' : SameClassPaths w₁ w₂) : Registers w w₂ c target :=
  fun c' => (h' c').trans (h c')

theorem World.registers_informed (w : World) (c : ContextId) (target : HostType) :
    Registers w (w.setContext c (Factory.informed (w.context c) target)) c target := by
  intro c'
  rw [context_setContext]
  split
  · next hc => rw [hc]
  · rfl

theorem Factory.registers_load {id : FactoryId} {f : Factory} {w w' : World} {r : Except Fault AdapterClass}
    (hf : w.factories.get? id = some f) {target : HostType} {d : Descriptor}
    (h : (load id target d).outcome w = (r, w')) : Registers w w' f.context target := by
  have hloads := (w.registers_informed f.context target).trans_same
    (sandboxClosed_sameClassPaths.moves_generate d f.context .engine d.domain _)
  rwa [← outcome_load hf, h] at hloads

/-! ## Caches -/

/-- Each factory works for the context that it did, and keeps the classes that it kept. -/
def World.SameCaches (w w' : World) : Prop :=
  w'.factories.view (fun f => (f.context, f.classes)) = w.factories.view fun f => (f.context, f.classes)

namespace World.SameCaches

variable {w w' : World}

theorem classes (h : SameCaches w w') (id : FactoryId) :
    (w'.factories.get? id).map Factory.classes = (w.factories.get? id).map Factory.classes := by
  have hview : ∀ w : World, (w.factories.get? id).map Factory.classes =
      ((w.factories.view fun f => (f.context, f.classes)).get? id).map Prod.snd := fun w => by
    rw [Assoc.get?_view, Option.map_map]
    rfl
  rw [hview, hview, h]

theorem cached (h : SameCaches w w') : w'.cached = w.cached := by
  have hcached : ∀ w : World, w.cached = (w.factories.view fun f => (f.context, f.classes)).entries.flatMap
      fun e => e.2.2.entries.map fun c => c.2.sandbox := fun w => by
    rw [World.cached, Assoc.view, List.flatMap_map]
    rfl
  rw [hcached, hcached, h]

theorem trans_same {w₁ : World} (h : SameCaches w w₁) (h' : SameFactories w₁ w') : SameCaches w w' := by
  rw [SameCaches, h', h]

end World.SameCaches

/-! ## Requests -/

theorem Stamps.thread_eq {x : EngineM Instance} (hx : Stamps x) (w : World) : (x.outcome w).2.thread = w.thread :=
  congrArg (fun r : Except Fault Instance × World => r.2.thread) (hx (fun _ => w.thread) w)

namespace Factory

variable {id : FactoryId} {f : Factory} {target : HostType} {ov : Overrides} {w w' : World}

theorem Describes.sameCaches {d : Descriptor} (h : Describes id f target ov w d w') : SameCaches w w' := by
  cases h with
  | kept _ => rfl
  | generated _ _ =>
    refine Assoc.view_adjust (fun f => ?_) w.factories id
    rfl

theorem Describes.context {d : Descriptor} (h : Describes id f target ov w d w') (c : ContextId) :
    w'.context c = w.context c := by
  rw [h.rest]
  rfl

theorem Describes.registers_load {d : Descriptor} {w₁ : World} {r : Except Fault AdapterClass}
    (h : Describes id f target ov w d w₁) (hf : w.factories.get? id = some f)
    (hl : (load id target d).outcome w₁ = (r, w')) : Registers w w' f.context target := by
  obtain ⟨f₁, hf₁, hcontext, -, -⟩ := h.factory hf
  intro c
  rw [Factory.registers_load hf₁ hl c, hcontext, h.context]

theorem adapterClass_thread (id : FactoryId) (target : HostType) (ov : Overrides) (w : World) :
    ((adapterClass id target ov).outcome w).2.thread = w.thread :=
  Detached.thread_eq (fun _ => carries_adapterClass id target ov) w

/-- A class is kept only after it was loaded. A request that is not given one changes nothing, or has loaded in vain. -/
theorem adapterClass_error {e : Fault} (hf : w.factories.get? id = some f)
    (h : (adapterClass id target ov).outcome w = (.error e, w')) :
    SameCaches w w' ∧ (w' = w ∨ Registers w w' f.context target) := by
  have hanswers := adapterClass_answers hf target ov
  rw [h] at hanswers
  cases hanswers with
  | undescribed _ _ => exact ⟨rfl, .inl rfl⟩
  | unloaded hd _ hl => exact ⟨hd.sameCaches.trans_same (factories_load hl), .inr (hd.registers_load hf hl)⟩

theorem extend_error {e : Fault} (hf : w.factories.get? id = some f)
    (h : (extend id target ov).outcome w = (.error e, w')) :
    SameCaches w w' ∧ (w' = w ∨ Registers w w' f.context target) := by
  rcases extend_answers id target ov w with ⟨e', -, hrun⟩ | ⟨d, -, hrun⟩
  · rw [hrun] at h
    cases h
    exact ⟨rfl, .inl rfl⟩
  · rw [hrun, Run.outcome_map] at h
    rcases hl : (load id target d).outcome w with ⟨r, w₁⟩
    rw [hl] at h
    obtain rfl := congrArg Prod.snd h
    exact ⟨SameCaches.trans_same rfl (factories_load hl), .inr (registers_load hf hl)⟩

theorem extend_undescribed {e : EngineError}
    (hg : Descriptor.generate target (ov.names w.heap target) true = .error e) :
    (extend id target ov).outcome w = (.error (.error e), w) := by
  rcases extend_answers id target ov w with ⟨e', hg', hrun⟩ | ⟨d, hg', -⟩
  · obtain rfl := Except.error.inj (hg.symm.trans hg')
    exact hrun
  · exact nomatch hg.symm.trans hg'

/-- An instance is not given where its class is not, or where the class was kept for other implementations. What the
factory has for the request must have been generated for it. -/
theorem newAdapter_error {e : Fault} (hf : w.factories.get? id = some f)
    (hown : ∀ d, f.descriptors.get? (keyFor w.heap target ov) = some d →
      Descriptor.generate target (ov.names w.heap target) false = .ok d)
    (h : (newAdapter id target ov).outcome w = (.error e, w')) : SameCaches w w' := by
  rcases newAdapter_cases id target ov w with ⟨e', w₁, hclass, hrun⟩ | ⟨c, w₁, hclass, ⟨e', hnew, hrun⟩ | hrun⟩
  · rw [hrun] at h
    cases h
    exact (adapterClass_error hf hclass).1
  · rw [hrun] at h
    cases h
    have hanswers := adapterClass_answers hf target ov
    have hadvances := engineClosed_advances.moves_adapterClass id target ov w
    rw [hclass] at hanswers hadvances
    cases hanswers with
    | kept hd _ => exact hd.sameCaches.trans_same (factories_releaseClass _ c)
    | loaded hd hc hl =>
      -- a class that was loaded takes the implementations, so it was not refused
      have hg := hd.generate hown
      obtain ⟨f₁, hf₁, -, -, -⟩ := hd.factory hf
      rw [← hadvances.heap] at hg
      rw [(load_made hf₁ hl).1.newInstance hg] at hnew
      cases hnew
  · rw [hrun] at h
    cases h

theorem newAdapter_classPaths {e : Fault} (hf : w.factories.get? id = some f)
    (h : (newAdapter id target ov).outcome w = (.error e, w')) :
    SameClassPaths w w' ∨ Registers w w' f.context target := by
  rcases newAdapter_cases id target ov w with ⟨e', w₁, hclass, hrun⟩ | ⟨c, w₁, hclass, ⟨e', -, hrun⟩ | hrun⟩
  · rw [hrun] at h
    cases h
    rcases (adapterClass_error hf hclass).2 with rfl | hregisters
    · exact .inl fun _ => rfl
    · exact .inr hregisters
  · rw [hrun] at h
    cases h
    have hreleases := sandboxClosed_sameClassPaths.releasesClass c w₁
    have hanswers := adapterClass_answers hf target ov
    rw [hclass] at hanswers
    cases hanswers with
    | kept hd _ => exact .inl fun c' => (hreleases c').trans (congrArg Context.classPath (hd.context c'))
    | loaded hd _ hl => exact .inr ((hd.registers_load hf hl).trans_same hreleases)
  · rw [hrun] at h
    cases h

theorem adapterClass_undescribed {e : EngineError} (hf : w.factories.get? id = some f)
    (hnone : f.descriptors.get? (keyFor w.heap target ov) = none)
    (hg : Descriptor.generate target (ov.names w.heap target) false = .error e) :
    (adapterClass id target ov).outcome w = (.error (.error e), w) := by
  have hno : ∀ {d w₁}, ¬Describes id f target ov w d w₁ := by
    intro d w₁ hd
    cases hd with
    | kept h => exact nomatch hnone.symm.trans h
    | generated _ h => exact nomatch hg.symm.trans h
  have hanswers := adapterClass_answers hf target ov
  generalize (adapterClass id target ov).outcome w = r at hanswers ⊢
  cases hanswers with
  | undescribed _ hg' =>
    obtain rfl := Except.error.inj (hg.symm.trans hg')
    rfl
  | kept hd _ => exact absurd hd hno
  | unloaded hd _ _ => exact absurd hd hno
  | loaded hd _ _ => exact absurd hd hno

end Factory

/-! ## Everything that a failure leaves -/

/-- Nothing is left that a request for a class would have given. -/
structure World.Undone (w w' : World) : Prop where
  exports : ∀ c e, e ∈ (w'.graph c).exports ↔ e ∈ (w.graph c).exports
  reads : ∀ c e, e ∈ (w'.graph c).reads ↔ e ∈ (w.graph c).reads
  classes : ∀ id, (w'.factories.get? id).map Factory.classes = (w.factories.get? id).map Factory.classes

namespace Held

theorem Sound.edges {x y : Held} (hx : x.Sound) (hy : y.Sound) (h : y.roots = x.roots) (c : ContextId) :
    (∀ e, e ∈ (y.world.graph c).exports ↔ e ∈ (x.world.graph c).exports) ∧
      ∀ e, e ∈ (y.world.graph c).reads ↔ e ∈ (x.world.graph c).reads := by
  have hafter := hy.grantsJust c
  have hbefore := hx.grantsJust c
  simp only [Referenced, h] at hafter
  exact ⟨fun e => (hafter.exports e).trans (hbefore.exports e).symm,
    fun e => (hafter.reads e).trans (hbefore.reads e).symm⟩

/-- A failed request that keeps no class leaves the edges. -/
theorem Sound.undone {α : Type} {x : Held} (hx : x.Sound) {m : EngineM α} {ok : α → List Sandbox} {e : Fault}
    {w' : World} (h : m.outcome x.world = (.error e, w')) (hends : Ends x m ok x.handles)
    (hsame : SameCaches x.world w') : Undone x.world w' := by
  rw [Ends, h] at hends
  have hafter : Sound ⟨w', x.handles⟩ := hx.reaches hends
  have hroots : Held.roots ⟨w', x.handles⟩ = x.roots := by rw [roots, hsame.cached, roots]
  exact ⟨fun c => (hx.edges hafter hroots c).1, fun c => (hx.edges hafter hroots c).2, hsame.classes⟩

/-- In every state that a run reaches, whatever a factory is asked for and however that fails: the privileged frames, the
context and the global of the thread are as they were, and so are the edges of all module graphs and the classes of all
factories. A request for a class either changed nothing at all, which is so if the class could not be written, or it went
on to load the class; then its target is registered with the factory's context unless a type of that name was, and the
class paths are otherwise as they were. For an instance, that no edge and no class is left takes that the factory's
descriptor for the request, if it has one, was generated for it. -/
theorem failed_request {x : Held} (hx : Reaches ⟨{}, []⟩ x) {id : FactoryId} {f : Factory}
    (hf : x.world.factories.get? id = some f) (target : HostType) (ov : Overrides) :
    (∀ e w', (Factory.adapterClass id target ov).outcome x.world = (.error e, w') →
      w'.thread = x.world.thread ∧ (w' = x.world ∨ Registers x.world w' f.context target) ∧ Undone x.world w') ∧
    (∀ e w', (Factory.extend id target ov).outcome x.world = (.error e, w') →
      w'.thread = x.world.thread ∧ (w' = x.world ∨ Registers x.world w' f.context target) ∧ Undone x.world w') ∧
    (∀ e w', (Factory.newAdapter id target ov).outcome x.world = (.error e, w') →
      w'.thread = x.world.thread ∧
        (SameClassPaths x.world w' ∨ Registers x.world w' f.context target) ∧
        ((∀ d, f.descriptors.get? (Factory.keyFor x.world.heap target ov) = some d →
          Descriptor.generate target (ov.names x.world.heap target) false = .ok d) → Undone x.world w')) ∧
    (∀ e, Descriptor.generate target (ov.names x.world.heap target) true = .error e →
      (Factory.extend id target ov).outcome x.world = (.error (.error e), x.world)) ∧
    ∀ e, Descriptor.generate target (ov.names x.world.heap target) false = .error e →
      f.descriptors.get? (Factory.keyFor x.world.heap target ov) = none →
      (Factory.adapterClass id target ov).outcome x.world = (.error (.error e), x.world) ∧
        (Factory.newAdapter id target ov).outcome x.world = (.error (.error e), x.world) := by
  have hsound := Sound.empty.reaches hx
  refine ⟨fun e w' h => ?_, fun e w' h => ?_, fun e w' h => ?_, fun e hg => Factory.extend_undescribed hg,
    fun e hg hnone => ?_⟩
  · have hthread := Factory.adapterClass_thread id target ov x.world
    rw [h] at hthread
    obtain ⟨hcaches, hpaths⟩ := Factory.adapterClass_error hf h
    exact ⟨hthread, hpaths, hsound.undone h (ends_adapterClass hf target ov) hcaches⟩
  · have hthread := Detached.thread_eq (fun _ => Factory.carries_extend id target ov) x.world
    rw [h] at hthread
    obtain ⟨hcaches, hpaths⟩ := Factory.extend_error hf h
    exact ⟨hthread, hpaths, hsound.undone h (ends_extend target ov) hcaches⟩
  · have hthread := (Factory.stamps_newAdapter id target ov).thread_eq x.world
    rw [h] at hthread
    refine ⟨hthread, Factory.newAdapter_classPaths hf h, fun hown => ?_⟩
    exact hsound.undone h (ends_newAdapter hf target ov) (Factory.newAdapter_error hf hown h)
  · have hclass := Factory.adapterClass_undescribed hf hnone hg
    refine ⟨hclass, ?_⟩
    rw [Factory.newAdapter, Run.outcome_bind, hclass]

/-- A type whose domain denies the package of adapters. -/
def closed : HostType := Factory.runnable (.restricted "closed" [Symbols.adapterPackage])

theorem closed_denied :
    ((Factory.adapterClass 0 closed Factory.byFunction).outcome Factory.started).1.isOk = false ∧
      ((Factory.newAdapter 0 closed Factory.byFunction).outcome Factory.started).1.isOk = false ∧
      (Factory.started.context 0).classPath.get? closed.name = none ∧
      ((((Factory.adapterClass 0 closed Factory.byFunction).outcome Factory.started).2.context 0).classPath.get?
        closed.name) = some closed := by
  decide +kernel

theorem exists_error {α : Type} {m : EngineM α} {w : World} (h : (m.outcome w).1.isOk = false) :
    ∃ e w', m.outcome w = (.error e, w') := by
  rcases hrun : m.outcome w with ⟨e | a, w'⟩
  · exact ⟨e, w', rfl⟩
  · rw [hrun] at h
    cases h

theorem failed_request_closed :
    (∃ e w', (Factory.adapterClass 0 closed Factory.byFunction).outcome Factory.started = (.error e, w') ∧
      w'.thread = Factory.started.thread ∧ ∀ e, e ∉ (w'.graph 0).reads) ∧
    ∃ e w', (Factory.newAdapter 0 closed Factory.byFunction).outcome Factory.started = (.error e, w') ∧
      (w'.factories.get? 0).map Factory.classes = some ⟨[]⟩ := by
  obtain ⟨hclass, hinstance, -⟩ := closed_denied
  have hfactory : Factory.started.factories.get? 0 = some { context := 0 } := rfl
  obtain ⟨hadapterClass, -, hnewAdapter, -⟩ := failed_request reaches_started hfactory closed Factory.byFunction
  constructor
  · obtain ⟨e, w', h⟩ := exists_error hclass
    obtain ⟨hthread, -, hundone⟩ := hadapterClass e w' h
    refine ⟨e, w', h, hthread, fun edge hedge => ?_⟩
    cases (hundone.reads 0 edge).1 hedge
  · obtain ⟨e, w', h⟩ := exists_error hinstance
    obtain ⟨-, -, hundone⟩ := hnewAdapter e w' h
    exact ⟨e, w', h, (hundone fun d hd => nomatch hd).classes 0⟩

/-- The class is denied, and the target is known from then on. -/
theorem denied_target_known :
    Reaches ⟨{}, []⟩ ⟨Factory.started, []⟩ ∧
      ((Factory.adapterClass 0 closed Factory.byFunction).outcome Factory.started).1.isOk = false ∧
      (Factory.started.context 0).classPath.get? closed.name = none ∧
      ((((Factory.adapterClass 0 closed Factory.byFunction).outcome Factory.started).2.context 0).classPath.get?
        closed.name) = some closed :=
  ⟨reaches_started, closed_denied.1, closed_denied.2.2⟩

end Held
end ScriptHost
