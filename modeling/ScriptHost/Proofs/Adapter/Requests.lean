import Mathlib.Logic.Relation
import ScriptHost.Proofs.Adapter.Serving

/-!
# Requests and handles

The engine as a program uses it (`Held`): the state of the engine, and for every sandbox, adapter class and instance
that the program holds, the sandbox that it leads to. `Step` lists what can happen to sandboxes and to what leads to
them: one is made, answers a symbol, is shared, given up, put into the cache of a factory or given back by it. A
request of the program is a run of such steps, whether it succeeds or fails (`Request.reaches`), so what steps keep
is kept by every request, and at every point within it.
-/

namespace ScriptHost

namespace World

/-- All that leads to a sandbox within the engine is as it was: which sandboxes are live, under how many handles, what
factories have cached, and the module graphs. -/
structure Quiet (w w' : World) : Prop where
  next : w'.nextSandbox = w.nextSandbox
  sandboxes : w'.sandboxes.view (fun l => (l.sandbox, l.handles)) = w.sandboxes.view fun l => (l.sandbox, l.handles)
  graph : ∀ c, w'.graph c = w.graph c
  factories : w'.factories.view (fun f => (f.context, f.classes)) = w.factories.view fun f => (f.context, f.classes)

theorem Quiet.refl (w : World) : Quiet w w := ⟨rfl, rfl, fun _ => rfl, rfl⟩

theorem Quiet.trans {w₁ w₂ w₃ : World} (h : Quiet w₁ w₂) (h' : Quiet w₂ w₃) : Quiet w₁ w₃ :=
  ⟨h'.next.trans h.next, h'.sandboxes.trans h.sandboxes, fun c => (h'.graph c).trans (h.graph c),
    h'.factories.trans h.factories⟩

theorem quiet_setContext (w : World) (c : ContextId) {ctx : Context} (h : ctx.graph = w.graph c) :
    Quiet w (w.setContext c ctx) :=
  ⟨rfl, rfl, (sameSandboxes_setContext w c h).graph, rfl⟩

theorem quiet_setDefinition (w : World) (s : Sandbox) (d : Definition) : Quiet w (w.setDefinition s d) :=
  ⟨rfl, Assoc.view_adjust (fun _ => by rfl) _ _, fun _ => rfl, rfl⟩

theorem quiet_onThread (f : Thread → Thread) (w : World) : Quiet w (Engine.onThread f w) :=
  ⟨rfl, rfl, fun _ => rfl, rfl⟩

theorem Quiet.factory {w w' : World} (h : Quiet w w') {id : FactoryId} {f : Factory}
    (hf : w.factories.get? id = some f) : ∃ f', w'.factories.get? id = some f' ∧ f'.classes = f.classes := by
  have hview : (w'.factories.view fun f => (f.context, f.classes)).get? id = some (f.context, f.classes) := by
    rw [h.factories, Assoc.get?_view, hf]
    rfl
  rw [Assoc.get?_view] at hview
  obtain ⟨f', hf', heq⟩ := Option.map_eq_some_iff.1 hview
  exact ⟨f', hf', congrArg Prod.snd heq⟩

theorem defineClosed_quiet : DefineClosed Quiet := ⟨.refl, .trans, quiet_setContext, quiet_setDefinition⟩

end World

open World

/-! ## What a program holds -/

structure Held where
  world : World
  handles : List Sandbox

def Factory.sandboxes (f : Factory) : List Sandbox := f.classes.entries.map fun e => e.2.sandbox

def World.cached (w : World) : List Sandbox := w.factories.entries.flatMap fun e => e.2.sandboxes

def LoadedType.held : LoadedType → List Sandbox
  | .adapter c => [c.sandbox]
  | .host _ | .internal _ => []

namespace Held

/-- What leads to sandboxes from outside of them. -/
def roots (x : Held) : List Sandbox := x.handles ++ x.world.cached

/-- Something leads to the sandbox, or to one that keeps it from going. -/
def Referenced (x : Held) (s : Sandbox) : Prop := ∃ r ∈ x.roots, s ∈ r.lineage

/-- What is held after an outcome: one thing after a result, another after a fault. -/
def settle {α : Type} (ok : α → List Sandbox) (err : List Sandbox) : Except Fault α × World → Held
  | (.ok a, w) => ⟨w, ok a⟩
  | (.error _, w) => ⟨w, err⟩

/-- After a computation that gives handles if it succeeds. -/
def after (x : Held) (m : EngineM (List Sandbox)) : Held :=
  settle (fun new => new ++ x.handles) x.handles (m.outcome x.world)

/-- What can happen next. Whoever uses a sandbox has something that leads to it. -/
inductive Step : Held → Held → Prop
  | create {x : Held} (c : ContextId) (d : Descriptor) (parent : Parent) (domain : Domain)
      (hp : ∀ p ∈ parent.held, x.Referenced p) :
      Step x (x.after ((fun s => [s]) <$> Sandbox.new c d parent domain))
  | load {x : Held} {s : Sandbox} (hs : x.Referenced s) (name : String) :
      Step x (x.after (LoadedType.held <$> s.load name))
  | find {x : Held} {s : Sandbox} (hs : x.Referenced s) (name : String) :
      Step x (x.after ((fun c => [c.sandbox]) <$> s.find name))
  | share {x : Held} {s : Sandbox} (hs : x.Referenced s) : Step x ⟨x.world.retain s, s :: x.handles⟩
  | release {x : Held} {s : Sandbox} {hs : List Sandbox} (hh : x.handles.Perm (s :: hs)) :
      Step x ⟨x.world.release s, hs⟩
  | openFactory {x : Held} (id : FactoryId) (c : ContextId) (hid : x.world.factories.get? id = none) :
      Step x ⟨{ x.world with factories := x.world.factories.put id { context := c } }, x.handles⟩
  /-- A factory takes over the handle to a class. -/
  | cache {x : Held} {f : Factory} {cls : AdapterClass} {hs : List Sandbox} (id : FactoryId) (name : String)
      (hf : x.world.factories.get? id = some f) (hname : f.classes.get? name = none)
      (hh : x.handles.Perm (cls.sandbox :: hs)) :
      Step x ⟨{ x.world with factories := x.world.factories.adjust id fun f =>
        { f with classes := f.classes.put name cls } }, hs⟩
  | closeFactory {x : Held} {f : Factory} (id : FactoryId) (hf : x.world.factories.get? id = some f) :
      Step x ⟨{ x.world with factories := x.world.factories.erase id }, f.sandboxes ++ x.handles⟩
  /-- Anything that touches nothing that leads to a sandbox. -/
  | other {x : Held} {w : World} {hs : List Sandbox} (hw : Quiet x.world w) (hh : x.handles.Perm hs) : Step x ⟨w, hs⟩

def Reaches : Held → Held → Prop := Relation.ReflTransGen Step

theorem Reaches.refl (x : Held) : Reaches x x := Relation.ReflTransGen.refl

theorem Reaches.trans {x y z : Held} (h : Reaches x y) (h' : Reaches y z) : Reaches x z :=
  Relation.ReflTransGen.trans h h'

theorem Step.reaches {x y : Held} (h : Step x y) : Reaches x y := Relation.ReflTransGen.single h

theorem Reaches.quiet {w w' : World} (h : Quiet w w') (hs : List Sandbox) : Reaches ⟨w, hs⟩ ⟨w', hs⟩ :=
  Step.reaches (.other h (.refl hs))

theorem referenced_handle {x : Held} {s : Sandbox} (hs : s ∈ x.handles) : x.Referenced s :=
  ⟨s, List.mem_append_left _ hs, s.mem_lineage_self⟩

theorem referenced_cached {x : Held} {id : FactoryId} {f : Factory} {name : String} {cls : AdapterClass}
    (hf : x.world.factories.get? id = some f) (hc : f.classes.get? name = some cls) : x.Referenced cls.sandbox := by
  have hmem : cls.sandbox ∈ f.sandboxes :=
    List.mem_map.2 ⟨(name, cls), Assoc.mem_of_get? hc, rfl⟩
  have hcached : cls.sandbox ∈ x.world.cached := List.mem_flatMap.2 ⟨(id, f), Assoc.mem_of_get? hf, hmem⟩
  exact ⟨cls.sandbox, List.mem_append_right _ hcached, cls.sandbox.mem_lineage_self⟩

/-! ## Computations as runs -/

variable {α β : Type}

/-- The computation is a run of steps, after which the program holds one or the other. -/
def Ends (x : Held) (m : EngineM α) (ok : α → List Sandbox) (err : List Sandbox) : Prop :=
  Reaches x (settle ok err (m.outcome x.world))

section

variable {x : Held} {m : EngineM α} {ok : α → List Sandbox} {err : List Sandbox}

theorem after_map (x : Held) (m : EngineM α) (f : α → List Sandbox) :
    x.after (f <$> m) = settle (fun a => f a ++ x.handles) x.handles (m.outcome x.world) := by
  rw [after, Run.outcome_map]
  rcases m.outcome x.world with ⟨_ | _, w⟩ <;> rfl

theorem Ends.after {f : α → List Sandbox} (h : Ends x m (fun a => f a ++ x.handles) x.handles) :
    Reaches x (x.after (f <$> m)) := by
  rw [after_map]
  exact h

theorem Ends.ofStep {f : α → List Sandbox} (h : Step x (x.after (f <$> m))) :
    Ends x m (fun a => f a ++ x.handles) x.handles := by
  rw [after_map] at h
  exact h.reaches

theorem Ends.bind {f : α → EngineM β} {ok' : β → List Sandbox} (hm : Ends x m ok err)
    (hf : ∀ a w, m.outcome x.world = (.ok a, w) → Ends ⟨w, ok a⟩ (f a) ok' err) : Ends x (m >>= f) ok' err := by
  rw [Ends] at hm ⊢
  rw [Run.outcome_bind]
  rcases hrun : m.outcome x.world with ⟨r, w⟩
  rw [hrun] at hm
  cases r with
  | ok a => exact hm.trans (hf a w hrun)
  | error e => exact hm

theorem Ends.pure {a : α} (h : x.handles.Perm (ok a)) : Ends x (pure a) ok err :=
  Step.reaches (.other (.refl _) h)

theorem Ends.fail {e : EngineError} (h : x.handles.Perm err) : Ends x (Run.fail e : EngineM α) ok err :=
  Step.reaches (.other (.refl _) h)

theorem Ends.quiet (hm : Run.Moves Quiet m) : Ends x m (fun _ => x.handles) x.handles := by
  have hw := hm x.world
  rw [Ends]
  generalize m.outcome x.world = o at hw
  obtain ⟨_ | _, w⟩ := o <;> exact Step.reaches (.other hw (.refl _))

theorem Ends.privileged {w : World} {hs : List Sandbox} {ps : List Permission}
    (hm : Ends ⟨Engine.onThread (fun t => t.pushFrame ps) w, hs⟩ m ok err) :
    Ends ⟨w, hs⟩ (Engine.privileged ps m) ok err := by
  have hpush := Reaches.quiet (quiet_onThread (fun t => t.pushFrame ps) w) hs
  have hpop := quiet_onThread fun t => t.truncate w.thread.frames.length
  rw [Ends] at hm ⊢
  dsimp only at hm ⊢
  rw [Engine.privileged, Run.outcome_of, Run.outcome_ensuring]
  refine (hpush.trans hm).trans ?_
  generalize m.outcome _ = o
  obtain ⟨_ | _, w'⟩ := o <;> exact .quiet (hpop w') _

theorem Ends.ensuring_release {s : Sandbox} {ok' : α → List Sandbox} {err' : List Sandbox} (hm : Ends x m ok err)
    (hok : ∀ a, (ok a).Perm (s :: ok' a)) (herr : err.Perm (s :: err')) :
    Ends x (m.ensuring fun w => w.release s) ok' err' := by
  rw [Ends] at hm ⊢
  rw [Run.outcome_ensuring]
  refine hm.trans ?_
  generalize m.outcome x.world = o
  rcases o with ⟨_ | a, w⟩
  · exact Step.reaches (.release herr)
  · exact Step.reaches (.release (hok a))

end

/-! ## Sandboxes, classes and instances -/

section

variable {x : Held}

theorem ends_create (c : ContextId) (d : Descriptor) {parent : Parent} (domain : Domain)
    (hp : ∀ p ∈ parent.held, x.Referenced p) :
    Ends x (Sandbox.new c d parent domain) (fun s => s :: x.handles) x.handles :=
  Ends.ofStep (.create c d parent domain hp)

theorem ends_load {s : Sandbox} (hs : x.Referenced s) (name : String) :
    Ends x (s.load name) (fun t => t.held ++ x.handles) x.handles :=
  Ends.ofStep (.load hs name)

theorem ends_generate (d : Descriptor) (c : ContextId) {parent : Parent} (domain : Domain)
    (hp : ∀ p ∈ parent.held, x.Referenced p) :
    Ends x (d.load c parent domain) (fun cls => cls.sandbox :: x.handles) x.handles := by
  obtain ⟨w, hs⟩ := x
  refine Ends.privileged (Ends.bind (ends_create c d domain hp) fun s w' _ => ?_)
  refine Ends.ensuring_release (?_ : Ends _ _ (fun cls => cls.sandbox :: s :: hs) (s :: hs)) (fun _ => .swap ..) (.refl _)
  refine Ends.bind (ends_load (referenced_handle (List.mem_cons_self ..)) d.className) fun t w'' _ => ?_
  cases t with
  | adapter cls => exact .pure (.refl _)
  | _ => exact .fail (.refl _)

theorem ends_share {s : Sandbox} (hs : x.Referenced s) {m : EngineM α} {a : α}
    (hm : m.outcome x.world = (.ok a, x.world.retain s)) (err : List Sandbox) :
    Ends x m (fun _ => s :: x.handles) err := by
  rw [Ends, hm]
  exact Step.reaches (.share hs)

theorem ends_instanceWith {cls : AdapterClass} (hs : x.Referenced cls.sandbox) (ov : Overrides) :
    Ends x (cls.instanceWith ov) (fun i => i.cls.sandbox :: x.handles) x.handles :=
  Step.reaches (.share hs)

theorem ends_newInstance {cls : AdapterClass} (hs : x.Referenced cls.sandbox) (ov : Overrides) :
    Ends x (cls.newInstance ov) (fun i => i.cls.sandbox :: x.handles) x.handles := by
  rw [AdapterClass.newInstance]
  split
  · exact .fail (.refl _)
  · refine Ends.bind (Ends.quiet (Run.moves_get .refl)) fun w w' hw => ?_
    cases hw
    dsimp only
    split
    · exact .fail (.refl _)
    · exact ends_instanceWith hs ov

theorem ends_instantiate {cls : AdapterClass} (hs : x.Referenced cls.sandbox) :
    Ends x cls.instantiate (fun i => i.cls.sandbox :: x.handles) x.handles := by
  rw [AdapterClass.instantiate]
  cases cls.overrides with
  | some ov => exact ends_instanceWith hs ov
  | none => exact .fail (.refl _)

/-! ## Factories -/

variable {id : FactoryId}

theorem quiet_modifyFactory {g : Factory → Factory}
    (hg : ∀ f, ((g f).context, (g f).classes) = (f.context, f.classes)) :
    Run.Moves Quiet (Factory.modifyFactory id g) :=
  fun w => ⟨rfl, rfl, fun _ => rfl, Assoc.view_adjust hg w.factories id⟩

theorem quiet_get? : Run.Moves Quiet (Factory.get? id) := Quiet.refl

theorem quiet_descriptor (target : HostType) (ov : Overrides) :
    Run.Moves Quiet (Factory.descriptor id target ov) := by
  refine (Run.moves_get .refl).bind .trans fun w => quiet_get?.bind .trans fun f => ?_
  cases f.descriptors.get? (Factory.keyFor w.heap target ov) with
  | some d => exact Run.moves_pure .refl d
  | none =>
    refine (Run.moves_ofExcept .refl _).bind .trans fun d => ?_
    refine Run.Moves.bind (quiet_modifyFactory ?_) .trans fun _ => Run.moves_pure .refl d
    exact fun _ => rfl

theorem ends_factoryLoad (target : HostType) (d : Descriptor) :
    Ends x (Factory.load id target d) (fun cls => cls.sandbox :: x.handles) x.handles := by
  refine Ends.bind (.quiet quiet_get?) fun f w _ => Ends.bind (.quiet fun w => ?_) fun _ w _ => ?_
  · refine quiet_setContext w _ ?_
    dsimp only
    split <;> rfl
  · refine ends_generate d _ d.domain fun p hp => ?_
    cases hp

/-- A class that is found in the cache is shared; one that is not is loaded, kept in the cache, and shared. -/
theorem ends_adapterClass {f : Factory} (hf : x.world.factories.get? id = some f) (target : HostType)
    (ov : Overrides) : Ends x (Factory.adapterClass id target ov) (fun cls => cls.sandbox :: x.handles) x.handles := by
  refine Ends.bind (.quiet (quiet_descriptor target ov)) fun d w₁ h₁ => ?_
  have hquiet : Quiet x.world ((Factory.descriptor id target ov).outcome x.world).2 :=
    quiet_descriptor target ov x.world
  rw [h₁] at hquiet
  obtain ⟨f₁, hf₁, -⟩ := hquiet.factory hf
  refine Ends.bind (.quiet quiet_get?) fun f₂ w₂ h₂ => ?_
  have hget : (Factory.get? id).outcome w₁ = (.ok f₁, w₁) := by
    show (Except.ok ((w₁.factories.get? id).getD default), w₁) = _
    rw [hf₁]
    rfl
  rw [hget] at h₂
  cases h₂
  cases hc : f₁.classes.get? d.className with
  | some cls =>
    refine Ends.bind (ends_share (referenced_cached hf₁ hc) rfl _) fun _ w _ => ?_
    exact .pure (.refl _)
  | none =>
    refine Ends.bind (ends_factoryLoad target d) fun cls w₃ h₃ => ?_
    have hsame : SameFactories w₁ ((Factory.load id target d).outcome w₁).2 := Factory.load_sameFactories target d w₁
    rw [h₃] at hsame
    have hf₃ : w₃.factories.get? id = some f₁ := hsame ▸ hf₁
    refine Ends.bind (Step.reaches (.cache id d.className hf₃ hc (.refl _)) : Ends _ _ (fun _ => x.handles) _)
      fun _ w₄ h₄ => ?_
    cases h₄
    have hput : (w₃.factories.adjust id fun f => { f with classes := f.classes.put d.className cls }).get? id =
        some { f₁ with classes := f₁.classes.put d.className cls } := by
      rw [Assoc.get?_adjust, if_pos rfl, hf₃]
      rfl
    have hcached := referenced_cached (x := ⟨{ w₃ with factories := _ }, x.handles⟩) hput (Assoc.get?_put_self ..)
    exact Ends.bind (ends_share hcached rfl _) fun _ w _ => .pure (.refl _)

theorem ends_newAdapter {f : Factory} (hf : x.world.factories.get? id = some f) (target : HostType)
    (ov : Overrides) : Ends x (Factory.newAdapter id target ov) (fun i => i.cls.sandbox :: x.handles) x.handles := by
  refine Ends.bind (ends_adapterClass hf target ov) fun cls w _ => ?_
  have hrelease : (fun w : World => w.releaseClass cls) = fun w => w.release cls.sandbox :=
    funext fun w => w.releaseClass_eq cls
  rw [hrelease]
  exact .ensuring_release (ends_newInstance (referenced_handle (List.mem_cons_self ..)) ov) (fun _ => .swap ..)
    (.refl _)

theorem ends_extend (target : HostType) (ov : Overrides) :
    Ends x (Factory.extend id target ov) (fun cls => cls.sandbox :: x.handles) x.handles := by
  refine Ends.bind (.quiet (Run.moves_get .refl)) fun w₀ w₁ _ => ?_
  refine Ends.bind (.quiet (Run.moves_ofExcept .refl _)) fun d w₂ _ => ?_
  exact Ends.bind (ends_factoryLoad target d) fun cls w₃ _ => .pure (.refl _)

theorem reaches_releaseAll (es : List (String × AdapterClass)) (w : World) (hs : List Sandbox) :
    Reaches ⟨w, (es.map fun e => e.2.sandbox) ++ hs⟩ ⟨es.foldl (fun w e => w.releaseClass e.2) w, hs⟩ := by
  induction es generalizing w with
  | nil => exact .refl _
  | cons e es ih =>
    have hrelease := Step.release (x := ⟨w, (e :: es).map (fun e => e.2.sandbox) ++ hs⟩) (.refl _)
    rw [List.foldl_cons, releaseClass_eq]
    exact hrelease.reaches.trans (ih _)

theorem ends_drop {f : Factory} (hf : x.world.factories.get? id = some f) :
    Ends x (Factory.drop id) (fun _ => x.handles) x.handles := by
  have hdrop : (Factory.drop id).outcome x.world = (.ok (), f.classes.entries.foldl
      (fun w e => w.releaseClass e.2) { x.world with factories := x.world.factories.erase id }) := by
    show (Except.ok (), (((x.world.factories.get? id).map fun f => f.classes.entries).getD []).foldl _ _) = _
    rw [hf]
    rfl
  rw [Ends, hdrop]
  exact (Step.closeFactory id hf).reaches.trans (reaches_releaseAll _ _ _)

end

/-! ## Requests -/

/-- What a program can ask of the engine. -/
inductive Request where
  | create (c : ContextId) (d : Descriptor) (parent : Parent) (domain : Domain)
  | symbol (s : Sandbox) (name : String)
  | ownClass (s : Sandbox) (name : String)
  | generate (d : Descriptor) (c : ContextId) (parent : Parent) (domain : Domain)
  | newInstance (cls : AdapterClass) (ov : Overrides)
  | instantiate (cls : AdapterClass)
  | openFactory (id : FactoryId) (c : ContextId)
  | adapterClass (id : FactoryId) (target : HostType) (ov : Overrides)
  | newAdapter (id : FactoryId) (target : HostType) (ov : Overrides)
  | extend (id : FactoryId) (target : HostType) (ov : Overrides)
  | dropFactory (id : FactoryId)

namespace Request

/-- What the engine does about a request; the handles that it gives lead to these sandboxes. -/
def run : Request → EngineM (List Sandbox)
  | .create c d parent domain => (fun s => [s]) <$> Sandbox.new c d parent domain
  | .symbol s name => LoadedType.held <$> s.load name
  | .ownClass s name => (fun cls => [cls.sandbox]) <$> s.find name
  | .generate d c parent domain => (fun cls => [cls.sandbox]) <$> d.load c parent domain
  | .newInstance cls ov => (fun i => [i.cls.sandbox]) <$> cls.newInstance ov
  | .instantiate cls => (fun i => [i.cls.sandbox]) <$> cls.instantiate
  | .openFactory id c => (fun _ => []) <$> Factory.new c id
  | .adapterClass id target ov => (fun cls => [cls.sandbox]) <$> Factory.adapterClass id target ov
  | .newAdapter id target ov => (fun i => [i.cls.sandbox]) <$> Factory.newAdapter id target ov
  | .extend id target ov => (fun cls => [cls.sandbox]) <$> Factory.extend id target ov
  | .dropFactory id => (fun _ => []) <$> Factory.drop id

/-- A program asks with what it holds: sandboxes and classes that something leads to, and factories that are there. A
new factory has a number of its own. -/
def Allowed (x : Held) : Request → Prop
  | .create _ _ parent _ | .generate _ _ parent _ => ∀ p ∈ parent.held, x.Referenced p
  | .symbol s _ | .ownClass s _ => x.Referenced s
  | .newInstance cls _ | .instantiate cls => x.Referenced cls.sandbox
  | .openFactory id _ => x.world.factories.get? id = none
  | .adapterClass id _ _ | .newAdapter id _ _ | .extend id _ _ | .dropFactory id =>
    ∃ f, x.world.factories.get? id = some f

/-- Every request is a run of steps, whatever comes of it. -/
theorem reaches {x : Held} (r : Request) (h : r.Allowed x) : Reaches x (x.after r.run) := by
  cases r with
  | create c d parent domain => exact (Step.create c d parent domain h).reaches
  | symbol s name => exact (Step.load h name).reaches
  | ownClass s name => exact (Step.find h name).reaches
  | generate d c parent domain => exact (ends_generate d c domain h).after
  | newInstance cls ov => exact (ends_newInstance h ov).after
  | instantiate cls => exact (ends_instantiate h).after
  | openFactory id c => exact (Step.openFactory id c h).reaches
  | adapterClass id target ov =>
    obtain ⟨f, hf⟩ := h
    exact (ends_adapterClass hf target ov).after
  | newAdapter id target ov =>
    obtain ⟨f, hf⟩ := h
    exact (ends_newAdapter hf target ov).after
  | extend id target ov => exact (ends_extend target ov).after
  | dropFactory id =>
    obtain ⟨f, hf⟩ := h
    exact (ends_drop hf).after

end Request

end Held
end ScriptHost
