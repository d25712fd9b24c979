import ScriptHost.Proofs.Adapter.Defining
import ScriptHost.Proofs.Engine.Adapters

/-!
# What adapters change, one change at a time

Sandboxes, classes, instances and factories change a world in a few ways only. What relates a world to the one after each
single change (`SandboxClosed`, and `EngineClosed` with the changes that factories make) relates it to the one after every
operation, whatever comes of it.
-/

namespace ScriptHost

open World
open Engine (onThread)

/-- The relation holds across each change that operations on sandboxes make. Only a sandbox that has not defined its class
defines it, and a new sandbox has the next number. -/
structure SandboxClosed (R : World → World → Prop) : Prop where
  refl : ∀ w, R w w
  trans : ∀ {w₁ w₂ w₃}, R w₁ w₂ → R w₂ w₃ → R w₁ w₃
  thread : ∀ f w, R w (onThread f w)
  dump : ∀ (w : World) (s : Sandbox), R w (w.dumped s)
  define : ∀ {w : World} {s : Sandbox} (file : ClassFile), w.definition? s = none → R w (w.setDefinition s { file })
  retain : ∀ (w : World) (s : Sandbox), R w (w.retain s)
  grant : ∀ (w : World) (c : ContextId), R w (w.granted c)
  add : ∀ {w : World} {s : Sandbox}, s.id = w.nextSandbox → R w (w.add s)
  count : ∀ (w : World) (s : Sandbox) {l : LiveSandbox}, w.sandboxes.get? s.id = some l →
    R w { w with sandboxes := w.sandboxes.put s.id { l with handles := l.handles - 1 } }
  forget : ∀ (w : World) (s : Sandbox), R w (w.forget s.id s.context s.module)

/-- The relation holds also across what factories change: their own caches, and the class paths of contexts. -/
structure EngineClosed (R : World → World → Prop) : Prop extends SandboxClosed R where
  factories : ∀ (w : World) (fs : Assoc FactoryId Factory), R w { w with factories := fs }
  register : ∀ (w : World) (c : ContextId) (types : Assoc String HostType),
    R w (w.setContext c { w.context c with classPath := types })

namespace SandboxClosed

variable {R : World → World → Prop} (hR : SandboxClosed R)

include hR

theorem moves_ownClass (s : Sandbox) (name : String) : Run.Moves R (s.ownClass name) := by
  intro w
  rcases s.ownClass_cases name w with ⟨-, ⟨f, h⟩ | ⟨d, -, h⟩⟩ | ⟨hawaits, ⟨f, h⟩ | ⟨file, -, -, -, h⟩⟩
  · rw [h]
    exact hR.refl w
  · rw [h]
    exact hR.refl w
  · rw [h]
    exact hR.dump w s
  · rw [h]
    exact hR.trans (hR.dump w s) (hR.define file hawaits.2)

theorem moves_find (s : Sandbox) (name : String) : Run.Moves R (s.find name) :=
  (hR.moves_ownClass s name).bind hR.trans fun c =>
    Run.Moves.bind (fun w => hR.retain w c.sandbox) hR.trans fun _ => Run.moves_pure hR.refl c

theorem moves_load (s : Sandbox) (name : String) : Run.Moves R (s.load name) := by
  intro w
  rcases s.load_cases name w with ⟨e, -, h⟩ | ⟨t, -, h⟩ | ⟨-, h⟩
  · rw [h]
    exact hR.refl w
  · rw [h]
    cases t with
    | adapter c => exact hR.retain w c.sandbox
    | _ => exact hR.refl w
  · rw [h]
    exact (hR.moves_find s name).map _ w

theorem releases (s : Sandbox) (w : World) : R w (w.release s) :=
  moves_release hR.refl hR.trans (fun w s _ hl => hR.count w s hl) hR.forget s w

theorem releasesClass (c : AdapterClass) (w : World) : R w (w.releaseClass c) := by
  rw [releaseClass_eq]
  exact hR.releases c.sandbox w

theorem moves_make (c : ContextId) (d : Descriptor) (parent : Parent) (domain : Domain) :
    Run.Moves R (Sandbox.make c d parent domain) := by
  intro w
  have hadd : ∀ w', w'.nextSandbox = w.nextSandbox → R w w' → R w (w'.add (w.fresh c d parent domain)) :=
    fun w' hnext h => hR.trans h (hR.add hnext.symm)
  cases parent with
  | publishing cls => exact hadd ((w.granted c).retain cls.sandbox) rfl (hR.trans (hR.grant w c) (hR.retain _ _))
  | engine | classPath | broken => exact hadd (w.granted c) rfl (hR.grant w c)

theorem moves_loadIn (d : Descriptor) (s : Sandbox) : Run.Moves R (d.loadIn s) := by
  refine ((hR.moves_load s d.className).bind hR.trans fun t => ?_).ensuring hR.trans (hR.releases s)
  cases t with
  | adapter cls => exact Run.moves_pure hR.refl cls
  | _ => exact Run.moves_fail hR.refl _

theorem moves_generate (d : Descriptor) (c : ContextId) (parent : Parent) (domain : Domain) :
    Run.Moves R (d.load c parent domain) := by
  rw [d.load_eq]
  exact (hR.moves_make c d parent domain).bind hR.trans (hR.moves_loadIn d)

theorem moves_instanceWith (c : AdapterClass) (ov : Overrides) : Run.Moves R (c.instanceWith ov) :=
  fun w => hR.retain w c.sandbox

theorem moves_newInstance (c : AdapterClass) (ov : Overrides) : Run.Moves R (c.newInstance ov) := by
  rw [AdapterClass.newInstance]
  split
  · exact Run.moves_fail hR.refl _
  · refine (Run.moves_get hR.refl).bind hR.trans fun w => ?_
    dsimp only
    split
    · exact Run.moves_fail hR.refl _
    · exact hR.moves_instanceWith c ov

theorem moves_instantiate (c : AdapterClass) : Run.Moves R c.instantiate := by
  rw [AdapterClass.instantiate]
  cases c.overrides with
  | some ov => exact hR.moves_instanceWith c ov
  | none => exact Run.moves_fail hR.refl _

end SandboxClosed

namespace EngineClosed

variable {R : World → World → Prop} (hR : EngineClosed R) (id : FactoryId) (target : HostType) (ov : Overrides)

include hR

theorem moves_modifyFactory (g : Factory → Factory) : Run.Moves R (Factory.modifyFactory id g) :=
  fun w => hR.factories w _

theorem moves_get? : Run.Moves R (Factory.get? id) := hR.refl

theorem moves_descriptor : Run.Moves R (Factory.descriptor id target ov) := by
  refine (Run.moves_get hR.refl).bind hR.trans fun w => (hR.moves_get? id).bind hR.trans fun f => ?_
  cases f.descriptors.get? (Factory.keyFor w.heap target ov) with
  | some d => exact Run.moves_pure hR.refl d
  | none =>
    refine (Run.moves_ofExcept hR.refl _).bind hR.trans fun d => ?_
    exact (hR.moves_modifyFactory id _).bind hR.trans fun _ => Run.moves_pure hR.refl d

theorem moves_factoryLoad (d : Descriptor) : Run.Moves R (Factory.load id target d) := by
  refine (hR.moves_get? id).bind hR.trans fun f => Run.Moves.bind (fun w => ?_) hR.trans fun _ => hR.moves_generate d _ _ _
  -- a target that is known is registered as it is
  have hregister := hR.register w f.context
  show R w (w.setContext f.context (if (w.context f.context).classPath.contains target.name then w.context f.context
    else { w.context f.context with classPath := (w.context f.context).classPath.put target.name target }))
  split
  · exact hregister (w.context f.context).classPath
  · exact hregister _

theorem moves_adapterClass : Run.Moves R (Factory.adapterClass id target ov) := by
  refine (hR.moves_descriptor id target ov).bind hR.trans fun d => (hR.moves_get? id).bind hR.trans fun f => ?_
  have hretain : ∀ c : AdapterClass, Run.Moves R (modifyThe World (fun w => w.retain c.sandbox) >>= fun _ => pure c) :=
    fun c => Run.Moves.bind (fun w => hR.retain w c.sandbox) hR.trans fun _ => Run.moves_pure hR.refl c
  cases f.classes.get? d.className with
  | some c => exact hretain c
  | none =>
    refine (hR.moves_factoryLoad id target d).bind hR.trans fun c => ?_
    exact (hR.moves_modifyFactory id _).bind hR.trans fun _ => hretain c

theorem moves_newAdapter : Run.Moves R (Factory.newAdapter id target ov) :=
  (hR.moves_adapterClass id target ov).bind hR.trans fun c =>
    (hR.moves_newInstance c ov).ensuring hR.trans (hR.releasesClass c)

theorem moves_extend : Run.Moves R (Factory.extend id target ov) := by
  refine (Run.moves_get hR.refl).bind hR.trans fun w => (Run.moves_ofExcept hR.refl _).bind hR.trans fun d => ?_
  exact (hR.moves_factoryLoad id target d).bind hR.trans fun c => Run.moves_pure hR.refl _

end EngineClosed
end ScriptHost
