import ScriptHost.Adapter.Factory
import ScriptHost.Proofs.Adapter.ClassFile
import ScriptHost.Proofs.Adapter.Visibility

/-!
# Loading adapter classes

A descriptor that is loaded gives the class that its bytes are the written form of, in a sandbox made for the
descriptor (`Descriptor.load_ok`). For a generated descriptor that is the class of a target for the names that
were asked for (`AdapterClass.IsFor`). Loading and giving up classes leaves the caches of factories alone.
-/

namespace ScriptHost

open World

/-! ## Generated descriptors -/

namespace Descriptor

variable {target : HostType} {names : List String} {classLevel : Bool} {d : Descriptor}

/-- The name of the class that is generated for a target and the names asked for. -/
def nameOf (target : HostType) (names : List String) (classLevel : Bool) : String :=
  nameFor target (effective target names) classLevel

def classOf (target : HostType) (names : List String) (classLevel : Bool) : ClassFile :=
  classFile target (effective target names) classLevel

theorem generate_ok (h : generate target names classLevel = .ok d) :
    (classOf target names classLevel).encode = .ok d.bytes ∧ d.target = target ∧
      d.className = nameOf target names classLevel ∧ d.domain = target.domain := by
  simp only [generate] at h
  cases he : (classFile target (effective target names) classLevel).encode with
  | error e =>
    rw [he] at h
    cases h
  | ok bytes =>
    rw [he] at h
    cases h
    exact ⟨he, rfl, rfl, rfl⟩

end Descriptor

/-- The class is the one that is generated for the target and the names: it runs under the domain of the target
and has its methods, each sent where generation sends it. Texts and lists must fit their length fields for
that. -/
structure AdapterClass.IsFor (c : AdapterClass) (t : HostType) (names : List String) (classLevel : Bool) :
    Prop where
  generated : Descriptor.generate t names classLevel = .ok c.descriptor
  target : c.target = t
  domain : c.domain = t.domain
  decoded : ClassFile.decode c.descriptor.bytes = .ok c.file
  file : (Descriptor.classOf t names classLevel).Fits → c.file = Descriptor.classOf t names classLevel

/-! ## New sandboxes -/

namespace Sandbox

variable {w w' : World} {s : Sandbox}

theorem new_ok {c : ContextId} {d : Descriptor} {domain : Domain}
    (h : (Sandbox.new c d .engine domain).outcome w = (.ok s, w')) :
    s = w.fresh c d .engine domain ∧ w' = (w.granted c).add s := by
  rw [Sandbox.new, Run.outcome_bind, Engine.outcome_check] at h
  by_cases hp : w.thread.grants .createClassLoader
  · rw [if_pos hp] at h
    cases h
    exact ⟨rfl, rfl⟩
  · rw [if_neg hp] at h
    cases h

theorem definition?_add (w : World) (s : Sandbox) : (w.add s).definition? s = none := by
  rw [definition?, liveSandbox?, add, Assoc.get?_put_self]
  rfl

theorem define_ok {file : ClassFile} (h : s.define.outcome w = (.ok file, w')) :
    ClassFile.decode s.descriptor.bytes = .ok file := by
  obtain ⟨_, w₁, -, h⟩ := Run.outcome_bind_ok h
  cases hd : ClassFile.decode s.descriptor.bytes with
  | error e =>
    rw [hd] at h
    cases h
  | ok f =>
    rw [hd] at h
    dsimp only at h
    split at h
    · cases h
    · split at h
      · cases h
      · obtain ⟨_, w₂, -, h⟩ := Run.outcome_bind_ok h
        obtain ⟨_, w₃, -, h⟩ := Run.outcome_bind_ok h
        cases h
        rfl

theorem ownClass_new {name : String} {c : AdapterClass} (hd : w.definition? s = none)
    (h : (s.ownClass name).outcome w = (.ok c, w')) :
    c.sandbox = s ∧ ClassFile.decode s.descriptor.bytes = .ok c.file := by
  refine ⟨(ownClass_ok h).1, ?_⟩
  rw [ownClass, if_neg (not_not_intro (ownClass_ok h).2), Run.outcome_bind, Run.outcome_get] at h
  dsimp only at h
  rw [hd] at h
  obtain ⟨file, w₁, hdefine, hreturn⟩ := Run.outcome_bind_ok h
  cases hreturn
  exact define_ok hdefine

end Sandbox

/-! ## Loading -/

theorem Descriptor.load_ok {d : Descriptor} {c : ContextId} {domain : Domain} {w w' : World} {cls : AdapterClass}
    (h : (d.load c .engine domain).outcome w = (.ok cls, w')) :
    cls.descriptor = d ∧ cls.domain = domain ∧ ClassFile.decode d.bytes = .ok cls.file := by
  rw [Descriptor.load, Engine.privileged, Run.outcome_of, Run.outcome_ensuring] at h
  have hbody := congrArg Prod.fst h
  dsimp only at hbody
  obtain ⟨s, w₁, hnew, h₁⟩ := Run.outcome_bind_ok (Prod.ext hbody rfl)
  rw [Run.outcome_ensuring] at h₁
  have hresult := congrArg Prod.fst h₁
  dsimp only at hresult
  obtain ⟨t, w₂, hload, h₂⟩ := Run.outcome_bind_ok (Prod.ext hresult rfl)
  obtain ⟨hs, rfl⟩ := Sandbox.new_ok hnew
  have hparent : s.parent = .engine := by rw [hs]; rfl
  rcases Sandbox.load_ok hload with hout | ⟨-, c', w₃, rfl, hown⟩
  · -- what lies outside is no adapter class, and is refused
    rcases Sandbox.outside_found hparent hout with rfl | ⟨t', rfl, -⟩
    · cases h₂
    · cases h₂
  · obtain ⟨hsandbox, hdecode⟩ := Sandbox.ownClass_new (Sandbox.definition?_add _ s) hown
    cases h₂
    rw [AdapterClass.descriptor, AdapterClass.domain, hsandbox]
    rw [hs] at hdecode ⊢
    exact ⟨rfl, rfl, hdecode⟩

theorem AdapterClass.IsFor.ofLoad {target : HostType} {names : List String} {classLevel : Bool} {d : Descriptor}
    {c : ContextId} {w w' : World} {cls : AdapterClass} (hg : Descriptor.generate target names classLevel = .ok d)
    (h : (d.load c .engine d.domain).outcome w = (.ok cls, w')) : cls.IsFor target names classLevel := by
  obtain ⟨rfl, hdomain, hdecode⟩ := Descriptor.load_ok h
  obtain ⟨hbytes, htarget, -, hd⟩ := Descriptor.generate_ok hg
  refine ⟨hg, htarget, hdomain.trans hd, hdecode, fun hfits => ?_⟩
  have hwritten := ClassFile.decode_written hfits hbytes
  rw [hdecode] at hwritten
  exact Except.ok.inj hwritten

/-! ## Caches of factories -/

def World.SameFactories (w w' : World) : Prop := w'.factories = w.factories

theorem World.SameFactories.refl (w : World) : SameFactories w w := rfl

theorem World.SameFactories.trans {w w' w'' : World} (h : SameFactories w w') (h' : SameFactories w' w'') :
    SameFactories w w'' := Eq.trans h' h

theorem useClosed_sameFactories : UseClosed SameFactories :=
  ⟨⟨.refl, .trans, fun _ _ _ _ => rfl, fun _ _ _ => rfl⟩, fun _ _ => rfl⟩

theorem World.factories_release (w : World) (s : Sandbox) : (w.release s).factories = w.factories :=
  moves_release SameFactories.refl SameFactories.trans (fun _ _ _ _ => rfl) (fun _ _ => rfl) s w

theorem World.factories_releaseClass (w : World) (c : AdapterClass) : (w.releaseClass c).factories = w.factories := by
  rw [releaseClass_eq]
  exact w.factories_release c.sandbox

theorem Sandbox.new_sameFactories (c : ContextId) (d : Descriptor) (parent : Parent) (domain : Domain) :
    Run.Moves SameFactories (Sandbox.new c d parent domain) := by
  have hcheck : Run.Moves SameFactories (Engine.check .createClassLoader) := fun w => by
    rw [Engine.outcome_check]
    rfl
  refine hcheck.bind .trans fun _ w => ?_
  cases parent <;> rfl

theorem Engine.privileged_sameFactories {α : Type} (ps : List Permission) {x : EngineM α}
    (hx : Run.Moves SameFactories x) : Run.Moves SameFactories (Engine.privileged ps x) := by
  intro w
  have hrun : Run.Moves SameFactories (x.ensuring (onThread fun t => t.truncate w.thread.frames.length)) :=
    hx.ensuring .trans fun w' => rfl
  exact hrun (onThread (fun t => t.pushFrame ps) w)

theorem Descriptor.load_sameFactories (d : Descriptor) (c : ContextId) (parent : Parent) (domain : Domain) :
    Run.Moves SameFactories (d.load c parent domain) := by
  refine Engine.privileged_sameFactories _ ((Sandbox.new_sameFactories c d parent domain).bind .trans fun s => ?_)
  refine Run.Moves.ensuring ?_ .trans fun w => w.factories_release s
  refine (useClosed_sameFactories.moves_load s d.className).bind .trans fun t => ?_
  cases t with
  | adapter cls => exact Run.moves_pure .refl cls
  | _ => exact Run.moves_fail .refl _

end ScriptHost
