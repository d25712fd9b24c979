import ScriptHost.Proofs.Adapter.Admission
import ScriptHost.Proofs.Adapter.Supplying

/-!
# How a factory comes by a class

A factory that is asked for a class has a descriptor for it or generates and keeps one (`Describes`). Then it has the
class already, or it loads it, and keeps it if that succeeds (`Answers`). An instance is made of the class that was
answered; a class with implementations of its own is loaded without a look at what is kept.
-/

namespace ScriptHost

open World

def World.keepClass (w : World) (id : FactoryId) (c : AdapterClass) (name : String) : World :=
  { w with factories := w.factories.adjust id fun f => { f with classes := f.classes.put name c } }

namespace Factory

variable {id : FactoryId} {f : Factory} {target : HostType} {ov : Overrides} {w : World}

/-- The factory's descriptor for a request, and the world in which it has it. -/
inductive Describes (id : FactoryId) (f : Factory) (target : HostType) (ov : Overrides) (w : World) :
    Descriptor → World → Prop
  | kept {d : Descriptor} (h : f.descriptors.get? (keyFor w.heap target ov) = some d) :
    Describes id f target ov w d w
  | generated {d : Descriptor} (h : f.descriptors.get? (keyFor w.heap target ov) = none)
      (hg : Descriptor.generate target (ov.names w.heap target) false = .ok d) :
    Describes id f target ov w d { w with factories := w.factories.adjust id fun f =>
      { f with descriptors := f.descriptors.put (keyFor w.heap target ov) d } }

/-- What comes of a request for a class. -/
inductive Answers (id : FactoryId) (f : Factory) (target : HostType) (ov : Overrides) (w : World) :
    Except Fault AdapterClass × World → Prop
  | undescribed {e : EngineError} (h : f.descriptors.get? (keyFor w.heap target ov) = none)
      (hg : Descriptor.generate target (ov.names w.heap target) false = .error e) :
    Answers id f target ov w (.error (.error e), w)
  | kept {d : Descriptor} {w₁ : World} {c : AdapterClass} (hd : Describes id f target ov w d w₁)
      (hc : f.classes.get? d.className = some c) : Answers id f target ov w (.ok c, w₁.retain c.sandbox)
  | unloaded {d : Descriptor} {w₁ w₂ : World} {e : Fault} (hd : Describes id f target ov w d w₁)
      (hc : f.classes.get? d.className = none) (hl : (load id target d).outcome w₁ = (.error e, w₂)) :
    Answers id f target ov w (.error e, w₂)
  | loaded {d : Descriptor} {w₁ w₂ : World} {c : AdapterClass} (hd : Describes id f target ov w d w₁)
      (hc : f.classes.get? d.className = none) (hl : (load id target d).outcome w₁ = (.ok c, w₂)) :
    Answers id f target ov w (.ok c, (w₂.keepClass id c d.className).retain c.sandbox)

/-! ## Descriptors -/

namespace Describes

variable {d : Descriptor} {w₁ : World}

theorem rest (h : Describes id f target ov w d w₁) : w₁ = { w with factories := w₁.factories } := by
  cases h <;> rfl

theorem factory (h : Describes id f target ov w d w₁) (hf : w.factories.get? id = some f) :
    ∃ f₁, w₁.factories.get? id = some f₁ ∧ f₁.context = f.context ∧ f₁.classes = f.classes ∧
      f₁.descriptors.get? (keyFor w.heap target ov) = some d := by
  cases h with
  | kept h => exact ⟨f, hf, rfl, rfl, h⟩
  | generated h hg =>
    refine ⟨{ f with descriptors := f.descriptors.put (keyFor w.heap target ov) d }, ?_, rfl, rfl,
      Assoc.get?_put_self ..⟩
    rw [Assoc.get?_adjust, if_pos rfl, hf]
    rfl

theorem generate (h : Describes id f target ov w d w₁)
    (hown : ∀ d, f.descriptors.get? (keyFor w.heap target ov) = some d →
      Descriptor.generate target (ov.names w.heap target) false = .ok d) :
    Descriptor.generate target (ov.names w.heap target) false = .ok d := by
  cases h with
  | kept h => exact hown d h
  | generated h hg => exact hg

end Describes

theorem outcome_get? (hf : w.factories.get? id = some f) : (get? id).outcome w = (.ok f, w) := by
  show (Except.ok ((w.factories.get? id).getD default), w) = _
  rw [hf]
  rfl

theorem factories_load {d : Descriptor} {r : Except Fault AdapterClass} {w' : World}
    (h : (load id target d).outcome w = (r, w')) : w'.factories = w.factories := by
  have hsame : SameFactories w ((load id target d).outcome w).2 := load_sameFactories target d w
  rwa [h] at hsame

/-- A class that a factory loads is that of the descriptor, in the next sandbox, and has just been defined. -/
theorem load_made {d : Descriptor} {c : AdapterClass} {w' : World} (hf : w.factories.get? id = some f)
    (h : (load id target d).outcome w = (.ok c, w')) :
    c.MadeFrom d ∧ c.sandbox.id = w.nextSandbox ∧ c.sandbox.id < w'.nextSandbox ∧
      w'.definition? c.sandbox = some { file := c.file } := by
  rw [outcome_load hf] at h
  obtain ⟨hsandbox, hmade, -, hdefinition, hlt⟩ := Descriptor.load_made h
  exact ⟨hmade, congrArg Sandbox.id hsandbox, hlt, hdefinition⟩

theorem descriptor_cases (hf : w.factories.get? id = some f) (target : HostType) (ov : Overrides) :
    (∃ e, f.descriptors.get? (keyFor w.heap target ov) = none ∧
      Descriptor.generate target (ov.names w.heap target) false = .error e ∧
      (descriptor id target ov).outcome w = (.error (.error e), w)) ∨
    ∃ d w₁, Describes id f target ov w d w₁ ∧ (descriptor id target ov).outcome w = (.ok d, w₁) := by
  rw [descriptor, Run.outcome_bind, Run.outcome_get]
  dsimp only
  rw [Run.outcome_bind, outcome_get? hf]
  dsimp only
  cases hk : f.descriptors.get? (keyFor w.heap target ov) with
  | some d => exact .inr ⟨d, w, .kept hk, rfl⟩
  | none =>
    dsimp only
    rw [show (keyFor w.heap target ov).overrides = ov.names w.heap target from rfl]
    cases hg : Descriptor.generate target (ov.names w.heap target) false with
    | error e => exact .inl ⟨e, rfl, rfl, rfl⟩
    | ok d => exact .inr ⟨d, _, .generated hk hg, rfl⟩

/-! ## Requests -/

theorem adapterClass_answers (hf : w.factories.get? id = some f) (target : HostType) (ov : Overrides) :
    Answers id f target ov w ((adapterClass id target ov).outcome w) := by
  rw [adapterClass, Run.outcome_bind]
  rcases descriptor_cases hf target ov with ⟨e, hnone, hg, hrun⟩ | ⟨d, w₁, hd, hrun⟩
  · rw [hrun]
    exact .undescribed hnone hg
  · obtain ⟨f₁, hf₁, -, hclasses, -⟩ := hd.factory hf
    rw [hrun]
    dsimp only
    rw [Run.outcome_bind, outcome_get? hf₁]
    dsimp only
    rw [hclasses]
    cases hc : f.classes.get? d.className with
    | some c => exact .kept hd hc
    | none =>
      dsimp only
      rw [Run.outcome_bind]
      rcases hl : (load id target d).outcome w₁ with ⟨e | c, w₂⟩
      · exact .unloaded hd hc hl
      · exact .loaded hd hc hl

theorem newInstance_cases (c : AdapterClass) (ov : Overrides) (w : World) :
    (∃ e, (c.newInstance ov).outcome w = (.error e, w)) ∨
      (c.newInstance ov).outcome w = (.ok ⟨c, ov, w.thread.global⟩, w.retain c.sandbox) := by
  rw [AdapterClass.newInstance]
  split
  · exact .inl ⟨_, rfl⟩
  · rw [Run.outcome_bind, Run.outcome_get]
    dsimp only
    split
    · exact .inl ⟨_, rfl⟩
    · exact .inr rfl

theorem newAdapter_cases (id : FactoryId) (target : HostType) (ov : Overrides) (w : World) :
    (∃ e w₁, (adapterClass id target ov).outcome w = (.error e, w₁) ∧
      (newAdapter id target ov).outcome w = (.error e, w₁)) ∨
    ∃ c w₁, (adapterClass id target ov).outcome w = (.ok c, w₁) ∧
      ((∃ e, (c.newInstance ov).outcome w₁ = (.error e, w₁) ∧
        (newAdapter id target ov).outcome w = (.error e, w₁.releaseClass c)) ∨
      (newAdapter id target ov).outcome w =
        (.ok ⟨c, ov, w₁.thread.global⟩, (w₁.retain c.sandbox).releaseClass c)) := by
  rw [newAdapter, Run.outcome_bind]
  rcases hrun : (adapterClass id target ov).outcome w with ⟨e | c, w₁⟩
  · exact .inl ⟨e, w₁, rfl, rfl⟩
  · refine .inr ⟨c, w₁, rfl, ?_⟩
    dsimp only
    rw [Run.outcome_ensuring]
    rcases newInstance_cases c ov w₁ with ⟨e, hnew⟩ | hnew
    · exact .inl ⟨e, hnew, by rw [hnew]⟩
    · exact .inr (by rw [hnew])

theorem extend_answers (id : FactoryId) (target : HostType) (ov : Overrides) (w : World) :
    (∃ e, Descriptor.generate target (ov.names w.heap target) true = .error e ∧
      (extend id target ov).outcome w = (.error (.error e), w)) ∨
    ∃ d, Descriptor.generate target (ov.names w.heap target) true = .ok d ∧
      (extend id target ov).outcome w =
        ((fun c => { c with overrides := some ov }) <$> load id target d : EngineM AdapterClass).outcome w := by
  rw [extend, Run.outcome_bind, Run.outcome_get]
  dsimp only
  cases hg : Descriptor.generate target (ov.names w.heap target) true with
  | error e => exact .inl ⟨e, rfl, rfl⟩
  | ok d =>
    refine .inr ⟨d, rfl, ?_⟩
    rw [Run.ofExcept_ok, pure_bind, bind_pure_comp]

theorem extend_loaded {c : AdapterClass} {w' : World} (h : (extend id target ov).outcome w = (.ok c, w')) :
    ∃ d c', (load id target d).outcome w = (.ok c', w') ∧ c = { c' with overrides := some ov } := by
  rcases extend_answers id target ov w with ⟨e, -, hrun⟩ | ⟨d, -, hrun⟩
  · rw [hrun] at h
    cases h
  · rw [hrun, Run.outcome_map] at h
    rcases hl : (load id target d).outcome w with ⟨e | c', w₁⟩ <;> rw [hl] at h <;> cases h
    exact ⟨d, c', hl, rfl⟩

end Factory
end ScriptHost
