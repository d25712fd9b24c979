import ScriptHost.Proofs.Engine.Detached

/-!
# Adapters on any thread

What adapters have to do with the thread. Generating a class and binding its setter open privileged frames of their
own and do the same on every thread. An instance takes the current global with it and nothing else (`Stamps`). A call
runs a body on the caller's thread, under the instance's global if the method goes to the script
(`Instance.invoke_congr`).
-/

namespace ScriptHost

open Engine (onThread)

/-! ## Classes -/

namespace Descriptor

variable (d : Descriptor)

def loadIn (s : Sandbox) : EngineM AdapterClass :=
  Run.ensuring (do
    match ← s.load d.className with
    | .adapter cls => return cls
    | other => Run.fail (.inconsistentDefinition (.foreignResolution d.className other.name)))
    fun w => w.release s

theorem carries_loadIn (f : Thread → Thread) (s : Sandbox) : Carries f (d.loadIn s) := by
  refine Carries.ensuring (Carries.bind (s.carries_load d.className) fun t => ?_) (World.onThread_release f s)
  cases t with
  | adapter cls => exact .pure cls
  | host t => exact .fail _
  | internal name => exact .fail _

theorem load_eq (c : ContextId) (parent : Parent) (domain : Domain) :
    d.load c parent domain = Sandbox.make c d parent domain >>= d.loadIn := by
  refine Engine.privileged_eq (fun f => (Sandbox.carries_make c d parent domain).bind (d.carries_loadIn f)) ?_
  intro w hw
  rw [Run.outcome_bind, Run.outcome_bind, Sandbox.new_eq_make (hw _ (List.mem_singleton_self _))]
  rfl

theorem carries_load (f : Thread → Thread) (c : ContextId) (parent : Parent) (domain : Domain) :
    Carries f (d.load c parent domain) := by
  rw [load_eq]
  exact (Sandbox.carries_make c d parent domain).bind (d.carries_loadIn f)

end Descriptor

namespace AdapterClass

variable (c : AdapterClass)

def bind (w : World) : World :=
  match w.definition? c.sandbox with
  | some d => if d.bound then w else w.setDefinition c.sandbox { d with bound := true, setups := d.setups + 1 }
  | none => w

theorem setter_eq : c.setter = modify c.bind := by
  apply Run.ext
  intro w
  show c.setter.outcome w = (Except.ok (), c.bind w)
  rw [setter, Run.outcome_bind, Run.outcome_get, bind]
  dsimp only
  cases w.definition? c.sandbox with
  | none => rfl
  | some d =>
    dsimp only
    split
    · rfl
    · rw [Engine.privileged_eq (y := modify fun w => w.setDefinition c.sandbox
        { d with bound := true, setups := d.setups + 1 }) (fun f => .modify fun _ => rfl)]
      · rfl
      · intro w hw
        rw [GlobalSetter.new, Run.outcome_bind, Run.outcome_bind, Engine.outcome_check,
          if_pos (hw _ (List.mem_singleton_self _))]
        rfl

theorem bind_onThread (f : Thread → Thread) (w : World) : c.bind (onThread f w) = onThread f (c.bind w) := by
  rw [bind, bind, show (onThread f w).definition? c.sandbox = w.definition? c.sandbox from rfl]
  cases w.definition? c.sandbox with
  | none => rfl
  | some d =>
    dsimp only
    split <;> rfl

end AdapterClass

namespace Factory

variable {f : Thread → Thread} (id : FactoryId) (target : HostType)

theorem carries_get? : Carries f (get? id) := .get (fun _ => rfl) fun _ => .pure _

theorem carries_modifyFactory (g : Factory → Factory) : Carries f (modifyFactory id g) := .modify fun _ => rfl

theorem carries_retain (s : Sandbox) : Carries f (modify fun w => w.retain s : EngineM PUnit) := .modify fun _ => rfl

theorem carries_descriptor (ov : Overrides) : Carries f (descriptor id target ov) := by
  refine .get (fun _ => rfl) fun w => (carries_get? id).bind fun factory => ?_
  cases factory.descriptors.get? (keyFor w.heap target ov) with
  | some d => exact .pure d
  | none => exact (Carries.ofExcept _).bind fun d => (carries_modifyFactory id _).bind fun _ => .pure d

theorem carries_load (d : Descriptor) : Carries f (load id target d) := by
  refine (carries_get? id).bind fun factory => Carries.bind (.modify fun _ => rfl) fun _ => ?_
  exact d.carries_load f factory.context .engine d.domain

theorem carries_adapterClass (ov : Overrides) : Carries f (adapterClass id target ov) := by
  refine (carries_descriptor id target ov).bind fun d => (carries_get? id).bind fun factory => ?_
  cases factory.classes.get? d.className with
  | some c => exact (carries_retain c.sandbox).bind fun _ => .pure c
  | none =>
    refine (carries_load id target d).bind fun c => (carries_modifyFactory id _).bind fun _ => ?_
    exact (carries_retain c.sandbox).bind fun _ => .pure c

theorem carries_extend (ov : Overrides) : Carries f (extend id target ov) := by
  refine .get (fun _ => rfl) fun w => (Carries.ofExcept _).bind fun d => ?_
  exact (carries_load id target d).bind fun c => .pure _

end Factory

/-! ## Instances -/

/-- What is made carries the current global, and goes the same way on every thread otherwise. -/
def Stamps (x : EngineM Instance) : Prop :=
  ∀ f w, x.outcome (onThread f w) =
    ((x.outcome w).1.map (fun i => { i with global := (f w.thread).global }), onThread f (x.outcome w).2)

namespace Stamps

theorem fail (e : EngineError) : Stamps (Run.fail e) := fun _ _ => rfl

theorem instanceWith (c : AdapterClass) (ov : Overrides) : Stamps (c.instanceWith ov) := fun _ _ => rfl

theorem bind {α : Type} {x : EngineM α} {k : α → EngineM Instance} (hx : Detached x) (hk : ∀ a, Stamps (k a)) :
    Stamps (x >>= k) := by
  intro f w
  have hthread := hx.thread_eq w
  rw [Run.outcome_bind, Run.outcome_bind, hx f w]
  generalize x.outcome w = o at hthread
  obtain ⟨r, w'⟩ := o
  cases r with
  | ok a =>
    dsimp only at hthread ⊢
    rw [hk a f w', hthread]
  | error e => rfl

theorem ensuring {x : EngineM Instance} (hx : Stamps x) {after : World → World}
    (ha : ∀ f w, after (onThread f w) = onThread f (after w)) : Stamps (x.ensuring after) := by
  intro f w
  rw [Run.outcome_ensuring, Run.outcome_ensuring, hx f w]
  dsimp only
  rw [ha]

variable {x : EngineM Instance} {w : World}

theorem map_global (hx : Stamps x) :
    (x.outcome w).1.map (fun i => { i with global := w.thread.global }) = (x.outcome w).1 :=
  (congrArg Prod.fst (hx id w)).symm

theorem global_eq (hx : Stamps x) {i : Instance} {w' : World} (h : x.outcome w = (.ok i, w')) :
    i.global = w.thread.global := by
  have hmap := hx.map_global (w := w)
  rw [h] at hmap
  exact (congrArg Instance.global (Except.ok.inj hmap)).symm

end Stamps

theorem AdapterClass.stamps_newInstance (c : AdapterClass) (ov : Overrides) : Stamps (c.newInstance ov) := by
  rw [newInstance]
  split
  · exact .fail _
  · intro f w
    show Run.outcome (if ov.names w.heap c.target ≠ c.descriptor.overrides then _ else c.instanceWith ov) _ = _
    rw [Run.outcome_bind, Run.outcome_get]
    dsimp only
    split
    · rfl
    · rfl

theorem AdapterClass.stamps_instantiate (c : AdapterClass) : Stamps c.instantiate := by
  rw [instantiate]
  cases c.overrides with
  | some ov => exact .instanceWith c ov
  | none => exact .fail _

theorem Factory.stamps_newAdapter (id : FactoryId) (target : HostType) (ov : Overrides) :
    Stamps (newAdapter id target ov) := by
  refine .bind (fun f => carries_adapterClass id target ov) fun c => .ensuring (c.stamps_newInstance ov) fun f w => ?_
  rw [World.releaseClass_eq, World.releaseClass_eq, World.onThread_release]

/-! ## Calls -/

/-- The body that a call comes to, what it is given, and the type of the result. -/
structure Call where
  body : BodyId
  this : Val
  args : List Val
  ret : Ty

/-- Bodies that panic unless they find the thread as it should be. -/
def Bodies.expecting (P : Thread → Prop) [DecidablePred P] (bodies : Bodies) : Bodies :=
  fun b this args => do
    if P (← get).thread then bodies b this args else throw (.panic "unexpected thread")

theorem Bodies.outcome_expecting {P : Thread → Prop} [DecidablePred P] (bodies : Bodies) {w : World} (h : P w.thread)
    (b : BodyId) (this : Val) (args : List Val) :
    (bodies.expecting P b this args).outcome w = (bodies b this args).outcome w := by
  rw [expecting, Run.outcome_bind, Run.outcome_get]
  dsimp only
  rw [if_pos h]

namespace Instance

variable (i : Instance) (method : String) (args : List Val)

def isScript : Bool := (i.cls.file.method? method).any fun entry => entry.dispatch == .script

/-- The thread of a method's body: the caller's, but for the global of a method that goes to the script. -/
def bodyThread (t : Thread) : Thread := { t with global := if i.isScript method then i.global else t.global }

def prepare : EngineM Call := do
  match i.cls.file.method? method with
  | none => Run.fail (ScriptFault.noMethod i.cls.target.name method)
  | some entry =>
    let params := entry.signature.params
    if args.length ≠ params.length then
      Run.fail (ScriptFault.argumentCount i.cls.target.name method params.length args.length)
    else
      let args := coerceAll args params
      match entry.dispatch with
      | .script =>
        i.cls.setter
        match i.overrides.functionFor (← get).heap method with
        | none => Run.fail (ScriptFault.noScript i.cls.target.name method)
        | some f => return ⟨f.id, i.overrides.receiver, args, entry.signature.ret⟩
      | .super =>
        match (i.cls.target.method? method).bind HostMethod.body with
        | none => Run.fail (InternalFault.noSuperBody i.cls.target.name method)
        | some b => return ⟨b, .undefined, args, entry.signature.ret⟩
      | .unsupported => Run.fail (.unsupported (i.cls.target.name ++ "." ++ method))

def under {α : Type} (x : EngineM α) : EngineM α :=
  if i.isScript method then Engine.underGlobal i.global x else x

theorem invoke_eq (bodies : Bodies) :
    i.invoke bodies method args = do
      let c ← i.prepare method args
      return (← i.under method (bodies c.body c.this c.args)).coerce c.ret := by
  rw [invoke, prepare]
  cases hm : i.cls.file.method? method with
  | none => simp only [Run.fail_bind]
  | some entry =>
    have hs : i.isScript method = (entry.dispatch == .script) := by rw [isScript, hm]; rfl
    dsimp only
    split
    · rw [Run.fail_bind]
    · cases hd : entry.dispatch with
      | script =>
        simp only [runScript, bind_assoc]
        refine congrArg _ (funext fun _ => congrArg _ (funext fun w => ?_))
        cases i.overrides.functionFor w.heap method with
        | none => simp only [Run.fail_bind]
        | some f => simp [under, hs, hd, FnRef.call]
      | super =>
        rw [runSuper]
        cases (i.cls.target.method? method).bind HostMethod.body with
        | none => simp only [Run.fail_bind]
        | some b => simp [under, hs, hd]
      | unsupported => rw [Run.fail_bind]

theorem carries_prepare (f : Thread → Thread) : Carries f (i.prepare method args) := by
  rw [prepare]
  cases i.cls.file.method? method with
  | none => exact .fail _
  | some entry =>
    dsimp only
    split
    · exact .fail _
    · cases entry.dispatch with
      | script =>
        dsimp only
        rw [AdapterClass.setter_eq]
        refine Carries.bind (.modify (i.cls.bind_onThread f)) fun _ => .get (fun _ => rfl) fun w => ?_
        cases i.overrides.functionFor w.heap method with
        | none => exact .fail _
        | some g => exact .pure _
      | super =>
        dsimp only
        cases (i.cls.target.method? method).bind HostMethod.body with
        | none => exact .fail _
        | some b => exact .pure _
      | unsupported => exact .fail _

variable {i method args} {α : Type} {x y : EngineM α} {w : World}

theorem under_congr (h : x.outcome (onThread (i.bodyThread method) w) = y.outcome (onThread (i.bodyThread method) w)) :
    (i.under method x).outcome w = (i.under method y).outcome w := by
  unfold bodyThread at h
  rw [under, under]
  split
  · next hs =>
    simp only [if_pos hs] at h
    exact congrArg
      (fun r : Except Fault α × World => (r.1, onThread (fun t => t.restore (.installed w.thread.global)) r.2)) h
  · next hs =>
    simp only [if_neg hs] at h
    exact h

theorem under_eq (hx : Detached x) : i.under method x = x := by
  rw [under]
  split
  · exact Run.ext fun w => Engine.outcome_underGlobal hx rfl
  · rfl

/-- A call comes to one body at most, on the thread that belongs to it. -/
theorem invoke_congr {bodies bodies' : Bodies}
    (h : ∀ w', w'.thread = i.bodyThread method w.thread → ∀ b this args,
      (bodies b this args).outcome w' = (bodies' b this args).outcome w') :
    (i.invoke bodies method args).outcome w = (i.invoke bodies' method args).outcome w := by
  rw [invoke_eq, invoke_eq]
  refine Detached.bind_congr (i.carries_prepare method args) fun c w' hw' => ?_
  have hbody := h (onThread (i.bodyThread method) w') (congrArg (i.bodyThread method) hw') c.body c.this c.args
  rw [Run.outcome_bind, Run.outcome_bind, under_congr hbody]

/-- A body finds the caller's thread, but for the global if the method goes to the script. -/
theorem invoke_expecting {P : Thread → Prop} [DecidablePred P] (bodies : Bodies)
    (h : P (i.bodyThread method w.thread)) :
    (i.invoke (bodies.expecting P) method args).outcome w = (i.invoke bodies method args).outcome w :=
  invoke_congr fun _ hw => bodies.outcome_expecting (hw ▸ h)

theorem invoke_unsupported {entry : MethodEntry} (hm : i.cls.file.method? method = some entry)
    (hd : entry.dispatch = .unsupported) (args : List Val) :
    ∃ e, ∀ bodies w, (i.invoke bodies method args).outcome w = (.error e, w) := by
  by_cases hargs : args.length = entry.signature.params.length
  · refine ⟨.error (.unsupported (i.cls.target.name ++ "." ++ method)), fun bodies w => ?_⟩
    simp only [invoke, hm, hargs, ne_eq, not_true_eq_false, if_false, hd]
    rfl
  · refine ⟨.error (ScriptFault.argumentCount i.cls.target.name method entry.signature.params.length args.length),
      fun bodies w => ?_⟩
    simp only [invoke, hm, ne_eq, hargs, not_false_eq_true, if_true]
    rfl

theorem detached_invoke {bodies : Bodies} (h : ∀ b this args, Detached (bodies b this args)) :
    Detached (i.invoke bodies method args) := by
  intro f
  rw [invoke_eq]
  refine (i.carries_prepare method args f).bind fun c => ?_
  rw [under_eq (h c.body c.this c.args)]
  exact (h c.body c.this c.args f).bind fun v => .pure _

end Instance
end ScriptHost
