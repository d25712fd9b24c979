import ScriptHost.Adapter.Factory
import ScriptHost.Proofs.Adapter.SandboxRuns

/-!
# Computations that do not look at the thread

A change of the thread is carried through a computation (`Carries`) if the computation goes the same way on the
changed thread and leaves it with the same change. What neither looks at the thread nor changes it carries every
change (`Detached`). A scope around it makes no difference (`Engine.outcome_scope`), and a privileged frame that only
serves to pass a check within is such a computation as a whole (`Engine.privileged_eq`).
-/

namespace ScriptHost

open Engine (onThread)

/-- The computation does not notice the change of the thread, and does not undo it. -/
def Carries {α : Type} (f : Thread → Thread) (x : EngineM α) : Prop :=
  ∀ w, x.outcome (onThread f w) = ((x.outcome w).1, onThread f (x.outcome w).2)

/-- The computation does not depend on the thread. -/
def Detached {α : Type} (x : EngineM α) : Prop := ∀ f, Carries f x

namespace Carries

variable {α β : Type} {f : Thread → Thread}

theorem pure (a : α) : Carries f (pure a : EngineM α) := fun _ => rfl

theorem throw (e : Fault) : Carries f (throw e : EngineM α) := fun _ => rfl

theorem fail (e : EngineError) : Carries f (Run.fail e : EngineM α) := fun _ => rfl

theorem ofExcept (x : Except EngineError α) : Carries f (Run.ofExcept x : EngineM α) := by
  cases x <;> exact fun _ => rfl

theorem bind {x : EngineM α} {k : α → EngineM β} (hx : Carries f x) (hk : ∀ a, Carries f (k a)) :
    Carries f (x >>= k) := by
  intro w
  rw [Run.outcome_bind, Run.outcome_bind, hx w]
  rcases x.outcome w with ⟨r, w'⟩
  cases r with
  | ok a => exact hk a w'
  | error e => rfl

theorem map {x : EngineM α} (hx : Carries f x) (g : α → β) : Carries f (g <$> x) := by
  rw [map_eq_pure_bind]
  exact hx.bind fun a => pure (g a)

theorem attempt {x : EngineM α} (hx : Carries f x) : Carries f x.attempt := by
  intro w
  rw [Run.outcome_attempt, Run.outcome_attempt, hx w]

theorem ensuring {x : EngineM α} (hx : Carries f x) {after : World → World}
    (ha : ∀ w, after (onThread f w) = onThread f (after w)) : Carries f (x.ensuring after) := by
  intro w
  rw [Run.outcome_ensuring, Run.outcome_ensuring, hx w]
  dsimp only
  rw [ha]

theorem modify {g : World → World} (hg : ∀ w, g (onThread f w) = onThread f (g w)) :
    Carries f (modify g : EngineM PUnit) := by
  intro w
  show (Except.ok (), g (onThread f w)) = (Except.ok (), onThread f (g w))
  rw [hg]

theorem get {k : World → EngineM α} (hk : ∀ w, k (onThread f w) = k w) (h : ∀ w, Carries f (k w)) :
    Carries f (get >>= k) := by
  intro w
  rw [Run.outcome_bind, Run.outcome_bind, Run.outcome_get, Run.outcome_get]
  dsimp only
  rw [hk, h w w]

/-- A computation that carries the thread along as it is leaves it as it is. -/
theorem thread_eq {x : EngineM α} {w : World} (hx : Carries (fun _ => w.thread) x) :
    (x.outcome w).2.thread = w.thread :=
  congrArg (fun r : Except Fault α × World => r.2.thread) (hx w)

end Carries

namespace Detached

variable {α β : Type} {x : EngineM α}

theorem thread_eq (hx : Detached x) (w : World) : (x.outcome w).2.thread = w.thread :=
  Carries.thread_eq (hx _)

theorem bind_congr (hx : Detached x) {k k' : α → EngineM β} {w : World}
    (h : ∀ a w', w'.thread = w.thread → (k a).outcome w' = (k' a).outcome w') :
    (x >>= k).outcome w = (x >>= k').outcome w := by
  have hthread := hx.thread_eq w
  rw [Run.outcome_bind, Run.outcome_bind]
  generalize x.outcome w = o at hthread
  obtain ⟨r, w'⟩ := o
  cases r with
  | ok a => exact h a w' hthread
  | error e => rfl

end Detached

/-! ## Scopes -/

namespace Engine

variable {α : Type} {x y : EngineM α} {w : World}

/-- What does not look at the thread within a scope needs no scope. -/
theorem outcome_scope (hy : Detached y) {enter : Thread → Thread}
    (h : x.outcome (onThread enter w) = y.outcome (onThread enter w)) (leave : Thread → Thread)
    (hleave : leave (enter w.thread) = w.thread) :
    (x.ensuring (onThread leave)).outcome (onThread enter w) = y.outcome w := by
  have hthread := hy.thread_eq w
  rw [Run.outcome_ensuring, h, hy]
  generalize y.outcome w = o at hthread
  obtain ⟨r, w'⟩ := o
  refine Prod.ext rfl ?_
  show { w' with thread := leave (enter w'.thread) } = w'
  rw [show w'.thread = w.thread from hthread, hleave, ← show w'.thread = w.thread from hthread]

theorem truncate_pushFrame (t : Thread) (ps : List Permission) : (t.pushFrame ps).truncate t.frames.length = t := by
  obtain ⟨frames, context, global⟩ := t
  simp [Thread.pushFrame, Thread.truncate]

theorem outcome_privileged (hy : Detached y) {ps : List Permission}
    (h : x.outcome (onThread (fun t => t.pushFrame ps) w) = y.outcome (onThread (fun t => t.pushFrame ps) w)) :
    (privileged ps x).outcome w = y.outcome w :=
  outcome_scope hy h (fun t => t.truncate w.thread.frames.length) (truncate_pushFrame w.thread ps)

theorem outcome_within (hy : Detached y) {c : ContextId}
    (h : x.outcome (onThread (fun t => { t with context := some c, global := some (w.context c).global }) w) =
      y.outcome (onThread (fun t => { t with context := some c, global := some (w.context c).global }) w)) :
    (within c x).outcome w = y.outcome w :=
  outcome_scope hy h (fun t => t.restore (.entered w.thread.context w.thread.global)) rfl

theorem outcome_underGlobal (hy : Detached y) {global : Option ObjRef}
    (h : x.outcome (onThread (fun t => { t with global := global }) w) =
      y.outcome (onThread (fun t => { t with global := global }) w)) :
    (underGlobal global x).outcome w = y.outcome w :=
  outcome_scope hy h (fun t => t.restore (.installed w.thread.global)) rfl

theorem privileged_eq {ps : List Permission} (hy : Detached y)
    (h : ∀ w, (∀ p ∈ ps, w.thread.grants p = true) → x.outcome w = y.outcome w) : privileged ps x = y :=
  Run.ext fun _ => outcome_privileged hy (h _ fun _ hp => List.contains_iff_mem.2 hp)

end Engine

/-! ## Sandboxes -/

namespace Sandbox

variable {f : Thread → Thread} (s : Sandbox)

theorem carries_searchOutside (name : String) : Carries f (s.searchOutside name) :=
  .get (fun _ => rfl) fun _ => .ofExcept _

theorem carries_link (cls : String) (symbols : List String) : Carries f (s.link cls symbols) := by
  induction symbols with
  | nil => exact .pure ()
  | cons symbol rest ih =>
    rw [link]
    split
    · exact .fail _
    · refine (s.carries_searchOutside symbol).bind fun found => ?_
      cases found with
      | some t => exact ih
      | none => exact .fail _

theorem carries_define : Carries f s.define := by
  rw [define]
  refine Carries.bind (.modify fun _ => rfl) fun _ => ?_
  cases ClassFile.decode s.descriptor.bytes with
  | error e => exact .fail _
  | ok file =>
    dsimp only
    split
    · exact .fail _
    · split
      · exact .fail _
      · refine (s.carries_link _ file.refs).bind fun _ => ?_
        exact Carries.bind (.modify fun _ => rfl) fun _ => .pure file

theorem carries_ownClass (name : String) : Carries f (s.ownClass name) := by
  rw [ownClass]
  split
  · exact .fail _
  · refine .get (fun _ => rfl) fun w => ?_
    cases w.definition? s with
    | some d => exact .pure _
    | none => exact s.carries_define.bind fun file => .pure _

theorem carries_load (name : String) : Carries f (s.load name) := by
  have hresolve : Carries f (s.resolve name) := by
    refine (s.carries_searchOutside name).bind fun found => ?_
    cases found with
    | some t => exact .pure t
    | none => exact (s.carries_ownClass name).map _
  refine hresolve.bind fun t => Carries.bind (.modify fun w => ?_) fun _ => .pure t
  cases t <;> rfl

/-- The next sandbox, whatever the thread may do. -/
def make (c : ContextId) (d : Descriptor) (parent : Parent) (domain : Domain) : EngineM Sandbox :=
  Run.of fun w => (.ok (w.fresh c d parent domain),
    (match parent with
      | .publishing cls => (w.granted c).retain cls.sandbox
      | _ => w.granted c).add (w.fresh c d parent domain))

theorem carries_make (c : ContextId) (d : Descriptor) (parent : Parent) (domain : Domain) :
    Carries f (make c d parent domain) := by
  cases parent <;> exact fun _ => rfl

theorem new_eq_make {c : ContextId} {d : Descriptor} {parent : Parent} {domain : Domain} {w : World}
    (h : w.thread.grants .createClassLoader = true) :
    (Sandbox.new c d parent domain).outcome w = (make c d parent domain).outcome w := by
  rw [Sandbox.new, Run.outcome_bind, Engine.outcome_check, if_pos h]
  cases parent <;> rfl

end Sandbox

theorem World.onThread_release (f : Thread → Thread) :
    ∀ (s : Sandbox) (w : World), (onThread f w).release s = onThread f (w.release s) := by
  refine Sandbox.byParent ?_
  intro s ih w
  rw [release_eq, release_eq, show (onThread f w).sandboxes = w.sandboxes from rfl]
  cases w.sandboxes.get? s.id with
  | none => rfl
  | some live =>
    dsimp only
    split
    · have hforget : (onThread f w).forget s.id s.context s.module = onThread f (w.forget s.id s.context s.module) :=
        rfl
      rw [hforget, releaseParent_eq, releaseParent_eq]
      -- a sandbox holds one other at most
      cases hp : s.parent with
      | publishing cls =>
        rw [hp] at ih
        exact ih cls.sandbox (List.mem_singleton_self _) _
      | engine | classPath | broken => rfl
    · rfl

end ScriptHost
