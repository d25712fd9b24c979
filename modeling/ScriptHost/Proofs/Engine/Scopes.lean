import ScriptHost.Proofs.Engine.Nesting

/-!
# Privilege and the current global are scoped

Privilege reaches as far as the block that grants it: a check asks the innermost enclosing block alone, and the frames
that the engine opens for itself, to generate a class or to bind a setter, are never seen by a body
(`Program.privilege_scoped`). An instance carries the global under which it was made to every body that the script
supplied for it, and whoever enters a context or calls an adapter has the context and the global back afterwards
(`Program.global_scoped`).
-/

namespace ScriptHost

open Engine (onThread)

namespace Program

/-! ## Privilege -/

/-- A check asks the innermost frame; a computation finds just the frames of the blocks around it and of the thread
that it was started on, and leaves them, however it ends; and a body finds the frames that the adapter was called
with. -/
theorem privilege_scoped (p : Program) (depth : Nat) {α : Type} (x : Code α) (w : World) :
    (∀ q, ((Code.look (.check q)).run (p.bodies depth)).outcome w =
      (if w.thread.frames.head?.any fun frame => frame.contains q then .ok ()
        else .error (.error (.privilege q)), w)) ∧
    (x.run (p.bodies depth)).outcome w = (x.lexical (p.lexical depth) w.thread).outcome w ∧
    Detached (x.lexical (p.lexical depth) w.thread) ∧
    ((x.run (p.bodies depth)).outcome w).2.thread.frames = w.thread.frames ∧
    ∀ (i : Instance) (method : String) (args : List Val) (bodies : Bodies),
      (i.invoke bodies method args).outcome w =
        (i.invoke (bodies.expecting fun t => t.frames = w.thread.frames) method args).outcome w := by
  refine ⟨fun q => ?_, x.run_eq_lexical (p.detached_lexical depth) (p.bodies_eq_lexical depth) w,
    x.detached_lexical (p.detached_lexical depth) w.thread, congrArg Thread.frames (p.thread_run depth x w),
    fun i method args bodies => ?_⟩
  · rw [Code.run, Look.run, Engine.outcome_check]
    cases hf : w.thread.frames <;> simp [Thread.grants, hf]
  · exact (Instance.invoke_expecting (P := fun t => t.frames = w.thread.frames) bodies rfl).symm

example (bodies : Bodies) :
    (((Code.privileged [.setGlobal, .getContext] (.privileged [.setGlobal] (.look (.check .getContext)))).run
      bodies).outcome {}).1 = .error (.error (.privilege .getContext)) := rfl

/-! ## The current global -/

/-- Every construct leaves the context and the global, however it ends. An instance holds the global that was current
when it was made. A body finds that global if its method goes to the script, and the caller's otherwise: it starts on
that thread, whatever it is, and the bodies of a program read nothing else all the way through. A call of an
unsupported method is a failure and nothing else. -/
theorem global_scoped (p : Program) (depth : Nat) :
    (∀ {α : Type} (x : Code α) (w : World),
      ((x.run (p.bodies depth)).outcome w).2.thread.context = w.thread.context ∧
        ((x.run (p.bodies depth)).outcome w).2.thread.global = w.thread.global) ∧
    (∀ (c : Creation) (i : Instance) (w w' : World), c.run.outcome w = (.ok i, w') → i.global = w.thread.global) ∧
    (∀ (i : Instance) (method : String) (args : List Val) (w : World),
      (∀ bodies : Bodies, (i.invoke bodies method args).outcome w =
        (i.invoke (bodies.expecting fun t => t = i.bodyThread method w.thread) method args).outcome w) ∧
      (i.invoke (p.bodies depth) method args).outcome w =
        (i.invoke (p.lexical depth (i.bodyThread method w.thread)) method args).outcome w ∧
      ∀ b this args, Detached (p.lexical depth (i.bodyThread method w.thread) b this args)) ∧
    ∀ (i : Instance) (method : String) (entry : MethodEntry), i.cls.file.method? method = some entry →
      entry.dispatch = .unsupported → ∀ args, ∃ e, ∀ bodies w,
        (i.invoke bodies method args).outcome w = (.error e, w) := by
  refine ⟨fun x w => ?_, fun c i w w' hc => c.stamps_run.global_eq hc, ?_, ?_⟩
  · rw [p.thread_run depth x w]
    exact ⟨rfl, rfl⟩
  · intro i method args w
    refine ⟨fun bodies => ?_, ?_, p.detached_lexical depth _⟩
    · exact (Instance.invoke_expecting (P := fun t => t = i.bodyThread method w.thread) bodies rfl).symm
    · exact (Code.invoke i method args).run_eq_lexical (p.detached_lexical depth) (p.bodies_eq_lexical depth) w
  · intro i method entry hm hd args
    exact i.invoke_unsupported hm hd args

/-- An adapter class with one method, for which a function stands that reports the current global. -/
def reporter : AdapterClass where
  sandbox := default
  file :=
    { version := 1
      name := "Reporter"
      target := "Reporting"
      kind := .interface
      classLevel := true
      refs := []
      methods := [⟨"report", ⟨.object, []⟩, .script⟩]
      annotations := none }
  overrides := some (.function ⟨0, "report", false⟩)

/-- On a thread without a global, the adapter reports the one under which it was made. -/
theorem global_scoped_reporter :
    ∃ i w, (Creation.classLevel reporter).run.outcome { thread := { global := some default } } = (.ok i, w) ∧
      i.global = some default ∧
      ((i.invoke ((BodyTable.program [(0, .global)]).bodies 1) "report" []).outcome {}).1 = .ok (.object default) := by
  obtain ⟨-, hmade, hcall, -⟩ := global_scoped (BodyTable.program [(0, .global)]) 1
  refine ⟨⟨reporter, .function ⟨0, "report", false⟩, some default⟩, _, rfl, ?_, ?_⟩
  · exact hmade (.classLevel reporter) _ { thread := { global := some default } } _ rfl
  · rw [(hcall _ "report" [] {}).2.1]
    rfl

end Program
end ScriptHost
