import ScriptHost.Code.Machine
import ScriptHost.Proofs.Run

/-!
# Runs over larger states

A computation over a state with more in it than another needs does the same as the other one when it
gives the same result and the same part of the state (`Projects`). If each operation of a linker does
the same as that of another, then so does every run of generated code under it (`projects_run`): code
reaches the state through its linker only.
-/

namespace ScriptHost

variable {σ τ α β : Type}

/-- `x` does what `y` does on the part of the state that `π` looks at. -/
def Run.Projects (π : σ → τ) (x : Run σ α) (y : Run τ α) : Prop :=
  ∀ s, y.outcome (π s) = ((x.outcome s).1, π (x.outcome s).2)

/-- Both operations of `l` do what those of `l'` do. -/
structure Linker.Projects (π : σ → τ) (l : Linker σ) (l' : Linker τ) : Prop where
  get : ∀ receiver name ty flags,
    Run.Projects π (l.get receiver name ty flags) (l'.get receiver name ty flags)
  call : ∀ callee this args ret flags name,
    Run.Projects π (l.call callee this args ret flags name) (l'.call callee this args ret flags name)

namespace Run

variable {π : σ → τ}

theorem projects_pure (a : α) : Projects π (pure a) (pure a) := fun _ => rfl

theorem projects_throw (f : Fault) : Projects π (throw f : Run σ α) (throw f) := fun _ => rfl

theorem projects_fail (e : EngineError) : Projects π (fail e : Run σ α) (fail e) := fun _ => rfl

theorem projects_ofExcept (x : Except EngineError α) : Projects π (ofExcept x) (ofExcept x) := by
  cases x with
  | ok a => exact projects_pure a
  | error e => exact projects_fail e

theorem Projects.bind {x : Run σ α} {y : Run τ α} {f : α → Run σ β} {g : α → Run τ β} (h : Projects π x y)
    (hf : ∀ a, Projects π (f a) (g a)) : Projects π (x >>= f) (y >>= g) := by
  intro s
  rw [outcome_bind, outcome_bind, h s]
  rcases x.outcome s with ⟨r, s'⟩
  cases r with
  | ok a => exact hf a s'
  | error e => rfl

theorem Projects.attempt {x : Run σ α} {y : Run τ α} (h : Projects π x y) :
    Projects π x.attempt y.attempt := by
  intro s
  rw [outcome_attempt, outcome_attempt, h s]

end Run

namespace Machine

open Run

variable {π : σ → τ}

theorem projects_settle {x : Run σ Speculation} {y : Run τ Speculation} (h : Projects π x y)
    (flags : SiteFlags) (operation name : String) :
    Projects π (settle x flags operation name) (settle y flags operation name) := by
  refine h.attempt.bind fun r => ?_
  cases r with
  | ok p =>
    cases p with
    | held v => exact projects_pure v
    | failed m => exact projects_fail _
  | error f =>
    cases f with
    | error e =>
      cases e with
      | misspeculation m => exact projects_fail _
      | _ => exact projects_throw _
    | panic t => exact projects_throw _
    | exhausted => exact projects_throw _

variable {code : Module} {l : Linker σ} {l' : Linker τ} {call : Method → List Val → Run σ Val}
  {call' : Method → List Val → Run τ Val}

theorem projects_step (hl : Linker.Projects π l l') (hcall : ∀ m args, Projects π (call m args) (call' m args))
    (slots : List (Nat × Val)) (s : Stack) (i : Insn) :
    Projects π (step code l call slots s i) (step code l' call' slots s i) := by
  cases i with
  | load ty slot =>
    simp only [step]
    cases slots.lookup slot with
    | some v => exact projects_pure _
    | none => exact projects_fail _
  | pushInt i => exact projects_pure _
  | climb => exact projects_ofExcept _
  | dynGet ty name flags =>
    refine (projects_ofExcept _).bind fun ⟨receiver, s⟩ => ?_
    exact (projects_settle (hl.get receiver name ty flags) _ _ _).bind fun v => projects_pure _
  | convert ty => exact projects_ofExcept _
  | undefined => exact projects_pure _
  | dynCall ret operands flags name =>
    simp only [step]
    split
    · exact projects_fail _
    · refine (projects_ofExcept _).bind fun ⟨args, s⟩ => ?_
      refine (projects_ofExcept _).bind fun ⟨this, s⟩ => ?_
      refine (projects_ofExcept _).bind fun ⟨callee, s⟩ => ?_
      exact (projects_settle (hl.call callee this args ret flags name) _ _ _).bind fun v => projects_pure _
  | reattribute => exact projects_ofExcept _
  | rethrow =>
    simp only [step]
    split
    · exact projects_fail _
    · exact projects_fail _
  | ret ty => exact projects_ofExcept _
  | invoke cls method signature =>
    simp only [step]
    cases code.method? cls method with
    | none => exact projects_fail _
    | some target =>
      dsimp only
      split
      · exact projects_fail _
      · split
        · exact projects_fail _
        · refine (projects_ofExcept _).bind fun ⟨args, s⟩ => ?_
          exact (hcall target args).bind fun v => projects_pure _

theorem projects_frame (hl : Linker.Projects π l l')
    (hcall : ∀ m args, Projects π (call m args) (call' m args)) (m : Method) (slots : List (Nat × Val))
    (n pc : Nat) (s : Stack) :
    Projects π (frame code l call m slots n pc s) (frame code l' call' m slots n pc s) := by
  -- on the steps that are left to the frame; calls into other frames are projected by `hcall`
  induction n generalizing pc s with
  | zero => exact projects_throw _
  | succ n ih =>
    rw [frame, frame]
    cases m.code[pc]? with
    | none => exact projects_fail _
    | some i =>
      refine (projects_step hl hcall slots s i).attempt.bind fun r => ?_
      cases r with
      | ok e =>
        cases e with
        | next s' => exact ih (pc + 1) s'
        | done v => exact projects_pure v
      | error f =>
        cases f with
        | error e =>
          cases e with
          | misspeculation u =>
            dsimp only
            cases m.handlerFor pc with
            | some h => exact ih h.target _
            | none => exact projects_fail _
          | _ => exact projects_throw _
        | panic t => exact projects_throw _
        | exhausted => exact projects_throw _

theorem projects_run (hl : Linker.Projects π l l') (n : Nat) (m : Method) (args : List Val) :
    Projects π (run code l n m args) (run code l' n m args) := by
  -- on the depth of calls: a frame that calls has one less for what it calls
  induction n generalizing m args with
  | zero => exact projects_fail _
  | succ n ih =>
    rw [run, run]
    split
    · exact projects_fail _
    · exact projects_frame hl ih m _ _ 0 []

end Machine

theorem Module.projects_invoke {π : σ → τ} {l : Linker σ} {l' : Linker τ} (hl : Linker.Projects π l l')
    (m : Module) (cls method : String) (args : List Val) :
    Run.Projects π (m.invoke l cls method args) (m.invoke l' cls method args) := by
  rw [Module.invoke, Module.invoke]
  cases m.method? cls method with
  | some target => exact Machine.projects_run hl _ target args
  | none => exact Run.projects_fail _

end ScriptHost
