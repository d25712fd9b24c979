import ScriptHost.Proofs.Code.Projection

/-!
# Answers of a linker

A run learns of the world through the answers of its linker. They are told by a linker that writes them down
(`Linker.recording`) and changes nothing else. What a single operation makes of its answer is its `verdict`.
-/

namespace ScriptHost

open Machine

variable {σ : Type}

/-! ## Recorded answers -/

/-- What a linker gives back from one operation. -/
abbrev Answer := Except Fault Speculation

def Run.recorded (x : Run σ Speculation) : Run (σ × List Answer) Speculation :=
  Run.of fun (s, log) => ((x.outcome s).1, ((x.outcome s).2, log ++ [(x.outcome s).1]))

/-- The same linker, writing down its answers. -/
def Linker.recording (l : Linker σ) : Linker (σ × List Answer) where
  get receiver name ty flags := (l.get receiver name ty flags).recorded
  call callee this args ret flags name := (l.call callee this args ret flags name).recorded

theorem Linker.projects_recording (l : Linker σ) : Linker.Projects Prod.fst l.recording l where
  get _ _ _ _ _ := rfl
  call _ _ _ _ _ _ _ := rfl

namespace Module

/-- The answers that running a method gets from its linker, in order. -/
def answers (m : Module) (l : Linker σ) (cls method : String) (args : List Val) (s : σ) : List Answer :=
  ((m.invoke l.recording cls method args).outcome (s, [])).2.2

theorem invoke_recording (m : Module) (l : Linker σ) (cls method : String) (args : List Val) (s : σ) :
    ((m.invoke l cls method args).outcome s).1 =
      ((m.invoke l.recording cls method args).outcome (s, [])).1 := by
  have h := m.projects_invoke l.projects_recording cls method args (s, [])
  exact congrArg Prod.fst h

end Module

/-! ## Operations -/

/-- The linker reports a failed assumption, as its answer or raised by what it ran. -/
def Reports (a : Answer) (u : Misspeculation) : Prop :=
  a = .ok (.failed u) ∨ a = .error (.error (.misspeculation u))

/-- What an operation makes of the answer of its linker. -/
def verdict (flags : SiteFlags) (operation name : String) : Answer → Except Fault Val
  | .ok (.held v) => .ok v
  | .ok (.failed u) => .error (.error (unmet u flags operation name))
  | .error (.error (.misspeculation u)) => .error (.error (unmet u flags operation name))
  | .error f => .error f

theorem outcome_settle (x : Run σ Speculation) (flags : SiteFlags) (operation name : String) (s : σ) :
    (settle x flags operation name).outcome s =
      (verdict flags operation name (x.outcome s).1, (x.outcome s).2) := by
  rw [settle, Run.outcome_bind, Run.outcome_attempt]
  rcases x.outcome s with ⟨a, s'⟩
  cases a with
  | ok p => cases p <;> rfl
  | error f =>
    cases f with
    | error e => cases e <;> rfl
    | panic t => rfl
    | exhausted => rfl

theorem verdict_ok {flags : SiteFlags} {operation name : String} {a : Answer} {v : Val}
    (h : verdict flags operation name a = .ok v) : a = .ok (.held v) := by
  unfold verdict at h
  split at h
  · rw [Except.ok.inj h]
  all_goals cases h

theorem outcome_settle_recorded (x : Run σ Speculation) (flags : SiteFlags) (operation name : String) (s : σ)
    (log : List Answer) :
    (settle x.recorded flags operation name).outcome (s, log) =
      (verdict flags operation name (x.outcome s).1, ((x.outcome s).2, log ++ [(x.outcome s).1])) :=
  outcome_settle x.recorded flags operation name (s, log)

end ScriptHost
