import ScriptHost.Error

/-!
# Computations

A computation over a state gives a result or a fault, and in both cases the state it ends in: what a
failed computation has changed stays changed.
-/

namespace ScriptHost

abbrev Run (σ α : Type) := ExceptT Fault (StateM σ) α

namespace Run

variable {σ α : Type}

/-- Outcome and final state of a computation from a state. -/
def outcome (x : Run σ α) (s : σ) : Except Fault α × σ := x s

def of (f : σ → Except Fault α × σ) : Run σ α := f

def fail (e : EngineError) : Run σ α := throw (Fault.error e)

def ofExcept : Except EngineError α → Run σ α
  | .ok a => pure a
  | .error e => fail e

/-- Run `x`, and apply `after` to the state on every way out. -/
def ensuring (x : Run σ α) (after : σ → σ) : Run σ α :=
  of fun s =>
    let (r, s') := x.outcome s
    (r, after s')

/-- The outcome of `x` as a result, whatever it is. -/
def attempt (x : Run σ α) : Run σ (Except Fault α) :=
  of fun s =>
    let (r, s') := x.outcome s
    (.ok r, s')

@[simp] theorem outcome_of (f : σ → Except Fault α × σ) (s : σ) : (of f).outcome s = f s := rfl

theorem outcome_ensuring (x : Run σ α) (after : σ → σ) (s : σ) :
    (x.ensuring after).outcome s = ((x.outcome s).1, after (x.outcome s).2) := rfl

end Run
end ScriptHost
