import ScriptHost.Run

/-!
# Laws of computations

Computations are compared by their outcomes (`Run.ext`): the result or the fault, and the state that
is left. `catching` is the one way in which generated code goes on after a fault: a failed assumption
is passed to a handler, every other fault ends the computation. Its laws let a row of instructions
that stand under one handler be read as one computation under that handler (`catching_bind`).
-/

namespace ScriptHost.Run

variable {σ α β γ : Type}

theorem ext {x y : Run σ α} (h : ∀ s, x.outcome s = y.outcome s) : x = y := funext h

/-! ## Results and faults -/

@[simp] theorem outcome_pure (a : α) (s : σ) : (pure a : Run σ α).outcome s = (.ok a, s) := rfl

@[simp] theorem outcome_throw (f : Fault) (s : σ) : (throw f : Run σ α).outcome s = (.error f, s) := rfl

@[simp] theorem outcome_fail (e : EngineError) (s : σ) :
    (fail e : Run σ α).outcome s = (.error (.error e), s) := rfl

theorem outcome_bind (x : Run σ α) (f : α → Run σ β) (s : σ) :
    (x >>= f).outcome s =
      match x.outcome s with
      | (.ok a, s') => (f a).outcome s'
      | (.error e, s') => (.error e, s') := by
  show StateT.bind x (ExceptT.bindCont f) s = _
  simp only [StateT.bind, outcome]
  cases x s with
  | mk r s' => cases r <;> rfl

@[simp] theorem outcome_get (s : σ) : (get : Run σ σ).outcome s = (.ok s, s) := rfl

theorem outcome_bind_ok {x : Run σ α} {f : α → Run σ β} {s s'' : σ} {b : β}
    (h : (x >>= f).outcome s = (.ok b, s'')) :
    ∃ a s', x.outcome s = (.ok a, s') ∧ (f a).outcome s' = (.ok b, s'') := by
  rw [outcome_bind] at h
  rcases hx : x.outcome s with ⟨r, s'⟩
  rw [hx] at h
  cases r with
  | ok a => exact ⟨a, s', rfl, h⟩
  | error f => cases h

theorem outcome_bind_error {x : Run σ α} {f : α → Run σ β} {s s'' : σ} {e : Fault}
    (h : (x >>= f).outcome s = (.error e, s'')) :
    x.outcome s = (.error e, s'') ∨ ∃ a s', x.outcome s = (.ok a, s') ∧ (f a).outcome s' = (.error e, s'') := by
  rw [outcome_bind] at h
  rcases hx : x.outcome s with ⟨r, s'⟩
  rw [hx] at h
  cases r with
  | ok a => exact .inr ⟨a, s', rfl, h⟩
  | error f =>
    cases h
    exact .inl rfl

theorem outcome_map (f : α → β) (x : Run σ α) (s : σ) :
    (f <$> x).outcome s = ((x.outcome s).1.map f, (x.outcome s).2) := by
  rw [map_eq_pure_bind, outcome_bind]
  rcases x.outcome s with ⟨r, s'⟩
  cases r <;> rfl

theorem outcome_attempt (x : Run σ α) (s : σ) :
    x.attempt.outcome s = (.ok (x.outcome s).1, (x.outcome s).2) := rfl

@[simp] theorem throw_bind (f : Fault) (k : α → Run σ β) : (throw f : Run σ α) >>= k = throw f := by
  apply ext
  intro s
  rw [outcome_bind]
  rfl

@[simp] theorem fail_bind (e : EngineError) (k : α → Run σ β) : (fail e : Run σ α) >>= k = fail e :=
  throw_bind _ _

@[simp] theorem ofExcept_ok (a : α) : (ofExcept (.ok a) : Run σ α) = pure a := rfl

/-! ## Failed assumptions -/

/-- Run `x`, and go on with `k` after its result and with `h` after a failed assumption. -/
def catching (x : Run σ α) (h : Misspeculation → Run σ β) (k : α → Run σ β) : Run σ β := do
  match ← x.attempt with
  | .ok a => k a
  | .error (.error (.misspeculation u)) => h u
  | .error f => throw f

/-- A failed assumption that nothing catches. -/
def escape (u : Misspeculation) : Run σ α := fail (.misspeculation u)

@[simp] theorem outcome_escape (u : Misspeculation) (s : σ) :
    (escape u : Run σ α).outcome s = (.error (.error (.misspeculation u)), s) := rfl

theorem outcome_catching (x : Run σ α) (h : Misspeculation → Run σ β) (k : α → Run σ β) (s : σ) :
    (catching x h k).outcome s =
      match x.outcome s with
      | (.ok a, s') => (k a).outcome s'
      | (.error (.error (.misspeculation u)), s') => (h u).outcome s'
      | (.error f, s') => (.error f, s') := by
  rw [catching, outcome_bind, outcome_attempt]
  rcases x.outcome s with ⟨r, s'⟩
  cases r with
  | ok a => rfl
  | error f =>
    cases f with
    | error e => cases e <;> rfl
    | panic t => rfl
    | exhausted => rfl

@[simp] theorem catching_pure (a : α) (h : Misspeculation → Run σ β) (k : α → Run σ β) :
    catching (pure a) h k = k a := by
  apply ext
  intro s
  rw [outcome_catching]
  rfl

@[simp] theorem catching_escape (u : Misspeculation) (h : Misspeculation → Run σ β) (k : α → Run σ β) :
    catching (escape u) h k = h u := by
  apply ext
  intro s
  rw [outcome_catching]
  rfl

theorem catching_bind (x : Run σ α) (f : α → Run σ β) (h : Misspeculation → Run σ γ) (k : β → Run σ γ) :
    catching (x >>= f) h k = catching x h fun a => catching (f a) h k := by
  apply ext
  intro s
  rw [outcome_catching, outcome_catching, outcome_bind]
  rcases x.outcome s with ⟨r, s'⟩
  cases r with
  | ok a => exact (outcome_catching (f a) h k s').symm
  | error f =>
    cases f with
    | error e => cases e <;> rfl
    | panic t => rfl
    | exhausted => rfl

theorem catching_catching {δ : Type} (x : Run σ α) (h : Misspeculation → Run σ β) (k : α → Run σ β)
    (h' : Misspeculation → Run σ δ) (k' : β → Run σ δ) :
    catching (catching x h k) h' k' =
      catching x (fun u => catching (h u) h' k') fun a => catching (k a) h' k' := by
  apply ext
  intro s
  rw [outcome_catching, outcome_catching, outcome_catching]
  rcases x.outcome s with ⟨r, s'⟩
  cases r with
  | ok a => exact (outcome_catching (k a) h' k' s').symm
  | error f =>
    cases f with
    | error e =>
      cases e with
      | misspeculation u => exact (outcome_catching (h u) h' k' s').symm
      | _ => rfl
    | panic t => rfl
    | exhausted => rfl

theorem catching_escape_right (x : Run σ α) (k : α → Run σ β) : catching x escape k = x >>= k := by
  apply ext
  intro s
  rw [outcome_catching, outcome_bind]
  rcases x.outcome s with ⟨r, s'⟩
  cases r with
  | ok a => rfl
  | error f =>
    cases f with
    | error e => cases e <;> rfl
    | panic t => rfl
    | exhausted => rfl

/-! ## Computations without failed assumptions -/

/-- No run of the computation ends in a failed assumption. -/
def Definite (x : Run σ α) : Prop := ∀ s u, (x.outcome s).1 ≠ .error (.error (.misspeculation u))

theorem definite_pure (a : α) : Definite (pure a : Run σ α) := by
  intro s u h
  cases h

theorem definite_fail {e : EngineError} (he : ∀ u, e ≠ .misspeculation u) : Definite (fail e : Run σ α) := by
  intro s u h
  cases h
  exact he u rfl

theorem Definite.bind {x : Run σ α} {f : α → Run σ β} (hx : Definite x) (hf : ∀ a, Definite (f a)) :
    Definite (x >>= f) := by
  intro s u h
  rw [outcome_bind] at h
  have hxs := hx s u
  rcases hrun : x.outcome s with ⟨r, s'⟩
  rw [hrun] at h hxs
  cases r with
  | ok a => exact hf a s' u h
  | error e =>
    cases h
    exact hxs rfl

theorem catching_definite {x : Run σ α} (hx : Definite x) (h : Misspeculation → Run σ β)
    (k : α → Run σ β) : catching x h k = x >>= k := by
  apply ext
  intro s
  rw [outcome_catching, outcome_bind]
  have hxs := hx s
  rcases hrun : x.outcome s with ⟨r, s'⟩
  rw [hrun] at hxs
  cases r with
  | ok a => rfl
  | error f =>
    cases f with
    | error e =>
      cases e with
      | misspeculation u => exact (hxs u rfl).elim
      | _ => rfl
    | panic t => rfl
    | exhausted => rfl

/-! ## Faults that do not occur -/

/-- No run of the computation ends in one of the faults. -/
def Avoids (P : Fault → Prop) (x : Run σ α) : Prop := ∀ s f, (x.outcome s).1 = .error f → ¬P f

section

variable {P : Fault → Prop}

theorem avoids_pure (a : α) : Avoids P (pure a : Run σ α) := by
  intro s f h
  cases h

theorem avoids_throw {f : Fault} (hf : ¬P f) : Avoids P (throw f : Run σ α) := by
  intro s f' h
  cases h
  exact hf

theorem avoids_get : Avoids P (get : Run σ σ) := by
  intro s f h
  cases h

theorem Avoids.bind {x : Run σ α} {g : α → Run σ β} (hx : Avoids P x) (hg : ∀ a, Avoids P (g a)) :
    Avoids P (x >>= g) := by
  intro s f h
  rw [outcome_bind] at h
  have hxs := hx s
  rcases hrun : x.outcome s with ⟨r, s'⟩
  rw [hrun] at h hxs
  cases r with
  | ok a => exact hg a s' f h
  | error f' =>
    cases h
    exact hxs f rfl

theorem Avoids.map {x : Run σ α} (hx : Avoids P x) (g : α → β) : Avoids P (g <$> x) := by
  rw [map_eq_pure_bind]
  exact hx.bind fun a => avoids_pure (g a)

theorem Avoids.catching {x : Run σ α} (hx : Avoids P x) {h : Misspeculation → Run σ β} {k : α → Run σ β}
    (hh : ∀ u, Avoids P (h u)) (hk : ∀ a, Avoids P (k a)) : Avoids P (catching x h k) := by
  intro s f hf
  rw [outcome_catching] at hf
  have hxs := hx s
  rcases hrun : x.outcome s with ⟨r, s'⟩
  rw [hrun] at hf hxs
  cases r with
  | ok a => exact hk a s' f hf
  | error e =>
    cases e with
    | error e =>
      cases e with
      | misspeculation u => exact hh u s' f hf
      | _ =>
        cases hf
        exact hxs _ rfl
    | panic t =>
      cases hf
      exact hxs _ rfl
    | exhausted =>
      cases hf
      exact hxs _ rfl

end

/-! ## Effects -/

section

variable {R : σ → σ → Prop}

/-- Every run of the computation, whether it succeeds or not, leads to a related state. -/
def Moves (R : σ → σ → Prop) (x : Run σ α) : Prop := ∀ s, R s (x.outcome s).2

theorem moves_pure (hr : ∀ s, R s s) (a : α) : Moves R (pure a : Run σ α) := hr

theorem moves_throw (hr : ∀ s, R s s) (f : Fault) : Moves R (throw f : Run σ α) := hr

theorem moves_fail (hr : ∀ s, R s s) (e : EngineError) : Moves R (fail e : Run σ α) := hr

theorem moves_get (hr : ∀ s, R s s) : Moves R (get : Run σ σ) := hr

theorem moves_ofExcept (hr : ∀ s, R s s) (x : Except EngineError α) : Moves R (ofExcept x : Run σ α) := by
  cases x <;> exact hr

theorem Moves.bind {x : Run σ α} {f : α → Run σ β} (hx : Moves R x) (ht : ∀ {a b c}, R a b → R b c → R a c)
    (hf : ∀ a, Moves R (f a)) : Moves R (x >>= f) := by
  intro s
  rw [outcome_bind]
  have hs := hx s
  rcases hrun : x.outcome s with ⟨r, s'⟩
  rw [hrun] at hs
  cases r with
  | ok a => exact ht hs (hf a s')
  | error f => exact hs

theorem Moves.map {x : Run σ α} (hx : Moves R x) (f : α → β) : Moves R (f <$> x) := by
  intro s
  rw [outcome_map]
  exact hx s

theorem Moves.ensuring {x : Run σ α} (hx : Moves R x) (ht : ∀ {a b c}, R a b → R b c → R a c) {after : σ → σ}
    (ha : ∀ s, R s (after s)) : Moves R (x.ensuring after) := by
  intro s
  rw [outcome_ensuring]
  exact ht (hx s) (ha _)

end

end ScriptHost.Run
