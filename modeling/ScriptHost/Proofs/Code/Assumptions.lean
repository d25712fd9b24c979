import ScriptHost.Proofs.Code.Answers
import ScriptHost.Proofs.Code.Frame

/-!
# Code that assumes nothing

Only an operation under an assumption lets a failed assumption through. Code from which no such operation is
reached (`Module.AssumesNothing`) therefore never ends in one, whatever handlers it has and whatever its linker
reports: an operation for which the linker reports one ends the run with an error of the engine
(`contains_run`). The invariant of a frame is that its operands are values. Only a handler puts a caught
failure on a stack, and no handler is entered.
-/

namespace ScriptHost

open Machine

variable {σ α β : Type}

def Insn.assumes : Insn → Bool
  | .dynGet _ _ flags => flags.isOptimistic
  | .dynCall _ _ flags _ => flags.isOptimistic
  | _ => false

namespace Module

/-- A method is reached from another by static calls. -/
inductive Reaches (code : Module) : Method → Method → Prop where
  | refl (m : Method) : Reaches code m m
  | call {m target m' : Method} {cls name : String} {signature : Signature}
    (hi : .invoke cls name signature ∈ m.code) (hm : code.method? cls name = some target)
    (h : Reaches code target m') : Reaches code m m'

/-- No operation under an assumption is reached from the method. -/
def AssumesNothing (code : Module) (m : Method) : Prop :=
  ∀ m', code.Reaches m m' → ∀ i ∈ m'.code, i.assumes = false

/-- The instruction is no operation under an assumption, and a method that it calls reaches none. -/
def Admits (code : Module) (i : Insn) : Prop :=
  i.assumes = false ∧ ∀ cls name signature target, i = .invoke cls name signature →
    code.method? cls name = some target → code.AssumesNothing target

theorem assumesNothing_iff {code : Module} {m : Method} :
    code.AssumesNothing m ↔ ∀ i ∈ m.code, code.Admits i := by
  constructor
  · rintro h i hi
    refine ⟨h m (.refl m) i hi, ?_⟩
    rintro cls name signature target rfl htarget m' hm'
    exact h m' (.call hi htarget hm')
  · intro h m' hm'
    cases hm' with
    | refl => exact fun i hi => (h i hi).1
    | call hi hm hrest => exact (h _ hi).2 _ _ _ _ rfl hm m' hrest

section

variable (code : Module)

@[simp] theorem admits_load (ty : Ty) (slot : Nat) : code.Admits (.load ty slot) := ⟨rfl, nofun⟩

@[simp] theorem admits_pushInt (i : Int32) : code.Admits (.pushInt i) := ⟨rfl, nofun⟩

@[simp] theorem admits_climb : code.Admits .climb := ⟨rfl, nofun⟩

@[simp] theorem admits_convert (ty : Ty) : code.Admits (.convert ty) := ⟨rfl, nofun⟩

@[simp] theorem admits_undefined : code.Admits .undefined := ⟨rfl, nofun⟩

@[simp] theorem admits_ret (ty : Ty) : code.Admits (.ret ty) := ⟨rfl, nofun⟩

@[simp] theorem admits_dynGet (ty : Ty) (name : String) (flags : SiteFlags) :
    code.Admits (.dynGet ty name flags) ↔ flags.isOptimistic = false :=
  ⟨And.left, fun h => ⟨h, nofun⟩⟩

@[simp] theorem admits_dynCall (ty : Ty) (operands : Nat) (flags : SiteFlags) (name : String) :
    code.Admits (.dynCall ty operands flags name) ↔ flags.isOptimistic = false :=
  ⟨And.left, fun h => ⟨h, nofun⟩⟩

theorem admits_invoke {code : Module} {cls name : String} (signature : Signature) {target : Method}
    (hm : code.method? cls name = some target) (h : code.AssumesNothing target) :
    code.Admits (.invoke cls name signature) := by
  refine ⟨rfl, fun cls' name' signature' target' hi hm' => ?_⟩
  cases hi
  cases hm.symm.trans hm'
  exact h

end

end Module

/-! ## Contained failures -/

/-- A result after some answers: it is no failed assumption, and if an answer reports one then it is the error
for that. A value is as `Q` says. -/
structure Contained (Q : α → Prop) (answers : List Answer) (r : Except Fault α) : Prop where
  definite : ∀ u, r ≠ .error (.error (.misspeculation u))
  reported : ∀ a ∈ answers, ∀ u, Reports a u →
    ∃ operation name, r = .error (.error (.internal (.uncheckedSpeculation operation name u)))
  result : ∀ v, r = .ok v → Q v

/-- Every run of the computation contains the failures that are reported to it. -/
def Contains (Q : α → Prop) (x : Run (σ × List Answer) α) : Prop :=
  ∀ s log, ∃ answers, (x.outcome (s, log)).2.2 = log ++ answers ∧ Contained Q answers (x.outcome (s, log)).1

section

variable {Q : α → Prop} {Q' : β → Prop}

theorem contains_pure {a : α} (ha : Q a) : Contains Q (pure a : Run (σ × List Answer) α) := by
  intro s log
  refine ⟨[], (List.append_nil log).symm, by simp, by simp, fun v hv => ?_⟩
  cases hv
  exact ha

theorem contains_throw {f : Fault} (hf : ∀ u, f ≠ .error (.misspeculation u)) :
    Contains Q (throw f : Run (σ × List Answer) α) := by
  intro s log
  refine ⟨[], (List.append_nil log).symm, fun u hu => hf u (Except.error.inj hu), by simp, ?_⟩
  intro v hv
  cases hv

theorem contains_fail {e : EngineError} (he : ∀ u, e ≠ .misspeculation u) :
    Contains Q (Run.fail e : Run (σ × List Answer) α) :=
  contains_throw fun u hu => he u (Fault.error.inj hu)

theorem contains_internal (e : InternalFault) : Contains Q (Run.fail e : Run (σ × List Answer) α) :=
  contains_fail (by simp)

theorem Contains.bind {x : Run (σ × List Answer) α} {f : α → Run (σ × List Answer) β} (hx : Contains Q x)
    (hf : ∀ a, Q a → Contains Q' (f a)) : Contains Q' (x >>= f) := by
  intro s log
  obtain ⟨first, hlog, hfirst⟩ := hx s log
  rw [Run.outcome_bind]
  rcases hrun : x.outcome (s, log) with ⟨r, s', log'⟩
  rw [hrun] at hlog hfirst
  obtain rfl : log' = log ++ first := hlog
  cases r with
  | error e =>
    refine ⟨first, rfl, fun u hu => ?_, fun a ha u hu => ?_, by simp⟩
    · cases hu
      exact hfirst.definite u rfl
    · obtain ⟨operation, name, he⟩ := hfirst.reported a ha u hu
      cases he
      exact ⟨operation, name, rfl⟩
  | ok a =>
    obtain ⟨rest, hrest, hcontained⟩ := hf a (hfirst.result a rfl) s' (log ++ first)
    refine ⟨first ++ rest, by rw [← List.append_assoc]; exact hrest, hcontained.definite, ?_, hcontained.result⟩
    intro a' ha' u hu
    rcases List.mem_append.1 ha' with ha' | ha'
    · -- a reported failure would have ended the first part
      obtain ⟨_, _, he⟩ := hfirst.reported a' ha' u hu
      cases he
    · exact hcontained.reported a' ha' u hu

theorem Contains.definite {x : Run (σ × List Answer) α} (hx : Contains Q x) : Run.Definite x := by
  intro s u
  obtain ⟨answers, -, h⟩ := hx s.1 s.2
  exact h.definite u

/-- A handler around the computation is never entered. -/
theorem Contains.catching {x : Run (σ × List Answer) α} (hx : Contains Q x)
    {h : Misspeculation → Run (σ × List Answer) β} {k : α → Run (σ × List Answer) β}
    (hk : ∀ a, Q a → Contains Q' (k a)) : Contains Q' (Run.catching x h k) := by
  rw [Run.catching_definite hx.definite]
  exact hx.bind hk

end

theorem contains_settle (x : Run σ Speculation) {flags : SiteFlags} (hf : flags.isOptimistic = false)
    (operation name : String) : Contains (fun _ => True) (settle x.recorded flags operation name) := by
  intro s log
  rw [outcome_settle_recorded]
  refine ⟨[(x.outcome s).1], rfl, fun u => ?_, fun a ha u hu => ?_, fun _ _ => trivial⟩
  · unfold verdict
    split
    · simp
    · simp [unmet, hf]
    · simp [unmet, hf]
    · next f hne _ => exact fun h => hne u (Except.error.inj h)
  · refine ⟨operation, name, ?_⟩
    rw [List.mem_singleton.1 ha] at hu
    rcases hu with hu | hu
    · simp [hu, verdict, unmet, hf]
    · simp [hu, verdict, unmet, hf]

/-! ## Operands -/

namespace Machine

def Values (s : Stack) : Prop := ∀ o ∈ s, ∃ v, o = .value v

theorem values_nil : Values [] := by simp [Values]

theorem Values.push {s : Stack} (h : Values s) (v : Val) : Values (.value v :: s) := by
  intro o ho
  rcases List.mem_cons.1 ho with rfl | ho
  · exact ⟨v, rfl⟩
  · exact h o ho

theorem Values.pop {o : Operand} {s : Stack} (h : Values (o :: s)) : Values s :=
  fun o' ho' => h o' (List.mem_cons_of_mem o ho')

/-- A check that does not fail with a failed assumption, and gives what `Q` says. -/
structure Checks (Q : α → Prop) (x : Checked α) : Prop where
  definite : ∀ u, x ≠ .error (.misspeculation u)
  result : ∀ a, x = .ok a → Q a

variable {Q : α → Prop} {Q' : β → Prop}

theorem checks_ok {a : α} (ha : Q a) : Checks Q (.ok a) := by
  refine ⟨by simp, fun a' h => ?_⟩
  cases h
  exact ha

theorem checks_error {e : InternalFault} : Checks Q (.error (.internal e)) := ⟨by simp, by simp⟩

theorem Checks.bind {x : Checked α} {f : α → Checked β} (hx : Checks Q x) (hf : ∀ a, Q a → Checks Q' (f a)) :
    Checks Q' (x >>= f) := by
  cases x with
  | ok a => exact hf a (hx.result a rfl)
  | error e =>
    refine ⟨fun u hu => hx.definite u ?_, fun b hb => ?_⟩
    · cases hu
      rfl
    · cases hb

theorem Checks.contains {x : Checked α} (hx : Checks Q x) :
    Contains Q (Run.ofExcept x : Run (σ × List Answer) α) := by
  cases x with
  | ok a => exact contains_pure (hx.result a rfl)
  | error e => exact contains_fail fun u hu => hx.definite u (congrArg _ hu)

theorem checks_popValue {s : Stack} (hs : Values s) : Checks (fun p => Values p.2) (popValue s) := by
  cases s with
  | nil => exact checks_error
  | cons o s =>
    cases o with
    | value v => exact checks_ok hs.pop
    | caught u => exact checks_error

theorem checks_popInt {s : Stack} (hs : Values s) : Checks (fun p => Values p.2) (popInt s) := by
  refine (checks_popValue hs).bind fun p hp => ?_
  obtain ⟨v, rest⟩ := p
  cases v with
  | int i => exact checks_ok hp
  | _ => exact checks_error

theorem checks_popValues {s : Stack} (hs : Values s) (n : Nat) :
    Checks (fun p => Values p.2) (popValues n s) := by
  induction n generalizing s with
  | zero => exact checks_ok hs
  | succ n ih =>
    refine (checks_popValue hs).bind fun p hp => ?_
    exact (ih hp).bind fun p' hp' => checks_ok hp'

theorem checks_climb (scope : ObjRef) (depth : Int32) : Checks (fun _ => True) (climb scope depth) := by
  unfold climb
  split
  · exact checks_ok trivial
  · split
    · exact checks_ok trivial
    · exact checks_error

/-! ## Steps -/

def Effect.Values : Effect → Prop
  | .next s => Machine.Values s
  | .done _ => True

theorem Values.next {s : Stack} (h : Values s) (v : Val) : Effect.Values (.next (.value v :: s)) := h.push v

section

variable {code : Module} {l : Linker σ} {call : Method → List Val → Run (σ × List Answer) Val}
  {slots : List (Nat × Val)} {s : Stack}

/-- An instruction keeps a stack of values one, as long as the methods that it may call contain their
failures. -/
theorem contains_step (hs : Values s) {i : Insn} (hi : code.Admits i)
    (hcall : ∀ target args, code.AssumesNothing target → Contains (fun _ => True) (call target args)) :
    Contains Effect.Values (step code l.recording call slots s i) := by
  obtain ⟨hassumes, htargets⟩ := hi
  cases i with
  | load ty slot =>
    simp only [step]
    split
    · exact contains_pure (hs.next _)
    · exact contains_internal _
  | pushInt n => exact contains_pure (hs.next _)
  | undefined => exact contains_pure (hs.next _)
  | convert ty => exact ((checks_popValue hs).bind fun p hp => checks_ok (hp.next _)).contains
  | ret ty => exact ((checks_popValue hs).bind fun p _ => checks_ok trivial).contains
  | climb =>
    refine Checks.contains ((checks_popInt hs).bind fun p hp => (checks_popValue hp).bind fun p' hp' => ?_)
    obtain ⟨v, rest⟩ := p'
    cases v with
    | object o => exact (checks_climb o p.1).bind fun o' _ => checks_ok (hp'.next _)
    | _ => exact checks_error
  | reattribute =>
    refine Checks.contains ((checks_popInt hs).bind fun p hp => ?_)
    obtain ⟨pp, rest⟩ := p
    cases rest with
    | nil => exact checks_error
    | cons o rest =>
      obtain ⟨v, rfl⟩ := hp o (List.mem_cons_self ..)
      exact checks_error
  | rethrow =>
    cases s with
    | nil => exact contains_internal _
    | cons o s =>
      obtain ⟨v, rfl⟩ := hs o (List.mem_cons_self ..)
      exact contains_internal _
  | dynGet ty name flags =>
    refine (checks_popValue hs).contains.bind fun p hp => ?_
    exact (contains_settle _ hassumes _ _).bind fun v _ => contains_pure (hp.next v)
  | dynCall ret operands flags name =>
    simp only [step]
    split
    · exact contains_internal _
    · refine (checks_popValues hs _).contains.bind fun args hargs => ?_
      refine (checks_popValue hargs).contains.bind fun this hthis => ?_
      refine (checks_popValue hthis).contains.bind fun callee hcallee => ?_
      exact (contains_settle _ hassumes _ _).bind fun v _ => contains_pure (hcallee.next v)
  | invoke cls name signature =>
    simp only [step]
    cases hm : code.method? cls name with
    | none => exact contains_internal _
    | some target =>
      dsimp only
      split
      · exact contains_internal _
      · split
        · exact contains_internal _
        · refine (checks_popValues hs _).contains.bind fun p hp => ?_
          exact (hcall target p.1 (htargets _ _ _ _ rfl hm)).bind fun v _ => contains_pure (hp.next v)

end

/-! ## Runs -/

variable {code : Module} (l : Linker σ)

theorem contains_frame {m : Method} (hm : code.AssumesNothing m)
    {call : Method → List Val → Run (σ × List Answer) Val}
    (hcall : ∀ target args, code.AssumesNothing target → Contains (fun _ => True) (call target args))
    (slots : List (Nat × Val)) (n pc : Nat) {s : Stack} (hs : Values s) :
    Contains (fun _ => True) (frame code l.recording call m slots n pc s) := by
  -- on the steps: each one leaves values and enters no handler
  induction n generalizing pc s with
  | zero => exact contains_throw (by simp)
  | succ n ih =>
    cases hi : m.code[pc]? with
    | none =>
      rw [frame, hi]
      exact contains_internal _
    | some i =>
      have hadmits : code.Admits i := Module.assumesNothing_iff.1 hm i (List.mem_of_getElem? hi)
      rw [frame_succ _ _ _ _ _ hi]
      refine (contains_step hs hadmits hcall).catching fun e he => ?_
      cases e with
      | next s' => exact ih (pc + 1) he
      | done v => exact contains_pure trivial

/-- A run of code that assumes nothing contains its failures, in all its frames. -/
theorem contains_run {m : Method} (hm : code.AssumesNothing m) (n : Nat) (args : List Val) :
    Contains (fun _ => True) (run code l.recording n m args) := by
  -- on the frames that may still be nested
  induction n generalizing m args with
  | zero => exact contains_fail (by simp)
  | succ n ih =>
    unfold run
    split
    · exact contains_internal _
    · exact contains_frame l hm (fun target args htarget => ih htarget args) _ _ 0 values_nil

end Machine
end ScriptHost
