import Mathlib.Logic.Function.Iterate
import ScriptHost.Proofs.Assoc
import ScriptHost.Proofs.Code.Frame

/-!
# Executions as rows of frames

An execution is read as a row of frames of which the innermost one runs, one instruction at a time and with no
bound on the number of steps (`advance`). A static call puts a frame on the row, a result or a failed assumption
takes frames off it. A run that ends within its budget ends as the row of frames does (`leads_execute`): what
holds of every status that a row of frames comes to holds of every run.
-/

namespace ScriptHost

def Insn.isInvoke : Insn → Bool
  | .invoke _ _ _ => true
  | _ => false

theorem Insn.isInvoke_iff {i : Insn} :
    i.isInvoke = true ↔ ∃ cls name signature, i = .invoke cls name signature := by
  cases i <;> simp [Insn.isInvoke]

theorem Module.mem_of_method? {code : Module} {cls name : String} {m : Method}
    (h : code.method? cls name = some m) : m ∈ code.methods := by
  obtain ⟨c, hc, hm⟩ := Option.bind_eq_some_iff.1 h
  exact List.mem_flatMap.2 ⟨(cls, c), Assoc.mem_of_get? hc, List.mem_of_find?_eq_some hm⟩

namespace Machine

variable {σ : Type}

/-- A frame in an execution. One that waits for a call stands at the call and keeps the operands below the
arguments. -/
structure Activation where
  method : Method
  slots : List (Nat × Val)
  pc : Nat
  stack : Stack

/-- Where an execution stands: in a frame with its callers, the innermost first, or at its end. -/
inductive Status where
  | running (top : Activation) (callers : List Activation)
  | ended (r : Except Fault Val)

namespace Status

def frames : Status → Nat
  | running _ callers => callers.length + 1
  | ended _ => 0

/-- A failed assumption goes on in the innermost frame that has a handler where it stands. -/
def unwind (u : Misspeculation) : List Activation → Status
  | [] => .ended (.error (.error (.misspeculation u)))
  | a :: rest =>
    match a.method.handlerFor a.pc with
    | some h => .running { a with pc := h.target, stack := [.caught u] } rest
    | none => unwind u rest

/-- A fault in the innermost one of some frames. Every fault but a failed assumption ends the execution. -/
def raise : Fault → List Activation → Status
  | .error (.misspeculation u), frames => unwind u frames
  | f, _ => .ended (.error f)

/-- The innermost frame gets the value that it waits for. -/
def deliver (v : Val) : List Activation → Status
  | [] => .ended (.ok v)
  | a :: rest => .running { a with pc := a.pc + 1, stack := .value v :: a.stack } rest

def finish : Except Fault Val → List Activation → Status
  | .ok v, callers => deliver v callers
  | .error f, callers => raise f callers

def after (a : Activation) (callers : List Activation) : Except Fault Effect → Status
  | .ok (.next s) => .running { a with pc := a.pc + 1, stack := s } callers
  | .ok (.done v) => deliver v callers
  | .error f => raise f (a :: callers)

def enter (callers : List Activation) (m : Method) (args : List Val) : Status :=
  if maxDepth ≤ callers.length then raise (.error ScriptFault.callDepth) callers
  else if args.length ≠ m.signature.params.length then
    raise (.error (InternalFault.argumentCount m.cls m.name m.signature.params.length args.length)) callers
  else .running ⟨m, locals m.signature.paramOffsets args, 0, []⟩ callers

@[simp] theorem finish_nil (r : Except Fault Val) : finish r [] = .ended r := by
  cases r with
  | ok v => rfl
  | error f =>
    cases f with
    | error e => cases e <;> rfl
    | panic t => rfl
    | exhausted => rfl

/-- What a frame had on its stack does not matter to a fault in it. -/
theorem raise_stack (f : Fault) (a : Activation) (s : Stack) (callers : List Activation) :
    raise f ({ a with stack := s } :: callers) = raise f (a :: callers) := by
  cases f with
  | error e => cases e <;> rfl
  | panic t => rfl
  | exhausted => rfl

end Status

/-- The method that a static call runs, its arguments, and the operands below them. -/
def callee (code : Module) (s : Stack) (cls name : String) (signature : Signature) :
    Checked (Method × List Val × Stack) :=
  match code.method? cls name with
  | none => .error (InternalFault.unresolvedMethod cls name)
  | some target =>
    if target.signature ≠ signature then
      .error (InternalFault.signatureMismatch cls name signature target.signature)
    else if s.length < signature.params.length then .error (InternalFault.argumentUnderflow cls name)
    else do
      let (args, s) ← popValues signature.params.length s
      return (target, args, s)

theorem callee_ok {code : Module} {s s' : Stack} {cls name : String} {signature : Signature} {target : Method}
    {args : List Val} (h : callee code s cls name signature = .ok (target, args, s')) :
    code.method? cls name = some target := by
  unfold callee at h
  cases hm : code.method? cls name with
  | none =>
    rw [hm] at h
    cases h
  | some m =>
    rw [hm] at h
    dsimp only at h
    split at h
    · cases h
    · split at h
      · cases h
      · cases hp : popValues signature.params.length s with
        | error e =>
          rw [hp] at h
          cases h
        | ok p =>
          rw [hp] at h
          cases h
          rfl

/-- An execution goes on by one instruction of its innermost frame. -/
def advance (code : Module) (l : Linker σ) : Status × σ → Status × σ
  | (.ended r, st) => (.ended r, st)
  | (.running a callers, st) =>
    match a.method.code[a.pc]? with
    | none => (.raise (.error (InternalFault.fellOff a.method.cls a.method.name)) callers, st)
    | some (.invoke cls name signature) =>
      match callee code a.stack cls name signature with
      | .ok (target, args, s) => (.enter ({ a with stack := s } :: callers) target args, st)
      | .error e => (.raise (.error e) (a :: callers), st)
    -- no other instruction calls a method, so the frames that it may nest do not matter
    | some i =>
      let (r, st') := (step code l (run code l 0) a.slots a.stack i).outcome st
      (.after a callers r, st')

section

variable {code : Module} {l : Linker σ} {call : Method → List Val → Run σ Val}

/-! ## Instructions -/

@[simp] theorem advance_ended (r : Except Fault Val) (st : σ) :
    advance code l (.ended r, st) = (.ended r, st) := rfl

theorem advance_fellOff {a : Activation} (hi : a.method.code[a.pc]? = none) (callers : List Activation) (st : σ) :
    advance code l (.running a callers, st) =
      (.raise (.error (InternalFault.fellOff a.method.cls a.method.name)) callers, st) := by
  rw [advance, hi]

theorem advance_invoke {a : Activation} {cls name : String} {signature : Signature}
    (hi : a.method.code[a.pc]? = some (.invoke cls name signature)) (callers : List Activation) (st : σ) :
    advance code l (.running a callers, st) =
      match callee code a.stack cls name signature with
      | .ok (target, args, s) => (.enter ({ a with stack := s } :: callers) target args, st)
      | .error e => (.raise (.error e) (a :: callers), st) := by
  rw [advance, hi]

theorem advance_step {a : Activation} {i : Insn} (hi : a.method.code[a.pc]? = some i)
    (hcall : i.isInvoke = false) (callers : List Activation) (st : σ) :
    advance code l (.running a callers, st) =
      (.after a callers ((step code l (run code l 0) a.slots a.stack i).outcome st).1,
        ((step code l (run code l 0) a.slots a.stack i).outcome st).2) := by
  rw [advance, hi]
  cases i with
  | invoke cls name signature => cases hcall
  | _ => rfl

theorem step_call_irrel {i : Insn} (hcall : i.isInvoke = false) (call' : Method → List Val → Run σ Val)
    (slots : List (Nat × Val)) (s : Stack) : step code l call slots s i = step code l call' slots s i := by
  cases i with
  | invoke cls name signature => cases hcall
  | _ => rfl

theorem step_invoke_eq (slots : List (Nat × Val)) (s : Stack) (cls name : String) (signature : Signature) :
    step code l call slots s (.invoke cls name signature) =
      Run.ofExcept (callee code s cls name signature) >>= fun c =>
        call c.1 c.2.1 >>= fun v => pure (.next (.value v :: c.2.2)) := by
  simp only [step, callee]
  cases code.method? cls name with
  | none => exact (Run.fail_bind _ _).symm
  | some target =>
    dsimp only
    split
    · exact (Run.fail_bind _ _).symm
    · split
      · exact (Run.fail_bind _ _).symm
      · cases popValues signature.params.length s with
        | ok p => rfl
        | error e => rfl

/-! ## Reaching a status -/

def Leads (code : Module) (l : Linker σ) (x y : Status × σ) : Prop := ∃ n, (advance code l)^[n] x = y

theorem Leads.refl (x : Status × σ) : Leads code l x x := ⟨0, rfl⟩

theorem Leads.step {x y : Status × σ} (h : Leads code l (advance code l x) y) : Leads code l x y := by
  obtain ⟨n, hn⟩ := h
  exact ⟨n + 1, hn⟩

theorem Leads.trans {x y z : Status × σ} (hxy : Leads code l x y) (hyz : Leads code l y z) : Leads code l x z := by
  obtain ⟨n, rfl⟩ := hxy
  obtain ⟨k, rfl⟩ := hyz
  exact ⟨k + n, Function.iterate_add_apply ..⟩

theorem advance_iterate_ended (r : Except Fault Val) (st : σ) (n : Nat) :
    (advance code l)^[n] (.ended r, st) = (.ended r, st) :=
  Function.iterate_fixed (advance_ended r st) n

theorem ended_unique {x : Status × σ} {r r' : Except Fault Val} {st st' : σ} {n k : Nat}
    (h : (advance code l)^[n] x = (.ended r, st)) (h' : (advance code l)^[k] x = (.ended r', st')) :
    r = r' ∧ st = st' := by
  have hboth : ((.ended r, st) : Status × σ) = (.ended r', st') := by
    calc (.ended r, st) = (advance code l)^[k] ((advance code l)^[n] x) := by rw [h, advance_iterate_ended]
      _ = (advance code l)^[n] ((advance code l)^[k] x) := by
        rw [← Function.iterate_add_apply, ← Function.iterate_add_apply, Nat.add_comm]
      _ = (.ended r', st') := by rw [h', advance_iterate_ended]
  cases hboth
  exact ⟨rfl, rfl⟩

/-! ## Runs within a budget -/

/-- The runs of called methods are the executions of their frames. -/
def Unfolds (code : Module) (l : Linker σ) (call : Method → List Val → Run σ Val) (callers : List Activation) :
    Prop :=
  ∀ m args st r st', (call m args).outcome st = (r, st') → r ≠ .error .exhausted →
    Leads code l (.enter callers m args, st) (.finish r callers, st')

/-- An instruction leads its frame to what it has come to, a static call through the frames of the method. -/
theorem leads_step {a : Activation} {callers : List Activation}
    (hcall : ∀ s, Unfolds code l call ({ a with stack := s } :: callers)) {i : Insn}
    (hi : a.method.code[a.pc]? = some i) {st st' : σ} {r : Except Fault Effect}
    (h : (step code l call a.slots a.stack i).outcome st = (r, st')) (hr : r ≠ .error .exhausted) :
    Leads code l (.running a callers, st) (.after a callers r, st') := by
  apply Leads.step
  cases hc : i.isInvoke with
  | false =>
    rw [advance_step hi hc, step_call_irrel hc call, h]
    exact .refl _
  | true =>
    obtain ⟨cls, name, signature, rfl⟩ := Insn.isInvoke_iff.1 hc
    rw [advance_invoke hi]
    rw [step_invoke_eq] at h
    cases hcallee : callee code a.stack cls name signature with
    | error e =>
      rw [hcallee] at h
      cases h
      exact .refl _
    | ok c =>
      obtain ⟨target, args, s⟩ := c
      rw [hcallee, Run.ofExcept_ok, pure_bind, Run.outcome_bind] at h
      rcases hrun : (call target args).outcome st with ⟨q, st1⟩
      rw [hrun] at h
      cases q with
      | ok v =>
        cases h
        exact hcall s target args st _ _ hrun (by simp)
      | error f =>
        cases h
        have hlead := hcall s target args st _ _ hrun (by simpa using hr)
        rwa [Status.finish, Status.raise_stack] at hlead

theorem leads_frame {callers : List Activation} (hcall : ∀ a, Unfolds code l call (a :: callers)) (n : Nat)
    (a : Activation) {st st' : σ} {r : Except Fault Val}
    (h : (frame code l call a.method a.slots n a.pc a.stack).outcome st = (r, st'))
    (hr : r ≠ .error .exhausted) :
    Leads code l (.running a callers, st) (.finish r callers, st') := by
  -- on the steps that are left to the frame
  induction n generalizing a st with
  | zero =>
    cases h
    exact (hr rfl).elim
  | succ n ih =>
    cases hi : a.method.code[a.pc]? with
    | none =>
      rw [frame, hi] at h
      cases h
      exact .step (by rw [advance_fellOff hi]; exact .refl _)
    | some i =>
      rw [frame_succ _ _ _ _ _ hi, Run.outcome_catching] at h
      rcases hs : (step code l call a.slots a.stack i).outcome st with ⟨q, st1⟩
      rw [hs] at h
      have hq : q ≠ .error .exhausted := by
        rintro rfl
        cases h
        exact hr rfl
      refine (leads_step (fun s => hcall _) hi hs hq).trans ?_
      cases q with
      | ok e =>
        cases e with
        | next s => exact ih { a with pc := a.pc + 1, stack := s } h
        | done v =>
          cases h
          exact .refl _
      | error f =>
        cases f with
        | error e =>
          cases e with
          | misspeculation u =>
            simp only [recover] at h
            simp only [Status.after, Status.raise, Status.unwind]
            cases hh : a.method.handlerFor a.pc with
            | some handler =>
              rw [hh] at h
              exact ih { a with pc := handler.target, stack := [.caught u] } h
            | none =>
              rw [hh] at h
              cases h
              exact .refl _
          | _ =>
            cases h
            exact .refl _
        | panic t =>
          cases h
          exact .refl _
        | exhausted => exact (hq rfl).elim

theorem leads_run (n : Nat) {callers : List Activation} (hn : callers.length + n = maxDepth) :
    Unfolds code l (run code l n) callers := by
  -- on the frames that may still be nested
  induction n generalizing callers with
  | zero =>
    intro m args st r st' h hr
    cases h
    rw [Status.enter, if_pos (by omega)]
    exact .refl _
  | succ n ih =>
    intro m args st r st' h hr
    rw [Status.enter, if_neg (by omega)]
    rw [run] at h
    split at h
    · next hargs =>
      cases h
      rw [if_pos hargs]
      exact .refl _
    · next hargs =>
      rw [if_neg hargs]
      refine leads_frame (fun a => ih ?_) _ _ h hr
      rw [List.length_cons]
      omega

/-- An execution whose run ends within its budget comes to the same end. -/
theorem leads_execute {m : Method} {args : List Val} {st st' : σ} {r : Except Fault Val}
    (h : (execute code l m args).outcome st = (r, st')) (hr : r ≠ .error .exhausted) :
    Leads code l (.enter [] m args, st) (.ended r, st') := by
  have hnone : ([] : List Activation).length + maxDepth = maxDepth := Nat.zero_add maxDepth
  rw [← Status.finish_nil r]
  exact leads_run maxDepth hnone m args st r st' h hr

end

end Machine
end ScriptHost
