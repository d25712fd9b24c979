import ScriptHost.Proofs.Code.Activations
import ScriptHost.Proofs.Code.Assumptions

/-!
# Executions without failed assumptions

Code that assumes nothing may have handlers, and instructions that attribute caught failures and fail with them,
but nothing is ever caught: in all frames of an execution the methods assume nothing and the operands are values
(`Status.Plain`), and this is kept by every instruction, by calls and by returns (`plain_advance`). So no
execution of such code ends in a failed assumption, however long it is and however deep its calls go
(`ends_definite`).
-/

namespace ScriptHost

theorem Module.assumesNothing_of_methods {code : Module} (h : ∀ m ∈ code.methods, ∀ i ∈ m.code, i.assumes = false)
    {m : Method} (hm : m ∈ code.methods) : code.AssumesNothing m := by
  intro m' hm'
  induction hm' with
  | refl => exact h _ hm
  | call hi htarget hrest ih => exact ih (mem_of_method? htarget)

namespace Machine

variable {σ : Type} {code : Module}

/-- The frame runs a method that assumes nothing, and its operands are values. -/
structure Activation.Plain (code : Module) (a : Activation) : Prop where
  assumesNothing : code.AssumesNothing a.method
  values : Values a.stack

def Status.Plain (code : Module) : Status → Prop
  | .running a callers => a.Plain code ∧ ∀ f ∈ callers, f.Plain code
  | .ended r => ∀ u, r ≠ .error (.error (.misspeculation u))

namespace Status

variable {callers : List Activation}

theorem plain_raise {f : Fault} (hf : ∀ u, f ≠ .error (.misspeculation u)) (frames : List Activation) :
    (raise f frames).Plain code := by
  have hended : raise f frames = .ended (.error f) := by
    unfold raise
    split
    · next u => exact (hf u rfl).elim
    · rfl
  rw [hended]
  intro u hu
  exact hf u (Except.error.inj hu)

theorem plain_deliver (h : ∀ f ∈ callers, f.Plain code) (v : Val) : (deliver v callers).Plain code := by
  cases callers with
  | nil => simp [deliver, Plain]
  | cons a rest =>
    have ha := h a (List.mem_cons_self ..)
    exact ⟨⟨ha.assumesNothing, ha.values.push v⟩, fun f hf => h f (List.mem_cons_of_mem a hf)⟩

theorem plain_enter (h : ∀ f ∈ callers, f.Plain code) {m : Method} (hm : code.AssumesNothing m) (args : List Val) :
    (enter callers m args).Plain code := by
  unfold enter
  split
  · exact plain_raise (by simp) callers
  · split
    · exact plain_raise (by simp) callers
    · exact ⟨⟨hm, values_nil⟩, h⟩

theorem plain_after {a : Activation} (ha : a.Plain code) (h : ∀ f ∈ callers, f.Plain code)
    {r : Except Fault Effect} (hr : ∀ u, r ≠ .error (.error (.misspeculation u)))
    (he : ∀ e, r = .ok e → e.Values) : (after a callers r).Plain code := by
  match r with
  | .ok (.next s) => exact ⟨⟨ha.assumesNothing, he _ rfl⟩, h⟩
  | .ok (.done v) => exact plain_deliver h v
  | .error f => exact plain_raise (fun u hu => hr u (congrArg _ hu)) _

end Status

/-! ## Instructions -/

theorem checks_callee {s : Stack} (hs : Values s) (cls name : String) (signature : Signature) :
    Checks (fun c => Values c.2.2) (callee code s cls name signature) := by
  unfold callee
  cases code.method? cls name with
  | none => exact checks_error
  | some target =>
    dsimp only
    split
    · exact checks_error
    · split
      · exact checks_error
      · exact (checks_popValues hs _).bind fun p hp => checks_ok hp

/-- An instruction that assumes nothing leaves values and does not fail with a failed assumption, whatever its
linker answers. -/
theorem contained_step (l : Linker σ) (slots : List (Nat × Val)) {s : Stack} (hs : Values s) {i : Insn}
    (hi : code.Admits i) (st : σ) :
    ∃ answers, Contained Effect.Values answers ((step code l (run code l 0) slots s i).outcome st).1 := by
  have hsteps : Contains Effect.Values (step code l.recording (run code l.recording 0) slots s i) :=
    contains_step hs hi fun target args htarget => contains_run l htarget 0 args
  have hsame : Run.Projects Prod.fst (step code l.recording (run code l.recording 0) slots s i)
      (step code l (run code l 0) slots s i) :=
    projects_step l.projects_recording (projects_run l.projects_recording 0) slots s i
  obtain ⟨answers, -, hcontained⟩ := hsteps st []
  rw [hsame (st, [])]
  exact ⟨answers, hcontained⟩

theorem plain_advance (l : Linker σ) {x : Status × σ} (hx : x.1.Plain code) : (advance code l x).1.Plain code := by
  obtain ⟨s, st⟩ := x
  cases s with
  | ended r => exact hx
  | running a callers =>
    obtain ⟨ha, hcallers⟩ := hx
    cases hi : a.method.code[a.pc]? with
    | none =>
      rw [advance_fellOff hi]
      dsimp only
      exact Status.plain_raise (by simp) callers
    | some i =>
      have hadmits : code.Admits i :=
        Module.assumesNothing_iff.1 ha.assumesNothing i (List.mem_of_getElem? hi)
      cases hc : i.isInvoke with
      | false =>
        obtain ⟨answers, hstep⟩ := contained_step l a.slots ha.values hadmits st
        rw [advance_step hi hc]
        exact Status.plain_after ha hcallers hstep.definite hstep.result
      | true =>
        obtain ⟨cls, name, signature, rfl⟩ := Insn.isInvoke_iff.1 hc
        have hcallee := @checks_callee code a.stack ha.values cls name signature
        rw [advance_invoke hi]
        cases hr : callee code a.stack cls name signature with
        | error e => exact Status.plain_raise (fun u hu => hcallee.definite u (hr.trans (by simpa using hu))) _
        | ok c =>
          obtain ⟨target, args, s⟩ := c
          refine Status.plain_enter (fun f hf => ?_) (hadmits.2 _ _ _ _ rfl (callee_ok hr)) args
          rcases List.mem_cons.1 hf with rfl | hf
          · exact ⟨ha.assumesNothing, hcallee.result _ hr⟩
          · exact hcallers f hf

theorem plain_iterate (l : Linker σ) {x : Status × σ} (hx : x.1.Plain code) (n : Nat) :
    ((advance code l)^[n] x).1.Plain code := by
  induction n generalizing x with
  | zero => exact hx
  | succ n ih => exact ih (plain_advance l hx)

/-- No execution of code that assumes nothing ends in a failed assumption: not after any number of instructions,
under any linker, whatever handlers there are and however methods call each other; and no run of it within its
budget does. -/
theorem ends_definite (l : Linker σ) {m : Method} (hm : code.AssumesNothing m) (args : List Val) (st : σ)
    (u : Misspeculation) :
    (∀ n, ((advance code l)^[n] (.enter [] m args, st)).1 ≠ .ended (.error (.error (.misspeculation u)))) ∧
    ((execute code l m args).outcome st).1 ≠ .error (.error (.misspeculation u)) := by
  have hstart : (Status.enter [] m args).Plain code := Status.plain_enter (by simp) hm args
  have hnever : ∀ n, ((advance code l)^[n] (.enter [] m args, st)).1 ≠
      .ended (.error (.error (.misspeculation u))) := by
    intro n h
    have hplain := @plain_iterate σ code l (.enter [] m args, st) hstart n
    rw [h] at hplain
    exact hplain u rfl
  refine ⟨hnever, fun h => ?_⟩
  rcases hrun : (execute code l m args).outcome st with ⟨r, st'⟩
  rw [hrun] at h
  obtain ⟨n, hn⟩ := leads_execute hrun (by rw [show r = _ from h]; simp)
  apply hnever n
  rw [hn, show r = _ from h]

/-- A method that calls itself under a handler, which attributes what it catches and fails with it. -/
def retrying : Method where
  cls := "Script"
  name := "retry"
  signature := ⟨.int, [.object]⟩
  code := [.load .object 0, .invoke "Script" "retry" ⟨.int, [.object]⟩, .dynGet .int "x" .scope, .ret .int,
    .pushInt 7, .reattribute, .rethrow]
  handlers := [⟨0, 3, 4⟩]

def retryingModule : Module := ⟨"m", ⟨[("Script", ⟨"Script", [retrying]⟩)]⟩⟩

/-- Under a linker that reports a failed assumption for every operation it ends in too many frames. -/
theorem ends_definite_retrying :
    retryingModule.AssumesNothing retrying ∧
    ((execute retryingModule (.refusing Unit) retrying [.undefined]).outcome ()).1 =
      .error (.error (.script .callDepth)) ∧
    ∀ u n, ((advance retryingModule (.refusing Unit))^[n] (.enter [] retrying [.undefined], ())).1 ≠
      .ended (.error (.error (.misspeculation u))) := by
  have h : retryingModule.AssumesNothing retrying :=
    Module.assumesNothing_of_methods (by decide) (by decide)
  refine ⟨h, by decide +kernel, fun u n => ?_⟩
  exact (ends_definite (.refusing Unit) h [.undefined] () u).1 n

end Machine
end ScriptHost
