import Mathlib.Data.Finset.Lattice.Fold
import Mathlib.Order.Lattice.Nat
import ScriptHost.Proofs.Code.Activations
import ScriptHost.Proofs.Code.Answers

/-!
# Executions end

In code whose handlers go forward a frame never comes back to an instruction, and no more than a fixed number of
frames are nested. So an execution ends, however methods call each other: its `rank` weighs what is left of each
frame by how many frames may still be nested in it, and every instruction lowers it (`advance_below`). The rank at
the start is a bound on the number of instructions (`ends_within`). For the same reason a frame of such code is
never short of its budget (`returns_run`).
-/

namespace ScriptHost

open Machine

variable {σ : Type}

/-! ## Code that goes forward -/

/-- Every handler goes on behind the region that it covers. -/
def Method.Forward (m : Method) : Prop := ∀ h ∈ m.handlers, h.stop ≤ h.target

instance (m : Method) : Decidable m.Forward := inferInstanceAs (Decidable (∀ _ ∈ m.handlers, _ ≤ _))

theorem Method.Forward.lt_target {m : Method} (hm : m.Forward) {pc : Nat} {h : Handler}
    (hh : m.handlerFor pc = some h) : pc < h.target := by
  have hle := hm h (List.mem_of_find?_eq_some hh)
  have hcovers := List.find?_some hh
  simp only [Handler.covers, Bool.and_eq_true, decide_eq_true_eq] at hcovers
  omega

namespace Module

def Forward (code : Module) : Prop := ∀ m ∈ code.methods, m.Forward

instance (code : Module) : Decidable code.Forward := inferInstanceAs (Decidable (∀ _ ∈ code.methods, _))

def longest (code : Module) : Nat := code.methods.toFinset.sup fun m => m.code.length

theorem length_le_longest {code : Module} {m : Method} (hm : m ∈ code.methods) : m.code.length ≤ code.longest :=
  Finset.le_sup (f := fun m : Method => m.code.length) (List.mem_toFinset.2 hm)

end Module

/-- The fault is no error that a caller is given: the computation does not return. -/
def Fault.Aborts (f : Fault) : Prop := ∀ e, f ≠ .error e

/-- The operations of the linker return. -/
structure Linker.Returns (l : Linker σ) : Prop where
  get : ∀ receiver name ty flags, Run.Avoids Fault.Aborts (l.get receiver name ty flags)
  call : ∀ callee this args ret flags name, Run.Avoids Fault.Aborts (l.call callee this args ret flags name)

namespace Machine

variable {code : Module}

/-! ## Ranks -/

def Activation.left (a : Activation) : Nat := a.method.code.length - a.pc

/-- What an instruction counts in a frame with some callers: more than all frames that may be nested in it. -/
def weight (code : Module) (callers : Nat) : Nat := (code.longest + 2) ^ (maxDepth - callers)

/-- What is left of frames that wait for a call. -/
def waiting (code : Module) : List Activation → Nat
  | [] => 0
  | a :: rest => a.left * weight code rest.length + waiting code rest

/-- A bound on the instructions that an execution still takes. -/
def Status.rank (code : Module) : Status → Nat
  | .running a callers => waiting code (a :: callers) + weight code callers.length + 1
  | .ended _ => 0

theorem weight_pos (code : Module) (callers : Nat) : 0 < weight code callers := Nat.pow_pos (Nat.succ_pos _)

theorem weight_succ (code : Module) {callers : Nat} (h : callers < maxDepth) :
    weight code callers = (code.longest + 2) * weight code (callers + 1) := by
  have hexp : maxDepth - callers = maxDepth - (callers + 1) + 1 := by omega
  rw [weight, hexp, Nat.pow_succ, Nat.mul_comm]
  rfl

/-- The frame waits for a call in a method of the module. -/
structure Activation.Waits (code : Module) (a : Activation) : Prop where
  mem : a.method ∈ code.methods
  lt : a.pc < a.method.code.length

/-- The frames are of methods of the module and no more than may be nested, and all but the innermost wait. -/
def Status.Within (code : Module) : Status → Prop
  | .running a callers => callers.length < maxDepth ∧ a.method ∈ code.methods ∧ ∀ f ∈ callers, f.Waits code
  | .ended _ => True

theorem Status.Within.frames_le {s : Status} (h : s.Within code) : s.frames ≤ maxDepth := by
  cases s with
  | running a callers => exact h.1
  | ended r => exact Nat.zero_le _

/-- The status is within the module, and no more than so many instructions are left. -/
structure Status.Below (code : Module) (n : Nat) (s : Status) : Prop where
  within : s.Within code
  rank_le : s.rank code ≤ n

namespace Status

theorem Below.mono {n k : Nat} {s : Status} (h : s.Below code n) (hnk : n ≤ k) : s.Below code k :=
  ⟨h.within, Nat.le_trans h.rank_le hnk⟩

theorem below_ended (r : Except Fault Val) (n : Nat) : (ended r).Below code n := ⟨trivial, Nat.zero_le n⟩

variable {frames : List Activation}

theorem below_resumed {a : Activation} {rest : List Activation} (hn : (a :: rest).length ≤ maxDepth)
    (h : ∀ f ∈ a :: rest, f.Waits code) {pc : Nat} (hpc : a.pc < pc) (s : Stack) :
    (running { a with pc := pc, stack := s } rest).Below code (waiting code (a :: rest) + 1) := by
  have ha := h a (List.mem_cons_self ..)
  have hlt := ha.lt
  refine ⟨⟨hn, ha.mem, fun f hf => h f (List.mem_cons_of_mem a hf)⟩, ?_⟩
  have hleft : a.method.code.length - pc + 1 ≤ a.method.code.length - a.pc := by omega
  have hmul := Nat.mul_le_mul_right (weight code rest.length) hleft
  rw [Nat.add_mul, Nat.one_mul] at hmul
  simp only [rank, waiting, Activation.left]
  omega

theorem below_deliver (hn : frames.length ≤ maxDepth) (h : ∀ f ∈ frames, f.Waits code) (v : Val) :
    (deliver v frames).Below code (waiting code frames + 1) := by
  cases frames with
  | nil => exact below_ended _ _
  | cons a rest => exact below_resumed hn h (Nat.lt_succ_self _) _

theorem below_unwind (hf : code.Forward) (hn : frames.length ≤ maxDepth) (h : ∀ f ∈ frames, f.Waits code)
    (u : Misspeculation) : (unwind u frames).Below code (waiting code frames + 1) := by
  induction frames with
  | nil => exact below_ended _ _
  | cons a rest ih =>
    have ha := h a (List.mem_cons_self ..)
    rw [unwind]
    cases hh : a.method.handlerFor a.pc with
    | some handler => exact below_resumed hn h ((hf a.method ha.mem).lt_target hh) _
    | none =>
      have hrest := ih (by simp at hn; omega) fun f hf => h f (List.mem_cons_of_mem a hf)
      exact hrest.mono (by simp only [waiting]; omega)

theorem below_raise (hf : code.Forward) (hn : frames.length ≤ maxDepth) (h : ∀ f ∈ frames, f.Waits code)
    (f : Fault) : (raise f frames).Below code (waiting code frames + 1) := by
  unfold raise
  split
  · exact below_unwind hf hn h _
  · exact below_ended _ _

theorem below_after (hf : code.Forward) {a : Activation} {callers : List Activation}
    (hn : callers.length < maxDepth) (h : ∀ f ∈ a :: callers, f.Waits code) (r : Except Fault Effect) :
    (after a callers r).Below code (waiting code (a :: callers) + 1) := by
  have hlen : (a :: callers).length ≤ maxDepth := hn
  match r with
  | .ok (.next s) => exact below_resumed hlen h (Nat.lt_succ_self _) s
  | .ok (.done v) =>
    have hcallers := below_deliver (Nat.le_of_lt hn) (fun f hf => h f (List.mem_cons_of_mem a hf)) v
    exact hcallers.mono (by simp only [waiting]; omega)
  | .error f => exact below_raise hf hlen h f

/-- A method that is called takes less than its longest one more than it. -/
theorem below_enter (h : ∀ f ∈ frames, f.Waits code) {m : Method}
    (hm : m ∈ code.methods) (args : List Val) :
    (enter frames m args).Below code
      (waiting code frames + (code.longest + 1) * weight code frames.length + 1) := by
  unfold enter
  split
  · exact below_ended _ _
  · next hdepth =>
    split
    · exact below_ended _ _
    · refine ⟨⟨Nat.lt_of_not_le hdepth, hm, h⟩, ?_⟩
      have hmul := Nat.mul_le_mul_right (weight code frames.length) (Module.length_le_longest hm)
      simp only [rank, waiting, Activation.left, Nat.sub_zero]
      rw [Nat.add_mul, Nat.one_mul]
      omega

end Status

/-- Every instruction lowers the rank. -/
theorem advance_below (hf : code.Forward) (l : Linker σ) {a : Activation} {callers : List Activation}
    (h : (Status.running a callers).Within code) (st : σ) :
    ∃ n < (Status.running a callers).rank code, (advance code l (.running a callers, st)).1.Below code n := by
  obtain ⟨hn, ha, hcallers⟩ := h
  have hpos := weight_pos code callers.length
  cases hi : a.method.code[a.pc]? with
  | none =>
    rw [advance_fellOff hi]
    exact ⟨0, Nat.succ_pos _, Status.below_ended _ 0⟩
  | some i =>
    have hwaits : ∀ f ∈ a :: callers, f.Waits code := by
      intro f hf
      rcases List.mem_cons.1 hf with rfl | hf
      · exact ⟨ha, (List.getElem?_eq_some_iff.1 hi).1⟩
      · exact hcallers f hf
    have hlower : waiting code (a :: callers) + 1 < (Status.running a callers).rank code := by
      simp only [Status.rank]
      omega
    cases hc : i.isInvoke with
    | false =>
      rw [advance_step hi hc]
      exact ⟨_, hlower, Status.below_after hf hn hwaits _⟩
    | true =>
      obtain ⟨cls, name, signature, rfl⟩ := Insn.isInvoke_iff.1 hc
      rw [advance_invoke hi]
      cases hr : callee code a.stack cls name signature with
      | error e =>
        have hlen : (a :: callers).length ≤ maxDepth := hn
        exact ⟨_, hlower, Status.below_raise hf hlen hwaits _⟩
      | ok c =>
        obtain ⟨target, args, s⟩ := c
        have htarget : target ∈ code.methods := Module.mem_of_method? (callee_ok hr)
        have hcaller : ∀ f ∈ { a with stack := s } :: callers, f.Waits code := by
          intro f hf
          rcases List.mem_cons.1 hf with rfl | hf
          · exact ⟨ha, (List.getElem?_eq_some_iff.1 hi).1⟩
          · exact hcallers f hf
        refine ⟨_, ?_, Status.below_enter hcaller htarget args⟩
        have hweight := weight_succ code hn
        have hbelow := weight_pos code (callers.length + 1)
        simp only [Status.rank, waiting, Activation.left, List.length_cons]
        rw [hweight, Nat.add_mul code.longest 2, Nat.add_mul code.longest 1]
        omega

theorem within_advance (hf : code.Forward) (l : Linker σ) {x : Status × σ} (hx : x.1.Within code) :
    (advance code l x).1.Within code := by
  obtain ⟨s, st⟩ := x
  cases s with
  | ended r => exact hx
  | running a callers =>
    obtain ⟨n, -, h⟩ := advance_below hf l hx st
    exact h.within

theorem within_iterate (hf : code.Forward) (l : Linker σ) {x : Status × σ} (hx : x.1.Within code) (n : Nat) :
    ((advance code l)^[n] x).1.Within code := by
  induction n generalizing x with
  | zero => exact hx
  | succ n ih => exact ih (within_advance hf l hx)

theorem ends_within (hf : code.Forward) (l : Linker σ) {n : Nat} {s : Status} (hs : s.Below code n) (st : σ) :
    ∃ k ≤ n, ∃ r st', (advance code l)^[k] (s, st) = (.ended r, st') := by
  -- on the bound of the rank
  induction n using Nat.strongRecOn generalizing s st with
  | ind n ih =>
    cases s with
    | ended r => exact ⟨0, Nat.zero_le n, r, st, rfl⟩
    | running a callers =>
      obtain ⟨k, hk, hbelow⟩ := advance_below hf l hs.within st
      have hkn : k < n := Nat.lt_of_lt_of_le hk hs.rank_le
      obtain ⟨j, hj, r, st', hend⟩ := ih k hkn hbelow (advance code l (.running a callers, st)).2
      exact ⟨j + 1, by omega, r, st', hend⟩

/-! ## Budgets -/

theorem returned {α : Type} {x : Run σ α} (hx : Run.Avoids Fault.Aborts x) (st : σ) :
    (∃ a, (x.outcome st).1 = .ok a) ∨ ∃ e, (x.outcome st).1 = .error (.error e) := by
  cases hr : (x.outcome st).1 with
  | ok a => exact .inl ⟨a, rfl⟩
  | error f =>
    obtain ⟨e, rfl⟩ : ∃ e, f = .error e := by simpa [Fault.Aborts] using hx st f hr
    exact .inr ⟨e, rfl⟩

theorem returns_fail {α : Type} (e : EngineError) : Run.Avoids Fault.Aborts (Run.fail e : Run σ α) :=
  Run.avoids_throw fun h => h e rfl

theorem returns_ofExcept {α : Type} (x : Checked α) : Run.Avoids Fault.Aborts (Run.ofExcept x : Run σ α) := by
  cases x with
  | ok a => exact Run.avoids_pure a
  | error e => exact returns_fail e

theorem returns_settle {x : Run σ Speculation} (hx : Run.Avoids Fault.Aborts x) (flags : SiteFlags)
    (operation name : String) : Run.Avoids Fault.Aborts (settle x flags operation name) := by
  intro st f h
  rw [outcome_settle] at h
  rcases returned hx st with ⟨a, ha⟩ | ⟨e, he⟩
  · rw [ha] at h
    cases a with
    | held v => cases h
    | failed u =>
      cases h
      exact fun hf => hf _ rfl
  · rw [he] at h
    cases e with
    | misspeculation u =>
      cases h
      exact fun hf => hf _ rfl
    | _ =>
      cases h
      exact fun hf => hf _ rfl

variable {l : Linker σ} {call : Method → List Val → Run σ Val}

theorem returns_step (hl : l.Returns) (hcall : ∀ m ∈ code.methods, ∀ args, Run.Avoids Fault.Aborts (call m args))
    (slots : List (Nat × Val)) (s : Stack) (i : Insn) : Run.Avoids Fault.Aborts (step code l call slots s i) := by
  cases i with
  | load ty slot =>
    simp only [step]
    split
    · exact Run.avoids_pure _
    · exact returns_fail _
  | pushInt n => exact Run.avoids_pure _
  | climb => exact returns_ofExcept _
  | dynGet ty name flags =>
    refine (returns_ofExcept _).bind fun p => ?_
    exact (returns_settle (hl.get _ _ _ _) _ _ _).bind fun v => Run.avoids_pure _
  | convert ty => exact returns_ofExcept _
  | undefined => exact Run.avoids_pure _
  | dynCall ret operands flags name =>
    simp only [step]
    split
    · exact returns_fail _
    · refine (returns_ofExcept _).bind fun args => (returns_ofExcept _).bind fun this => ?_
      refine (returns_ofExcept _).bind fun callee => ?_
      exact (returns_settle (hl.call _ _ _ _ _ _) _ _ _).bind fun v => Run.avoids_pure _
  | reattribute => exact returns_ofExcept _
  | rethrow =>
    simp only [step]
    split
    · exact returns_fail _
    · exact returns_fail _
  | ret ty => exact returns_ofExcept _
  | invoke cls name signature =>
    rw [step_invoke_eq]
    intro st
    cases hr : callee code s cls name signature with
    | error e => exact returns_fail e st
    | ok c =>
      have htarget := Module.mem_of_method? (callee_ok hr)
      exact (hcall c.1 htarget c.2.1).bind (fun v => Run.avoids_pure _) st

theorem returns_frame (hl : l.Returns) (hcall : ∀ m ∈ code.methods, ∀ args, Run.Avoids Fault.Aborts (call m args))
    {m : Method} (hm : m.Forward) (slots : List (Nat × Val)) {n pc : Nat} (hn : m.code.length - pc < n)
    (s : Stack) : Run.Avoids Fault.Aborts (frame code l call m slots n pc s) := by
  induction n generalizing pc s with
  | zero => omega
  | succ n ih =>
    cases hi : m.code[pc]? with
    | none =>
      rw [frame, hi]
      exact returns_fail _
    | some i =>
      have hlt := (List.getElem?_eq_some_iff.1 hi).1
      rw [frame_succ _ _ _ _ _ hi]
      refine (returns_step hl hcall slots s i).catching (fun u => ?_) fun e => ?_
      · rw [recover]
        cases hh : m.handlerFor pc with
        | some h =>
          have hforward := hm.lt_target hh
          exact ih (by omega) _
        | none => exact returns_fail _
      · cases e with
        | next s' => exact ih (by omega) s'
        | done v => exact Run.avoids_pure v

theorem returns_run (hf : code.Forward) (hl : l.Returns) (n : Nat) {m : Method} (hm : m ∈ code.methods)
    (args : List Val) : Run.Avoids Fault.Aborts (run code l n m args) := by
  -- on the frames that may still be nested
  induction n generalizing m args with
  | zero => exact returns_fail _
  | succ n ih =>
    have hbudget : m.code.length - 0 < budget m := by
      rw [budget, rounds]
      omega
    rw [run]
    split
    · exact returns_fail _
    · exact returns_frame hl (fun m hm args => ih hm args) (hf m hm) _ hbudget []

/-! ## Executions -/

theorem below_start {m : Method} (hm : m ∈ code.methods) (args : List Val) :
    (Status.enter [] m args).Below code ((code.longest + 2) ^ (maxDepth + 1)) := by
  have henter := @Status.below_enter code [] (by simp) m hm args
  refine henter.mono ?_
  have hpos := weight_pos code 0
  have hpow : (code.longest + 2) ^ (maxDepth + 1) = (code.longest + 2) * weight code 0 := by
    rw [Nat.pow_succ, Nat.mul_comm]
    rfl
  rw [hpow, Nat.add_mul code.longest 2, Nat.add_mul code.longest 1]
  simp only [waiting, List.length_nil]
  omega

/-- An execution comes to its end, which is that of the run with a budget. It returns a value or an error. -/
theorem ends_returned (hf : code.Forward) (hl : l.Returns) {m : Method} (hm : m ∈ code.methods) (args : List Val)
    (st : σ) : ∃ n ≤ (code.longest + 2) ^ (maxDepth + 1), ∃ r st',
      (advance code l)^[n] (.enter [] m args, st) = (.ended r, st') ∧
        (execute code l m args).outcome st = (r, st') ∧ ((∃ v, r = .ok v) ∨ ∃ e, r = .error (.error e)) := by
  obtain ⟨n, hn, r, st', hend⟩ := ends_within hf l (below_start hm args) st
  have hreturned := returned (returns_run hf hl maxDepth hm args) st
  rcases hrun : (run code l maxDepth m args).outcome st with ⟨q, st₁⟩
  rw [hrun] at hreturned
  have hq : q ≠ .error .exhausted := by
    rintro rfl
    rcases hreturned with ⟨v, hv⟩ | ⟨e, he⟩
    · cases hv
    · cases he
  obtain ⟨k, hk⟩ := leads_execute hrun hq
  obtain ⟨rfl, rfl⟩ := ended_unique hend hk
  exact ⟨n, hn, r, st', hend, hrun, hreturned⟩

end Machine
end ScriptHost
