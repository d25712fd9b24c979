import Mathlib.Data.List.Forall2
import ScriptHost.Scope.SharedUnit
import ScriptHost.Proofs.Run

/-!
# Frames, one instruction at a time

A frame is read as an equation: a step of it is a computation under the handler of its instruction
(`frame_succ`), and a row of instructions that stands in the code (`CodeAt`) takes the frame from its
first place to the place behind it. The rows here are the ones that generated code is made of: loads
of parameters, pushes, and the operations that go through the linker.
-/

namespace ScriptHost.Machine

variable {σ : Type}

/-! ## Code in its place -/

/-- The instructions stand in the method from a place on. -/
def CodeAt (m : Method) (pc : Nat) (is : List Insn) : Prop :=
  ∀ k i, is[k]? = some i → m.code[pc + k]? = some i

theorem CodeAt.ofCode {m : Method} {is : List Insn} (h : m.code = is) : CodeAt m 0 is := by
  intro k i hk
  rw [Nat.zero_add, h, hk]

theorem CodeAt.left {m : Method} {pc : Nat} {is js : List Insn} (h : CodeAt m pc (is ++ js)) :
    CodeAt m pc is := by
  intro k i hk
  have hlt := (List.getElem?_eq_some_iff.1 hk).1
  exact h k i (by rw [List.getElem?_append_left hlt, hk])

theorem CodeAt.right {m : Method} {pc : Nat} {is js : List Insn} (h : CodeAt m pc (is ++ js)) :
    CodeAt m (pc + is.length) js := by
  intro k i hk
  have hmem : (is ++ js)[is.length + k]? = some i := by
    rw [List.getElem?_append_right (by omega), Nat.add_sub_cancel_left, hk]
  rw [Nat.add_assoc]
  exact h _ i hmem

theorem CodeAt.tail {m : Method} {pc : Nat} {i : Insn} {is : List Insn} (h : CodeAt m pc (i :: is)) :
    CodeAt m (pc + 1) is :=
  @CodeAt.right m pc [i] is h

theorem CodeAt.head {m : Method} {pc : Nat} {i : Insn} {is : List Insn} (h : CodeAt m pc (i :: is)) :
    m.code[pc]? = some i :=
  h 0 i rfl

/-! ## Steps of a frame -/

section

variable (code : Module) (l : Linker σ) (call : Method → List Val → Run σ Val) (m : Method)
  (slots : List (Nat × Val))

/-- How a frame goes on after a failed assumption at an instruction. -/
def recover (n pc : Nat) (u : Misspeculation) : Run σ Val :=
  match m.handlerFor pc with
  | some h => frame code l call m slots n h.target [.caught u]
  | none => Run.escape u

def resume (n pc : Nat) : Effect → Run σ Val
  | .next s => frame code l call m slots n (pc + 1) s
  | .done v => pure v

theorem frame_succ {pc : Nat} {i : Insn} (hi : m.code[pc]? = some i) (n : Nat) (s : Stack) :
    frame code l call m slots (n + 1) pc s =
      Run.catching (step code l call slots s i) (recover code l call m slots n pc)
        (resume code l call m slots n pc) := by
  rw [frame, hi, Run.catching]
  dsimp only
  congr 1
  funext r
  cases r with
  | ok e => cases e <;> rfl
  | error f =>
    cases f with
    | error e => cases e <;> rfl
    | panic t => rfl
    | exhausted => rfl

variable {code l call m slots}

theorem frame_next {pc n : Nat} {i : Insn} {s : Stack} (s' : Stack) (hi : m.code[pc]? = some i)
    (hs : step code l call slots s i = pure (.next s')) :
    frame code l call m slots (n + 1) pc s = frame code l call m slots n (pc + 1) s' := by
  rw [frame_succ code l call m slots hi, hs, Run.catching_pure, resume]

theorem frame_done {pc n : Nat} {i : Insn} {s : Stack} {v : Val} (hi : m.code[pc]? = some i)
    (hs : step code l call slots s i = pure (.done v)) :
    frame code l call m slots (n + 1) pc s = pure v := by
  rw [frame_succ code l call m slots hi, hs, Run.catching_pure, resume]

theorem frame_push {α : Type} {pc n : Nat} {i : Insn} {s : Stack} {x : Run σ α} {f : α → Stack}
    (hi : m.code[pc]? = some i) (hs : step code l call slots s i = x >>= fun a => pure (.next (f a))) :
    frame code l call m slots (n + 1) pc s =
      Run.catching x (recover code l call m slots n pc) fun a => frame code l call m slots n (pc + 1) (f a) := by
  rw [frame_succ code l call m slots hi, hs, Run.catching_bind]
  simp only [Run.catching_pure, resume]

theorem recover_none {n pc : Nat} (hm : m.handlers = []) :
    recover code l call m slots n pc = Run.escape := by
  funext u
  simp [recover, Method.handlerFor, hm]

/-! ## Rows of instructions -/

def pushed (vs : List Val) (s : Stack) : Stack := vs.reverse.map .value ++ s

theorem pushed_cons (v : Val) (vs : List Val) (s : Stack) : pushed (v :: vs) s = pushed vs (.value v :: s) := by
  simp [pushed]

/-- The slots hold the arguments of a row of parameters. -/
def Loaded (slots : List (Nat × Val)) (start : Nat) (params : List Ty) (args : List Val) : Prop :=
  List.Forall₂ (fun slot v => slots.lookup slot = some v) (slotOffsets start params) args

theorem frame_loadParams {pc n start : Nat} {params : List Ty} {args : List Val} (s : Stack)
    (hc : CodeAt m pc (loadParams start params)) (hl : Loaded slots start params args) :
    frame code l call m slots (n + args.length) pc s =
      frame code l call m slots n (pc + args.length) (pushed args s) := by
  -- on the parameters; a wide one takes two slots but one instruction, so `start` and `pc` move apart
  induction params generalizing pc start args s with
  | nil =>
    cases hl
    rfl
  | cons t ts ih =>
    cases hl with
    | @cons _ v _ vs hv hrest =>
      have hstep : step code l call slots s (.load t start) = pure (.next (.value v :: s)) := by
        simp only [step, hv]
      rw [List.length_cons, ← Nat.add_assoc, frame_next _ hc.head hstep, ih _ hc.tail hrest, pushed_cons]
      congr 1
      omega

theorem popValues_map (vs : List Val) (s : Stack) :
    popValues vs.length (vs.map .value ++ s) = .ok (vs.reverse, s) := by
  induction vs with
  | nil => rfl
  | cons v vs ih =>
    simp only [List.map_cons, List.cons_append, List.length_cons, popValues, popValue, ih, bind,
      Except.bind, List.reverse_cons]
    rfl

theorem popValues_pushed (vs : List Val) (s : Stack) :
    popValues vs.length (pushed vs s) = .ok (vs, s) := by
  have h := popValues_map vs.reverse s
  rwa [List.length_reverse, List.reverse_reverse] at h

theorem length_pushed (vs : List Val) (s : Stack) : (pushed vs s).length = vs.length + s.length := by
  simp [pushed]

variable (code l call slots)

theorem step_dynGet (receiver : Val) (s : Stack) (ty : Ty) (name : String) (flags : SiteFlags) :
    step code l call slots (.value receiver :: s) (.dynGet ty name flags) =
      settle (l.get receiver name ty flags) flags "get" name >>= fun v => pure (.next (.value v :: s)) := by
  simp only [step, popValue, Run.ofExcept_ok, pure_bind]

theorem step_dynCall (callee this : Val) (args : List Val) (s : Stack) (ret : Ty) (flags : SiteFlags)
    (name : String) :
    step code l call slots (pushed args (.value this :: .value callee :: s))
        (.dynCall ret (2 + args.length) flags name) =
      settle (l.call callee this args ret flags name) flags "call" name >>=
        fun v => pure (.next (.value v :: s)) := by
  have hlen : ¬(2 + args.length < 2 ∨
      (pushed args (.value this :: .value callee :: s)).length < 2 + args.length) := by
    rw [length_pushed]
    simp only [List.length_cons]
    omega
  simp only [step, if_neg hlen, Nat.add_sub_cancel_left, popValues_pushed, popValue, Run.ofExcept_ok,
    pure_bind]

theorem step_invoke {target : Method} {cls name : String} {signature : Signature} {args : List Val}
    (s : Stack) (hm : code.method? cls name = some target) (hs : target.signature = signature)
    (hn : args.length = signature.params.length) :
    step code l call slots (pushed args s) (.invoke cls name signature) =
      call target args >>= fun v => pure (.next (.value v :: s)) := by
  have hlen : ¬(pushed args s).length < signature.params.length := by
    rw [length_pushed]
    omega
  simp only [step, hm, ne_eq, hs, not_true_eq_false, if_false, if_neg hlen]
  rw [← hn, popValues_pushed, Run.ofExcept_ok, pure_bind]

end

/-! ## Arguments in their slots -/

theorem lookup_append_of_lt {xs ys : List (Nat × Val)} {k : Nat} (h : ∀ e ∈ xs, e.1 < k) :
    (xs ++ ys).lookup k = ys.lookup k := by
  induction xs with
  | nil => rfl
  | cons e xs ih =>
    obtain ⟨k', v⟩ := e
    have hk : (k == k') = false := by
      have := h (k', v) (List.mem_cons_self ..)
      simp only [beq_eq_false_iff_ne]
      omega
    rw [List.cons_append, List.lookup_cons, hk]
    exact ih fun e he => h e (List.mem_cons_of_mem _ he)

theorem length_slotOffsets (start : Nat) (params : List Ty) :
    (slotOffsets start params).length = params.length := by
  induction params generalizing start with
  | nil => rfl
  | cons t ts ih => simp [slotOffsets, ih]

/-- Arguments that are put where their parameters start are found there. -/
theorem loaded_zip {start : Nat} {params : List Ty} {args : List Val} (hn : args.length = params.length)
    {below : List (Nat × Val)} (hb : ∀ e ∈ below, e.1 < start) :
    Loaded (below ++ (slotOffsets start params).zip args) start params args := by
  -- each argument that is found joins those below the next one
  induction params generalizing start args below with
  | nil =>
    cases args with
    | nil => exact .nil
    | cons v vs => simp at hn
  | cons t ts ih =>
    cases args with
    | nil => simp at hn
    | cons v vs =>
      have hpos := t.slots_pos
      refine .cons ?_ ?_
      · rw [lookup_append_of_lt hb]
        simp [slotOffsets]
      · have hbelow : ∀ e ∈ below ++ [(start, v)], e.1 < start + t.slots := by
          intro e he
          rcases List.mem_append.1 he with he | he
          · have := hb e he
            omega
          · cases List.mem_singleton.1 he
            show start < start + t.slots
            omega
        have h : Loaded ((below ++ [(start, v)]) ++ (slotOffsets (start + t.slots) ts).zip vs)
            (start + t.slots) ts vs := ih (by simpa using hn) hbelow
        rwa [List.append_assoc] at h

end ScriptHost.Machine
