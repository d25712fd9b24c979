import ScriptHost.Proofs.Code.Frame

/-!
# Accesses without code

What the code of an access comes to, whatever linker it runs under: climb to the target scope, read
the variable, and call what was read if the shape is a call. A shared unit does the same under flags
without a program point and attributes a failed assumption to the point that it was given. Running a
shared unit (`run_unit`), an inline site (`run_inline`) or a site that uses a shared unit (`run_sharing`)
is equal to this direct evaluation, so that nothing later has to look at instructions.
-/

namespace ScriptHost

open Machine

variable {σ : Type}

/-- The scope that an access works on, from the one that it is given. -/
def targetOf (scope : Val) (depth : Int32) : Run σ ObjRef :=
  match scope with
  | .object o => Run.ofExcept (climb o depth)
  | v => Run.fail (InternalFault.scopeOperand v.typeName)

/-- The same computation with failed assumptions attributed to a program point. -/
def restamp (pp : Int32) (x : Run σ Val) : Run σ Val :=
  Run.catching x (fun u => Run.escape (u.reattribute pp)) pure

namespace Shape

def perform (s : Shape) (l : Linker σ) (flags : SiteFlags) (target : ObjRef) (args : List Val) : Run σ Val :=
  match s.access with
  | .read ty => settle (l.get (.object target) s.symbol.name ty flags) flags "get" s.symbol.name
  | .call result _ => do
    let callee ← settle (l.get (.object target) s.symbol.name .object s.flags) s.flags "get" s.symbol.name
    settle (l.call callee .undefined args result flags s.symbol.name) flags "call" s.symbol.name

/-- The access as a shared unit does it. -/
def performShared (s : Shape) (l : Linker σ) (pp : Int32) (target : ObjRef) (args : List Val) : Run σ Val :=
  if s.optimistic then restamp pp (s.perform l s.unitFlags target args)
  else s.perform l s.unitFlags target args

end Shape

/-! ## The instructions of an access -/

section

variable {P : Insn → Prop} (hload : ∀ ty slot, P (.load ty slot))

include hload

theorem forall_mem_loadParams (start : Nat) (params : List Ty) : ∀ i ∈ loadParams start params, P i := by
  intro i hi
  obtain ⟨⟨ty, slot⟩, -, rfl⟩ := List.mem_map.1 hi
  exact hload ty slot

/-- What holds of loads, conversions and the two kinds of operations holds of all that an access is made of. -/
theorem Shape.forall_mem_accessCode (s : Shape) {flags : SiteFlags} (hconvert : ∀ ty, P (.convert ty))
    (hundefined : P .undefined)
    (hget : ∀ ty name flags', flags' = s.flags ∨ flags' = flags → P (.dynGet ty name flags'))
    (hcall : ∀ ty operands name, P (.dynCall ty operands flags name)) (start : Nat) :
    ∀ i ∈ s.accessCode flags start, P i := by
  have hloads := forall_mem_loadParams hload start
  unfold Shape.accessCode
  split
  · simp [hget]
  · simpa [hconvert, hundefined, hget, hcall, or_imp, forall_and] using hloads _

end

/-! ## The operation of an access -/

section

variable {code : Module} {l : Linker σ} {call : Method → List Val → Run σ Val} {m : Method}
  {slots : List (Nat × Val)}

/-- The operation runs under one handler, `caught`, however much of the step budget is left by the time
an assumption fails. -/
theorem frame_accessCode {shape : Shape} {flags : SiteFlags} {pc n start : Nat} {args : List Val}
    {caught : Misspeculation → Run σ Val} (target : ObjRef) (s : Stack)
    (hc : CodeAt m pc (shape.accessCode flags start)) (hl : Loaded slots start shape.params args)
    (hcaught : ∀ k i, n ≤ k → i < (shape.accessCode flags start).length →
      recover code l call m slots k (pc + i) = caught) :
    frame code l call m slots (n + (shape.accessCode flags start).length) pc (.value (.object target) :: s) =
      Run.catching (shape.perform l flags target args) caught fun v =>
        frame code l call m slots n (pc + (shape.accessCode flags start).length) (.value v :: s) := by
  cases hacc : shape.access with
  | read ty =>
    simp only [Shape.accessCode, hacc, List.length_singleton] at hc hcaught ⊢
    rw [frame_push hc.head (step_dynGet ..), Shape.perform, hacc]
    have h0 := hcaught n 0 (Nat.le_refl n) Nat.zero_lt_one
    rw [Nat.add_zero] at h0
    rw [h0]
  | call result params =>
    have hparams : shape.params = params := by simp [Shape.params, hacc]
    have hcode : shape.accessCode flags start =
        .dynGet .object shape.symbol.name shape.flags :: .convert .object :: .undefined ::
          (loadParams start params ++ [.dynCall result (2 + params.length) flags shape.symbol.name]) := by
      simp [Shape.accessCode, hacc]
    have hargs : args.length = params.length := by
      rw [← hparams, ← hl.length_eq, length_slotOffsets]
    have hloads : (loadParams start params).length = args.length := by
      simp [loadParams, length_slotOffsets, hargs]
    have hlen : (shape.accessCode flags start).length = args.length + 4 := by
      simp [hcode, hloads]
    rw [hlen] at hcaught ⊢
    rw [hcode] at hc
    rw [hparams] at hl
    have hc₁ := hc.tail.tail.tail
    have hcall : m.code[pc + 1 + 1 + 1 + args.length]? =
        some (.dynCall result (2 + args.length) flags shape.symbol.name) := by
      have h := hc₁.right.head
      rwa [hloads, ← hargs] at h
    have hfirst : recover code l call m slots (n + args.length + 3) pc = caught :=
      hcaught _ 0 (by omega) (by omega)
    have hlast : recover code l call m slots n (pc + (args.length + 3)) = caught :=
      hcaught _ _ (Nat.le_refl n) (by omega)
    rw [show n + (args.length + 4) = n + args.length + 3 + 1 by omega, frame_push hc.head (step_dynGet ..)]
    rw [Shape.perform, hacc, Run.catching_bind, hfirst]
    congr 1
    funext callee
    rw [show n + args.length + 3 = n + 1 + args.length + 1 + 1 by omega]
    rw [frame_next (.value callee :: s) hc.tail.head rfl]
    rw [frame_next (.value .undefined :: .value callee :: s) hc.tail.tail.head rfl]
    rw [frame_loadParams _ hc₁.left hl, frame_push hcall (step_dynCall ..)]
    rw [show pc + 1 + 1 + 1 + args.length = pc + (args.length + 3) by omega, hlast]
    rfl

end

/-! ## Shared units -/

theorem handlerFor_operation {u : SharedUnit} (ho : u.shape.optimistic = true) {i : Nat}
    (hi : i < u.operation.length) :
    u.method.handlerFor (SharedUnit.walk.length + i) =
      some ⟨SharedUnit.walk.length, SharedUnit.walk.length + u.operation.length,
        SharedUnit.walk.length + u.operation.length + 1⟩ := by
  simp [Method.handlerFor, SharedUnit.method, ho, Handler.covers, hi]

theorem codeAt_method (u : SharedUnit) :
    CodeAt u.method 0 (SharedUnit.walk ++ (u.operation ++ ([.ret u.shape.returnType] ++
      if u.shape.optimistic then SharedUnit.recovery else []))) :=
  CodeAt.ofCode (by simp only [SharedUnit.method, List.append_assoc])

theorem codeAt_operation (u : SharedUnit) : CodeAt u.method SharedUnit.walk.length u.operation := by
  have h := (codeAt_method u).right.left
  rwa [Nat.zero_add] at h

theorem codeAt_ret (u : SharedUnit) :
    u.method.code[SharedUnit.walk.length + u.operation.length]? = some (.ret u.shape.returnType) := by
  have h := (codeAt_method u).right.right.head
  rwa [Nat.zero_add] at h

theorem codeAt_recovery {u : SharedUnit} (ho : u.shape.optimistic = true) :
    CodeAt u.method (SharedUnit.walk.length + u.operation.length + 1) SharedUnit.recovery := by
  have h := (codeAt_method u).right.right.right
  rwa [Nat.zero_add, if_pos ho] at h

section

variable {code : Module} {l : Linker σ} {call : Method → List Val → Run σ Val} {u : SharedUnit}
  {slots : List (Nat × Val)} {pp : Int32}

theorem recover_operation (hpp : slots.lookup 2 = some (.int pp)) {n i : Nat} (hn : 3 ≤ n)
    (hi : i < u.operation.length) :
    recover code l call u.method slots n (SharedUnit.walk.length + i) =
      if u.shape.optimistic then fun f => Run.escape (f.reattribute pp) else Run.escape := by
  by_cases ho : u.shape.optimistic
  · funext f
    have hc := codeAt_recovery ho
    obtain ⟨k, rfl⟩ : ∃ k, n = k + 1 + 1 + 1 := ⟨n - 3, by omega⟩
    rw [if_pos ho, recover, handlerFor_operation ho hi]
    dsimp only
    rw [frame_next [.value (.int pp), .caught f] hc.head (by simp only [step, hpp])]
    rw [frame_next [.caught (f.reattribute pp)] hc.tail.head rfl]
    -- the recovery stands behind the region, so what it throws is not caught again
    have hout : u.method.handlerFor (SharedUnit.walk.length + u.operation.length + 1 + 1 + 1) = none := by
      simp [Method.handlerFor, SharedUnit.method, ho, Handler.covers]
      omega
    have hthrow : step code l call slots [.caught (f.reattribute pp)] .rethrow =
        Run.escape (f.reattribute pp) := rfl
    rw [frame_succ _ _ _ _ _ hc.tail.tail.head, hthrow, Run.catching_escape, recover, hout]
  · rw [if_neg ho]
    exact recover_none (by simp [SharedUnit.method, ho])

end

/-! ## Whole methods -/

variable {code : Module} {l : Linker σ}

theorem le_budget (m : Method) : m.code.length + 8 ≤ budget m := by
  rw [budget, rounds]
  omega

theorem run_succ {m : Method} {args : List Val} (hn : args.length = m.signature.params.length) (n : Nat) :
    run code l (n + 1) m args =
      frame code l (run code l n) m (locals m.signature.paramOffsets args) (budget m) 0 [] := by
  rw [run, if_neg (by simp [hn])]

theorem run_argumentCount {m : Method} {args : List Val} (hn : args.length ≠ m.signature.params.length)
    (n : Nat) : run code l (n + 1) m args =
      Run.fail (InternalFault.argumentCount m.cls m.name m.signature.params.length args.length) := by
  rw [run, if_pos hn]

theorem step_climb {call : Method → List Val → Run σ Val} {slots : List (Nat × Val)} (scope : Val)
    (depth : Int32) (s : Stack) :
    step code l call slots (.value (.int depth) :: .value scope :: s) .climb =
      targetOf scope depth >>= fun o => pure (.next (.value (.object o) :: s)) := by
  cases scope with
  | object o =>
    simp only [step, popInt, popValue, targetOf, bind, Except.bind]
    cases climb o depth <;> rfl
  | _ => rfl

theorem definite_targetOf (scope : Val) (depth : Int32) :
    Run.Definite (targetOf scope depth : Run σ ObjRef) := by
  cases scope with
  | object o =>
    simp only [targetOf, climb]
    split
    · exact Run.definite_pure _
    · split
      · exact Run.definite_pure _
      · exact Run.definite_fail (by simp)
  | _ => exact Run.definite_fail (by simp)

theorem run_unit (u : SharedUnit) (scope : Val) (depth pp : Int32) {args : List Val}
    (hn : args.length = u.shape.params.length) (n : Nat) :
    run code l (n + 1) u.method (scope :: .int depth :: .int pp :: args) =
      targetOf scope depth >>= fun o => u.shape.performShared l pp o args := by
  have hsig : (scope :: .int depth :: .int pp :: args).length = u.method.signature.params.length := by
    simp [SharedUnit.method, SharedUnit.signature, Shape.unitSignature, hn]
  rw [run_succ hsig]
  have hlocals : locals u.method.signature.paramOffsets (scope :: .int depth :: .int pp :: args) =
      [(0, scope), (1, .int depth), (2, .int pp)] ++ (slotOffsets 3 u.shape.params).zip args := rfl
  rw [hlocals]
  generalize hslots : [(0, scope), (1, .int depth), (2, .int pp)] ++ (slotOffsets 3 u.shape.params).zip args =
    slots
  have hloaded : Loaded slots fixedSlots u.shape.params args := by
    rw [← hslots]
    exact loaded_zip hn (by simp)
  have h0 : slots.lookup 0 = some scope := by rw [← hslots]; rfl
  have h1 : slots.lookup 1 = some (.int depth) := by rw [← hslots]; rfl
  have h2 : slots.lookup 2 = some (.int pp) := by rw [← hslots]; rfl
  have hwalk : CodeAt u.method 0 SharedUnit.walk := (codeAt_method u).left
  obtain ⟨k, hk⟩ : ∃ k, budget u.method = k + 3 + 1 + u.operation.length + 1 + 1 + 1 := by
    have hle := le_budget u.method
    have hcode : u.operation.length ≤ u.method.code.length := by
      simp [SharedUnit.method]
      omega
    exact ⟨budget u.method - (u.operation.length + 7), by omega⟩
  rw [hk, frame_next [.value scope] hwalk.head (by simp only [step, h0])]
  rw [frame_next [.value (.int depth), .value scope] hwalk.tail.head (by simp only [step, h1])]
  rw [frame_push hwalk.tail.tail.head (step_climb ..), Run.catching_definite (definite_targetOf scope depth)]
  congr 1
  funext o
  have hret : ∀ v, frame code l (run code l n) u.method slots (k + 3 + 1)
      (SharedUnit.walk.length + u.operation.length) [.value v] = pure v :=
    fun v => frame_done (codeAt_ret u) rfl
  have hop : frame code l (run code l n) u.method slots (k + 3 + 1 + u.operation.length)
      SharedUnit.walk.length [.value (.object o)] =
        Run.catching (u.shape.perform l u.shape.unitFlags o args)
          (if u.shape.optimistic then fun f => Run.escape (f.reattribute pp) else Run.escape)
          fun v => frame code l (run code l n) u.method slots (k + 3 + 1)
            (SharedUnit.walk.length + u.operation.length) [.value v] :=
    frame_accessCode o [] (codeAt_operation u) hloaded
      fun j i hj hi => recover_operation h2 (by omega) hi
  refine hop.trans ?_
  simp only [hret, Shape.performShared]
  by_cases ho : u.shape.optimistic
  · rw [if_pos ho, if_pos ho, restamp]
  · rw [if_neg ho, if_neg ho, Run.catching_escape_right, bind_pure]

/-! ## Sites -/

theorem method_inline {s : Site} {cls name : String} {m : Method} {depth : Int32} {flags : SiteFlags}
    (hm : s.method cls name none = .ok m) (hd : s.depth.encode = .ok depth)
    (hf : s.shape.siteFlags s.point = .ok flags) :
    m = { cls, name, signature := s.signature,
          code := .load .object 0 :: .pushInt depth :: .climb ::
            (s.shape.accessCode flags 1 ++ [.ret s.shape.returnType]) } := by
  simp only [Site.method, Site.inlineCode, hd, hf, bind, Except.bind, pure, Except.pure] at hm
  exact (Except.ok.inj hm).symm

theorem method_sharing {s : Site} {u : SharedUnit} {cls name : String} {m : Method} {depth : Int32}
    (hm : s.method cls name (some u) = .ok m) (hd : s.depth.encode = .ok depth) :
    m = { cls, name, signature := s.signature,
          code := .load .object 0 :: .pushInt depth :: .pushInt s.point ::
            (loadParams 1 s.shape.params ++ [u.invocation, .ret s.shape.returnType]) } := by
  simp only [Site.method, Site.sharedCode, hd, bind, Except.bind, pure, Except.pure] at hm
  exact (Except.ok.inj hm).symm

theorem inline_ok {s : Site} {cls name : String} {m : Method} (hm : s.method cls name none = .ok m) :
    ∃ depth flags, s.depth.encode = .ok depth ∧ s.shape.siteFlags s.point = .ok flags := by
  cases hd : s.depth.encode with
  | error e => simp [Site.method, Site.inlineCode, hd, bind, Except.bind] at hm
  | ok depth =>
    cases hf : s.shape.siteFlags s.point with
    | error e => simp [Site.method, Site.inlineCode, hd, hf, bind, Except.bind] at hm
    | ok flags => exact ⟨depth, flags, rfl, rfl⟩

theorem sharing_ok {s : Site} {u : SharedUnit} {cls name : String} {m : Method}
    (hm : s.method cls name (some u) = .ok m) : ∃ depth, s.depth.encode = .ok depth := by
  cases hd : s.depth.encode with
  | error e => simp [Site.method, Site.sharedCode, hd, bind, Except.bind] at hm
  | ok depth => exact ⟨depth, rfl⟩

variable (code l) in
/-- The frame of a site after its first two instructions, with scope and depth on the stack. -/
theorem run_site {m : Method} {shape : Shape} {depth : Int32} {rest : List Insn}
    (hsig : m.signature = shape.siteSignature) (hcode : m.code = .load .object 0 :: .pushInt depth :: rest)
    (scope : Val) {args : List Val} (hn : args.length = shape.params.length) (n : Nat) :
    ∃ slots, Loaded slots 1 shape.params args ∧
      run code l (n + 1) m (scope :: args) =
        frame code l (run code l n) m slots (budget m - 2) 2 [.value (.int depth), .value scope] := by
  have hc : CodeAt m 0 (.load .object 0 :: .pushInt depth :: rest) := CodeAt.ofCode hcode
  have hlocals : locals m.signature.paramOffsets (scope :: args) =
      [(0, scope)] ++ (slotOffsets 1 shape.params).zip args := by
    rw [hsig]
    rfl
  refine ⟨[(0, scope)] ++ (slotOffsets 1 shape.params).zip args, loaded_zip hn (by simp), ?_⟩
  rw [run_succ (by simp [hsig, Shape.siteSignature, hn]), hlocals]
  obtain ⟨k, hk⟩ : ∃ k, budget m = k + 1 + 1 := ⟨budget m - 2, by have := le_budget m; omega⟩
  rw [hk, frame_next [.value scope] hc.head rfl]
  rw [frame_next [.value (.int depth), .value scope] hc.tail.head rfl]
  rfl

theorem run_inline {s : Site} {cls name : String} {m : Method} {depth : Int32} {flags : SiteFlags}
    (hm : s.method cls name none = .ok m) (hd : s.depth.encode = .ok depth)
    (hf : s.shape.siteFlags s.point = .ok flags) (scope : Val) {args : List Val}
    (hn : args.length = s.shape.params.length) (n : Nat) :
    run code l (n + 1) m (scope :: args) =
      targetOf scope depth >>= fun o => s.shape.perform l flags o args := by
  have hmeth := method_inline hm hd hf
  have hnone : m.handlers = [] := by rw [hmeth]
  have hcode : m.code = .load .object 0 :: .pushInt depth :: .climb ::
      (s.shape.accessCode flags 1 ++ [.ret s.shape.returnType]) := by rw [hmeth]
  have hlen : m.code.length = (s.shape.accessCode flags 1).length + 4 := by rw [hcode]; simp
  obtain ⟨slots, hloaded, hrun⟩ := run_site code l (by rw [hmeth]; rfl) hcode scope hn n
  have hc : CodeAt m 2 (.climb :: (s.shape.accessCode flags 1 ++ [.ret s.shape.returnType])) :=
    (CodeAt.ofCode hcode).tail.tail
  have hdone : ∀ k v, frame code l (run code l n) m slots (k + 1)
      (2 + 1 + (s.shape.accessCode flags 1).length) [.value v] = pure v :=
    fun k v => frame_done hc.tail.right.head rfl
  obtain ⟨k, hk⟩ : ∃ k, budget m - 2 = k + 1 + (s.shape.accessCode flags 1).length + 1 :=
    ⟨budget m - ((s.shape.accessCode flags 1).length + 4), by have := le_budget m; omega⟩
  rw [hrun, hk, frame_push hc.head (step_climb ..), Run.catching_definite (definite_targetOf scope depth)]
  congr 1
  funext o
  rw [frame_accessCode o [] hc.tail.left hloaded fun j i _ _ => recover_none hnone]
  simp only [Run.catching_escape_right, hdone, bind_pure]

theorem run_sharing {s : Site} {u : SharedUnit} {cls name : String} {m : Method} {depth : Int32}
    (hm : s.method cls name (some u) = .ok m) (hd : s.depth.encode = .ok depth)
    (hu : code.method? u.cls u.name = some u.method) (hshape : u.shape = s.shape) (scope : Val)
    {args : List Val} (hn : args.length = s.shape.params.length) (n : Nat) :
    run code l (n + 2) m (scope :: args) =
      targetOf scope depth >>= fun o => s.shape.performShared l s.point o args := by
  have hmeth := method_sharing hm hd
  have hnone : m.handlers = [] := by rw [hmeth]
  have hcode : m.code = .load .object 0 :: .pushInt depth :: .pushInt s.point ::
      (loadParams 1 s.shape.params ++ [u.invocation, .ret s.shape.returnType]) := by rw [hmeth]
  obtain ⟨slots, hloaded, hrun⟩ := run_site code l (by rw [hmeth]; rfl) hcode scope hn (n + 1)
  have hc : CodeAt m 2 (.pushInt s.point ::
      (loadParams 1 s.shape.params ++ [u.invocation, .ret s.shape.returnType])) :=
    (CodeAt.ofCode hcode).tail.tail
  have hloads : (loadParams 1 s.shape.params).length = args.length := by
    simp [loadParams, length_slotOffsets, hn]
  have hlen : m.code.length = args.length + 5 := by rw [hcode]; simp [hloads]
  have hcall : CodeAt m (2 + 1 + args.length) [u.invocation, .ret s.shape.returnType] := by
    rw [← hloads]
    exact hc.tail.right
  obtain ⟨k, hk⟩ : ∃ k, budget m - 2 = k + 1 + 1 + args.length + 1 :=
    ⟨budget m - (args.length + 5), by have := le_budget m; omega⟩
  rw [hrun, hk, frame_next [.value (.int s.point), .value (.int depth), .value scope] hc.head rfl]
  rw [frame_loadParams _ hc.tail.left hloaded]
  have hstack : pushed args [.value (.int s.point), .value (.int depth), .value scope] =
      pushed (scope :: .int depth :: .int s.point :: args) [] := by
    simp [pushed]
  have hargs : (scope :: .int depth :: .int s.point :: args).length = u.signature.params.length := by
    simp [SharedUnit.signature, Shape.unitSignature, hshape, hn]
  have hdone : ∀ v, frame code l (run code l (n + 1)) m slots (k + 1) (2 + 1 + args.length + 1) [.value v] =
      pure v := fun v => frame_done hcall.tail.head rfl
  rw [hstack, frame_push hcall.head (step_invoke _ _ _ _ [] hu rfl hargs)]
  rw [recover_none hnone, Run.catching_escape_right]
  simp only [hdone, bind_pure]
  rw [run_unit u scope depth s.point (by rw [hshape, hn]) n, hshape]

end ScriptHost
