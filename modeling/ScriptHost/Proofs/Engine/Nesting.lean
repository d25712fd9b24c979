import ScriptHost.Engine.Body
import ScriptHost.Proofs.Engine.Adapters

/-!
# Nested computations

What a thread does is nested: privileged frames and entered contexts around class generation, the making of
instances, and calls of adapters, whose bodies are again of this kind, ready-made ones among them
(`BodyTable.run_program`). `Code.run` runs such a computation with the operations of the engine. `Code.lexical` reads
everything about the thread off the constructs around, and neither looks at the thread nor changes it
(`Code.detached_lexical`). The two agree (`Code.run_eq_lexical`): what the thread holds at any time is what the
enclosing constructs say.
-/

namespace ScriptHost

/-! ## Computations -/

/-- How an adapter class is come by. -/
inductive Generation where
  | load (d : Descriptor) (c : ContextId) (parent : Parent) (domain : Domain)
  | cached (id : FactoryId) (target : HostType) (ov : Overrides)
  | extended (id : FactoryId) (target : HostType) (ov : Overrides)

def Generation.run : Generation → EngineM AdapterClass
  | .load d c parent domain => d.load c parent domain
  | .cached id target ov => Factory.adapterClass id target ov
  | .extended id target ov => Factory.extend id target ov

/-- How an adapter instance is made. -/
inductive Creation where
  | supplied (cls : AdapterClass) (ov : Overrides)
  | classLevel (cls : AdapterClass)
  | adapter (id : FactoryId) (target : HostType) (ov : Overrides)

def Creation.run : Creation → EngineM Instance
  | .supplied cls ov => cls.newInstance ov
  | .classLevel cls => cls.instantiate
  | .adapter id target ov => Factory.newAdapter id target ov

/-- What can be asked about the thread. -/
inductive Look : Type → Type
  | check (p : Permission) : Look Unit
  | isElevated : Look Bool
  | context : Look (Option ContextId)
  | global : Look (Option ObjRef)

namespace Look

variable {α : Type}

def run : Look α → EngineM α
  | .check p => Engine.check p
  | .isElevated => return (← get).thread.isElevated
  | .context => Engine.currentContext
  | .global => Engine.currentGlobal

def answer (t : Thread) : Look α → Except EngineError α
  | .check p => if t.grants p then .ok () else .error (.privilege p)
  | .isElevated => .ok t.isElevated
  | .context => if t.grants .getContext then .ok t.context else .error (.privilege .getContext)
  | .global => .ok t.global

end Look

/-- A computation on one thread, built by nesting. Errors and panics end it unless they are caught, and what does
not look at the thread may be anything. -/
inductive Code : Type → Type 1
  | pure {α : Type} (a : α) : Code α
  | bind {α β : Type} (x : Code α) (k : α → Code β) : Code β
  | throw {α : Type} (f : Fault) : Code α
  | attempt {α : Type} (x : Code α) : Code (Except Fault α)
  | act {α : Type} (m : EngineM α) (h : Detached m) : Code α
  | look {α : Type} (q : Look α) : Code α
  | privileged {α : Type} (ps : List Permission) (x : Code α) : Code α
  | within {α : Type} (c : ContextId) (x : Code α) : Code α
  | generate (g : Generation) : Code AdapterClass
  | create (c : Creation) : Code Instance
  | invoke (i : Instance) (method : String) (args : List Val) : Code Val

namespace Code

variable {α : Type}

def run (bodies : Bodies) {α : Type} : Code α → EngineM α
  | .pure a => Pure.pure a
  | .bind x k => x.run bodies >>= fun a => (k a).run bodies
  | .throw f => throwThe Fault f
  | .attempt x => (x.run bodies).attempt
  | .act m _ => m
  | .look q => q.run
  | .privileged ps x => Engine.privileged ps (x.run bodies)
  | .within c x => Engine.within c (x.run bodies)
  | .generate g => g.run
  | .create c => c.run
  | .invoke i method args => i.invoke bodies method args

/-- The computation as the constructs around it say: they give it a thread to read, and nothing is done to the
thread of the world. -/
def lexical (bodies : Thread → Bodies) {α : Type} : Code α → Thread → EngineM α
  | .pure a, _ => Pure.pure a
  | .bind x k, t => x.lexical bodies t >>= fun a => (k a).lexical bodies t
  | .throw f, _ => throwThe Fault f
  | .attempt x, t => (x.lexical bodies t).attempt
  | .act m _, _ => m
  | .look q, t => Run.ofExcept (q.answer t)
  | .privileged ps x, t => x.lexical bodies (t.pushFrame ps)
  | .within c x, t => do
    let global := ((← get).context c).global
    x.lexical bodies { t with context := some c, global := some global }
  | .generate g, _ => g.run
  | .create c, t => (fun i => { i with global := t.global }) <$> c.run
  | .invoke i method args, t => i.invoke (bodies (i.bodyThread method t)) method args

end Code

/-- What the script functions and host methods of a world do, by their numbers. -/
abbrev Program := BodyId → Val → List Val → Code Val

namespace Program

/-- The bodies of a program, with calls nested up to a depth. -/
def bodies (p : Program) : Nat → Bodies
  | 0 => fun _ _ _ => throw .exhausted
  | depth + 1 => fun b this args => (p b this args).run (p.bodies depth)

def lexical (p : Program) : Nat → Thread → Bodies
  | 0 => fun _ _ _ _ => throw .exhausted
  | depth + 1 => fun t b this args => (p b this args).lexical (p.lexical depth) t

end Program

/-! ## Reading the thread -/

theorem Generation.detached_run (g : Generation) : Detached g.run := by
  intro f
  cases g with
  | load d c parent domain => exact d.carries_load f c parent domain
  | cached id target ov => exact Factory.carries_adapterClass id target ov
  | extended id target ov => exact Factory.carries_extend id target ov

theorem Creation.stamps_run (c : Creation) : Stamps c.run := by
  cases c with
  | supplied cls ov => exact cls.stamps_newInstance ov
  | classLevel cls => exact cls.stamps_instantiate
  | adapter id target ov => exact Factory.stamps_newAdapter id target ov

theorem Look.outcome_run {α : Type} (q : Look α) (w : World) :
    q.run.outcome w = (Run.ofExcept (q.answer w.thread) : EngineM α).outcome w := by
  cases q with
  | check p =>
    rw [run, Engine.outcome_check, answer]
    split <;> rfl
  | isElevated => rfl
  | context =>
    have hanswer : answer w.thread .context =
        if w.thread.grants .getContext then .ok w.thread.context else .error (.privilege .getContext) := rfl
    rw [run, Engine.currentContext, Run.outcome_bind, Engine.outcome_check, hanswer]
    by_cases hp : w.thread.grants .getContext = true
    · rw [if_pos hp, if_pos hp]
      rfl
    · rw [if_neg hp, if_neg hp]
      rfl
  | global => rfl

/-! ## The two readings -/

theorem Code.detached_lexical {bodies : Thread → Bodies} (hb : ∀ t b this args, Detached (bodies t b this args))
    {α : Type} (x : Code α) : ∀ t, Detached (x.lexical bodies t) := by
  induction x with
  | pure a => exact fun _ _ => .pure a
  | bind x k ihx ihk => exact fun t f => (ihx t f).bind fun a => ihk a t f
  | throw e => exact fun _ _ => .throw e
  | attempt x ih => exact fun t f => (ih t f).attempt
  | act m h => exact fun _ => h
  | look q => exact fun t _ => .ofExcept (q.answer t)
  | privileged ps x ih => exact fun t => ih (t.pushFrame ps)
  | within c x ih => exact fun t f => .get (fun _ => rfl) fun w => ih _ f
  | generate g => exact fun _ => g.detached_run
  | create c =>
    intro t f w
    rw [lexical, Run.outcome_map, Run.outcome_map, c.stamps_run f w]
    cases (c.run.outcome w).1 <;> rfl
  | invoke i method args => exact fun t => i.detached_invoke (hb (i.bodyThread method t))

/-- If the bodies do what is read off the constructs, so does everything that is built of them. -/
theorem Code.run_eq_lexical {bodies : Bodies} {lexicals : Thread → Bodies}
    (hd : ∀ t b this args, Detached (lexicals t b this args))
    (hb : ∀ w b this args, (bodies b this args).outcome w = (lexicals w.thread b this args).outcome w)
    {α : Type} (x : Code α) : ∀ w, (x.run bodies).outcome w = (x.lexical lexicals w.thread).outcome w := by
  induction x with
  | pure a => exact fun _ => rfl
  | bind x k ihx ihk =>
    intro w
    rw [run, lexical, Run.outcome_bind, ihx, ← Run.outcome_bind]
    refine (x.detached_lexical hd w.thread).bind_congr fun a w' hw' => ?_
    rw [ihk a w', hw']
  | throw e => exact fun _ => rfl
  | attempt x ih =>
    intro w
    rw [run, lexical, Run.outcome_attempt, Run.outcome_attempt, ih]
  | act m h => exact fun _ => rfl
  | look q => exact q.outcome_run
  | privileged ps x ih => exact fun w => Engine.outcome_privileged (x.detached_lexical hd _) (ih _)
  | within c x ih => exact fun w => Engine.outcome_within (x.detached_lexical hd _) (ih _)
  | generate g => exact fun _ => rfl
  | create c =>
    intro w
    rw [run, lexical, Run.outcome_map, c.stamps_run.map_global]
  | invoke i method args =>
    intro w
    refine Instance.invoke_congr fun w' hw' b this args => ?_
    rw [hb, hw']

namespace Program

variable (p : Program)

theorem detached_lexical (depth : Nat) : ∀ t b this args, Detached (p.lexical depth t b this args) := by
  induction depth with
  | zero => exact fun _ _ _ _ _ => .throw .exhausted
  | succ depth ih => exact fun t b this args => (p b this args).detached_lexical ih t

theorem bodies_eq_lexical (depth : Nat) :
    ∀ w b this args, (p.bodies depth b this args).outcome w = (p.lexical depth w.thread b this args).outcome w := by
  induction depth with
  | zero => exact fun _ _ _ _ => rfl
  | succ depth ih => exact fun w b this args => (p b this args).run_eq_lexical (p.detached_lexical depth) ih w

/-- Every construct leaves the thread as it was, on every way out. -/
theorem thread_run (depth : Nat) {α : Type} (x : Code α) (w : World) :
    ((x.run (p.bodies depth)).outcome w).2.thread = w.thread := by
  rw [x.run_eq_lexical (p.detached_lexical depth) (p.bodies_eq_lexical depth)]
  exact (x.detached_lexical (p.detached_lexical depth) w.thread).thread_eq w

end Program

/-! ## Ready-made bodies -/

namespace Engine

variable {f : Thread → Thread}

theorem carries_getProperty? (o : ObjRef) (name : String) : Carries f (getProperty? o name) :=
  .get (fun _ => rfl) fun _ => .pure _

theorem carries_setProperty (o : ObjRef) (name : String) (v : Val) : Carries f (setProperty o name v) := fun _ => rfl

end Engine

/-- A ready-made body as a computation. `earlier` are the bodies that it may call. -/
def Body.code (earlier : Program) (this : Val) (args : List Val) : Body → Code Val
  | .const v => .pure v
  | .arg n => .pure (orUndefined args[n]?)
  | .this => .pure this
  | .thisProperty name =>
    match this with
    | .object o =>
      .bind (.act (Engine.getProperty? o name) fun _ => Engine.carries_getProperty? o name) fun v =>
        .pure (orUndefined v)
    | _ => .pure .undefined
  | .setThis name =>
    match this with
    | .object o =>
      .bind (.act (Engine.setProperty o name (orUndefined args.head?)) fun _ => Engine.carries_setProperty o name _)
        fun v => .pure (orUndefined v)
    | _ => .pure .undefined
  | .sum => .pure (.number (args.foldl (fun s v => s.add v.toNumber) (Binary64.zero false)))
  | .argc => .pure (.int (Int32.ofNat args.length))
  | .describe => .pure (.str (",".intercalate (args.map fun v => v.typeName ++ ":" ++ v.display)))
  | .tally counter => .act ((Body.tally counter).run (fun _ _ _ => pure .undefined) this args) fun _ _ => rfl
  | .global => .bind (.look .global) fun g => .pure (g.elim .undefined .object)
  | .elevated => .bind (.look .isElevated) fun b => .pure (.bool b)
  | .granted p => .bind (.attempt (.look (.check p))) fun r => .pure (.bool r.isOk)
  | .raise e => .throw (.error e)
  | .panic text => .throw (.panic text)
  | .call f => earlier f.id this args
  | .ifFits ty yes no =>
    if (args.head?.map fun v => v.fits ty).getD false then yes.code earlier this args else no.code earlier this args

/-- The bodies of a table as a program. -/
def BodyTable.program : BodyTable → Program
  | [], _, _, _ => .pure .undefined
  | (id, b) :: earlier, k, this, args =>
    if id = k then b.code (program earlier) this args else program earlier k this args

theorem Body.run_code {program : Program} {bodies earlier : Bodies}
    (h : ∀ b this args, (program b this args).run bodies = earlier b this args) (this : Val) (args : List Val)
    (b : Body) : (b.code program this args).run bodies = b.run earlier this args := by
  induction b with
  | thisProperty name => cases this <;> rfl
  | setThis name => cases this <;> rfl
  | global =>
    refine congrArg (Engine.currentGlobal >>= ·) (funext fun g => ?_)
    cases g <;> rfl
  | granted p =>
    refine Run.ext fun w => ?_
    rw [code, Code.run, Run.outcome_bind, Code.run, Run.outcome_attempt, Code.run, Look.run, Engine.outcome_check, run,
      Run.outcome_bind, Run.outcome_get]
    cases hp : w.thread.grants p <;> simp [hp, Code.run, Except.isOk, Except.toBool]
  | call f => exact h f.id this args
  | ifFits ty yes no ihy ihn =>
    rw [code, run]
    split
    · exact ihy
    · exact ihn
  | _ => rfl

theorem BodyTable.run_program (t : BodyTable) (bodies : Bodies) :
    ∀ k this args, (t.program k this args).run bodies = t.bodies k this args := by
  induction t with
  | nil => exact fun _ _ _ => rfl
  | cons e earlier ih =>
    intro k this args
    obtain ⟨id, b⟩ := e
    rw [program, BodyTable.bodies]
    split
    · exact b.run_code ih this args
    · exact ih k this args

end ScriptHost
