import ScriptHost.Proofs.Scope.Attribution
import ScriptHost.Proofs.Scope.Deoptimization
import ScriptHost.Proofs.Scope.Units

/-!
# What a shared unit means

An access read as a computation on scopes and values, without code, flags of operations, slots or a linker
(`Shape.evaluate`): go up the chain, take the value of the nearest scope that holds the name, and give it, or call it
once, as the type of the shape. Invoking the shared unit of a shape comes to that, with the same result, the same state
and the same run of the callee (`invoke_eq_evaluate`).
-/

namespace ScriptHost

open Machine ModuleBuilder

/-! ## Chains of scopes -/

namespace ObjRef

def chainFrom : Cell → List Cell → List ObjRef
  | c, [] => [⟨c, []⟩]
  | c, p :: ps => ⟨c, p :: ps⟩ :: chainFrom p ps

def chain (o : ObjRef) : List ObjRef := chainFrom o.cell o.ancestors

/-- Going up a number of links is going down the chain, and what follows there is the chain of the ancestor. -/
theorem climb?_eq {n : Nat} {c : Cell} {cs : List Cell} (h : n ≤ cs.length) :
    ∃ o, climb? n c cs = some o ∧ o.chain = (chainFrom c cs).drop n := by
  induction n generalizing c cs with
  | zero => exact ⟨⟨c, cs⟩, rfl, rfl⟩
  | succ n ih =>
    cases cs with
    | nil => simp at h
    | cons p ps => exact ih (Nat.le_of_succ_le_succ h)

theorem climb?_none {n : Nat} {c : Cell} {cs : List Cell} (h : cs.length < n) : climb? n c cs = none := by
  induction n generalizing c cs with
  | zero => omega
  | succ n ih =>
    cases cs with
    | nil => rfl
    | cons p ps => exact ih (Nat.lt_of_succ_lt_succ h)

end ObjRef

/-- The value that the nearest of some scopes holds under a name. -/
def Heap.nearest? (h : Heap) (name : String) (scopes : List ObjRef) : Option Val :=
  scopes.findSome? fun o => h.own? o.id name

theorem Heap.find?_chain (h : Heap) (o : ObjRef) (name : String) :
    (h.find? o name).map Prod.snd = h.nearest? name o.chain := by
  obtain ⟨c, cs⟩ := o
  show (h.findFrom name c cs).map Prod.snd = (ObjRef.chainFrom c cs).findSome? fun o => h.own? o.id name
  induction cs generalizing c with
  | nil =>
    unfold findFrom ObjRef.chainFrom
    cases hown : h.own? c.id name <;> simp [ObjRef.id, hown]
  | cons p ps ih =>
    unfold findFrom ObjRef.chainFrom
    rw [List.findSome?_cons]
    cases hown : h.own? c.id name with
    | some v => simp [ObjRef.id, hown]
    | none => simpa [ObjRef.id, hown] using ih p

/-! ## The meaning of an access -/

/-- How an access comes out: its result, the state that it leaves, and the bodies that it ran. -/
structure Evaluation where
  result : Except Fault Val
  world : World
  runs : List BodyRun

/-- The scopes that a name is looked for in, from the target of a depth on. -/
def ScopeDepth.scopes (scope : ObjRef) : ScopeDepth → Except InternalFault (List ObjRef)
  | .dynamic => .ok scope.chain
  | .known d =>
    if 0x7fffffff < d.toNat then .error (.depthRange d.toNat)
    else if scope.ancestors.length < d.toNat then .error (.chainEnds scope.ancestors.length d.toNat)
    else .ok (scope.chain.drop d.toNat)

namespace Shape

def read (s : Shape) (h : Heap) (scopes : List ObjRef) : Except EngineError Val :=
  match h.nearest? s.symbol.name scopes with
  | some v => .ok v
  | none => if s.flags.isScope then .error (ScriptFault.notDefined s.symbol.name) else .ok .undefined

/-- A value as the type of the shape. If the type is an assumption, the value must fit. -/
def give (s : Shape) (pp : Int32) (v : Val) : Except Fault Val :=
  if s.optimistic && !v.fits s.returnType then .error (.error (.misspeculation ⟨v, pp⟩))
  else .ok (v.coerce s.returnType)

/-- A fault of the callee. A failed assumption that it raised counts as one of the access. -/
def giveFault (s : Shape) (pp : Int32) : Fault → Fault
  | .error (.misspeculation f) =>
    if s.optimistic then .error (.misspeculation (f.reattribute pp))
    else .error (.internal (.uncheckedSpeculation "call" s.symbol.name f))
  | e => e

/-- The receiver of the callee: none, but for a sloppy function of a scope call, which sees the current global. -/
def receiver (s : Shape) (f : FnRef) (w : World) : Val :=
  if s.flags.isScope && !f.strict then (w.thread.global.map Val.object).getD .undefined else .undefined

def evaluateCall (s : Shape) (bodies : Bodies) (pp : Int32) (args : List Val) (callee : Val) (w : World) : Evaluation :=
  match callee with
  | .function f =>
    match (bodies f.id (s.receiver f w) args).outcome (f.counted s.flags.isScope w) with
    | (.ok v, w') => ⟨s.give pp v, w', [⟨f.id, s.receiver f w, args⟩]⟩
    | (.error e, w') => ⟨.error (s.giveFault pp e), w', [⟨f.id, s.receiver f w, args⟩]⟩
  | v => ⟨.error (.error (.script (.notCallable s.symbol.name v.typeName))), w, []⟩

/-- The access from a scope, at a depth, on behalf of a program point. -/
def evaluate (s : Shape) (bodies : Bodies) (scope : ObjRef) (depth : ScopeDepth) (pp : Int32) (args : List Val)
    (w : World) : Evaluation :=
  match depth.scopes scope with
  | .error e => ⟨.error (.error (.internal e)), w, []⟩
  | .ok scopes =>
    match s.read w.heap scopes with
    | .error e => ⟨.error (.error e), w, []⟩
    | .ok v => if s.isCall then s.evaluateCall bodies pp args v w else ⟨s.give pp v, w, []⟩

end Shape

/-! ## Walking to the target -/

/-- The depth is encoded and the target reached, or the walk fails as the meaning does. -/
theorem scopes_cases {σ : Type} (scope : ObjRef) (depth : ScopeDepth) :
    (∃ d o, depth.encode = .ok d ∧ depth.scopes scope = .ok o.chain ∧
      (targetOf (.object scope) d : Run σ ObjRef) = pure o) ∨
    (∃ d e, depth.encode = .ok d ∧ depth.scopes scope = .error e ∧
      (targetOf (.object scope) d : Run σ ObjRef) = Run.fail e) ∨
    ∃ e, depth.encode = .error e ∧ depth.scopes scope = .error e := by
  cases depth with
  | dynamic => exact .inl ⟨-1, scope, rfl, rfl, rfl⟩
  | known n =>
    by_cases hn : n.toNat < 0x80000000
    · have hint : (Int32.ofNat n.toNat).toInt = n.toNat := Int32.toInt_ofNat_of_lt hn
      have hpos : ¬Int32.ofNat n.toNat < 0 := by
        rw [Int32.lt_iff_toInt_lt, hint]
        simp
      have hlarge : ¬0x7fffffff < n.toNat := by omega
      have hencode : (ScopeDepth.known n).encode = .ok (Int32.ofNat n.toNat) := if_pos hn
      by_cases hlen : n.toNat ≤ scope.ancestors.length
      · obtain ⟨o, ho, hchain⟩ := ObjRef.climb?_eq (c := scope.cell) hlen
        refine .inl ⟨_, o, hencode, ?_, ?_⟩
        · rw [ScopeDepth.scopes, if_neg hlarge, if_neg (by omega), hchain]
          rfl
        · rw [targetOf, climb, if_neg hpos, hint, Int.toNat_natCast, ObjRef.ancestor?, ho]
          rfl
      · refine .inr (.inl ⟨_, .chainEnds scope.ancestors.length n.toNat, hencode, ?_, ?_⟩)
        · rw [ScopeDepth.scopes, if_neg hlarge, if_pos (by omega)]
        · rw [targetOf, climb, if_neg hpos, hint, Int.toNat_natCast, ObjRef.ancestor?, ObjRef.climb?_none (by omega)]
          rfl
    · refine .inr (.inr ⟨.depthRange n.toNat, if_neg hn, ?_⟩)
      rw [ScopeDepth.scopes, if_pos (by omega)]

/-! ## Operations under the watching linker -/

namespace Shape

variable {s : Shape}

theorem outcome_readVar (s : Shape) (o : ObjRef) (w : World) :
    (readVar o s.symbol.name s.flags.isScope).outcome w = ((s.read w.heap o.chain).mapError Fault.error, w) := by
  have hfound : (Engine.getProperty? o s.symbol.name).outcome w = (.ok (w.heap.nearest? s.symbol.name o.chain), w) := by
    rw [← Heap.find?_chain]
    rfl
  unfold readVar
  rw [Run.outcome_bind, hfound, read]
  cases w.heap.nearest? s.symbol.name o.chain with
  | some v => rfl
  | none =>
    dsimp only
    split <;> rfl

theorem outcome_unwatched_readVar (s : Shape) (o : ObjRef) (w : World) (log : List BodyRun) :
    (Run.unwatched (readVar o s.symbol.name s.flags.isScope)).outcome (w, log) =
      ((s.read w.heap o.chain).mapError Fault.error, (w, log)) := by
  unfold Run.unwatched
  rw [Run.outcome_of]
  dsimp only
  rw [outcome_readVar]

def giving (s : Shape) (pp : Int32) (v : Val) : Run Watched Val := Run.of fun st => (s.give pp v, st)

theorem isScope_unitFlags (s : Shape) : s.unitFlags.isScope = s.flags.isScope := by
  unfold unitFlags
  split
  · exact SiteFlags.isScope_or s.flags
  · rfl

section

variable (hs : s.flags.isOptimistic = false)

include hs

theorem isOptimistic_unitFlags : s.unitFlags.isOptimistic = s.optimistic := by
  unfold unitFlags
  split
  · next ho => rw [SiteFlags.isOptimistic_or, ho]
  · next ho => rw [hs, Bool.eq_false_iff.2 ho]

theorem checked_giving (ho : s.optimistic = false) (pp : Int32) (v : Val) :
    checked v s.returnType s.unitFlags = s.giving pp v := by
  rw [checked_plain v s.returnType (by rw [isOptimistic_unitFlags hs, ho]), giving, give, ho]
  rfl

theorem restamp_giving (ho : s.optimistic = true) (pp : Int32) (v : Val) :
    restamp pp (checked v s.returnType s.unitFlags) = s.giving pp v := by
  rw [restamp_checked, isOptimistic_unitFlags hs, ho, giving, give, ho]
  cases v.fits s.returnType <;> rfl

theorem performShared_read {ty : Ty} (ha : s.access = .read ty) (bodies : Bodies) (pp : Int32) (o : ObjRef)
    (args : List Val) : s.performShared (.watching bodies) pp o args =
      Run.unwatched (readVar o s.symbol.name s.flags.isScope) >>= s.giving pp := by
  have hread := Run.definite_unwatched (definite_readVar o s.symbol.name s.flags.isScope)
  have hty : ty = s.returnType := by rw [returnType, ha]
  rw [performShared, perform_read _ _ _ _ ha, isScope_unitFlags, hty]
  split
  · next ho =>
    rw [restamp_bind, Run.catching_definite hread]
    simp only [restamp_giving hs ho]
  · next ho => simp only [checked_giving hs (Bool.eq_false_iff.2 ho) pp]

theorem performShared_call {ret : Ty} {params : List Ty} (ha : s.access = .call ret params) (bodies : Bodies)
    (pp : Int32) (o : ObjRef) (args : List Val) : s.performShared (.watching bodies) pp o args =
      Run.unwatched (readVar o s.symbol.name s.flags.isScope) >>= fun callee =>
        Run.catching (callVar bodies callee args s.flags.isScope s.symbol.name)
          (fun f => throw (s.giveFault pp (.error (.misspeculation f)))) (s.giving pp) := by
  have hread := Run.definite_unwatched (definite_readVar o s.symbol.name s.flags.isScope)
  have hty : ret = s.returnType := by rw [returnType, ha]
  rw [performShared, perform_call _ _ _ _ ha, isScope_unitFlags, hty]
  simp only [checked_object, pure_bind]
  split
  · next ho =>
    have hunmet : ∀ f, restamp pp (Run.fail (unmet f s.unitFlags "call" s.symbol.name) : Run Watched Val) =
        throw (s.giveFault pp (.error (.misspeculation f))) := by
      intro f
      rw [unmet, if_pos (by rw [isOptimistic_unitFlags hs, ho]), giveFault, if_pos ho]
      exact Run.catching_escape ..
    rw [restamp_bind, Run.catching_definite hread]
    simp only [restamp_catching, restamp_giving hs ho, hunmet]
  · next ho =>
    have hunmet : ∀ f, (Run.fail (unmet f s.unitFlags "call" s.symbol.name) : Run Watched Val) =
        throw (s.giveFault pp (.error (.misspeculation f))) := by
      intro f
      rw [unmet, if_neg (by rw [isOptimistic_unitFlags hs]; exact ho), giveFault, if_neg ho]
      rfl
    simp only [checked_giving hs (Bool.eq_false_iff.2 ho) pp, hunmet]

end

theorem outcome_call (s : Shape) (bodies : Bodies) (pp : Int32) (args : List Val) (callee : Val) (w : World)
    (log : List BodyRun) :
    (Run.catching (callVar bodies callee args s.flags.isScope s.symbol.name)
      (fun f => throw (s.giveFault pp (.error (.misspeculation f)))) (s.giving pp)).outcome (w, log) =
        ((s.evaluateCall bodies pp args callee w).result, (s.evaluateCall bodies pp args callee w).world,
          log ++ (s.evaluateCall bodies pp args callee w).runs) := by
  rw [Run.outcome_catching]
  cases callee with
  | function f =>
    have hrun : f.bodyRun .undefined args s.flags.isScope w = ⟨f.id, s.receiver f w, args⟩ := by
      unfold FnRef.bodyRun receiver FnRef.receiverFor
      cases s.flags.isScope <;> cases f.strict <;> cases w.thread.global <;> rfl
    unfold callVar FnRef.watchedCall evaluateCall
    dsimp only [Run.outcome_of]
    rw [hrun]
    dsimp only
    rcases (bodies f.id (s.receiver f w) args).outcome (f.counted s.flags.isScope w) with ⟨r, w'⟩
    cases r with
    | ok v => rfl
    | error e =>
      cases e with
      | error e => cases e <;> rfl
      | panic text => rfl
      | exhausted => rfl
  | _ => simp [callVar, evaluateCall]

/-- The access of a shared unit on its target is the meaning of the shape on the scopes from there on. -/
theorem outcome_performShared (hs : s.flags.isOptimistic = false) (bodies : Bodies) {scope o : ObjRef}
    {depth : ScopeDepth} (hd : depth.scopes scope = .ok o.chain) (pp : Int32) (args : List Val) (w : World)
    (log : List BodyRun) : (s.performShared (.watching bodies) pp o args).outcome (w, log) =
      ((s.evaluate bodies scope depth pp args w).result, (s.evaluate bodies scope depth pp args w).world,
        log ++ (s.evaluate bodies scope depth pp args w).runs) := by
  have hread := s.outcome_unwatched_readVar o w log
  unfold evaluate
  rw [hd]
  dsimp only
  cases ha : s.access with
  | read ty =>
    have hcall : s.isCall = false := by rw [isCall, ha]
    rw [performShared_read hs ha, Run.outcome_bind, hread]
    cases s.read w.heap o.chain with
    | error e => simp [Except.mapError]
    | ok v => simp [Except.mapError, giving, hcall]
  | call ret params =>
    have hcall : s.isCall = true := by rw [isCall, ha]
    rw [performShared_call hs ha, Run.outcome_bind, hread]
    cases s.read w.heap o.chain with
    | error e => simp [Except.mapError]
    | ok v =>
      simp only [Except.mapError, hcall, if_true]
      exact outcome_call s bodies pp args v w log

end Shape

/-! ## Invocations -/

namespace SharedUnit

def bodyRuns (u : SharedUnit) (m : Module) (bodies : Bodies) (scope : ObjRef) (depth : ScopeDepth) (pp : Int32)
    (args : List Val) (w : World) : List BodyRun :=
  ((u.invoke m (.watching bodies) scope depth pp args).outcome (w, [])).2.2

theorem invoke_scope (u : SharedUnit) (m : Module) (bodies : Bodies) (scope : ObjRef) (depth : ScopeDepth)
    (pp : Int32) (args : List Val) (w : World) :
    (u.invoke m (.scope bodies) scope depth pp args).outcome w =
      (((u.invoke m (.watching bodies) scope depth pp args).outcome (w, [])).1,
        ((u.invoke m (.watching bodies) scope depth pp args).outcome (w, [])).2.1) := by
  unfold invoke
  cases depth.encode with
  | error e => rfl
  | ok d => exact m.invoke_scope bodies _ _ _ w

theorem invoke_watching {u : SharedUnit} {m : Module} (hm : m.method? u.cls u.name = some u.method)
    (hs : u.shape.flags.isOptimistic = false) (bodies : Bodies) (scope : ObjRef) (depth : ScopeDepth) (pp : Int32)
    {args : List Val} (hn : args.length = u.shape.params.length) (w : World) :
    (u.invoke m (.watching bodies) scope depth pp args).outcome (w, []) =
      ((u.shape.evaluate bodies scope depth pp args w).result, (u.shape.evaluate bodies scope depth pp args w).world,
        (u.shape.evaluate bodies scope depth pp args w).runs) := by
  rcases @scopes_cases Watched scope depth with ⟨d, o, hd, hscopes, htarget⟩ | ⟨d, e, hd, hscopes, htarget⟩ |
    ⟨e, hd, hscopes⟩
  · rw [invoke_eq hm _ scope hd pp hn, htarget, pure_bind]
    exact Shape.outcome_performShared hs bodies hscopes pp args w []
  · rw [invoke_eq hm _ scope hd pp hn, htarget, Run.fail_bind, Shape.evaluate, hscopes]
    rfl
  · rw [invoke, hd, Shape.evaluate, hscopes]
    rfl

end SharedUnit

/-- A static shape whose flag word assumes nothing and whose parameters fit is granted a unit after any requests that
generate code, if it has one or a number is left for it. Invoking a unit that was granted for it, in a finished module in which the class of the unit is the only
one of its name, is the access that the shape means: it ends with the same result and in the same state, and runs the
callee as often and on the same receiver and arguments. -/
theorem invoke_eq_evaluate {name : String} {t : Thresholds} {requests : List Request} {s : Shape}
    (hs : s.flags.isOptimistic = false) :
    ((∀ r ∈ requests, r.Generates) → s.symbol.isDynamic = false →
      fixedSlots + slotCount s.params ≤ maxParamSlots →
      ((∃ u ∈ ((new name t).after requests).shared, u.shape = s) ∨ ((new name t).after requests).Room s.isCall) →
      ∀ i c, ((new name t).after requests).units[i]? = some c →
        ∃ u, Granted name t (requests ++ [.sharedUnit i s]) s u) ∧
    ∀ u, Granted name t requests s u → Single ((new name t).after requests) u.cls →
      ∀ (bodies : Bodies) (scope : ObjRef) (depth : ScopeDepth) (pp : Int32) (args : List Val),
        args.length = s.params.length → ∀ w,
          (u.invoke ((new name t).after requests).finish (.scope bodies) scope depth pp args).outcome w =
            ((s.evaluate bodies scope depth pp args w).result, (s.evaluate bodies scope depth pp args w).world) ∧
          u.bodyRuns ((new name t).after requests).finish bodies scope depth pp args w =
            (s.evaluate bodies scope depth pp args w).runs := by
  refine ⟨fun hr hd hfit hroom i c hc => exists_granted hr hc hd hfit hroom, ?_⟩
  intro u h hone bodies scope depth pp args hn w
  obtain ⟨-, rfl⟩ := h.mem
  have hrun := SharedUnit.invoke_watching (h.method? hone) hs bodies scope depth pp hn w
  rw [u.invoke_scope, SharedUnit.bodyRuns, hrun]
  exact ⟨rfl, rfl⟩

/-- A global object, which holds a sloppy function. -/
def sloppyGlobal : World :=
  { heap := (Heap.set {} 1 "f" (.function ⟨1, "f", false⟩)), thread := { global := some ⟨⟨1, true⟩, []⟩ } }

/-- The unit of a call, invoked one link below the global object: the function sees the global object, runs once, and
returns what does not fit the type that is assumed. -/
theorem invoke_eq_evaluate_sloppyGlobal :
    libraryUnit.shape.flags.isOptimistic = false ∧
    (∃ u, Granted "m" ⟨0, 0⟩ (libraryRequests.take 2 ++ [.sharedUnit 1 libraryUnit.shape]) libraryUnit.shape u) ∧
    Granted "m" ⟨0, 0⟩ libraryRequests libraryUnit.shape libraryUnit ∧
    Single ((new "m" ⟨0, 0⟩).after libraryRequests) "Library" ∧
    ((libraryUnit.invoke ((new "m" ⟨0, 0⟩).after libraryRequests).finish (.scope fun _ _ _ => return .str "late")
      ⟨⟨2, true⟩, [⟨1, true⟩]⟩ (.known 1) 7 []).outcome sloppyGlobal).1 =
        .error (.error (.misspeculation ⟨.str "late", 7⟩)) ∧
    libraryUnit.bodyRuns ((new "m" ⟨0, 0⟩).after libraryRequests).finish (fun _ _ _ => return .str "late")
      ⟨⟨2, true⟩, [⟨1, true⟩]⟩ (.known 1) 7 [] sloppyGlobal = [⟨1, .object ⟨⟨1, true⟩, []⟩, []⟩] := by
  have hgranted : Granted "m" ⟨0, 0⟩ libraryRequests libraryUnit.shape libraryUnit :=
    @Granted.unit "m" ⟨0, 0⟩ libraryRequests (libraryRequests.take 2) _ 1 _ _ _ rfl rfl
  have hone : Single ((new "m" ⟨0, 0⟩).after libraryRequests) "Library" := by decide
  have hgenerates : ∀ r ∈ libraryRequests.take 2, r.Generates := by simp [libraryRequests, Request.Generates]
  have hexists := (@invoke_eq_evaluate "m" ⟨0, 0⟩ (libraryRequests.take 2) libraryUnit.shape rfl).1 hgenerates rfl
    (by decide) (.inr (by decide)) 1 _ rfl
  obtain ⟨hrun, hbodies⟩ := (@invoke_eq_evaluate "m" ⟨0, 0⟩ libraryRequests libraryUnit.shape rfl).2 _ hgranted hone
    (fun _ _ _ => return .str "late") ⟨⟨2, true⟩, [⟨1, true⟩]⟩ (.known 1) 7 [] rfl sloppyGlobal
  rw [hrun, hbodies]
  exact ⟨rfl, hexists, hgranted, hone, rfl, rfl⟩

end ScriptHost
