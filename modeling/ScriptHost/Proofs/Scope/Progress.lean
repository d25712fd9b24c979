import ScriptHost.Proofs.Code.Answers
import ScriptHost.Proofs.Scope.Sharing

/-!
# Generated code never gets stuck

A run of a lowered site or of a shared unit is decided by the answers of its linker. It goes on while the
answers are values, and ends with what its last answer says (`Ends`): the value, the error that the linker
raised, or the failed assumption that it reported. Other than that it ends only where the chain of scopes is
too short, before the linker is asked anything. No fault of the machine itself is among the ends: not for
operands, slots, static calls, handlers, nested frames or the step budget.
-/

namespace ScriptHost

open Machine ModuleBuilder

variable {σ : Type}

/-! ## How a run ends -/

/-- All answers are values. -/
def AllHeld (answers : List Answer) : Prop := ∀ a ∈ answers, ∃ v, a = .ok (.held v)

theorem allHeld_nil : AllHeld [] := by simp [AllHeld]

/-- How a run on a scope and a depth ends, by the answers that it got. -/
inductive Ends (scope : ObjRef) (depth : Int32) : List Answer → Except Fault Val → Prop where
  /-- The chain is shorter than the depth. -/
  | chain (hd : 0 ≤ depth) (hs : scope.ancestors.length < depth.toInt.toNat) :
    Ends scope depth []
      (.error (.error (.internal (.chainEnds scope.ancestors.length depth.toInt.toNat))))
  | value {before : List Answer} (hb : AllHeld before) (v : Val) :
    Ends scope depth (before ++ [.ok (.held v)]) (.ok v)
  | raised {before : List Answer} (hb : AllHeld before) {f : Fault}
    (hf : ∀ u, f ≠ .error (.misspeculation u)) : Ends scope depth (before ++ [.error f]) (.error f)
  /-- The value of the failed assumption is kept. -/
  | failed {before : List Answer} (hb : AllHeld before) {a : Answer} {u : Misspeculation} (ha : Reports a u)
    (pp : Int32) : Ends scope depth (before ++ [a]) (.error (.error (.misspeculation (u.reattribute pp))))
  /-- The operation that failed assumed nothing. -/
  | unchecked {before : List Answer} (hb : AllHeld before) {a : Answer} {u : Misspeculation}
    (ha : Reports a u) (operation name : String) :
    Ends scope depth (before ++ [a]) (.error (.error (.internal (.uncheckedSpeculation operation name u))))

theorem Ends.attributed {scope : ObjRef} {depth : Int32} {answers : List Answer} {r : Except Fault Val}
    (h : Ends scope depth answers r) (pp : Int32) : Ends scope depth answers (attributed pp r) := by
  cases h with
  | chain hd hs => exact .chain hd hs
  | value hb v => exact .value hb v
  | @raised before hb f hf =>
    have hsame : ScriptHost.attributed pp (.error f) = .error f := by
      unfold ScriptHost.attributed
      split
      · next u he => exact absurd (Except.error.inj he) (hf u)
      · rfl
    rw [hsame]
    exact .raised hb hf
  | failed hb ha pp' => exact .failed hb ha pp
  | unchecked hb ha operation name => exact .unchecked hb ha operation name

variable {scope : ObjRef} {depth : Int32}

theorem ends_unmet {before : List Answer} (hb : AllHeld before) {a : Answer} {u : Misspeculation}
    (ha : Reports a u) (flags : SiteFlags) (operation name : String) :
    Ends scope depth (before ++ [a]) (.error (.error (unmet u flags operation name))) := by
  unfold unmet
  split
  · exact .failed hb ha u.point
  · exact .unchecked hb ha operation name

/-- An operation after values ends the run as its answer says. -/
theorem ends_verdict {before : List Answer} (hb : AllHeld before) (flags : SiteFlags)
    (operation name : String) (a : Answer) :
    Ends scope depth (before ++ [a]) (verdict flags operation name a) := by
  unfold verdict
  split
  · exact .value hb _
  · exact ends_unmet hb (.inl rfl) flags operation name
  · exact ends_unmet hb (.inr rfl) flags operation name
  · next f hf => exact .raised hb hf

/-! ## Accesses -/

/-- A computation that ends as its answers say, from an empty log on. -/
def EndsWell (scope : ObjRef) (depth : Int32) (x : Run (σ × List Answer) Val) : Prop :=
  ∀ s, Ends scope depth (x.outcome (s, [])).2.2 (x.outcome (s, [])).1

theorem EndsWell.restamp {x : Run (σ × List Answer) Val} (h : EndsWell scope depth x) (pp : Int32) :
    EndsWell scope depth (restamp pp x) := by
  intro s
  rw [outcome_restamp]
  exact (h s).attributed pp

theorem endsWell_perform (s : Shape) (l : Linker σ) (flags : SiteFlags) (target : ObjRef) (args : List Val) :
    EndsWell scope depth (s.perform l.recording flags target args) := by
  intro st
  cases hs : s.access with
  | read ty =>
    rw [Shape.perform, hs]
    dsimp only [Linker.recording]
    rw [outcome_settle_recorded]
    exact ends_verdict allHeld_nil ..
  | call ret params =>
    rw [Shape.perform, hs]
    dsimp only [Linker.recording]
    rw [Run.outcome_bind, outcome_settle_recorded]
    rcases (l.get (.object target) s.symbol.name .object s.flags).outcome st with ⟨a, st'⟩
    dsimp only
    cases hv : verdict s.flags "get" s.symbol.name a with
    | error f =>
      -- the read ends the access: its answer is the last one
      dsimp only
      rw [← hv]
      exact ends_verdict allHeld_nil ..
    | ok callee =>
      dsimp only
      rw [outcome_settle_recorded, verdict_ok hv]
      exact ends_verdict (by simp [AllHeld]) ..

theorem endsWell_site (s : Site) (shared : Bool) (l : Linker σ) (target : ObjRef) (args : List Val) :
    EndsWell scope depth (s.perform shared l.recording target args) := by
  unfold Site.perform Shape.performShared
  split
  · split
    · exact EndsWell.restamp (endsWell_perform s.shape l s.shape.unitFlags target args) s.point
    · exact endsWell_perform s.shape l s.shape.unitFlags target args
  · exact endsWell_perform s.shape l s.inlineFlags target args

/-! ## Walking to the target -/

theorem climb?_eq_none {n : Nat} {c : Cell} {cs : List Cell} (h : ObjRef.climb? n c cs = none) :
    cs.length < n := by
  induction n generalizing c cs with
  | zero => cases h
  | succ n ih =>
    cases cs with
    | nil => exact Nat.succ_pos n
    | cons c' cs => exact Nat.succ_lt_succ (ih h)

theorem targetOf_object (scope : ObjRef) (depth : Int32) :
    (∃ o, (targetOf (.object scope) depth : Run σ ObjRef) = pure o) ∨
      0 ≤ depth ∧ scope.ancestors.length < depth.toInt.toNat ∧
        (targetOf (.object scope) depth : Run σ ObjRef) =
          Run.fail (InternalFault.chainEnds scope.ancestors.length depth.toInt.toNat) := by
  by_cases hd : depth < 0
  · refine .inl ⟨scope, ?_⟩
    rw [targetOf, climb, if_pos hd]
    rfl
  · cases ha : scope.ancestor? depth.toInt.toNat with
    | some o =>
      refine .inl ⟨o, ?_⟩
      rw [targetOf, climb, if_neg hd, ha]
      rfl
    | none =>
      refine .inr ⟨Int32.not_lt.1 hd, climb?_eq_none ha, ?_⟩
      rw [targetOf, climb, if_neg hd, ha]
      rfl

theorem endsWell_walk {k : ObjRef → Run (σ × List Answer) Val} (hk : ∀ o, EndsWell scope depth (k o)) :
    EndsWell scope depth (targetOf (.object scope) depth >>= k) := by
  intro st
  rcases targetOf_object scope depth with ⟨o, ho⟩ | ⟨hd, hs, hfail⟩
  · rw [ho, pure_bind]
    exact hk o st
  · rw [hfail, Run.fail_bind]
    exact .chain hd hs

/-! ## Types of results -/

/-- Every value that the linker gives is of the type that it was asked for. -/
structure Linker.Typed (l : Linker σ) : Prop where
  get : ∀ {receiver name ty flags s v},
    ((l.get receiver name ty flags).outcome s).1 = .ok (.held v) → v.fits ty
  call : ∀ {callee this args ret flags name s v},
    ((l.call callee this args ret flags name).outcome s).1 = .ok (.held v) → v.fits ret

theorem fits_check {v v' : Val} {ty : Ty} {flags : SiteFlags} (h : Speculation.check v ty flags = .held v') :
    v'.fits ty := by
  unfold Speculation.check at h
  split at h
  · cases h
    exact Val.fits_coerce v ty
  · cases h

theorem fits_checked {x : Run σ Val} {ty : Ty} {flags : SiteFlags} {s : σ} {v : Val}
    (h : ((x >>= fun v => pure (Speculation.check v ty flags)).outcome s).1 = .ok (.held v)) :
    v.fits ty := by
  rw [bind_pure_comp, Run.outcome_map] at h
  cases hx : (x.outcome s).1 with
  | error f =>
    rw [hx] at h
    cases h
  | ok v₀ =>
    rw [hx] at h
    exact fits_check (Except.ok.inj h)

theorem Linker.typed_scope (bodies : Bodies) : Linker.Typed (.scope bodies) where
  get {receiver name ty flags s v} h := by
    cases receiver with
    | object o =>
      change ((Linker.scopeGet (.object o) name ty flags).outcome s).1 = _ at h
      rw [scopeGet_object] at h
      exact fits_checked h
    | _ => cases h
  call {callee this args ret flags name s v} h := by
    cases callee with
    | function f => exact fits_checked (x := f.callFromSite bodies this args flags) h
    | _ => cases h

theorem settle_typed {x : Run σ Speculation} {ty : Ty}
    (hx : ∀ {s v}, (x.outcome s).1 = .ok (.held v) → v.fits ty) {flags : SiteFlags}
    {operation name : String} {s : σ} {v : Val} (h : ((settle x flags operation name).outcome s).1 = .ok v) :
    v.fits ty := by
  rw [outcome_settle] at h
  exact hx (verdict_ok h)

theorem perform_typed {l : Linker σ} (hl : l.Typed) {s : Shape} {flags : SiteFlags} {target : ObjRef}
    {args : List Val} {st : σ} {v : Val} (h : ((s.perform l flags target args).outcome st).1 = .ok v) :
    v.fits s.returnType := by
  cases hs : s.access with
  | read ty =>
    rw [Shape.returnType, hs]
    rw [Shape.perform, hs] at h
    exact settle_typed hl.get h
  | call ret params =>
    rw [Shape.returnType, hs]
    rw [Shape.perform, hs] at h
    obtain ⟨callee, st', -, hcall⟩ := Run.outcome_bind_ok (Prod.ext h rfl)
    exact settle_typed hl.call (congrArg Prod.fst hcall)

theorem attributed_ok {pp : Int32} {r : Except Fault Val} {v : Val} (h : attributed pp r = .ok v) : r = .ok v := by
  unfold attributed at h
  split at h
  · cases h
  · exact h

theorem site_typed {l : Linker σ} (hl : l.Typed) {s : Site} {shared : Bool} {target : ObjRef} {args : List Val}
    {st : σ} {v : Val} (h : ((s.perform shared l target args).outcome st).1 = .ok v) :
    v.fits s.shape.returnType := by
  unfold Site.perform Shape.performShared at h
  split at h
  · split at h
    · rw [outcome_restamp] at h
      exact perform_typed hl (attributed_ok h)
    · exact perform_typed hl h
  · exact perform_typed hl h

/-! ## Finished modules -/

/-- Running the method on the arguments is safe: under every linker it ends as the answers say, and under the
scope linker a value that it returns is of its return type. -/
structure Progresses (m : Module) (cls name : String) (ret : Ty) (scope : ObjRef) (depth : Int32)
    (args : List Val) : Prop where
  ends : ∀ {σ : Type} (l : Linker σ) (s : σ),
    Ends scope depth (m.answers l cls name args s) ((m.invoke l cls name args).outcome s).1
  typed : ∀ (bodies : Bodies) (w : World) (v : Val),
    ((m.invoke (.scope bodies) cls name args).outcome w).1 = .ok v → v.fits ret

/-- A method that walks to its target and does the access of a site there is safe to run. -/
theorem progresses_access {m : Module} {cls name : String} {scope : ObjRef} {depth : Int32} {args rest : List Val}
    {s : Site} {shared : Bool} (h : ∀ {σ : Type} (l : Linker σ), m.invoke l cls name args =
      targetOf (.object scope) depth >>= fun o => s.perform shared l o rest) :
    Progresses m cls name s.shape.returnType scope depth args where
  ends {σ} l st := by
    rw [m.invoke_recording, Module.answers, h]
    exact endsWell_walk (fun o => endsWell_site s shared l o rest) st
  typed bodies w v hv := by
    rw [h] at hv
    obtain ⟨o, w', -, hrun⟩ := Run.outcome_bind_ok (Prod.ext hv rfl)
    exact site_typed (Linker.typed_scope bodies) (congrArg Prod.fst hrun)

/-- Whatever was asked of a builder before it was finished, as long as its classes have distinct names: every
lowered site runs on an object and arguments, and every shared unit on an object, a depth, a program point and
arguments, without getting stuck. -/
theorem generated_progresses {name : String} {t : Thresholds} {requests : List Request}
    (hd : (((new name t).after requests).units.map ClassBody.name).Nodup) :
    (∀ (s : Site) (l : LoweredSite), LoweredBy name t requests s l →
      ∃ depth, s.depth.encode = .ok depth ∧
        ∀ (scope : ObjRef) (args : List Val), (.object scope :: args).length = s.signature.params.length →
          Progresses ((new name t).after requests).finish l.cls l.name s.signature.ret scope depth
            (.object scope :: args)) ∧
    ∀ u ∈ ((new name t).after requests).shared, ∀ (scope : ObjRef) (depth pp : Int32) (args : List Val),
      (.object scope :: .int depth :: .int pp :: args).length = u.signature.params.length →
        Progresses ((new name t).after requests).finish u.cls u.name u.signature.ret scope depth
          (.object scope :: .int depth :: .int pp :: args) := by
  refine ⟨fun s l h => ?_, fun u hu scope depth pp args hn => ?_⟩
  · obtain ⟨cls, k, hi⟩ := h.installed hd
    obtain ⟨-, depth, hdepth⟩ := Site.validate_ok hi.valid
    refine ⟨depth, hdepth, fun scope args hn => ?_⟩
    exact progresses_access fun linker => hi.invoke linker (.object scope) (Nat.succ.inj hn) hdepth
  · have hm := shared_method? (consistent_after (consistent_new name t) requests) hd hu
    have hargs : args.length = u.shape.params.length := Nat.succ.inj (Nat.succ.inj (Nat.succ.inj hn))
    have hinvoke : ∀ {σ : Type} (l : Linker σ), ((new name t).after requests).finish.invoke l u.cls u.name
        (.object scope :: .int depth :: .int pp :: args) =
          targetOf (.object scope) depth >>= fun o =>
            (⟨u.shape, .dynamic, pp⟩ : Site).perform true l o args := by
      intro σ l
      rw [Module.invoke_some hm, execute, show maxDepth = 255 + 1 from rfl,
        run_unit u (.object scope) depth pp hargs 255]
      simp only [Site.perform, if_true]
    exact progresses_access hinvoke

def pairRequests : List Request := [.openClass "Script", .lower 0 callPair]

theorem generated_progresses_callPair :
    (((new "m" ⟨1, 1⟩).after pairRequests).units.map ClassBody.name).Nodup ∧
    LoweredBy "m" ⟨1, 1⟩ pairRequests ⟨⟨⟨"f", .known 0⟩, .call .int [], .scope, true⟩, .known 0, 7⟩
      ⟨"Script", "site$0", some pairUnit⟩ ∧
    pairUnit ∈ ((new "m" ⟨1, 1⟩).after pairRequests).shared ∧
    ∀ scope,
      Progresses ((new "m" ⟨1, 1⟩).after pairRequests).finish "Script" "site$0" .int scope 0 [.object scope] ∧
      Progresses ((new "m" ⟨1, 1⟩).after pairRequests).finish "Script" ":scopeCall$0" .int scope 0
        [.object scope, .int 0, .int 7] := by
  have hd : (((new "m" ⟨1, 1⟩).after pairRequests).units.map ClassBody.name).Nodup := by decide
  have hl : LoweredBy "m" ⟨1, 1⟩ pairRequests
      ⟨⟨⟨"f", .known 0⟩, .call .int [], .scope, true⟩, .known 0, 7⟩ ⟨"Script", "site$0", some pairUnit⟩ :=
    ⟨[.openClass "Script"], [], 0, callPair, _, _, 0, rfl, rfl, rfl, rfl⟩
  have hu : pairUnit ∈ ((new "m" ⟨1, 1⟩).after pairRequests).shared := by decide
  obtain ⟨hsites, hunits⟩ := generated_progresses hd
  refine ⟨hd, hl, hu, fun scope => ⟨?_, hunits pairUnit hu scope 0 7 [] rfl⟩⟩
  obtain ⟨depth, hdepth, hsite⟩ := hsites _ _ hl
  cases hdepth
  exact hsite scope [] rfl

end ScriptHost
