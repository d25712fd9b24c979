import ScriptHost.Proofs.Code.Answers
import ScriptHost.Proofs.Scope.Finishing

/-!
# Invoking shared units

A shared unit is invoked on a scope, a depth, a program point and arguments. In a module that has its method this is
the access of its shape (`SharedUnit.invoke_eq`). A finished module has no other method under the names of a unit that
was granted (`Granted.method_eq`), so an invocation in it is the access or fails before the linker is asked anything
(`SharedUnit.invoke_cases`).
-/

namespace ScriptHost

open Machine ModuleBuilder

namespace SharedUnit

variable {u : SharedUnit} {m : Module} {depth : ScopeDepth} {d : Int32} {args : List Val}

/-- Where the module has the method of the unit, invoking the unit is its access, if it is given a depth that there is
and as many arguments as its shape has parameters. -/
theorem invoke_eq {σ : Type} (hm : m.method? u.cls u.name = some u.method) (l : Linker σ) (scope : ObjRef)
    (hd : depth.encode = .ok d) (pp : Int32) (hn : args.length = u.shape.params.length) :
    u.invoke m l scope depth pp args =
      targetOf (.object scope) d >>= fun o => u.shape.performShared l pp o args := by
  unfold invoke
  rw [hd]
  dsimp only
  rw [Module.invoke_some hm, execute]
  exact run_unit u (.object scope) d pp hn 255

theorem invoke_argumentCount {σ : Type} (hm : m.method? u.cls u.name = some u.method) (l : Linker σ)
    (scope : ObjRef) (hd : depth.encode = .ok d) (pp : Int32) (hn : args.length ≠ u.shape.params.length) :
    u.invoke m l scope depth pp args =
      Run.fail (InternalFault.argumentCount u.cls u.name (u.shape.params.length + 3) (args.length + 3)) := by
  have hcount : (.object scope :: .int d :: .int pp :: args : List Val).length ≠
      u.method.signature.params.length := by
    simp [SharedUnit.method, SharedUnit.signature, Shape.unitSignature, hn]
  unfold invoke
  rw [hd]
  dsimp only
  rw [Module.invoke_some hm, execute]
  exact run_argumentCount hcount 255

/-- If the module has no other method under the names of the unit, invocations with given arguments are the access of
the unit, on every scope and at every depth that there is, or none of them asks the linker anything. -/
theorem invoke_forms (hm : ∀ target, m.method? u.cls u.name = some target → target = u.method) (args : List Val) :
    (∀ {σ : Type} (l : Linker σ) (scope : ObjRef) {depth : ScopeDepth} {d : Int32}, depth.encode = .ok d → ∀ pp,
      u.invoke m l scope depth pp args =
        targetOf (.object scope) d >>= fun o => u.shape.performShared l pp o args) ∨
    ∃ e : InternalFault, ∀ {σ : Type} (l : Linker σ) (scope : ObjRef) {depth : ScopeDepth} {d : Int32},
      depth.encode = .ok d → ∀ pp, u.invoke m l scope depth pp args = Run.fail e := by
  cases hfound : m.method? u.cls u.name with
  | none =>
    refine .inr ⟨.noSuchMethod u.cls u.name m.name, fun l scope depth d hd pp => ?_⟩
    unfold invoke Module.invoke
    rw [hd]
    dsimp only
    rw [hfound]
  | some target =>
    rw [hm target hfound] at hfound
    by_cases hn : args.length = u.shape.params.length
    · exact .inl fun l scope _ _ hd pp => invoke_eq hfound l scope hd pp hn
    · exact .inr ⟨_, fun l scope _ _ hd pp => invoke_argumentCount hfound l scope hd pp hn⟩

theorem invoke_cases (hm : ∀ target, m.method? u.cls u.name = some target → target = u.method) (scope : ObjRef)
    (depth : ScopeDepth) (pp : Int32) (args : List Val) :
    (∃ d, ∀ {σ : Type} (l : Linker σ), u.invoke m l scope depth pp args =
      targetOf (.object scope) d >>= fun o => u.shape.performShared l pp o args) ∨
    ∃ e : InternalFault, ∀ {σ : Type} (l : Linker σ), u.invoke m l scope depth pp args = Run.fail e := by
  cases hd : depth.encode with
  | error e =>
    refine .inr ⟨e, fun l => ?_⟩
    unfold invoke
    rw [hd]
  | ok d =>
    rcases invoke_forms hm args with haccess | ⟨e, hfail⟩
    · exact .inl ⟨d, fun l => haccess l scope hd pp⟩
    · exact .inr ⟨e, fun l => hfail l scope hd pp⟩

/-! ## Answers -/

variable {σ : Type}

def answers (u : SharedUnit) (m : Module) (l : Linker σ) (scope : ObjRef) (depth : ScopeDepth) (pp : Int32)
    (args : List Val) (st : σ) : List Answer :=
  ((u.invoke m l.recording scope depth pp args).outcome (st, [])).2.2

theorem invoke_recording (u : SharedUnit) (m : Module) (l : Linker σ) (scope : ObjRef) (depth : ScopeDepth)
    (pp : Int32) (args : List Val) (st : σ) :
    ((u.invoke m l scope depth pp args).outcome st).1 =
      ((u.invoke m l.recording scope depth pp args).outcome (st, [])).1 := by
  unfold invoke
  cases depth.encode with
  | error e => rfl
  | ok d => exact m.invoke_recording l _ _ _ st

end SharedUnit

/-! ## Units of finished modules -/

namespace ModuleBuilder

/-- Among generated methods, the one under the name of a shared unit is that of the unit, whatever class it is in. -/
theorem Canonical.method_eq {b : ModuleBuilder} (hb : Canonical b) {u : SharedUnit} (hu : u ∈ b.shared)
    {target : Method} (h : b.finish.method? u.cls u.name = some target) : target = u.method := by
  obtain ⟨c, hc, hfind⟩ := Option.bind_eq_some_iff.1 h
  have hname : target.name = u.name := by simpa using List.find?_some hfind
  have hin : target ∈ b.finish.methods :=
    List.mem_flatMap.2 ⟨(u.cls, c), Assoc.mem_of_get? hc, List.mem_of_find?_eq_some hfind⟩
  obtain ⟨i, j, hat⟩ := methodAt_of_finish hin
  have hshared : target.isShared = true := by
    rw [Method.isShared, hname]
    exact isShared_method hb hu
  obtain ⟨v, hv, rfl⟩ := hb.owner hat hshared
  rw [List.inj_on_of_nodup_map hb.names hv hu hname]

variable {name : String} {t : Thresholds} {requests : List Request} {s : Shape} {u : SharedUnit}

theorem exists_granted (hr : ∀ r ∈ requests, r.Generates) {i : Nat} {c : ClassBody}
    (hc : ((new name t).after requests).units[i]? = some c) (hd : s.symbol.isDynamic = false)
    (hfit : fixedSlots + slotCount s.params ≤ maxParamSlots)
    (hroom : (∃ u ∈ ((new name t).after requests).shared, u.shape = s) ∨ ((new name t).after requests).Room s.isCall) :
    ∃ u, Granted name t (requests ++ [.sharedUnit i s]) s u := by
  have hoperands : s.callOperands = .ok (2 + s.params.length) := by
    unfold Shape.callOperands
    rw [if_neg (by omega)]
  have hop : ∃ n, (if s.isCall then s.callOperands else .ok 0) = .ok n := by
    split
    · exact ⟨_, hoperands⟩
    · exact ⟨0, rfl⟩
  have hrun := outcome_sharedUnit hc hd hop
  cases hf : ((new name t).after requests).findShared s with
  | some u =>
    rw [hf] at hrun
    exact ⟨u, .unit rfl hrun⟩
  | none =>
    have hnone : ¬∃ u ∈ ((new name t).after requests).shared, u.shape = s := fun ⟨u, hu, hshape⟩ =>
      findShared_none.1 hf (List.mem_map.2 ⟨u, hu, hshape⟩)
    rw [hf] at hrun
    dsimp only at hrun
    rw [makeUnit_new (canonical_after (canonical_new name t) hr) hc (hroom.resolve_left hnone)] at hrun
    exact ⟨_, .unit rfl hrun⟩

theorem Granted.method? (h : Granted name t requests s u) (hone : Single ((new name t).after requests) u.cls) :
    ((new name t).after requests).finish.method? u.cls u.name = some u.method :=
  (consistent_after (consistent_new name t) requests).method?_unit h.mem.1 hone

theorem Granted.method_eq (h : Granted name t requests s u)
    (hr : (∀ r ∈ requests, r.Generates) ∨ Single ((new name t).after requests) u.cls) {target : Method}
    (ht : ((new name t).after requests).finish.method? u.cls u.name = some target) : target = u.method := by
  rcases hr with hr | hone
  · exact (canonical_after (canonical_new name t) hr).method_eq h.mem.1 ht
  · rw [h.method? hone] at ht
    exact (Option.some.inj ht).symm

end ModuleBuilder
end ScriptHost
