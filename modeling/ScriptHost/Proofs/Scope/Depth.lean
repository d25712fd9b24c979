import ScriptHost.Proofs.Scope.Containment
import ScriptHost.Proofs.Scope.Meaning

/-!
# Static depths and dynamic lookup

A known depth says how many links an access goes up before it looks for its name. The scope that is reached matters
only for what is found from there on (`Shape.ReadsFirst`). So passing over scopes that do not hold the name changes
nothing, and what the scopes that are passed hold does not matter to a read (`known_depth_agrees`).
-/

namespace ScriptHost

open Machine ModuleBuilder

/-! ## Searching a chain -/

namespace Heap

variable {h h' : Heap} {name : String} {scopes : List ObjRef}

theorem nearest?_drop {n : Nat} (hnone : ∀ o ∈ scopes.take n, h.own? o.id name = none) :
    h.nearest? name (scopes.drop n) = h.nearest? name scopes := by
  have hfront : (scopes.take n).findSome? (fun o => h.own? o.id name) = none := List.findSome?_eq_none_iff.2 hnone
  calc h.nearest? name (scopes.drop n)
      = (scopes.take n ++ scopes.drop n).findSome? fun o => h.own? o.id name := by
        rw [List.findSome?_append, hfront, Option.none_or, nearest?]
    _ = h.nearest? name scopes := by rw [List.take_append_drop, nearest?]

theorem nearest?_congr (hsame : ∀ o ∈ scopes, h'.propertiesOf o.id = h.propertiesOf o.id) (name : String) :
    h'.nearest? name scopes = h.nearest? name scopes := by
  induction scopes with
  | nil => rfl
  | cons o os ih =>
    obtain ⟨ho, hos⟩ := List.forall_mem_cons.1 hsame
    have hown : h'.own? o.id name = h.own? o.id name := by rw [own?, own?, ho]
    have hrest := ih hos
    rw [nearest?, nearest?] at hrest
    rw [nearest?, nearest?, List.findSome?_cons, List.findSome?_cons, hown, hrest]

end Heap

/-- A depth that can be encoded and that the chain has is that of a scope, from which the search goes on. -/
theorem exists_target {scope : ObjRef} {j : UInt32} (hj : j.toNat ≤ 0x7fffffff)
    (hlinks : j.toNat ≤ scope.ancestors.length) (σ : Type) :
    ∃ d o, (ScopeDepth.known j).encode = .ok d ∧ o.chain = scope.chain.drop j.toNat ∧
      (targetOf (.object scope) d : Run σ ObjRef) = pure o := by
  have hscopes : (ScopeDepth.known j).scopes scope = .ok (scope.chain.drop j.toNat) := by
    rw [ScopeDepth.scopes, if_neg (by omega), if_neg (by omega)]
  rcases @scopes_cases σ scope (.known j) with ⟨d, o, hd, ho, htarget⟩ | ⟨d, e, -, he, -⟩ | ⟨e, -, he⟩
  · rw [hscopes] at ho
    exact ⟨d, o, hd, (Except.ok.inj ho).symm, htarget⟩
  · rw [hscopes] at he
    cases he
  · rw [hscopes] at he
    cases he

theorem scopes_known {scope : ObjRef} {j : UInt32} {scopes : List ObjRef}
    (h : (ScopeDepth.known j).scopes scope = .ok scopes) : scopes = scope.chain.drop j.toNat := by
  simp only [ScopeDepth.scopes] at h
  split at h
  · cases h
  · split at h
    · cases h
    · exact (Except.ok.inj h).symm

/-! ## The target of an access -/

namespace Shape

/-- An access reads the variable of its target and goes on with the value. If it is a read, how it goes on gives the same
in every state. -/
structure ReadsFirst (s : Shape) (access : ObjRef → Run Watched Val) (rest : Val → Run Watched Val) : Prop where
  reads : ∀ o, access o = Run.unwatched (readVar o s.symbol.name s.flags.isScope) >>= rest
  stateless : s.isCall = false → ∀ v st st', ((rest v).outcome st).1 = ((rest v).outcome st').1

variable {s : Shape}

theorem exists_readsFirst (s : Shape) (bodies : Bodies) (args : List Val) :
    ∃ rest, s.ReadsFirst (fun o => s.perform (.watching bodies) s.unitFlags o args) rest := by
  cases ha : s.access with
  | read ty =>
    refine ⟨fun v => checked v ty s.unitFlags, fun o => ?_, fun _ v st st' => ?_⟩
    · rw [perform_read _ _ _ _ ha, isScope_unitFlags]
    · unfold checked
      split <;> rfl
  | call ret params =>
    refine ⟨_, fun o => perform_call _ _ _ _ ha, fun hcall => ?_⟩
    rw [isCall, ha] at hcall
    cases hcall

theorem ReadsFirst.restamp {access : ObjRef → Run Watched Val} {rest : Val → Run Watched Val}
    (h : s.ReadsFirst access rest) (pp : Int32) :
    s.ReadsFirst (fun o => restamp pp (access o)) fun v => restamp pp (rest v) where
  reads o := by
    have hread := Run.definite_unwatched (definite_readVar o s.symbol.name s.flags.isScope)
    rw [h.reads, restamp_bind, Run.catching_definite hread]
  stateless hcall v st st' := by rw [outcome_restamp, outcome_restamp, h.stateless hcall v st st']

theorem exists_readsFirst_shared (s : Shape) (bodies : Bodies) (pp : Int32) (args : List Val) :
    ∃ rest, s.ReadsFirst (fun o => s.performShared (.watching bodies) pp o args) rest := by
  obtain ⟨rest, hrest⟩ := s.exists_readsFirst bodies args
  unfold performShared
  split
  · exact ⟨_, hrest.restamp pp⟩
  · exact ⟨rest, hrest⟩

variable {o o' : ObjRef} {w w' : World}

/-- Targets from which a search finds the same are as good as each other. -/
theorem performShared_congr (h : s.read w.heap o.chain = s.read w.heap o'.chain) (bodies : Bodies) (pp : Int32)
    (args : List Val) (log : List BodyRun) :
    (s.performShared (.watching bodies) pp o args).outcome (w, log) =
      (s.performShared (.watching bodies) pp o' args).outcome (w, log) := by
  obtain ⟨rest, hrest⟩ := s.exists_readsFirst_shared bodies pp args
  rw [hrest.reads o, hrest.reads o', Run.outcome_bind, Run.outcome_bind, outcome_unwatched_readVar,
    outcome_unwatched_readVar, h]

theorem performShared_fst (hcall : s.isCall = false) (h : s.read w.heap o.chain = s.read w'.heap o.chain)
    (bodies : Bodies) (pp : Int32) (args : List Val) (log : List BodyRun) :
    ((s.performShared (.watching bodies) pp o args).outcome (w, log)).1 =
      ((s.performShared (.watching bodies) pp o args).outcome (w', log)).1 := by
  obtain ⟨rest, hrest⟩ := s.exists_readsFirst_shared bodies pp args
  rw [hrest.reads o, Run.outcome_bind, Run.outcome_bind, outcome_unwatched_readVar, outcome_unwatched_readVar, h]
  cases s.read w'.heap o.chain with
  | error e => rfl
  | ok v => exact hrest.stateless hcall v _ _

end Shape

/-! ## Invocations -/

namespace SharedUnit

variable {u : SharedUnit} {m : Module} (hm : ∀ target, m.method? u.cls u.name = some target → target = u.method)
  (bodies : Bodies) {scope : ObjRef} {j : UInt32} (pp : Int32) (args : List Val)

include hm

theorem watching_known (hj : j.toNat ≤ 0x7fffffff) (hlinks : j.toNat ≤ scope.ancestors.length) {w : World}
    (hnone : ∀ o ∈ scope.chain.take j.toNat, w.heap.own? o.id u.shape.symbol.name = none) :
    (u.invoke m (.watching bodies) scope (.known j) pp args).outcome (w, []) =
      (u.invoke m (.watching bodies) scope .dynamic pp args).outcome (w, []) := by
  obtain ⟨d, o, hd, hchain, htarget⟩ := exists_target hj hlinks Watched
  have hdynamic : ScopeDepth.dynamic.encode = .ok (-1) := rfl
  rcases invoke_forms hm args with haccess | ⟨e, hfail⟩
  · have hself : (targetOf (.object scope) (-1) : Run Watched ObjRef) = pure scope := rfl
    have hread : u.shape.read w.heap o.chain = u.shape.read w.heap scope.chain := by
      rw [Shape.read, Shape.read, hchain, Heap.nearest?_drop hnone]
    rw [haccess _ _ hd, haccess _ _ hdynamic, htarget, hself, pure_bind, pure_bind]
    exact Shape.performShared_congr hread bodies pp args []
  · rw [hfail _ _ hd, hfail _ _ hdynamic]

theorem watching_known_fst (hcall : u.shape.isCall = false) {w w' : World}
    (hsame : ∀ o ∈ scope.chain.drop j.toNat, w'.heap.propertiesOf o.id = w.heap.propertiesOf o.id) :
    ((u.invoke m (.watching bodies) scope (.known j) pp args).outcome (w', [])).1 =
      ((u.invoke m (.watching bodies) scope (.known j) pp args).outcome (w, [])).1 := by
  rcases @scopes_cases Watched scope (.known j) with ⟨d, o, hd, hscopes, htarget⟩ | ⟨d, e, hd, -, htarget⟩ | ⟨e, hd, -⟩
  · rcases invoke_forms hm args with haccess | ⟨e, hfail⟩
    · have hread : u.shape.read w'.heap o.chain = u.shape.read w.heap o.chain := by
        rw [Shape.read, Shape.read, scopes_known hscopes, Heap.nearest?_congr hsame]
      rw [haccess _ _ hd, htarget, pure_bind]
      exact Shape.performShared_fst hcall hread bodies pp args []
    · rw [hfail _ _ hd]
      rfl
  · rcases invoke_forms hm args with haccess | ⟨e', hfail⟩
    · rw [haccess _ _ hd, htarget, Run.fail_bind]
      rfl
    · rw [hfail _ _ hd]
      rfl
  · rw [invoke, hd]
    rfl

end SharedUnit

/-- A unit that was granted, for a read or a call and with or without an assumption, in a finished module that has no
other method under its names. On a chain with `j` links or more of which the `j` innermost scopes do not hold the name,
invoking the unit at depth `j` or at an unknown depth gives the same result, the same state and the same runs of the
callee, for all arguments and wherever the name is bound, if it is. What a read at depth `j` gives does not depend on
the properties of the `j` innermost scopes: it is the same in every heap that keeps those of the scopes further out. -/
theorem known_depth_agrees {name : String} {t : Thresholds} {requests : List Request} {s : Shape} {u : SharedUnit}
    (h : Granted name t requests s u)
    (hr : (∀ r ∈ requests, r.Generates) ∨ Single ((new name t).after requests) u.cls) (bodies : Bodies)
    (scope : ObjRef) (j : UInt32) (w : World) (pp : Int32) (args : List Val) :
    (j.toNat ≤ 0x7fffffff → j.toNat ≤ scope.ancestors.length →
      (∀ o ∈ scope.chain.take j.toNat, w.heap.own? o.id s.symbol.name = none) →
        (u.invoke ((new name t).after requests).finish (.scope bodies) scope (.known j) pp args).outcome w =
          (u.invoke ((new name t).after requests).finish (.scope bodies) scope .dynamic pp args).outcome w ∧
        u.bodyRuns ((new name t).after requests).finish bodies scope (.known j) pp args w =
          u.bodyRuns ((new name t).after requests).finish bodies scope .dynamic pp args w) ∧
    (s.isCall = false → ∀ heap : Heap,
      (∀ o ∈ scope.chain.drop j.toNat, heap.propertiesOf o.id = w.heap.propertiesOf o.id) →
        ((u.invoke ((new name t).after requests).finish (.scope bodies) scope (.known j) pp args).outcome
          { w with heap }).1 =
        ((u.invoke ((new name t).after requests).finish (.scope bodies) scope (.known j) pp args).outcome w).1) := by
  obtain ⟨-, rfl⟩ := h.mem
  have hm : ∀ target, ((new name t).after requests).finish.method? u.cls u.name = some target → target = u.method :=
    fun _ ht => h.method_eq hr ht
  refine ⟨fun hj hlinks hnone => ?_, fun hcall heap hsame => ?_⟩
  · have hrun := SharedUnit.watching_known hm bodies pp args hj hlinks hnone
    rw [SharedUnit.invoke_scope, SharedUnit.invoke_scope, SharedUnit.bodyRuns, SharedUnit.bodyRuns, hrun]
    exact ⟨rfl, rfl⟩
  · rw [SharedUnit.invoke_scope, SharedUnit.invoke_scope]
    exact SharedUnit.watching_known_fst hm bodies pp args hcall hsame

def innermost : ObjRef := ⟨⟨3, true⟩, [⟨2, true⟩, ⟨1, true⟩]⟩

def outermostBinding : World := { heap := Heap.set {} 1 "x" (.int 7) }

/-- The read of `x` two links up finds what a search finds, also once the innermost scope holds another `x`, which a search
finds first. -/
theorem known_depth_agrees_innermost :
    Granted "m" ⟨5, 5⟩ plainRequests plainRead ⟨plainRead, "Script", ":scopeGet$0"⟩ ∧
    (∀ r ∈ plainRequests, r.Generates) ∧
    (∀ o ∈ innermost.chain.take (2 : UInt32).toNat, outermostBinding.heap.own? o.id "x" = none) ∧
    plainRead.isCall = false ∧
    ((SharedUnit.invoke ⟨plainRead, "Script", ":scopeGet$0"⟩ ((new "m" ⟨5, 5⟩).after plainRequests).finish
      (.scope fun _ _ _ => return .undefined) innermost (.known 2) 9 []).outcome outermostBinding).1 = .ok (.int 7) ∧
    ((SharedUnit.invoke ⟨plainRead, "Script", ":scopeGet$0"⟩ ((new "m" ⟨5, 5⟩).after plainRequests).finish
      (.scope fun _ _ _ => return .undefined) innermost (.known 2) 9 []).outcome
        { outermostBinding with heap := outermostBinding.heap.set 3 "x" (.int 8) }).1 = .ok (.int 7) ∧
    ((SharedUnit.invoke ⟨plainRead, "Script", ":scopeGet$0"⟩ ((new "m" ⟨5, 5⟩).after plainRequests).finish
      (.scope fun _ _ _ => return .undefined) innermost .dynamic 9 []).outcome
        { outermostBinding with heap := outermostBinding.heap.set 3 "x" (.int 8) }).1 = .ok (.int 8) := by
  have hgranted : Granted "m" ⟨5, 5⟩ plainRequests plainRead ⟨plainRead, "Script", ":scopeGet$0"⟩ :=
    @Granted.unit "m" ⟨5, 5⟩ plainRequests [.openClass "Script"] _ 0 _ _ _ rfl rfl
  have hgenerates : ∀ r ∈ plainRequests, r.Generates := by simp [plainRequests, Request.Generates]
  have hnone : ∀ o ∈ innermost.chain.take (2 : UInt32).toNat, outermostBinding.heap.own? o.id "x" = none := by decide
  obtain ⟨hagree, hframe⟩ := known_depth_agrees hgranted (.inl hgenerates) (fun _ _ _ => return .undefined) innermost 2
    outermostBinding 9 []
  have hfound := (hagree (by decide) (by decide) hnone).1
  refine ⟨hgranted, hgenerates, hnone, rfl, ?_, ?_, rfl⟩
  · rw [hfound]
    rfl
  · rw [hframe rfl _ (by decide), hfound]
    rfl

end ScriptHost
