import ScriptHost.Proofs.Scope.Attribution
import ScriptHost.Proofs.Scope.Progress
import ScriptHost.Proofs.Scope.Units

/-!
# Failures of optimistic shared units

A shared unit runs its operation under a flag word without a program point and is given the point when it is invoked.
The answers of the linker decide what comes of it (`Settles`): the read, or the read of the callee and then the call.
Whatever the answers are, an optimistic unit attributes a failed assumption to the point that it was given and keeps its
value, and lets every other error through as it is (`failures_restamped`).
-/

namespace ScriptHost

open Machine ModuleBuilder

variable {σ : Type}

/-! ## Answers of an access -/

/-- Operations that an access asks its linker for, unless an earlier one ends it. -/
def Shape.operations (s : Shape) : Nat := if s.isCall then 2 else 1

/-- The answers that an access gets, and the result that they settle. -/
inductive Settles (s : Shape) (flags : SiteFlags) : List Answer → Except Fault Val → Prop where
  | read (hs : s.isCall = false) (a : Answer) : Settles s flags [a] (verdict flags "get" s.symbol.name a)
  /-- The callee was not read, so that nothing was called. -/
  | callee (hs : s.isCall = true) {a : Answer} {f : Fault} (ha : verdict s.flags "get" s.symbol.name a = .error f) :
    Settles s flags [a] (.error f)
  | call (hs : s.isCall = true) (callee : Val) (a : Answer) :
    Settles s flags [.ok (.held callee), a] (verdict flags "call" s.symbol.name a)

theorem settles_perform (s : Shape) (l : Linker σ) (flags : SiteFlags) (target : ObjRef) (args : List Val) (st : σ) :
    Settles s flags ((s.perform l.recording flags target args).outcome (st, [])).2.2
      ((s.perform l.recording flags target args).outcome (st, [])).1 := by
  cases hs : s.access with
  | read ty =>
    have hcall : s.isCall = false := by rw [Shape.isCall, hs]
    rw [Shape.perform, hs]
    dsimp only [Linker.recording]
    rw [outcome_settle_recorded]
    exact .read hcall _
  | call ret params =>
    have hcall : s.isCall = true := by rw [Shape.isCall, hs]
    rw [Shape.perform, hs]
    dsimp only [Linker.recording]
    rw [Run.outcome_bind, outcome_settle_recorded]
    rcases (l.get (.object target) s.symbol.name .object s.flags).outcome st with ⟨a, st'⟩
    dsimp only
    cases hv : verdict s.flags "get" s.symbol.name a with
    | error f => exact .callee hcall hv
    | ok callee =>
      dsimp only
      rw [outcome_settle_recorded, verdict_ok hv]
      exact .call hcall callee _

/-! ## One answer -/

theorem verdict_failed {flags : SiteFlags} {operation name : String} {a : Answer} {f : Misspeculation}
    (h : verdict flags operation name a = .error (.error (.misspeculation f))) : Reports a f := by
  unfold verdict at h
  split at h
  · cases h
  · next u =>
    unfold unmet at h
    split at h
    · cases h
      exact .inl rfl
    · cases h
  · next u =>
    unfold unmet at h
    split at h
    · cases h
      exact .inr rfl
    · cases h
  · next f' hf =>
    cases h
    exact absurd rfl (hf f)

theorem verdict_reported {flags : SiteFlags} (ho : flags.isOptimistic = true) {operation name : String} {a : Answer}
    {f : Misspeculation} (h : Reports a f) : verdict flags operation name a = .error (.error (.misspeculation f)) := by
  rcases h with rfl | rfl
  · simp [verdict, unmet, ho]
  · simp [verdict, unmet, ho]

theorem verdict_raised {flags : SiteFlags} {operation name : String} {e : Fault}
    (he : ∀ f, e ≠ .error (.misspeculation f)) : verdict flags operation name (.error e) = .error e := by
  unfold verdict
  split
  · next h => cases h
  · next h => cases h
  · next u h => exact absurd (Except.error.inj h) (he u)
  · next f _ h => rw [Except.error.inj h]

/-! ## Restamping -/

/-- What comes of an access under an assumption whose failures are attributed to a program point, by the answers
that it got. -/
structure Restamps (s : Shape) (pp : Int32) (answers : List Answer) (r : Except Fault Val) : Prop where
  /-- A failed assumption is the one that the linker reported last, with its value and at the point. -/
  attributed : ∀ f, r = .error (.error (.misspeculation f)) →
    f.point = pp ∧ ∃ a f₀, answers.getLast? = some a ∧ Reports a f₀ ∧ f.value = f₀.value
  raised : ∀ e, .error e ∈ answers → (∀ f, e ≠ .error (.misspeculation f)) → r = .error e
  /-- What is reported of the operation that runs under the assumption is never lost. -/
  reported : answers.length = s.operations → ∀ a f₀, answers.getLast? = some a → Reports a f₀ →
    r = .error (.error (.misspeculation (f₀.reattribute pp)))

theorem restamps_internal (s : Shape) (pp : Int32) (e : InternalFault) :
    Restamps s pp [] (.error (.error (.internal e))) where
  attributed f h := by cases h
  raised e' h := by cases h
  reported _ a f₀ h := by cases h

theorem attributed_error {pp : Int32} {e : Fault} (he : ∀ f, e ≠ .error (.misspeculation f)) :
    attributed pp (.error e) = .error e := by
  unfold ScriptHost.attributed
  split
  · next f h => exact absurd (Except.error.inj h) (he f)
  · rfl

theorem Settles.restamps {s : Shape} {flags : SiteFlags} (ho : flags.isOptimistic = true) {answers : List Answer}
    {r : Except Fault Val} (h : Settles s flags answers r) (pp : Int32) :
    Restamps s pp answers (attributed pp r) where
  attributed f hf := by
    obtain ⟨f₀, rfl, rfl⟩ := attributed_eq hf
    refine ⟨rfl, ?_⟩
    generalize hr : (Except.error (.error (.misspeculation f₀)) : Except Fault Val) = r at h
    cases h with
    | read hs a => exact ⟨a, f₀, rfl, verdict_failed hr.symm, rfl⟩
    | @callee hs a f ha => exact ⟨a, f₀, rfl, verdict_failed (ha.trans hr.symm), rfl⟩
    | call hs callee a => exact ⟨a, f₀, rfl, verdict_failed hr.symm, rfl⟩
  raised e he hne := by
    have hr : r = .error e := by
      cases h with
      | read hs a =>
        obtain rfl : .error e = a := by simpa using he
        exact verdict_raised hne
      | @callee hs a f ha =>
        obtain rfl : .error e = a := by simpa using he
        rw [← ha]
        exact verdict_raised hne
      | call hs callee a =>
        obtain rfl : .error e = a := by simpa using he
        exact verdict_raised hne
    rw [hr]
    exact attributed_error hne
  reported hn a f₀ ha hreports := by
    unfold Shape.operations at hn
    cases h with
    | read hs a' =>
      obtain rfl : a' = a := by simpa using ha
      rw [verdict_reported ho hreports]
      rfl
    | callee hs ha' => simp [hs] at hn
    | call hs callee a' =>
      obtain rfl : a' = a := by simpa using ha
      rw [verdict_reported ho hreports]
      rfl

theorem Shape.restamps_performShared {s : Shape} (ho : s.optimistic = true) (l : Linker σ) (pp : Int32)
    (target : ObjRef) (args : List Val) (st : σ) :
    Restamps s pp ((s.performShared l.recording pp target args).outcome (st, [])).2.2
      ((s.performShared l.recording pp target args).outcome (st, [])).1 := by
  have hflags : s.unitFlags.isOptimistic = true := by rw [Shape.unitFlags, if_pos ho, SiteFlags.isOptimistic_or]
  rw [Shape.performShared, if_pos ho, outcome_restamp]
  exact (settles_perform s l s.unitFlags target args st).restamps hflags pp

/-- Whatever the linker answers, and whatever program point, scope, depth and arguments an optimistic shared unit is
invoked with: if it ends in a failed assumption, this has the point of the invocation and the value of a failure that
the linker reported; an error of another kind that the linker gives is the result; and a failure that the linker reports
of the operation under the assumption always comes out, attributed to that point. -/
theorem failures_restamped {name : String} {t : Thresholds} {requests : List Request} {s : Shape} {u : SharedUnit}
    (h : Granted name t requests s u)
    (hr : (∀ r ∈ requests, r.Generates) ∨ Single ((new name t).after requests) u.cls) (ho : s.optimistic = true)
    (l : Linker σ) (scope : ObjRef) (depth : ScopeDepth) (pp : Int32) (args : List Val) (st : σ) :
    Restamps s pp (u.answers ((new name t).after requests).finish l scope depth pp args st)
      ((u.invoke ((new name t).after requests).finish l scope depth pp args).outcome st).1 := by
  obtain ⟨-, rfl⟩ := h.mem
  rw [u.invoke_recording, SharedUnit.answers]
  rcases SharedUnit.invoke_cases (fun target => h.method_eq hr) scope depth pp args with ⟨d, haccess⟩ | ⟨e, hfail⟩
  · rw [haccess l.recording]
    rcases targetOf_object scope d with ⟨o, htarget⟩ | ⟨-, -, hchain⟩
    · rw [htarget, pure_bind]
      exact Shape.restamps_performShared ho l pp o args st
    · rw [hchain, Run.fail_bind]
      exact restamps_internal _ pp _
  · rw [hfail l.recording]
    exact restamps_internal _ pp e

/-- A linker that reads functions, and whose calls raise a failure of their own. -/
def raisingCalls : Linker Unit where
  get _ _ _ _ := return .held (.function ⟨1, "f", false⟩)
  call _ _ _ _ _ _ := Run.fail (.misspeculation ⟨.str "late", 99⟩)

/-- The unit of a call whose callee raises a failure at point 99, invoked with a point that no site can have. -/
theorem failures_restamped_raisingCalls :
    Granted "m" ⟨0, 0⟩ libraryRequests libraryUnit.shape libraryUnit ∧
    (∀ r ∈ libraryRequests, r.Generates) ∧ libraryUnit.shape.optimistic = true ∧
    ((libraryUnit.invoke ((new "m" ⟨0, 0⟩).after libraryRequests).finish raisingCalls ⟨⟨1, true⟩, []⟩ (.known 0) (-5)
      []).outcome ()).1 = .error (.error (.misspeculation ⟨.str "late", -5⟩)) := by
  have hgranted : Granted "m" ⟨0, 0⟩ libraryRequests libraryUnit.shape libraryUnit :=
    @Granted.unit "m" ⟨0, 0⟩ libraryRequests (libraryRequests.take 2) _ 1 _ _ _ rfl rfl
  have hr : ∀ r ∈ libraryRequests, r.Generates := by simp [libraryRequests, Request.Generates]
  have hanswers : libraryUnit.answers ((new "m" ⟨0, 0⟩).after libraryRequests).finish raisingCalls ⟨⟨1, true⟩, []⟩
      (.known 0) (-5) [] () =
        [.ok (.held (.function ⟨1, "f", false⟩)), .error (.error (.misspeculation ⟨.str "late", 99⟩))] := rfl
  have hrestamps := failures_restamped hgranted (.inl hr) rfl raisingCalls ⟨⟨1, true⟩, []⟩ (.known 0) (-5) [] ()
  rw [hanswers] at hrestamps
  exact ⟨hgranted, hr, rfl, hrestamps.reported rfl _ ⟨.str "late", 99⟩ rfl (.inr rfl)⟩

end ScriptHost
