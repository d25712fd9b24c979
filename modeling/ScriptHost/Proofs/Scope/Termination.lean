import ScriptHost.Proofs.Code.Termination
import ScriptHost.Proofs.Scope.Assembly
import ScriptHost.Proofs.Scope.Finishing

/-!
# Termination of generated code

A property that the methods of all shared units and of all sites have, if their parameters fit, is one of every method
that requests generate (`forall_methods_finish`). Handlers that go forward are such a property: the only handler of a
shared unit goes on behind the code of the operation that it covers. So generated code terminates, as all code with such
handlers does (`execution_terminates`).
-/

namespace ScriptHost

/-! ## Generated methods -/

theorem SharedUnit.forward_method (u : SharedUnit) : u.method.Forward := by
  intro h hh
  simp only [SharedUnit.method] at hh
  split at hh
  · rw [List.mem_singleton.1 hh]
    exact Nat.le_succ _
  · cases hh

theorem Site.handlers_method {s : Site} {cls name : String} {shared : Option SharedUnit} {m : Method}
    (h : s.method cls name shared = .ok m) : m.handlers = [] := by
  cases shared with
  | none =>
    obtain ⟨depth, flags, hdepth, hflags⟩ := inline_ok h
    rw [method_inline h hdepth hflags]
  | some u =>
    obtain ⟨depth, hdepth⟩ := sharing_ok h
    rw [method_sharing h hdepth]

namespace ModuleBuilder

/-- If all methods of the first builder have the property, then so have those of the second one. -/
def KeepsAll (P : Method → Prop) (b b' : ModuleBuilder) : Prop :=
  (∀ c ∈ b.units, ∀ m ∈ c.methods, P m) → ∀ c ∈ b'.units, ∀ m ∈ c.methods, P m

section

variable {P : Method → Prop}

theorem KeepsAll.refl (b : ModuleBuilder) : KeepsAll P b b := id

theorem KeepsAll.trans {a b c : ModuleBuilder} (h₁ : KeepsAll P a b) (h₂ : KeepsAll P b c) : KeepsAll P a c :=
  h₂ ∘ h₁

theorem keepsAll_unit (i : Nat) : Run.Moves (KeepsAll P) (unit i) := by
  intro b
  rw [(outcome_unit i b).1]
  exact .refl b

theorem keepsAll_addMethod (i : Nat) {m : Method} (hm : P m) : Run.Moves (KeepsAll P) (addMethod i m) := by
  intro b
  rcases addMethod_cases i m b with ⟨f, hf⟩ | ⟨c, hc, hok⟩
  · rw [hf]
    exact .refl b
  · rw [hok]
    intro hb d hd
    rcases List.mem_or_eq_of_mem_set hd with hd | rfl
    · exact hb d hd
    · intro m' hm'
      rcases List.mem_append.1 hm' with hm' | hm'
      · exact hb c (List.mem_of_getElem? hc) m' hm'
      · rw [List.mem_singleton.1 hm']
        exact hm

variable (hunit : ∀ u : SharedUnit, u.shape.Fits → P u.method)

include hunit

theorem keepsAll_sharedUnit (i : Nat) (s : Shape) : Run.Moves (KeepsAll P) (sharedUnit i s) := by
  have hname : Run.Moves (KeepsAll P) (freshName s.isCall) := by
    intro b hb
    by_cases hroom : b.Room s.isCall
    · rw [outcome_freshName hroom]
      dsimp only
      rw [units_counted]
      exact hb
    · rw [outcome_freshName_full hroom]
      exact hb
  have hmake : s.Fits → ∀ cls, Run.Moves (KeepsAll P) (makeUnit i s cls) := by
    intro hs cls
    refine hname.bind .trans fun name => (keepsAll_addMethod i (hunit _ hs)).bind .trans fun _ => ?_
    exact fun b hb => hb
  rw [sharedUnit_eq]
  refine (keepsAll_unit i).bind .trans fun c => ?_
  split
  · exact .refl
  · refine (Run.moves_get .refl).bind .trans fun b => ?_
    split
    · exact Run.moves_pure .refl _
    · split
      · exact Run.moves_fail .refl _
      · next n hn => exact hmake (Shape.fits_of_operands ⟨n, hn⟩) c.name

variable (hsite : ∀ (s : Site) (cls name : String) (shared : Option SharedUnit) (m : Method),
  s.shape.Fits → s.method cls name shared = .ok m → P m)

include hsite

theorem keepsAll_lowerSite (i : Nat) (census : Census) (index : Nat) {s : Site} (hs : s.validate = .ok ()) :
    Run.Moves (KeepsAll P) (lowerSite i census index s) := by
  rw [lowerSite_eq]
  refine Run.Moves.bind ?_ .trans fun shared => (keepsAll_unit i).bind .trans fun c => ?_
  · refine (Run.moves_get .refl).bind .trans fun b => ?_
    split
    · exact (keepsAll_sharedUnit hunit i s.shape).map some
    · exact Run.moves_pure .refl none
  · cases hm : s.method c.name ("site$" ++ toString index) shared with
    | error e => exact Run.moves_fail .refl e
    | ok m =>
      have hfits := Shape.fits_of_operands (callOperands_valid hs)
      exact (keepsAll_addMethod i (hsite _ _ _ _ _ hfits hm)).bind .trans fun _ => Run.moves_pure .refl _

theorem keepsAll_lower (i : Nat) (sites : List Site) : Run.Moves (KeepsAll P) (lower i sites) :=
  moves_lower .refl .trans fun census k _ _ hs => keepsAll_lowerSite hunit hsite i census k hs

/-- What holds of the methods of all units and of all sites whose parameters fit holds of every method that requests
generate. -/
theorem forall_methods_after {b : ModuleBuilder} (hb : ∀ c ∈ b.units, ∀ m ∈ c.methods, P m) {requests : List Request}
    (hr : ∀ r ∈ requests, r.Generates) : ∀ c ∈ (b.after requests).units, ∀ m ∈ c.methods, P m := by
  refine after_invariant (fun b => ∀ c ∈ b.units, ∀ m ∈ c.methods, P m) (fun {b r} hr hb => ?_) hb hr
  cases r with
  | openClass cls =>
    intro c hc
    rcases List.mem_append.1 hc with hc | hc
    · exact hb c hc
    · rw [List.mem_singleton.1 hc]
      simp
  | addMethod i m => exact hr.elim
  | sharedUnit i s => exact keepsAll_sharedUnit hunit i s b hb
  | lower i sites => exact keepsAll_lower hunit hsite i sites b hb

theorem forall_methods_finish {name : String} {t : Thresholds} {requests : List Request}
    (hr : ∀ r ∈ requests, r.Generates) : ∀ m ∈ ((new name t).after requests).finish.methods, P m := by
  intro m hm
  obtain ⟨i, j, c, hc, hj⟩ := methodAt_of_finish hm
  exact forall_methods_after hunit hsite (by simp [new]) hr c (List.mem_of_getElem? hc) m (List.mem_of_getElem? hj)

end

theorem forward_finish {name : String} {t : Thresholds} {requests : List Request}
    (hr : ∀ r ∈ requests, r.Generates) : ((new name t).after requests).finish.Forward := by
  refine forall_methods_finish (fun u _ => u.forward_method) (fun s cls name shared m _ h => ?_) hr
  rw [Method.Forward, Site.handlers_method h]
  simp

end ModuleBuilder

namespace Machine

open ModuleBuilder

/-- Two methods that call each other, one of them under a handler. -/
def ping : Method where
  cls := "Script"
  name := "ping"
  signature := ⟨.int, []⟩
  code := [.invoke "Script" "pong" ⟨.int, []⟩, .ret .int, .rethrow]
  handlers := [⟨0, 1, 2⟩]

def pong : Method where
  cls := "Script"
  name := "pong"
  signature := ⟨.int, []⟩
  code := [.invoke "Script" "ping" ⟨.int, []⟩, .ret .int]

def pingPong : Module := ⟨"m", ⟨[("Script", ⟨"Script", [ping, pong]⟩)]⟩⟩

theorem refusing_returns (σ : Type) : (Linker.refusing σ).Returns where
  get _ _ _ _ := Run.avoids_pure _
  call _ _ _ _ _ _ := Run.avoids_pure _

end Machine
end ScriptHost
