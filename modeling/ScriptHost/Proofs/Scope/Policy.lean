import Mathlib.Data.Set.Card
import ScriptHost.Proofs.Scope.Reordering

/-!
# The sharing policy

Which sites of a batch share is told by the batch alone: those whose variable and own depth are static, in a shape that
stands in the batch more often than the threshold of its kind allows (`Shares`). For every builder and every batch that
it accepts, exactly these share, each with the one unit of its shape, and units are made for the shapes that had none
(`policy_exact`). The order of the batch does not matter.
-/

namespace ScriptHost
namespace ModuleBuilder

/-- The shapes of sites that are to share for which a builder has no unit. -/
def missingShapes (b : ModuleBuilder) (t : Thresholds) (sites : List Site) : Set Shape :=
  {x | (∃ s ∈ sites, Shares t sites s ∧ s.shape = x) ∧ ∀ u ∈ b.shared, u.shape ≠ x}

/-- What lowering a batch into the class at place `i` of a builder does, under thresholds. -/
structure Policy (t : Thresholds) (i : Nat) (sites : List Site) (b : ModuleBuilder) (ls : List LoweredSite)
    (b' : ModuleBuilder) : Prop where
  length : ls.length = sites.length
  shares : ∀ (k : Nat) (s : Site) (l : LoweredSite), sites[k]? = some s → ls[k]? = some l →
    (l.shared.isSome = true ↔ Shares t sites s)
  own : ∀ (k : Nat) (s : Site) (l : LoweredSite) (u : SharedUnit), sites[k]? = some s → ls[k]? = some l →
    l.shared = some u → u ∈ b'.shared ∧ u.shape = s.shape ∧ ∀ v ∈ b'.shared, v.shape = s.shape → v = u
  identical : ∀ (k k' : Nat) (s s' : Site) (l l' : LoweredSite), sites[k]? = some s → ls[k]? = some l →
    sites[k']? = some s' → ls[k']? = some l' → s.shape = s'.shape → Shares t sites s → Shares t sites s' →
      l.shared = l'.shared
  units : b'.shared.length = b.shared.length + (b.missingShapes t sites).ncard
  methods : b'.sharedMethods.length = b.sharedMethods.length + (b.missingShapes t sites).ncard
  reordered : ∀ π, ∃ ls₂ b₂ ρ, Reordered b i sites π ls b' ls₂ b₂ ρ

variable {t : Thresholds} {i : Nat} {sites : List Site} {b b' : ModuleBuilder} {ls : List LoweredSite} {c : ClassBody}

/-- The units that are made are those of the missing shapes. -/
theorem missingShapes_eq {census : Census} (ht : Tallies census sites) (b : ModuleBuilder) (cls : String) :
    b.missingShapes b.thresholds sites =
      (((b.newUnits cls (sharedShapes b.thresholds census sites)).map SharedUnit.shape).toFinset : Set Shape) := by
  ext x
  unfold newUnits sharedShapes missingShapes
  rw [map_shape_numbered]
  simp [mem_newShapes, ht.sharesSite_iff, and_assoc]

theorem length_newUnits {census : Census} (ht : Tallies census sites) (b : ModuleBuilder) (cls : String) :
    (b.newUnits cls (sharedShapes b.thresholds census sites)).length = (b.missingShapes b.thresholds sites).ncard := by
  rw [missingShapes_eq ht b cls, Set.ncard_coe_finset, List.toFinset_card_of_nodup (nodup_shapes_newUnits ..),
    List.length_map]

theorem countP_newUnits {census : Census} (ht : Tallies census sites) (b : ModuleBuilder) (cls : String)
    (isCall : Bool) :
    (b.newUnits cls (sharedShapes b.thresholds census sites)).countP (·.shape.isCall == isCall) =
      {x ∈ b.missingShapes b.thresholds sites | x.isCall = isCall}.ncard := by
  generalize hus : b.newUnits cls (sharedShapes b.thresholds census sites) = us
  have hnodup : (us.map SharedUnit.shape).Nodup := hus ▸ nodup_shapes_newUnits ..
  have hkind : {x ∈ b.missingShapes b.thresholds sites | x.isCall = isCall} =
      (((us.map SharedUnit.shape).filter (·.isCall == isCall)).toFinset : Set Shape) := by
    rw [missingShapes_eq ht b cls, hus]
    ext x
    simp
  rw [hkind, Set.ncard_coe_finset, List.toFinset_card_of_nodup (hnodup.filter _), ← List.countP_eq_length_filter,
    List.countP_map]
  rfl

theorem flatMap_modify_adding {cs : List ClassBody} (hc : cs[i]? = some c) (ms : List Method) :
    ((cs.modify i fun c => c.adding ms).flatMap ClassBody.methods).Perm (ms ++ cs.flatMap ClassBody.methods) := by
  induction cs generalizing i with
  | nil => cases hc
  | cons d cs ih =>
    cases i with
    | zero =>
      rw [List.modify_zero_cons, List.flatMap_cons, List.flatMap_cons, ← List.append_assoc]
      exact List.perm_append_comm.append_right _
    | succ i =>
      rw [List.modify_succ_cons, List.flatMap_cons, List.flatMap_cons]
      refine ((ih hc).append_left d.methods).trans ?_
      rw [← List.append_assoc, ← List.append_assoc]
      exact List.perm_append_comm.append_right _

theorem length_sharedMethods {cls : String} {census : Census} {row : List Shape} {ms : List Method}
    (hc : b.units[i]? = some c) (hv : ∀ s ∈ sites, s.validate = .ok ())
    (hms : ms.Perm ((b.newUnits cls row).map SharedUnit.method ++
      sites.mapIdx fun k s => s.lowered (b'.loweredAs cls census (0 + k) s))) :
    (b.extended i (b.newUnits cls row) ms).sharedMethods.length =
      b.sharedMethods.length + (b.newUnits cls row).length := by
  have hunits : ((b.newUnits cls row).map SharedUnit.method).filter Method.isShared =
      (b.newUnits cls row).map SharedUnit.method := by
    refine List.filter_eq_self.2 fun m hm => ?_
    obtain ⟨u, hu, rfl⟩ := List.mem_map.1 hm
    obtain ⟨n, -, hn⟩ := name_numbered hu
    exact isShared_unit (m := u.method) hn
  have hsites :
      (sites.mapIdx fun k s => s.lowered (b'.loweredAs cls census (0 + k) s)).filter Method.isShared = [] := by
    refine List.filter_eq_nil_iff.2 fun m hm => ?_
    obtain ⟨k, hk, rfl⟩ := List.mem_mapIdx.1 hm
    rw [isShared_site (name_lowered (hv _ (List.getElem_mem hk)) _)]
    decide
  have hadded := ((flatMap_modify_adding hc ms).filter Method.isShared).length_eq
  have hshared := (hms.filter Method.isShared).length_eq
  rw [List.filter_append, List.length_append] at hadded hshared
  rw [hunits, hsites, List.length_map] at hshared
  unfold sharedMethods extended
  rw [hadded, hshared, List.length_nil, Nat.add_zero, Nat.add_comm]

theorem lower_counts (h : (lower i sites).outcome b = (.ok ls, b')) :
    ls.length = sites.length ∧ b'.shared.length = b.shared.length + (b.missingShapes b.thresholds sites).ncard ∧
      b'.sharedMethods.length = b.sharedMethods.length + (b.missingShapes b.thresholds sites).ncard := by
  rcases eq_or_ne sites [] with rfl | hne
  · cases h
    simp [missingShapes]
  obtain ⟨c, hc⟩ := class_of_lower h hne
  obtain ⟨census, hsurvey, h⟩ := surveyed_of_lower h
  obtain ⟨hv, htallies⟩ := survey_ok hsurvey
  obtain ⟨-, hls, ms, hb', hms⟩ := lowerFrom_result h hc hv
  refine ⟨by rw [hls, List.length_mapIdx], ?_, ?_⟩
  · rw [hb', ← length_newUnits htallies b c.name, extended, List.length_append]
  · rw [hb', ← length_newUnits htallies b c.name]
    exact length_sharedMethods hc hv hms

/-- Whatever was asked of a builder before, a batch that it accepts is lowered as the policy says. -/
theorem policy_exact {name : String} {requests : List Request}
    (h : (lower i sites).outcome ((new name t).after requests) = (.ok ls, b')) :
    Policy t i sites ((new name t).after requests) ls b' := by
  have hb := numbered_after name t requests
  have ht : ((new name t).after requests).thresholds = t := (grows_after (new name t) requests).thresholds
  obtain ⟨hlength, hunits, hmethods⟩ := lower_counts h
  rw [ht] at hunits hmethods
  have hnumbered : Numbered b' := by
    have hkeeps := keepsNumbers_lower i sites _ hb
    rwa [h] at hkeeps
  have hgrows : b'.thresholds = t := by
    have hkeeps := (builds_lower i sites ((new name t).after requests)).grows.thresholds
    rw [h, ht] at hkeeps
    exact hkeeps
  have hlowered : ∀ {k : Nat} {s : Site} {l : LoweredSite}, sites[k]? = some s → ls[k]? = some l →
      LoweredAt b' i sites k s l := by
    intro k s l hk hl
    obtain ⟨-, l', hl', hat⟩ := lower_ok h hk
    obtain rfl : l' = l := Option.some.inj (hl'.symm.trans hl)
    exact hat
  have hshares : ∀ (k : Nat) (s : Site) (l : LoweredSite), sites[k]? = some s → ls[k]? = some l →
      (l.shared.isSome = true ↔ Shares t sites s) := by
    intro k s l hk hl
    rw [(hlowered hk hl).shares, hgrows]
  have hown : ∀ (k : Nat) (s : Site) (l : LoweredSite) (u : SharedUnit), sites[k]? = some s → ls[k]? = some l →
      l.shared = some u → u ∈ b'.shared ∧ u.shape = s.shape ∧ ∀ v ∈ b'.shared, v.shape = s.shape → v = u := by
    intro k s l u hk hl hu
    obtain ⟨hmem, hshape⟩ := (hlowered hk hl).emitted.unit u hu
    exact ⟨hmem, hshape, fun v hv he => List.inj_on_of_nodup_map hnumbered.shapes hv hmem (he.trans hshape.symm)⟩
  refine ⟨hlength, hshares, hown, ?_, hunits, hmethods, exists_reordering hb h⟩
  intro k k' s s' l l' hk hl hk' hl' hshape hs hs'
  obtain ⟨u, hu⟩ := Option.isSome_iff_exists.1 ((hshares k s l hk hl).2 hs)
  obtain ⟨u', hu'⟩ := Option.isSome_iff_exists.1 ((hshares k' s' l' hk' hl').2 hs')
  obtain ⟨hmem, hu₁, -⟩ := hown k s l u hk hl hu
  obtain ⟨-, -, honly⟩ := hown k' s' l' u' hk' hl' hu'
  rw [hu, hu', honly u hmem (hu₁.trans hshape)]

/-- Reads of two variables, two of each, and one more of the first from a scope at no known depth. -/
def crossedReads : List Site :=
  [⟨⟨⟨"x", .known 0⟩, .read .int, .scope, false⟩, .known 0, 1⟩,
    ⟨⟨⟨"y", .known 0⟩, .read .int, .scope, false⟩, .known 0, 2⟩,
    ⟨⟨⟨"y", .known 0⟩, .read .int, .scope, false⟩, .known 1, 3⟩,
    ⟨⟨⟨"x", .known 0⟩, .read .int, .scope, false⟩, .dynamic, 4⟩,
    ⟨⟨⟨"x", .known 0⟩, .read .int, .scope, false⟩, .known 0, 5⟩]

def loweredReads (sites : List Site) : Except Fault (List LoweredSite) × ModuleBuilder :=
  (lower 0 sites).outcome ((new "m" ⟨1, 1⟩).after [.openClass "Script"])

def otherFirst : Equiv.Perm (Fin crossedReads.length) := Equiv.swap ⟨0, by decide⟩ ⟨1, by decide⟩

/-- All reads but that at the unknown depth share, through two units, whose names trade places when the batch starts
with the other variable. -/
theorem policy_exact_crossedReads :
    ∃ ls b', loweredReads crossedReads = (.ok ls, b') ∧
      b'.shared.map (fun u => (u.shape.symbol.name, u.name)) = [("x", ":scopeGet$0"), ("y", ":scopeGet$1")] ∧
      (((new "m" ⟨1, 1⟩).after [.openClass "Script"]).missingShapes ⟨1, 1⟩ crossedReads).ncard = 2 ∧
      ls.map (fun l => l.shared.map SharedUnit.name) =
        [some ":scopeGet$0", some ":scopeGet$1", some ":scopeGet$1", none, some ":scopeGet$0"] ∧
      ∃ ls₂ b₂ ρ, Reordered ((new "m" ⟨1, 1⟩).after [.openClass "Script"]) 0 crossedReads otherFirst ls b' ls₂ b₂ ρ ∧
        ρ ":scopeGet$0" = ":scopeGet$1" ∧ ρ ":scopeGet$1" = ":scopeGet$0" := by
  have hrun : loweredReads crossedReads = (.ok _, _) := rfl
  have hpolicy := policy_exact hrun
  obtain ⟨ls₂, b₂, ρ, hreordered⟩ := hpolicy.reordered otherFirst
  have hrun₂ : loweredReads (reordered crossedReads otherFirst) = (.ok _, _) := rfl
  have hsame := hrun₂.symm.trans hreordered.accepted
  cases hsame
  have hfirst := hreordered.results ⟨0, by decide⟩
  have hsecond := hreordered.results ⟨1, by decide⟩
  refine ⟨_, _, hrun, rfl, ?_, rfl, _, _, ρ, hreordered, ?_, ?_⟩
  · have hunits : 2 = 0 + _ := hpolicy.units
    omega
  · have hunit := congrArg (fun l => l.bind LoweredSite.shared |>.map SharedUnit.name) hsecond
    exact (Option.some.inj hunit).symm
  · have hunit := congrArg (fun l => l.bind LoweredSite.shared |>.map SharedUnit.name) hfirst
    exact (Option.some.inj hunit).symm

end ModuleBuilder
end ScriptHost
