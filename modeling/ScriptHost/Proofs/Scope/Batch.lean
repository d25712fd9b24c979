import Mathlib.Data.List.Nodup
import ScriptHost.Proofs.Scope.History

/-!
# Batches in finished modules

Lowering a batch leaves, for each of its sites, the method of the site and the shared unit that the
method uses (`Emitted`). No later request takes them away, so a finished module in whose history the
batch was lowered (`Lowered`) finds them under their names (`Installed`).
-/

namespace ScriptHost
namespace ModuleBuilder

/-! ## Sites -/

theorem method_ok {s : Site} {cls name : String} {shared : Option SharedUnit} {m : Method}
    (h : s.method cls name shared = .ok m) : m.cls = cls ∧ m.name = name ∧ m.signature = s.signature := by
  cases shared with
  | none =>
    simp only [Site.method, bind, Except.bind] at h
    cases hc : s.inlineCode with
    | error e => simp [hc] at h
    | ok code =>
      rw [hc] at h
      cases h
      exact ⟨rfl, rfl, rfl⟩
  | some u =>
    simp only [Site.method, bind, Except.bind] at h
    cases hc : s.sharedCode u with
    | error e => simp [hc] at h
    | ok code =>
      rw [hc] at h
      cases h
      exact ⟨rfl, rfl, rfl⟩

/-- A site whose method is in the builder, and with it the shared unit that the method uses. -/
structure Emitted (b : ModuleBuilder) (s : Site) (l : LoweredSite) : Prop where
  method : ∃ c ∈ b.units, c.name = l.cls ∧ ∃ m ∈ c.methods, m.name = l.name ∧
    s.method l.cls l.name l.shared = .ok m
  unit : ∀ u, l.shared = some u → u ∈ b.shared ∧ u.shape = s.shape

theorem Emitted.mono {b b' : ModuleBuilder} {s : Site} {l : LoweredSite} (h : Emitted b s l)
    (hg : Grows b b') : Emitted b' s l := by
  obtain ⟨⟨c, hc, hn, m, hm, hmn, hok⟩, hu⟩ := h
  obtain ⟨c', hc', hn', hm'⟩ := hg.mem hc
  exact ⟨⟨c', hc', hn'.trans hn, m, hm' m hm, hmn, hok⟩,
    fun u he => ⟨hg.shared u (hu u he).1, (hu u he).2⟩⟩

def unitFor (i : Nat) (census : Census) (s : Site) : Build (Option SharedUnit) := do
  if sharesSite (← get).thresholds (census.count s.shape) s then some <$> sharedUnit i s.shape
  else pure none

def emitSite (i index : Nat) (s : Site) (shared : Option SharedUnit) : Build LoweredSite := do
  let c ← unit i
  match s.method c.name ("site$" ++ toString index) shared with
  | .error e => Run.fail e
  | .ok m =>
    addMethod i m
    return ⟨c.name, "site$" ++ toString index, shared⟩

theorem lowerSite_eq (i : Nat) (census : Census) (index : Nat) (s : Site) :
    lowerSite i census index s = unitFor i census s >>= emitSite i index s := by
  simp only [lowerSite, unitFor, bind_assoc]
  congr 1
  funext b
  by_cases hs : sharesSite b.thresholds (census.count s.shape) s
  · rw [if_pos hs, if_pos hs]
    rfl
  · rw [if_neg hs, if_neg hs]
    rfl

theorem builds_unitFor (i : Nat) (census : Census) (s : Site) : Builds (unitFor i census s) := by
  refine (Run.moves_get fun _ => .refl).bind .trans fun b => ?_
  by_cases hs : sharesSite b.thresholds (census.count s.shape) s
  · rw [if_pos hs]
    exact (builds_sharedUnit i s.shape).map some
  · rw [if_neg hs]
    exact Run.moves_pure (fun _ => .refl) none

theorem builds_emitSite (i index : Nat) (s : Site) (shared : Option SharedUnit) :
    Builds (emitSite i index s shared) := by
  refine (builds_unit i).bind .trans fun c => ?_
  cases s.method c.name ("site$" ++ toString index) shared with
  | error e => exact Run.moves_fail (fun _ => .refl) e
  | ok m => exact (builds_addMethod i m).bind .trans fun _ => Run.moves_pure (fun _ => .refl) _

theorem unitFor_ok {i : Nat} {census : Census} {s : Site} {b b' : ModuleBuilder}
    {shared : Option SharedUnit} (h : (unitFor i census s).outcome b = (.ok shared, b')) :
    shared.isSome = sharesSite b.thresholds (census.count s.shape) s ∧
      ∀ u, shared = some u → u ∈ b'.shared ∧ u.shape = s.shape := by
  obtain ⟨b₀, b₁, hget, hrest⟩ := Run.outcome_bind_ok h
  cases hget
  by_cases hs : sharesSite b.thresholds (census.count s.shape) s
  · rw [if_pos hs, map_eq_pure_bind] at hrest
    obtain ⟨u, b₂, hu, hsome⟩ := Run.outcome_bind_ok hrest
    cases hsome
    refine ⟨hs.symm, fun v hv => ?_⟩
    cases hv
    exact sharedUnit_ok hu
  · rw [if_neg hs] at hrest
    cases hrest
    exact ⟨by simpa using hs, by simp⟩

theorem emitSite_ok {i index : Nat} {s : Site} {shared : Option SharedUnit} {b b' : ModuleBuilder}
    {l : LoweredSite} (h : (emitSite i index s shared).outcome b = (.ok l, b')) :
    l.shared = shared ∧ l.name = "site$" ++ toString index ∧ (∃ c, b.units[i]? = some c ∧ l.cls = c.name) ∧
      ∃ c ∈ b'.units, c.name = l.cls ∧ ∃ m ∈ c.methods, m.name = l.name ∧
        s.method l.cls l.name shared = .ok m := by
  obtain ⟨c, b₁, hunit, h₁⟩ := Run.outcome_bind_ok h
  obtain ⟨rfl, hc⟩ := unit_ok hunit
  cases hm : s.method c.name ("site$" ++ toString index) shared with
  | error e =>
    rw [hm] at h₁
    cases h₁
  | ok m =>
    rw [hm] at h₁
    obtain ⟨_, b₂, hadd, h₂⟩ := Run.outcome_bind_ok h₁
    cases h₂
    obtain ⟨d, d', hd, hok, rfl⟩ := addMethod_ok hadd
    obtain rfl : c = d := Option.some.inj (hc.symm.trans hd)
    obtain ⟨rfl, -⟩ := add_ok hok
    refine ⟨rfl, rfl, ⟨c, hc, rfl⟩, { c with methods := c.methods ++ [m] }, ?_, rfl, m, ?_, ?_, hm⟩
    · exact List.mem_of_getElem? (List.getElem?_set_self (List.getElem?_eq_some_iff.1 hc).1)
    · exact List.mem_append_right _ (List.mem_singleton_self m)
    · exact (method_ok hm).2.1

theorem builds_lowerSite (i : Nat) (census : Census) (index : Nat) (s : Site) :
    Builds (lowerSite i census index s) := by
  rw [lowerSite_eq]
  exact (builds_unitFor i census s).bind .trans fun shared => builds_emitSite i index s shared

section

variable {R : ModuleBuilder → ModuleBuilder → Prop} {sites : List Site}

/-- What each site leads to, a row of them leads to. -/
theorem moves_lowerFrom (hr : ∀ b, R b b) (ht : ∀ {a b c}, R a b → R b c → R a c) {i : Nat} {census : Census}
    (hsite : ∀ index, ∀ s ∈ sites, Run.Moves R (lowerSite i census index s)) (index : Nat) :
    Run.Moves R (lowerFrom i census index sites) := by
  induction sites generalizing index with
  | nil => exact Run.moves_pure hr []
  | cons s ss ih =>
    refine (hsite index s (List.mem_cons_self ..)).bind ht fun l => ?_
    have hss := ih (fun k s' hs' => hsite k s' (List.mem_cons_of_mem _ hs')) (index + 1)
    exact hss.bind ht fun ls => Run.moves_pure hr (l :: ls)

theorem moves_lower (hr : ∀ b, R b b) (ht : ∀ {a b c}, R a b → R b c → R a c) {i : Nat}
    (hsite : ∀ census index, ∀ s ∈ sites, s.validate = .ok () → Run.Moves R (lowerSite i census index s)) :
    Run.Moves R (lower i sites) := by
  rw [lower]
  cases hs : survey {} sites with
  | error f => exact Run.moves_throw hr f
  | ok census => exact moves_lowerFrom hr ht (fun k s hmem => hsite census k s hmem ((survey_ok hs).1 s hmem)) 0

end

theorem builds_lowerFrom (i : Nat) (census : Census) (index : Nat) (sites : List Site) :
    Builds (lowerFrom i census index sites) :=
  moves_lowerFrom (fun _ => .refl) .trans (fun k s _ => builds_lowerSite i census k s) index

theorem builds_lower (i : Nat) (sites : List Site) : Builds (lower i sites) :=
  moves_lower (fun _ => .refl) .trans fun census k s _ _ => builds_lowerSite i census k s

theorem lowerSite_ok {i index : Nat} {census : Census} {s : Site} {l : LoweredSite}
    {b b' : ModuleBuilder} (h : (lowerSite i census index s).outcome b = (.ok l, b')) :
    Emitted b' s l ∧ l.shared.isSome = sharesSite b.thresholds (census.count s.shape) s ∧
      l.name = "site$" ++ toString index ∧ ∃ c, b'.units[i]? = some c ∧ c.name = l.cls := by
  rw [lowerSite_eq] at h
  obtain ⟨shared, b₁, hunit, hemit⟩ := Run.outcome_bind_ok h
  obtain ⟨hshares, hknown⟩ := unitFor_ok hunit
  obtain ⟨hsh, hname, ⟨c, hc, hcls⟩, hmethod⟩ := emitSite_ok hemit
  have hg : Grows b₁ b' := by
    have hb := (builds_emitSite i index s shared b₁).grows
    rwa [hemit] at hb
  refine ⟨⟨hsh ▸ hmethod, fun u hu => ?_⟩, hsh ▸ hshares, hname, ?_⟩
  · obtain ⟨hmem, hshape⟩ := hknown u (hsh ▸ hu)
    exact ⟨hg.shared u hmem, hshape⟩
  · obtain ⟨c', hc', hn, -⟩ := hg.classes i c hc
    exact ⟨c', hc', hn.trans hcls.symm⟩

/-- What lowering a batch leaves for the site at a place of it: the site is emitted into the class at
place `i`, under a name that its own place decides, and shares if the thresholds say so. -/
structure LoweredAt (b : ModuleBuilder) (i : Nat) (sites : List Site) (index : Nat) (s : Site)
    (l : LoweredSite) : Prop where
  emitted : Emitted b s l
  shares : l.shared.isSome = true ↔ Shares b.thresholds sites s
  name : l.name = "site$" ++ toString index
  cls : ∃ c, b.units[i]? = some c ∧ c.name = l.cls

theorem LoweredAt.mono {b b' : ModuleBuilder} {i index : Nat} {sites : List Site} {s : Site}
    {l : LoweredSite} (h : LoweredAt b i sites index s l) (hg : Grows b b') :
    LoweredAt b' i sites index s l := by
  obtain ⟨c, hc, hn⟩ := h.cls
  obtain ⟨c', hc', hn', -⟩ := hg.classes i c hc
  exact ⟨h.emitted.mono hg, by rw [hg.thresholds, h.shares], h.name, c', hc', hn'.trans hn⟩

theorem lowerFrom_ok {i index : Nat} {census : Census} {batch sites : List Site} (ht : Tallies census batch)
    {ls : List LoweredSite} {b b' : ModuleBuilder}
    (h : (lowerFrom i census index sites).outcome b = (.ok ls, b')) (k : Nat) (s : Site)
    (hk : sites[k]? = some s) : ∃ l, ls[k]? = some l ∧ LoweredAt b' i batch (index + k) s l := by
  -- what is left for the first site is left for it at the end, since the later sites only let the builder grow
  induction sites generalizing index ls b k with
  | nil => simp at hk
  | cons s₀ ss ih =>
    obtain ⟨l, b₁, hsite, h₁⟩ := Run.outcome_bind_ok h
    obtain ⟨rest, b₂, hrest, h₂⟩ := Run.outcome_bind_ok h₁
    cases h₂
    cases k with
    | succ k =>
      obtain ⟨l', hl', hat⟩ := ih hrest k hk
      refine ⟨l', hl', ?_⟩
      rwa [Nat.add_assoc, Nat.add_comm 1 k] at hat
    | zero =>
      obtain rfl : s₀ = s := Option.some.inj hk
      obtain ⟨hemitted, hshares, hname, hcls⟩ := lowerSite_ok hsite
      have hg : Grows b₁ b' := by
        have hb := (builds_lowerFrom i census (index + 1) ss b₁).grows
        rwa [hrest] at hb
      have hthresholds : b₁.thresholds = b.thresholds := by
        have hb := (builds_lowerSite i census index s₀ b).grows.thresholds
        rwa [hsite] at hb
      refine ⟨l, rfl, LoweredAt.mono ⟨hemitted, ?_, hname, hcls⟩ hg⟩
      rw [hshares, hthresholds, ht.sharesSite_iff]

theorem lower_ok {i : Nat} {sites : List Site} {ls : List LoweredSite} {b b' : ModuleBuilder}
    (h : (lower i sites).outcome b = (.ok ls, b')) {k : Nat} {s : Site} (hk : sites[k]? = some s) :
    s.validate = .ok () ∧ ∃ l, ls[k]? = some l ∧ LoweredAt b' i sites k s l := by
  rw [lower] at h
  cases hs : survey {} sites with
  | error f =>
    rw [hs] at h
    cases h
  | ok census =>
    rw [hs] at h
    obtain ⟨hvalid, htallies⟩ := survey_ok hs
    obtain ⟨l, hl, hat⟩ := lowerFrom_ok htallies h k s hk
    rw [Nat.zero_add] at hat
    exact ⟨hvalid s (List.mem_of_getElem? hk), l, hl, hat⟩

/-! ## Whole histories -/

inductive Request where
  | openClass (cls : String)
  | addMethod (i : Nat) (m : Method)
  | sharedUnit (i : Nat) (s : Shape)
  | lower (i : Nat) (sites : List Site)

/-- What a request leaves of a builder, whether it is granted or not. -/
def Request.apply (b : ModuleBuilder) : Request → ModuleBuilder
  | .openClass cls => ((addUnit cls).outcome b).2
  | .addMethod i m => ((ModuleBuilder.addMethod i m).outcome b).2
  | .sharedUnit i s => ((ModuleBuilder.sharedUnit i s).outcome b).2
  | .lower i sites => ((ModuleBuilder.lower i sites).outcome b).2

def after (b : ModuleBuilder) (requests : List Request) : ModuleBuilder := requests.foldl Request.apply b

theorem Request.apply_grows (b : ModuleBuilder) (r : Request) : Grows b (r.apply b) := by
  cases r with
  | openClass cls => exact grows_opened b cls
  | addMethod i m => exact (builds_addMethod i m b).grows
  | sharedUnit i s => exact (builds_sharedUnit i s b).grows
  | lower i sites => exact (builds_lower i sites b).grows

theorem Request.apply_consistent {b : ModuleBuilder} (hb : Consistent b) (r : Request) :
    Consistent (r.apply b) := by
  cases r with
  | openClass cls => exact hb.opened cls
  | addMethod i m => exact (builds_addMethod i m b).consistent hb
  | sharedUnit i s => exact (builds_sharedUnit i s b).consistent hb
  | lower i sites => exact (builds_lower i sites b).consistent hb

theorem grows_after (b : ModuleBuilder) (requests : List Request) : Grows b (b.after requests) := by
  induction requests generalizing b with
  | nil => exact Grows.refl b
  | cons r rs ih => exact (r.apply_grows b).trans (ih (r.apply b))

theorem consistent_after {b : ModuleBuilder} (hb : Consistent b) (requests : List Request) :
    Consistent (b.after requests) := by
  induction requests generalizing b with
  | nil => exact hb
  | cons r rs ih => exact ih (r.apply_consistent hb)

/-! ## Finished modules -/

theorem getIn_foldl_put_of_notMem {cs : List ClassBody} {t : Assoc String ClassBody} {name : String}
    (h : name ∉ cs.map ClassBody.name) : (cs.foldl (fun t c => t.put c.name c) t).get? name = t.get? name := by
  induction cs generalizing t with
  | nil => rfl
  | cons c cs ih =>
    simp only [List.map_cons, List.mem_cons, not_or] at h
    rw [List.foldl_cons, ih h.2, Assoc.get?_put_ne t (Ne.symm h.1)]

theorem get?_foldl_put {cs : List ClassBody} {t : Assoc String ClassBody} {c : ClassBody}
    (hone : (cs.map ClassBody.name).count c.name ≤ 1) (hc : c ∈ cs) :
    (cs.foldl (fun t c => t.put c.name c) t).get? c.name = some c := by
  induction cs generalizing t with
  | nil => cases hc
  | cons c' cs ih =>
    rw [List.map_cons, List.count_cons] at hone
    rw [List.foldl_cons]
    rcases List.mem_cons.1 hc with rfl | hc
    · rw [beq_self_eq_true, if_pos rfl] at hone
      have hnone : c.name ∉ cs.map ClassBody.name := List.count_eq_zero.1 (by omega)
      rw [getIn_foldl_put_of_notMem hnone, Assoc.get?_put_self]
    · exact ih (by omega) hc

theorem find?_name {ms : List Method} {m : Method} (hd : (ms.map Method.name).Nodup) (hm : m ∈ ms) :
    ms.find? (fun m' => m'.name == m.name) = some m := by
  induction ms with
  | nil => cases hm
  | cons m' ms ih =>
    rw [List.map_cons, List.nodup_cons] at hd
    rcases List.mem_cons.1 hm with rfl | hm
    · simp
    · have hne : m'.name ≠ m.name := fun he => hd.1 (he ▸ List.mem_map_of_mem hm)
      rw [List.find?_cons_of_neg (by simpa using hne), ih hd.2 hm]

/-- A finished module has every method of a class with a name of its own. -/
theorem finish_method? {b : ModuleBuilder} (hb : Consistent b) {c : ClassBody} (hc : c ∈ b.units)
    (hone : (b.units.map ClassBody.name).count c.name ≤ 1) {m : Method} (hm : m ∈ c.methods) :
    b.finish.method? c.name m.name = some m := by
  rw [Module.method?, finish, get?_foldl_put hone hc]
  exact find?_name (hb.names c hc) hm

/-- The module is a finished one in whose history a batch of sites was lowered into a class, under
thresholds `t`. Anything may have been asked of the builder before and after. A later class of the same
name would replace an earlier one with all its methods, so the names of the classes are distinct. -/
def Lowered (t : Thresholds) (cls : String) (sites : List Site) (ls : List LoweredSite) (m : Module) : Prop :=
  ∃ (name : String) (before after : List Request) (i : Nat) (b : ModuleBuilder),
    (lower i sites).outcome ((new name t).after before) = (.ok ls, b) ∧
    b.units[i]?.map ClassBody.name = some cls ∧
    ((b.after after).units.map ClassBody.name).Nodup ∧
    m = (b.after after).finish

theorem lowered_new {name cls : String} {t : Thresholds} {sites : List Site} {ls : List LoweredSite}
    {b : ModuleBuilder} (h : (lower 0 sites).outcome ((new name t).after [.openClass cls]) = (.ok ls, b)) :
    Lowered t cls sites ls b.finish := by
  have hnames : b.units.map ClassBody.name = [cls] := by
    have hb := (builds_lower 0 sites ((new name t).after [.openClass cls])).names
    rwa [h] at hb
  refine ⟨name, [.openClass cls], [], 0, b, h, ?_, ?_, rfl⟩
  · rw [← List.getElem?_map, hnames]
    rfl
  · show (b.units.map ClassBody.name).Nodup
    rw [hnames]
    simp

/-- What a module holds of a site that was lowered under number `index`. -/
structure Installed (m : Module) (cls : String) (index : Nat) (s : Site) (l : LoweredSite) : Prop where
  valid : s.validate = .ok ()
  cls : l.cls = cls
  name : l.name = "site$" ++ toString index
  method : ∃ m', m.method? l.cls l.name = some m' ∧ s.method l.cls l.name l.shared = .ok m'
  unit : ∀ u, l.shared = some u → m.method? u.cls u.name = some u.method ∧ u.shape = s.shape

theorem Lowered.installed {t : Thresholds} {cls : String} {sites : List Site} {ls : List LoweredSite}
    {m : Module} (h : Lowered t cls sites ls m) {k : Nat} {s : Site} (hk : sites[k]? = some s) :
    ∃ l, ls[k]? = some l ∧ (l.shared.isSome = true ↔ Shares t sites s) ∧ Installed m cls k s l := by
  obtain ⟨name, before, rest, i, b, hlower, hcls, hdistinct, rfl⟩ := h
  obtain ⟨hvalid, l, hl, hat⟩ := lower_ok hlower hk
  have hbatch : Evolves ((new name t).after before) b := by
    have hb := builds_lower i sites ((new name t).after before)
    rwa [hlower] at hb
  have hconsistent : Consistent (b.after rest) :=
    consistent_after (hbatch.consistent (consistent_after (consistent_new name t) before)) rest
  have hthresholds : b.thresholds = t := ((grows_after _ before).trans hbatch.grows).thresholds
  have hemitted := hat.emitted.mono (grows_after b rest)
  have hone := List.nodup_iff_count_le_one.1 hdistinct
  refine ⟨l, hl, hthresholds ▸ hat.shares, hvalid, ?_, hat.name, ?_, fun u hu => ?_⟩
  · obtain ⟨c, hc, hn⟩ := hat.cls
    rw [hc] at hcls
    exact hn.symm.trans (Option.some.inj hcls)
  · obtain ⟨c, hc, hn, m', hm', hmn, hok⟩ := hemitted.method
    exact ⟨m', hn ▸ hmn ▸ finish_method? hconsistent hc (hone _) hm', hok⟩
  · obtain ⟨hmem, hshape⟩ := hemitted.unit u hu
    obtain ⟨c, hc, hn, hm⟩ := hconsistent.owned u hmem
    exact ⟨hn ▸ finish_method? hconsistent hc (hone _) hm, hshape⟩

/-! ## Batches of a history -/

/-- One of the requests lowered a batch, and the site with it. -/
def LoweredBy (name : String) (t : Thresholds) (requests : List Request) (s : Site) (l : LoweredSite) : Prop :=
  ∃ (before rest : List Request) (i : Nat) (sites : List Site) (ls : List LoweredSite) (b : ModuleBuilder)
    (k : Nat), requests = before ++ .lower i sites :: rest ∧
      (lower i sites).outcome ((new name t).after before) = (.ok ls, b) ∧ sites[k]? = some s ∧ ls[k]? = some l

theorem after_append (b : ModuleBuilder) (before rest : List Request) :
    b.after (before ++ rest) = (b.after before).after rest := List.foldl_append

theorem LoweredBy.installed {name : String} {t : Thresholds} {requests : List Request} {s : Site}
    {l : LoweredSite} (h : LoweredBy name t requests s l)
    (hd : (((new name t).after requests).units.map ClassBody.name).Nodup) :
    ∃ cls k, Installed ((new name t).after requests).finish cls k s l := by
  obtain ⟨before, rest, i, sites, ls, b, k, rfl, hlower, hk, hl⟩ := h
  have hafter : (new name t).after (before ++ .lower i sites :: rest) = b.after rest := by
    rw [after_append]
    show (((lower i sites).outcome ((new name t).after before)).2).after rest = _
    rw [hlower]
  rw [hafter] at hd ⊢
  obtain ⟨-, _, -, hat⟩ := lower_ok hlower hk
  obtain ⟨c, hc, -⟩ := hat.cls
  have hlowered : Lowered t c.name sites ls (b.after rest).finish :=
    ⟨name, before, rest, i, b, hlower, by rw [hc]; rfl, hd, rfl⟩
  obtain ⟨l', hl', -, hinstalled⟩ := hlowered.installed hk
  obtain rfl : l' = l := Option.some.inj (hl'.symm.trans hl)
  exact ⟨c.name, k, hinstalled⟩

theorem shared_method? {b : ModuleBuilder} (hb : Consistent b) (hd : (b.units.map ClassBody.name).Nodup)
    {u : SharedUnit} (hu : u ∈ b.shared) : b.finish.method? u.cls u.name = some u.method := by
  obtain ⟨c, hc, hn, hm⟩ := hb.owned u hu
  rw [← hn]
  exact finish_method? hb hc (List.nodup_iff_count_le_one.1 hd _) hm

end ModuleBuilder
end ScriptHost
