import Mathlib.Data.List.FinRange
import Mathlib.Data.List.Indexes
import ScriptHost.Proofs.Assoc
import ScriptHost.Proofs.Scope.Generation

/-!
# Batches in another order

A batch that is accepted is accepted in every order, and what it generates is the same but for the generated names and
the order (`exists_reordering`). The names that are used up are the same ones, so a permutation of them takes one order
to the other (`exists_renaming`). It names units by their shapes and methods of sites by their places.
-/

namespace ScriptHost

/-! ## Renaming -/

def Insn.renamed (f : String → String) : Insn → Insn
  | .invoke cls method signature => .invoke cls (f method) signature
  | i => i

/-- The method under another name, with those that it calls renamed as well. -/
def Method.renamed (f : String → String) (m : Method) : Method :=
  { m with name := f m.name, code := m.code.map (Insn.renamed f) }

def SharedUnit.renamed (f : String → String) (u : SharedUnit) : SharedUnit := { u with name := f u.name }

def LoweredSite.renamed (f : String → String) (l : LoweredSite) : LoweredSite :=
  { l with name := f l.name, shared := l.shared.map (SharedUnit.renamed f) }

section

variable (f : String → String)

theorem map_renamed {code : List Insn} (h : ∀ i ∈ code, i.renamed f = i) : code.map (Insn.renamed f) = code := by
  rw [List.map_congr_left h, List.map_id']

theorem map_renamed_loadParams (start : Nat) (params : List Ty) :
    (loadParams start params).map (Insn.renamed f) = loadParams start params :=
  map_renamed f (forall_mem_loadParams (P := fun i => i.renamed f = i) (fun _ _ => rfl) start params)

theorem map_renamed_accessCode (s : Shape) (flags : SiteFlags) (start : Nat) :
    (s.accessCode flags start).map (Insn.renamed f) = s.accessCode flags start := by
  refine map_renamed f ?_
  exact Shape.forall_mem_accessCode (P := fun i => i.renamed f = i) (fun _ _ => rfl) s (fun _ => rfl) rfl
    (fun _ _ _ _ => rfl) (fun _ _ _ => rfl) start

theorem SharedUnit.renamed_method (u : SharedUnit) : u.method.renamed f = (u.renamed f).method := by
  have hcode : u.method.code.map (Insn.renamed f) = u.method.code := by
    unfold SharedUnit.method SharedUnit.operation
    rw [List.map_append, List.map_append, List.map_append, map_renamed_accessCode]
    split <;> rfl
  unfold Method.renamed
  rw [hcode]
  rfl

theorem Site.renamed_lowered {s : Site} (hs : s.validate = .ok ()) (l : LoweredSite) :
    (s.lowered l).renamed f = s.lowered (l.renamed f) := by
  obtain ⟨hp, depth, hd⟩ := Site.validate_ok hs
  obtain ⟨cls, name, shared⟩ := l
  have hm := Site.method_lowered hs cls name shared
  have hm' := Site.method_lowered hs cls (f name) (shared.map (SharedUnit.renamed f))
  show _ = s.lowered ⟨cls, f name, shared.map (SharedUnit.renamed f)⟩
  cases shared with
  | none =>
    rw [method_inline hm hd (Site.siteFlags_ok hp), method_inline hm' hd (Site.siteFlags_ok hp)]
    simp [Method.renamed, Insn.renamed, map_renamed_accessCode]
  | some u =>
    rw [method_sharing hm hd, method_sharing hm' hd]
    simp [Method.renamed, Insn.renamed, map_renamed_loadParams, SharedUnit.invocation, SharedUnit.renamed,
      SharedUnit.signature]

end

/-! ## Tables of names -/

/-- A name under a table of new names. -/
def newName (table : List (String × String)) (x : String) : String :=
  ((⟨table⟩ : Assoc String String).get? x).getD x

section

variable {table : List (String × String)}

theorem newName_mem (hkeys : (table.map Prod.fst).Nodup) {x y : String} (h : (x, y) ∈ table) :
    newName table x = y := by
  rw [newName, Assoc.get?_of_mem hkeys h]
  rfl

theorem newName_notMem {x : String} (h : x ∉ table.map Prod.fst) : newName table x = x := by
  unfold newName
  cases hx : (⟨table⟩ : Assoc String String).get? x with
  | none => rfl
  | some y => exact absurd (List.mem_map_of_mem (Assoc.mem_of_get? hx)) h

theorem newName_swap (hkeys : (table.map Prod.fst).Nodup)
    (hvalues : (table.map Prod.snd).Perm (table.map Prod.fst)) (x : String) :
    newName (table.map Prod.swap) (newName table x) = x := by
  have hswapped : (table.map Prod.swap).map Prod.fst = table.map Prod.snd := by
    rw [List.map_map]
    rfl
  have hnodup : ((table.map Prod.swap).map Prod.fst).Nodup := by
    rw [hswapped]
    exact hvalues.nodup_iff.2 hkeys
  by_cases hx : x ∈ table.map Prod.fst
  · obtain ⟨⟨x, y⟩, hp, rfl⟩ := List.mem_map.1 hx
    rw [newName_mem hkeys hp]
    exact newName_mem hnodup (List.mem_map_of_mem hp)
  · rw [newName_notMem hx]
    refine newName_notMem ?_
    rwa [hswapped, hvalues.mem_iff]

/-- A table that gives the names that it replaces to each other is a permutation of all names. -/
theorem exists_renaming (hkeys : (table.map Prod.fst).Nodup)
    (hvalues : (table.map Prod.snd).Perm (table.map Prod.fst)) :
    ∃ ρ : Equiv.Perm String, (∀ p ∈ table, ρ p.1 = p.2) ∧ ∀ x, x ∉ table.map Prod.fst → ρ x = x := by
  have hswap : (table.map Prod.swap).map Prod.swap = table := by simp
  have hkeys' : ((table.map Prod.swap).map Prod.fst).Nodup := by
    rw [List.map_map]
    exact hvalues.nodup_iff.2 hkeys
  have hvalues' : ((table.map Prod.swap).map Prod.snd).Perm ((table.map Prod.swap).map Prod.fst) := by
    rw [List.map_map, List.map_map]
    exact hvalues.symm
  have hinverse := newName_swap hkeys' hvalues'
  rw [hswap] at hinverse
  exact ⟨⟨newName table, newName (table.map Prod.swap), newName_swap hkeys hvalues, hinverse⟩,
    fun p hp => newName_mem hkeys hp, fun x hx => newName_notMem hx⟩

end

namespace ModuleBuilder

/-! ## Units in another order -/

section

variable {us us' : List SharedUnit}

theorem find?_shape (hn : (us.map SharedUnit.shape).Nodup) {u : SharedUnit} (hu : u ∈ us) :
    us.find? (fun v => v.shape == u.shape) = some u := by
  have hsome : (us.find? fun v => v.shape == u.shape).isSome = true := List.find?_isSome.2 ⟨u, hu, by simp⟩
  obtain ⟨v, hv⟩ := Option.isSome_iff_exists.1 hsome
  have hshape : v.shape = u.shape := by simpa using List.find?_some hv
  rw [hv, List.inj_on_of_nodup_map hn (List.mem_of_find?_eq_some hv) hu hshape]

theorem find?_perm (h : us.Perm us') (hn : (us.map SharedUnit.shape).Nodup) (s : Shape) :
    us.find? (fun u => u.shape == s) = us'.find? fun u => u.shape == s := by
  cases hf : us'.find? fun u => u.shape == s with
  | none =>
    refine List.find?_eq_none.2 fun u hu => ?_
    exact List.find?_eq_none.1 hf u (h.mem_iff.1 hu)
  | some u =>
    obtain rfl : u.shape = s := by simpa using List.find?_some hf
    exact find?_shape hn (h.mem_iff.2 (List.mem_of_find?_eq_some hf))

def nameFor (us : List SharedUnit) (s : Shape) : String :=
  ((us.find? fun u => u.shape == s).map SharedUnit.name).getD ""

theorem nameFor_shape (hn : (us.map SharedUnit.shape).Nodup) {u : SharedUnit} (hu : u ∈ us) :
    nameFor us u.shape = u.name := by
  rw [nameFor, find?_shape hn hu]
  rfl

end

theorem finRange_siteNames (n : Nat) :
    (List.finRange n).map (fun k => "site$" ++ toString k.val) = siteNames 0 n := by
  rw [siteNames, ← List.range_eq_range', ← List.map_coe_finRange_eq_range, List.map_map]
  rfl

section

variable {us us' : List SharedUnit} {n : Nat}

/-- The new names of some units and of the sites of a batch, where other units have their shapes and the place `k` has
the site that was at `π k`. -/
def nameTable (us us' : List SharedUnit) (π : Equiv.Perm (Fin n)) : List (String × String) :=
  us.map (fun u => (u.name, nameFor us' u.shape)) ++
    (List.finRange n).map fun k => ("site$" ++ toString (π k).val, "site$" ++ toString k.val)

theorem keys_nameTable (us us' : List SharedUnit) (π : Equiv.Perm (Fin n)) :
    ((nameTable us us' π).map Prod.fst).Perm (us.map SharedUnit.name ++ siteNames 0 n) := by
  unfold nameTable
  rw [List.map_append, List.map_map, List.map_map, ← finRange_siteNames]
  refine List.Perm.append_left _ ?_
  have hsites := π.map_finRange_perm.map fun k => "site$" ++ toString k.val
  rwa [List.map_map] at hsites

variable (hshapes : (us'.map SharedUnit.shape).Perm (us.map SharedUnit.shape))
  (hdistinct : (us.map SharedUnit.shape).Nodup)

include hshapes hdistinct

theorem map_shape_nameFor {α : Type} (f : Shape → String → α) :
    (us'.map fun u => f u.shape u.name).Perm (us.map fun u => f u.shape (nameFor us' u.shape)) := by
  have hnames : (us'.map fun u => f u.shape u.name) = us'.map fun u => f u.shape (nameFor us' u.shape) :=
    List.map_congr_left fun u hu => by rw [nameFor_shape (hshapes.nodup_iff.2 hdistinct) hu]
  have hperm := hshapes.map fun s => f s (nameFor us' s)
  rw [List.map_map, List.map_map] at hperm
  rw [hnames]
  exact hperm

theorem values_nameTable (hnames : (us'.map SharedUnit.name).Perm (us.map SharedUnit.name))
    (π : Equiv.Perm (Fin n)) :
    ((nameTable us us' π).map Prod.snd).Perm (us.map SharedUnit.name ++ siteNames 0 n) := by
  unfold nameTable
  rw [List.map_append, List.map_map, List.map_map, ← finRange_siteNames]
  exact ((map_shape_nameFor hshapes hdistinct fun _ name => name).symm.trans hnames).append_right _

/-- One permutation of the names that units and sites use up takes the units to the others, and the name of each site
to that of its new place. -/
theorem exists_unitRenaming (hnames : (us'.map SharedUnit.name).Perm (us.map SharedUnit.name)) {cls : String}
    (hcls : ∀ u ∈ us, u.cls = cls) (hcls' : ∀ u ∈ us', u.cls = cls)
    (hfree : (us.map SharedUnit.name ++ siteNames 0 n).Nodup) (π : Equiv.Perm (Fin n)) :
    ∃ ρ : Equiv.Perm String, us'.Perm (us.map (SharedUnit.renamed ρ)) ∧
      (∀ k, ρ ("site$" ++ toString (π k).val) = "site$" ++ toString k.val) ∧
      ∀ x, x ∉ us.map SharedUnit.name ++ siteNames 0 n → ρ x = x := by
  have hkeys := keys_nameTable us us' π
  obtain ⟨ρ, hmoved, hkept⟩ := exists_renaming (hkeys.nodup_iff.2 hfree)
    ((values_nameTable hshapes hdistinct hnames π).trans hkeys.symm)
  refine ⟨ρ, ?_, fun k => ?_, fun x hx => hkept x fun h => hx (hkeys.mem_iff.1 h)⟩
  · have hown : us' = us'.map fun u => ⟨u.shape, cls, u.name⟩ := by
      conv_lhs => rw [← List.map_id us']
      exact List.map_congr_left fun u hu => by rw [← hcls' u hu]; rfl
    have hrenamed : us.map (SharedUnit.renamed ρ) = us.map fun u => ⟨u.shape, cls, nameFor us' u.shape⟩ := by
      refine List.map_congr_left fun u hu => ?_
      have hname : ρ u.name = nameFor us' u.shape :=
        hmoved (u.name, nameFor us' u.shape) (List.mem_append_left _ (List.mem_map.2 ⟨u, hu, rfl⟩))
      rw [SharedUnit.renamed, hname, ← hcls u hu]
    rw [hown, hrenamed]
    exact map_shape_nameFor hshapes hdistinct fun s name => (⟨s, cls, name⟩ : SharedUnit)
  · exact hmoved (_, _) (List.mem_append_right _ (List.mem_map.2 ⟨k, List.mem_finRange k, rfl⟩))

end

/-! ## Batches -/

section

variable {i index : Nat} {census census' : Census} {sites : List Site} {b b' : ModuleBuilder}
  {ls : List LoweredSite}

theorem lowerFrom_congr (h : ∀ x, census.count x = census'.count x) :
    lowerFrom i census index sites = lowerFrom i census' index sites := by
  have hsite : ∀ n s, lowerSite i census n s = lowerSite i census' n s := by
    intro n s
    unfold lowerSite
    rw [h]
  induction sites generalizing index with
  | nil => rfl
  | cons s ss ih => rw [lowerFrom, lowerFrom, hsite, ih]

theorem sharedShapes_perm {sites' : List Site} (t : Thresholds) (census : Census) (h : sites.Perm sites') :
    (sharedShapes t census sites).Perm (sharedShapes t census sites') := (h.filter _).map _

theorem lower_of_survey (h : survey {} sites = .ok census) : lower i sites = lowerFrom i census 0 sites := by
  unfold lower
  rw [h]

theorem surveyed_of_lower (h : (lower i sites).outcome b = (.ok ls, b')) :
    ∃ census, survey {} sites = .ok census ∧ (lowerFrom i census 0 sites).outcome b = (.ok ls, b') := by
  unfold lower at h
  cases hs : survey {} sites with
  | error f =>
    rw [hs] at h
    cases h
  | ok census =>
    rw [hs] at h
    exact ⟨census, rfl, h⟩

theorem valid_of_lower (h : (lower i sites).outcome b = (.ok ls, b')) : ∀ s ∈ sites, s.validate = .ok () := by
  obtain ⟨census, hs, -⟩ := surveyed_of_lower h
  exact (survey_ok hs).1

theorem survey_perm {sites' : List Site} (hperm : sites'.Perm sites) (h : survey {} sites = .ok census) :
    ∃ census', survey {} sites' = .ok census' ∧ ∀ x, census'.count x = census.count x := by
  obtain ⟨hv, htallies⟩ := survey_ok h
  have hcount : ∀ x, (sites'.map Site.shape).count x = (sites.map Site.shape).count x := (hperm.map _).count_eq
  rcases survey_of_valid fun s hs => hv s (hperm.mem_iff.1 hs) with ⟨census', h', htallies'⟩ | ⟨-, hover⟩
  · refine ⟨census', h', fun x => UInt32.toNat_inj.1 ?_⟩
    rw [htallies, htallies', hcount]
  · refine absurd (countable_iff.2 fun x => ?_) hover
    rw [hcount]
    exact countable_iff.1 htallies.countable x

theorem class_of_lower (h : (lower i sites).outcome b = (.ok ls, b')) (hne : sites ≠ []) :
    ∃ c, b.units[i]? = some c := by
  obtain ⟨s, hs⟩ := List.exists_mem_of_ne_nil sites hne
  obtain ⟨k, hk⟩ := List.mem_iff_getElem?.1 hs
  obtain ⟨-, l, -, hat⟩ := lower_ok h hk
  obtain ⟨c', hc', -⟩ := hat.cls
  have hnames := (builds_lower i sites b).names
  rw [h] at hnames
  have hlength : b'.units.length = b.units.length := by simpa using congrArg List.length hnames
  have hlt : i < b.units.length := hlength ▸ (List.getElem?_eq_some_iff.1 hc').1
  exact ⟨_, List.getElem?_eq_getElem hlt⟩

end

/-- The batch in another order: at the place `k` stands the site that was at `π k`. -/
def reordered (sites : List Site) (π : Equiv.Perm (Fin sites.length)) : List Site :=
  List.ofFn fun k => sites.get (π k)

theorem reordered_perm (sites : List Site) (π : Equiv.Perm (Fin sites.length)) : (reordered sites π).Perm sites := by
  have h := π.ofFn_comp_perm sites.get
  rwa [List.ofFn_get] at h

/-- What lowering a batch in another order gives, beside what it gave before: the site at the place `k` is lowered as it
was at `π k`, and the units and methods that are added are the same but for their order. All this is up to a renaming
of what the batch generates. -/
structure Reordered (b : ModuleBuilder) (i : Nat) (sites : List Site) (π : Equiv.Perm (Fin sites.length))
    (ls : List LoweredSite) (b₁ : ModuleBuilder) (ls₂ : List LoweredSite) (b₂ : ModuleBuilder)
    (ρ : Equiv.Perm String) : Prop where
  accepted : (lower i (reordered sites π)).outcome b = (.ok ls₂, b₂)
  length : ls₂.length = ls.length
  results : ∀ k, ls₂[k.val]? = ls[(π k).val]?.map (LoweredSite.renamed ρ)
  added : ∃ us ms us₂ ms₂, b₁ = b.extended i us ms ∧ b₂ = b.extended i us₂ ms₂ ∧
    us₂.Perm (us.map (SharedUnit.renamed ρ)) ∧ ms₂.Perm (ms.map (Method.renamed ρ)) ∧
    ∀ x, ρ x ≠ x → x ∈ ms.map Method.name

section

variable {i : Nat} {sites : List Site} {b b₁ b₂ : ModuleBuilder} {ls : List LoweredSite} {us us₂ : List SharedUnit}
  {ms ms₂ : List Method} {ρ : Equiv.Perm String}

theorem findShared_renamed (hunits : us₂.Perm (us.map (SharedUnit.renamed ρ)))
    (hdistinct : (us.map SharedUnit.shape).Nodup) (hold : ∀ u ∈ b.shared, ρ u.name = u.name) (s : Shape) :
    (b.extended i us₂ ms₂).findShared s = ((b.extended i us ms).findShared s).map (SharedUnit.renamed ρ) := by
  cases hf : b.findShared s with
  | some u =>
    rw [findShared_extended hf, findShared_extended hf, Option.map_some, SharedUnit.renamed,
      hold u (findShared_some hf).1]
  | none =>
    have hdistinct' : ((us.map (SharedUnit.renamed ρ)).map SharedUnit.shape).Nodup := by
      rw [List.map_map]
      exact hdistinct
    unfold findShared at hf
    unfold findShared extended
    rw [List.find?_append, List.find?_append, hf, Option.none_or, Option.none_or,
      ← find?_perm hunits.symm hdistinct', List.find?_map]
    rfl

theorem loweredAs_renamed {cls : String} {census : Census} {k k' : Nat}
    (hname : ρ ("site$" ++ toString k') = "site$" ++ toString k) (hthresholds : b₂.thresholds = b₁.thresholds)
    (hfound : ∀ s, b₂.findShared s = (b₁.findShared s).map (SharedUnit.renamed ρ)) (s : Site) :
    b₂.loweredAs cls census k s = (b₁.loweredAs cls census k' s).renamed ρ := by
  have hunit : b₂.unitOf census s = (b₁.unitOf census s).map (SharedUnit.renamed ρ) := by
    unfold unitOf
    rw [hthresholds, hfound]
    split <;> rfl
  unfold loweredAs LoweredSite.renamed
  rw [hunit, hname]

theorem name_lowered {s : Site} (hs : s.validate = .ok ()) (l : LoweredSite) : (s.lowered l).name = l.name :=
  (method_ok (Site.method_lowered hs l.cls l.name l.shared)).2.1

theorem mem_names_added {cls : String} {census : Census} (hv : ∀ s ∈ sites, s.validate = .ok ())
    (hms : ms.Perm (us.map SharedUnit.method ++
      sites.mapIdx fun k s => s.lowered (b.loweredAs cls census (0 + k) s)))
    {x : String} (hx : x ∈ us.map SharedUnit.name ++ siteNames 0 sites.length) : x ∈ ms.map Method.name := by
  refine (hms.map Method.name).mem_iff.2 ?_
  rw [List.map_append]
  rcases List.mem_append.1 hx with hx | hx
  · obtain ⟨u, hu, rfl⟩ := List.mem_map.1 hx
    exact List.mem_append_left _ (List.mem_map.2 ⟨u.method, List.mem_map_of_mem hu, rfl⟩)
  · obtain ⟨k, -, hk, rfl⟩ := mem_siteNames.1 hx
    have hlt : k < sites.length := by omega
    refine List.mem_append_right _ (List.mem_map.2 ⟨_, List.mem_mapIdx.2 ⟨k, hlt, rfl⟩, ?_⟩)
    rw [name_lowered (hv _ (List.getElem_mem hlt)), loweredAs, Nat.zero_add]

theorem newNames_nodup {cls : String} {census : Census} : (b.newNames cls census 0 sites).Nodup := by
  have hsites : (siteNames 0 sites.length).Nodup :=
    List.Nodup.map (fun _ _ he => Text.append_toString_inj he) List.nodup_range'
  refine List.nodup_append.2 ⟨nodup_names_numbered, hsites, fun x hx y hy => ?_⟩
  rintro rfl
  obtain ⟨u, hu, rfl⟩ := List.mem_map.1 hx
  obtain ⟨k, -, -, he⟩ := mem_siteNames.1 hy
  exact newUnits_ne_site hu k he.symm

theorem Numbered.notMem_newNames (hb : Numbered b) {u : SharedUnit} (hu : u ∈ b.shared) {cls : String}
    {census : Census} : u.name ∉ b.newNames cls census 0 sites := by
  obtain ⟨n, hn, hname⟩ := hb.names u hu
  intro hx
  rcases List.mem_append.1 hx with hx | hx
  · obtain ⟨v, hv, he⟩ := List.mem_map.1 hx
    obtain ⟨n', hn', hname'⟩ := name_numbered hv
    obtain ⟨hkind, rfl⟩ := unitName_inj (hname'.symm.trans (he.trans hname))
    rw [hkind] at hn'
    omega
  · obtain ⟨k, -, -, he⟩ := mem_siteNames.1 hx
    have hshared := isShared_unit (m := u.method) hname
    rw [isShared_site (m := u.method) he.symm] at hshared
    cases hshared

theorem mapIdx_reordered {α : Type} (f : Nat → Site → α) (π : Equiv.Perm (Fin sites.length)) :
    (reordered sites π).mapIdx f = List.ofFn fun k => f k.val (sites.get (π k)) := by
  refine List.ext_getElem (by simp [reordered]) fun k hk hk' => ?_
  simp [reordered]

theorem siteMethods_perm {cls : String} {census : Census} (hv : ∀ s ∈ sites, s.validate = .ok ())
    (π : Equiv.Perm (Fin sites.length))
    (hlowered : ∀ k s, b₂.loweredAs cls census (0 + k.val) s =
      (b₁.loweredAs cls census (0 + (π k).val) s).renamed ρ) :
    ((reordered sites π).mapIdx fun k s => s.lowered (b₂.loweredAs cls census (0 + k) s)).Perm
      ((sites.mapIdx fun k s => s.lowered (b₁.loweredAs cls census (0 + k) s)).map (Method.renamed ρ)) := by
  rw [mapIdx_reordered, List.mapIdx_eq_ofFn, List.map_ofFn]
  refine List.Perm.trans (.of_eq ?_) (π.ofFn_comp_perm _)
  refine congrArg List.ofFn (funext fun k => ?_)
  rw [hlowered, ← Site.renamed_lowered ρ (hv _ (List.get_mem ..))]
  rfl

theorem exists_reordering (hb : Numbered b) (h : (lower i sites).outcome b = (.ok ls, b₁))
    (π : Equiv.Perm (Fin sites.length)) : ∃ ls₂ b₂ ρ, Reordered b i sites π ls b₁ ls₂ b₂ ρ := by
  have hperm := reordered_perm sites π
  rcases eq_or_ne sites [] with rfl | hne
  · cases h
    exact ⟨[], b, .refl _, rfl, rfl, fun k => k.elim0, [], [], [], [], extended_nil.symm, extended_nil.symm, .nil, .nil,
      fun x hx => absurd rfl hx⟩
  obtain ⟨c, hc⟩ := class_of_lower h hne
  obtain ⟨census, hsurvey, h⟩ := surveyed_of_lower h
  obtain ⟨census₂, hsurvey₂, hsame⟩ := survey_perm hperm hsurvey
  have hv := (survey_ok hsurvey).1
  have hv₂ : ∀ s ∈ reordered sites π, s.validate = .ok () := fun s hs => hv s (hperm.mem_iff.1 hs)
  have hlower₂ : lower i (reordered sites π) = lowerFrom i census 0 (reordered sites π) := by
    rw [lower_of_survey hsurvey₂, lowerFrom_congr hsame]
  obtain ⟨⟨hroom, hfresh⟩, hls, ms, hb₁, hms⟩ := lowerFrom_result h hc hv
  obtain ⟨hshapes, hnames⟩ :=
    newUnits_perm (sharedShapes_perm b.thresholds census hperm) b c.name
  have hfresh₂ : Fresh c (b.newNames c.name census 0 (reordered sites π)) := by
    intro m hm hx
    unfold newNames at hx
    rw [(hnames.append_right _).mem_iff, hperm.length_eq] at hx
    exact hfresh m hm hx
  obtain ⟨ls₂, b₂, h₂⟩ := lowerFrom_accepted hc hv₂ (hroom.perm hshapes.symm) hfresh₂
  obtain ⟨-, hls₂, ms₂, hb₂, hms₂⟩ := lowerFrom_result h₂ hc hv₂
  obtain ⟨ρ, hunits, hplaces, hkept⟩ := exists_unitRenaming hshapes (nodup_shapes_newUnits ..) hnames
    (fun u hu => cls_numbered hu) (fun u hu => cls_numbered hu) newNames_nodup π
  have hfound : ∀ s, b₂.findShared s = (b₁.findShared s).map (SharedUnit.renamed ρ) := by
    rw [hb₁, hb₂]
    exact findShared_renamed hunits (nodup_shapes_newUnits ..) fun u hu => hkept _ (hb.notMem_newNames hu)
  have hlowered : ∀ k s, b₂.loweredAs c.name census (0 + k.val) s =
      (b₁.loweredAs c.name census (0 + (π k).val) s).renamed ρ := by
    intro k s
    refine loweredAs_renamed ?_ ?_ hfound s
    · rw [Nat.zero_add, Nat.zero_add]
      exact hplaces k
    · rw [hb₁, hb₂]
      rfl
  refine ⟨ls₂, b₂, ρ, by rw [hlower₂, h₂], ?_, fun k => ?_, _, ms, _, ms₂, hb₁, hb₂, hunits, ?_, fun x hx => ?_⟩
  · rw [hls, hls₂, List.length_mapIdx, List.length_mapIdx, hperm.length_eq]
  · have hplace : (reordered sites π)[k.val]? = some (sites.get (π k)) := by simp [reordered]
    have hplace₁ : sites[(π k).val]? = some (sites.get (π k)) := by simp
    rw [hls, hls₂, List.getElem?_mapIdx, List.getElem?_mapIdx, hplace, hplace₁]
    exact congrArg some (hlowered k _)
  · refine hms₂.trans (List.Perm.trans ?_ (hms.map _).symm)
    rw [List.map_append, List.map_map]
    refine List.Perm.append ?_ (siteMethods_perm hv π hlowered)
    have hmethods := hunits.map SharedUnit.method
    rw [List.map_map] at hmethods
    refine hmethods.trans (.of_eq (List.map_congr_left fun u _ => ?_))
    exact (SharedUnit.renamed_method ρ u).symm
  · refine mem_names_added hv hms ?_
    by_contra hfree
    exact hx (hkept x hfree)

end

end ModuleBuilder
end ScriptHost
