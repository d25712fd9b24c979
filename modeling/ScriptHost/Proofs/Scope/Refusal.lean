import ScriptHost.Proofs.Scope.Policy
import ScriptHost.Proofs.Scope.Validation

/-!
# What a refused batch leaves behind

A batch of sites that can be encoded is still refused if an earlier batch was lowered into the class, since the sites
of each batch are numbered from zero on (`lowerFrom_sited`). This comes out when the method of the first site is added.
If that site shares and its shape had no unit, the unit was made before, and it stays (`LeftBehind`). The other way to
be refused late is that the numbers of units run out on the way (`RunsShort`): then the sites before stay lowered. In
any other case a refused batch leaves the builder as it was (`refused_leaves`).
-/

namespace ScriptHost
namespace ModuleBuilder

variable {b b' : ModuleBuilder} {i index : Nat} {c : ClassBody} {s : Site} {census : Census}
  {sites : List Site}

/-! ## Classes with sites -/

/-- The class has the method of a first site. -/
def Sited (c : ClassBody) : Prop := ∃ m ∈ c.methods, m.name = "site$" ++ toString 0

theorem Sited.adding (h : Sited c) (ms : List Method) : Sited (c.adding ms) := by
  obtain ⟨m, hm, hname⟩ := h
  exact ⟨m, List.mem_append_left _ hm, hname⟩

/-- Every class that has methods of sites has that of a first one. -/
def SitesFromZero (b : ModuleBuilder) : Prop :=
  ∀ c ∈ b.units, ∀ m ∈ c.methods, ∀ k : Nat, m.name = "site$" ++ toString k → Sited c

theorem sitesFromZero_new (name : String) (t : Thresholds) : SitesFromZero (new name t) := fun _ hc => nomatch hc

theorem SitesFromZero.opened (hb : SitesFromZero b) (cls : String) : SitesFromZero (b.opened cls) := by
  intro c hc m hm
  rcases List.mem_append.1 hc with hc | hc
  · exact hb c hc m hm
  · obtain rfl := List.mem_singleton.1 hc
    cases hm

theorem SitesFromZero.extended (hb : SitesFromZero b) {us : List SharedUnit} {ms : List Method}
    (hms : ∀ m ∈ ms, ∀ k : Nat, m.name = "site$" ++ toString k → ∃ m' ∈ ms, m'.name = "site$" ++ toString 0) :
    SitesFromZero (b.extended i us ms) := by
  intro c hc m hm k hk
  obtain ⟨j, hj⟩ := List.mem_iff_getElem?.1 hc
  unfold ModuleBuilder.extended at hj
  rw [List.getElem?_modify] at hj
  obtain ⟨d, hd, rfl⟩ := Option.map_eq_some_iff.1 hj
  have hkept : ∀ m ∈ d.methods, ∀ k : Nat, m.name = "site$" ++ toString k → Sited d := hb d (List.mem_of_getElem? hd)
  by_cases hij : i = j
  · rw [if_pos hij] at hm ⊢
    rcases List.mem_append.1 hm with hm | hm
    · exact (hkept m hm k hk).adding ms
    · obtain ⟨m', hm', hname⟩ := hms m hm k hk
      exact ⟨m', List.mem_append_right _ hm', hname⟩
  · rw [if_neg hij] at hm ⊢
    exact hkept m hm k hk

theorem SitesFromZero.withUnit (hb : SitesFromZero b) (hc : b.units[i]? = some c) (s : Shape) :
    SitesFromZero (b.withUnit i c s) := by
  rw [withUnit_eq hc]
  refine hb.extended fun m hm k hk => ?_
  obtain rfl := List.mem_singleton.1 hm
  have hshared := isShared_unit (show ((b.nextUnit s c.name).method).name = _ from rfl)
  rw [isShared_site hk] at hshared
  cases hshared

/-! ## A batch for a class that is sited -/

theorem addMethod_taken (hc : b.units[i]? = some c) {m : Method} (hcls : m.cls = c.name)
    (htaken : ∃ m' ∈ c.methods, m'.name = m.name) :
    (addMethod i m).outcome b = (.error (.error (.internal (.duplicateMethod m.name c.name))), b) := by
  have hadd : c.add m = .error (.duplicateMethod m.name c.name) := by
    obtain ⟨m', hm', he⟩ := htaken
    have hany : (c.methods.any fun m' => m'.name == m.name) = true :=
      List.any_eq_true.2 ⟨m', hm', beq_iff_eq.2 he⟩
    rw [ClassBody.add, if_neg (not_not_intro hcls), if_pos hany]
  rw [addMethod, Run.outcome_bind, outcome_unit_some hc]
  dsimp only
  rw [hadd]
  rfl

theorem emitSite_taken (hc : b.units[i]? = some c) (hs : s.validate = .ok ())
    (htaken : ∃ m ∈ c.methods, m.name = "site$" ++ toString index) (shared : Option SharedUnit) :
    (emitSite i index s shared).outcome b =
      (.error (.error (.internal (.duplicateMethod ("site$" ++ toString index) c.name))), b) := by
  have hm := Site.method_lowered hs c.name ("site$" ++ toString index) shared
  obtain ⟨hcls, hname, -⟩ := method_ok hm
  rw [← hname] at htaken
  unfold emitSite
  rw [Run.outcome_bind, outcome_unit_some hc]
  dsimp only
  rw [hm]
  dsimp only
  rw [Run.outcome_bind, addMethod_taken hc hcls htaken, hname]

/-- Lowering the site makes a unit: the site shares in its batch, and there is no unit of its shape. -/
def Makes (b : ModuleBuilder) (sites : List Site) (s : Site) : Prop :=
  Shares b.thresholds sites s ∧ ∀ u ∈ b.shared, u.shape ≠ s.shape

theorem makes_iff (ht : Tallies census sites) : Makes b sites s ↔
    sharesSite b.thresholds (census.count s.shape) s = true ∧ b.findShared s.shape = none := by
  rw [ht.sharesSite_iff, findShared_none]
  simp [Makes]

theorem unitFor_cases (hb : Canonical b) (hc : b.units[i]? = some c) (hs : s.validate = .ok ())
    (ht : Tallies census sites) :
    ¬Makes b sites s ∧ (∃ shared, (unitFor i census s).outcome b = (.ok shared, b)) ∨
      Makes b sites s ∧ b.Room s.shape.isCall ∧
        (∃ shared, (unitFor i census s).outcome b = (.ok shared, b.withUnit i c s.shape)) ∨
      Makes b sites s ∧ ¬b.Room s.shape.isCall ∧ (unitFor i census s).outcome b = (.error .overflow, b) := by
  rw [makes_iff ht]
  unfold unitFor
  rw [Run.outcome_bind, Run.outcome_get]
  dsimp only
  by_cases hshares : sharesSite b.thresholds (census.count s.shape) s = true
  · have hd : s.shape.symbol.isDynamic = false := isDynamic_of_sharesSite hshares
    rw [if_pos hshares, Run.outcome_map, outcome_sharedUnit hc hd (callOperands_valid hs)]
    cases hf : b.findShared s.shape with
    | some u =>
      refine .inl ⟨?_, some u, rfl⟩
      rintro ⟨-, hnone⟩
      cases hnone
    | none =>
      dsimp only
      by_cases hroom : b.Room s.shape.isCall
      · rw [makeUnit_new hb hc hroom]
        exact .inr (.inl ⟨⟨hshares, rfl⟩, hroom, some _, rfl⟩)
      · rw [makeUnit_full hroom]
        exact .inr (.inr ⟨⟨hshares, rfl⟩, hroom, rfl⟩)
  · rw [if_neg hshares]
    exact .inl ⟨fun h => hshares h.1, none, rfl⟩

/-- The fault of a batch for a class that is sited. -/
def siteTaken (c : ClassBody) : Fault := .error (.internal (.duplicateMethod ("site$" ++ toString 0) c.name))

/-- The first site of a batch is refused in a class that is sited, after its unit was made. -/
theorem lowerFrom_taken (hb : Canonical b) (hc : b.units[i]? = some c) (hsited : Sited c) (hs : s.validate = .ok ())
    (ht : Tallies census (s :: sites)) :
    ¬Makes b (s :: sites) s ∧ (lowerFrom i census 0 (s :: sites)).outcome b = (.error (siteTaken c), b) ∨
      Makes b (s :: sites) s ∧ b.Room s.shape.isCall ∧
        (lowerFrom i census 0 (s :: sites)).outcome b = (.error (siteTaken c), b.withUnit i c s.shape) ∨
      Makes b (s :: sites) s ∧ ¬b.Room s.shape.isCall ∧
        (lowerFrom i census 0 (s :: sites)).outcome b = (.error .overflow, b) := by
  rw [lowerFrom, lowerSite_eq, Run.outcome_bind, Run.outcome_bind]
  rcases unitFor_cases hb hc hs ht with ⟨hmakes, shared, hunit⟩ | ⟨hmakes, hroom, shared, hunit⟩ | ⟨hmakes, hfull, hunit⟩
  · rw [hunit]
    dsimp only
    rw [emitSite_taken hc hs hsited]
    exact .inl ⟨hmakes, rfl⟩
  · have hclass : (b.withUnit i c s.shape).units[i]? = some (c.adding [(b.nextUnit s.shape c.name).method]) := by
      rw [withUnit_eq hc]
      exact getElem?_extended hc
    rw [hunit]
    dsimp only
    rw [emitSite_taken hclass hs (hsited.adding _)]
    exact .inr (.inl ⟨hmakes, hroom, rfl⟩)
  · rw [hunit]
    exact .inr (.inr ⟨hmakes, hfull, rfl⟩)

theorem sited_lowerFrom {ls : List LoweredSite} (h : (lowerFrom i census 0 sites).outcome b = (.ok ls, b'))
    (hc : b.units[i]? = some c) (hv : ∀ s ∈ sites, s.validate = .ok ()) (hne : sites ≠ []) :
    ∃ us ms, b' = b.extended i us ms ∧ ∃ m ∈ ms, m.name = "site$" ++ toString 0 := by
  obtain ⟨-, -, ms, hb', hms⟩ := lowerFrom_result h hc hv
  have hfirst : "site$" ++ toString 0 ∈ siteNames 0 sites.length :=
    mem_siteNames.2 ⟨0, Nat.le_refl 0, by simpa using List.length_pos_iff.2 hne, rfl⟩
  exact ⟨_, ms, hb', List.mem_map.1 (mem_names_added hv hms (List.mem_append_right _ hfirst))⟩

/-! ## Batches that are refused -/

theorem lowerFrom_unopened (hnone : b.units[i]? = none) : ((lowerFrom i census index sites).outcome b).2 = b := by
  obtain ⟨f, hf⟩ := outcome_unit_none hnone
  cases sites with
  | nil => rfl
  | cons s ss =>
    rw [lowerFrom, lowerSite_eq, Run.outcome_bind, Run.outcome_bind]
    have hfor : ∃ r, (unitFor i census s).outcome b = (r, b) := by
      unfold unitFor
      rw [Run.outcome_bind, Run.outcome_get]
      dsimp only
      split
      · rw [Run.outcome_map, sharedUnit_eq, Run.outcome_bind, hf]
        exact ⟨_, rfl⟩
      · exact ⟨_, rfl⟩
    obtain ⟨r, hr⟩ := hfor
    rw [hr]
    cases r with
    | error f' => rfl
    | ok shared =>
      dsimp only
      rw [emitSite, Run.outcome_bind, hf]

/-- A batch leaves a unit behind: its sites can be encoded and counted, but an earlier batch was lowered into the class,
and the first site makes a unit. -/
structure LeftBehind (b : ModuleBuilder) (i : Nat) (sites : List Site) (c : ClassBody) (s : Site) : Prop where
  first : sites.head? = some s
  cls : b.units[i]? = some c
  encodable : ∀ s' ∈ sites, s'.Encodable
  countable : Countable sites
  sited : Sited c
  makes : Makes b sites s
  room : b.Room s.shape.isCall

/-- The numbers of units run out in the midst of a batch: its sites can be encoded and counted, and none was lowered
into the class before. There are too few numbers for its units, but there is one if the first site makes a unit. -/
structure RunsShort (b : ModuleBuilder) (i : Nat) (sites : List Site) (c : ClassBody) : Prop where
  cls : b.units[i]? = some c
  encodable : ∀ s ∈ sites, s.Encodable
  countable : Countable sites
  unsited : ¬Sited c
  short : ¬b.RoomForBatch sites
  first : ∀ s, sites.head? = some s → Makes b sites s → b.Room s.shape.isCall

/-- The first sites of a batch are lowered, and the next one makes a unit for which there is no number. -/
def LoweredUntil (b : ModuleBuilder) (i : Nat) (sites : List Site) (b' : ModuleBuilder) : Prop :=
  ∃ before s rest census ls, sites = before ++ s :: rest ∧ before ≠ [] ∧ Tallies census sites ∧
    (lowerFrom i census 0 before).outcome b = (.ok ls, b') ∧ Makes b' sites s ∧ ¬b'.Room s.shape.isCall

/-- No batch is lowered into a class that is sited. It leaves a unit behind if its first site makes one. -/
theorem lowerFrom_sited (hb : Canonical b) (hc : b.units[i]? = some c) (hsited : Sited c)
    (hs : ∀ s ∈ sites, s.Encodable) (ht : Tallies census sites) (hne : sites ≠ []) :
    (∃ f, (lowerFrom i census 0 sites).outcome b = (.error f, b) ∧ ∀ c s, ¬LeftBehind b i sites c s) ∨
      ∃ s, LeftBehind b i sites c s ∧
        (lowerFrom i census 0 sites).outcome b = (.error (siteTaken c), b.withUnit i c s.shape) := by
  cases sites with
  | nil => exact absurd rfl hne
  | cons s ss =>
    have hfirst : ∀ {c' s'}, LeftBehind b i (s :: ss) c' s' → s = s' := fun h => Option.some.inj h.first
    rcases lowerFrom_taken hb hc hsited (hs s (List.mem_cons_self ..)).validate ht with
      ⟨hmakes, hrun⟩ | ⟨hmakes, hroom, hrun⟩ | ⟨-, hfull, hrun⟩
    · exact .inl ⟨_, hrun, fun c' s' h => hmakes (hfirst h ▸ h.makes)⟩
    · exact .inr ⟨s, ⟨rfl, hc, hs, ht.countable, hsited, hmakes, hroom⟩, hrun⟩
    · exact .inl ⟨_, hrun, fun c' s' h => hfull (hfirst h ▸ h.room)⟩

theorem lowerFrom_unsited (hb : Canonical b) (hc : b.units[i]? = some c)
    (hnone : ∀ m ∈ c.methods, ∀ k : Nat, m.name ≠ "site$" ++ toString k) (hs : ∀ s ∈ sites, s.Encodable)
    (ht : Tallies census sites) :
    (∃ ls b', (lowerFrom i census 0 sites).outcome b = (.ok ls, b')) ∨
      ((lowerFrom i census 0 sites).outcome b = (.error .overflow, b) ∧ ∀ c, ¬RunsShort b i sites c) ∨
        RunsShort b i sites c ∧ ∃ b', LoweredUntil b i sites b' ∧
          (lowerFrom i census 0 sites).outcome b = (.error .overflow, b') := by
  have hv : ∀ s ∈ sites, s.validate = .ok () := fun s hmem => (hs s hmem).validate
  have hfresh : Fresh c (b.newNames c.name census 0 sites) := hb.fresh_newNames hc hnone
  rcases lowerFrom_cases hc hv hfresh with
    hok | ⟨before, s, rest, ls, b₁, c₁, rfl, hbefore, -, hshares, hmissing, hfull, hrun⟩
  · exact .inl hok
  have hmakes : Makes b₁ (before ++ s :: rest) s := (makes_iff ht).2 ⟨hshares, hmissing⟩
  cases before with
  | nil =>
    cases hbefore
    exact .inr (.inl ⟨hrun, fun c' hshort => hfull (hshort.first s rfl hmakes)⟩)
  | cons s₀ before =>
    refine .inr (.inr ⟨⟨hc, hs, ht.countable, ?_, fun hroom => ?_, ?_⟩, b₁, ?_, hrun⟩)
    · rintro ⟨m, hm, hname⟩
      exact hnone m hm 0 hname
    · obtain ⟨ls', b', hok⟩ := (lowerFrom_iff hb hc hnone hs ht).1.2 hroom
      cases hok.symm.trans hrun
    · -- without a number for it the first site would not be lowered
      intro s' hs' hmakes'
      obtain rfl : s₀ = s' := Option.some.inj hs'
      obtain ⟨hshares', hmissing'⟩ := (makes_iff ht).1 hmakes'
      by_contra hfull'
      rw [lowerFrom, Run.outcome_bind, lowerSite_full hc (hv _ (by simp)) hshares' hmissing' hfull'] at hbefore
      cases hbefore
    · exact ⟨_, s, rest, census, ls, rfl, List.cons_ne_nil _ _, ht, hbefore, hmakes, hfull⟩

/-- A batch is lowered, or leaves the builder as it was, or leaves a unit behind, or runs short of numbers. -/
theorem lower_cases (hb : Canonical b) (hzero : SitesFromZero b) (i : Nat) (sites : List Site) :
    (∃ ls b', (lower i sites).outcome b = (.ok ls, b')) ∨
      (∃ f, (lower i sites).outcome b = (.error f, b) ∧ (∀ c s, ¬LeftBehind b i sites c s) ∧
        ∀ c, ¬RunsShort b i sites c) ∨
      (∃ c s, LeftBehind b i sites c s ∧
        (lower i sites).outcome b = (.error (siteTaken c), b.withUnit i c s.shape)) ∨
      ∃ c b', RunsShort b i sites c ∧ LoweredUntil b i sites b' ∧
        (lower i sites).outcome b = (.error .overflow, b') := by
  rcases lower_surveyed i sites b with
    ⟨before, s, rest, e, he, -, -, hrefused, hrun⟩ | ⟨hcount, hrun⟩ | ⟨hs, census, ht, hfrom⟩
  · have hnot : ¬∀ s' ∈ sites, s'.Encodable := by
      intro hs
      cases hrefused.validate.symm.trans (hs s (by simp [he])).validate
    exact .inr (.inl ⟨_, hrun, fun c s h => hnot h.encodable, fun c h => hnot h.encodable⟩)
  · exact .inr (.inl ⟨_, hrun, fun c s h => hcount h.countable, fun c h => hcount h.countable⟩)
  rw [hfrom]
  cases hc : b.units[i]? with
  | none =>
    have hsame := @lowerFrom_unopened b i 0 census sites hc
    rcases hrun : (lowerFrom i census 0 sites).outcome b with ⟨r, b'⟩
    rw [hrun] at hsame
    obtain rfl : b' = b := hsame
    cases r with
    | ok ls => exact .inl ⟨ls, b', rfl⟩
    | error f =>
      refine .inr (.inl ⟨f, rfl, fun c s h => ?_, fun c h => ?_⟩)
      · cases hc.symm.trans h.cls
      · cases hc.symm.trans h.cls
  | some c =>
    have hclass : ∀ {c'}, b.units[i]? = some c' → c = c' := fun h => Option.some.inj (hc.symm.trans h)
    by_cases hsited : Sited c
    · have hlate : ∀ c, ¬RunsShort b i sites c := fun c' h => h.unsited (hclass h.cls ▸ hsited)
      rcases eq_or_ne sites [] with rfl | hne
      · exact .inl ⟨[], b, rfl⟩
      rcases lowerFrom_sited hb hc hsited hs ht hne with ⟨f, hrun, hearly⟩ | ⟨s, hleft, hrun⟩
      · exact .inr (.inl ⟨f, hrun, hearly, hlate⟩)
      · exact .inr (.inr (.inl ⟨c, s, hleft, hrun⟩))
    · have hearly : ∀ c s, ¬LeftBehind b i sites c s := fun c' s h => hsited (hclass h.cls ▸ h.sited)
      have hnone : ∀ m ∈ c.methods, ∀ k : Nat, m.name ≠ "site$" ++ toString k := fun m hm k hk =>
        hsited (hzero c (List.mem_of_getElem? hc) m hm k hk)
      rcases lowerFrom_unsited hb hc hnone hs ht with hok | ⟨hrun, hlate⟩ | ⟨hshort, b', huntil, hrun⟩
      · exact .inl hok
      · exact .inr (.inl ⟨_, hrun, hearly, hlate⟩)
      · exact .inr (.inr (.inr ⟨c, b', hshort, huntil, hrun⟩))

theorem SitesFromZero.lowerFrom (hzero : SitesFromZero b) {ls : List LoweredSite}
    (h : (lowerFrom i census 0 sites).outcome b = (.ok ls, b')) (hc : b.units[i]? = some c)
    (hv : ∀ s ∈ sites, s.validate = .ok ()) (hne : sites ≠ []) : SitesFromZero b' := by
  obtain ⟨us, ms, rfl, hfirst⟩ := sited_lowerFrom h hc hv hne
  exact hzero.extended fun _ _ _ _ => hfirst

theorem LoweredUntil.ne (h : LoweredUntil b i sites b') (hshort : RunsShort b i sites c) : b' ≠ b := by
  obtain ⟨before, s, rest, census, ls, rfl, hne, -, hbefore, -⟩ := h
  obtain ⟨us, ms, rfl, m, hm, hname⟩ := sited_lowerFrom hbefore hshort.cls
    (fun s' hs' => (hshort.encodable s' (List.mem_append_left _ hs')).validate) hne
  intro hsame
  have hclass := @getElem?_extended b i c us ms hshort.cls
  rw [hsame, hshort.cls, Option.some.injEq] at hclass
  refine hshort.unsited ⟨m, ?_, hname⟩
  rw [hclass]
  exact List.mem_append_right _ hm

theorem sitesFromZero_lower (hb : Canonical b) (hzero : SitesFromZero b) (i : Nat) (sites : List Site) :
    SitesFromZero ((lower i sites).outcome b).2 := by
  rcases lower_cases hb hzero i sites with ⟨ls, b', h⟩ | ⟨f, h, -⟩ | ⟨c, s, hleft, h⟩ | ⟨c, b', hshort, huntil, h⟩
  · rcases eq_or_ne sites [] with rfl | hne
    · cases h
      exact hzero
    · obtain ⟨c, hc⟩ := class_of_lower h hne
      obtain ⟨census, -, hfrom⟩ := surveyed_of_lower h
      rw [h]
      exact hzero.lowerFrom hfrom hc (valid_of_lower h) hne
  · rw [h]
    exact hzero
  · rw [h]
    exact hzero.withUnit hleft.cls s.shape
  · obtain ⟨before, s, rest, census, ls, rfl, hne, -, hbefore, -⟩ := huntil
    rw [h]
    exact hzero.lowerFrom hbefore hshort.cls
      (fun s' hs' => (hshort.encodable s' (List.mem_append_left _ hs')).validate) hne

theorem Request.sitesFromZero (hb : Canonical b) (hzero : SitesFromZero b) {r : Request} (hr : r.Generates) :
    SitesFromZero (r.apply b) := by
  cases r with
  | openClass cls => exact hzero.opened cls
  | addMethod i m => exact hr.elim
  | lower i sites => exact sitesFromZero_lower hb hzero i sites
  | sharedUnit i s =>
    show SitesFromZero ((ModuleBuilder.sharedUnit i s).outcome b).2
    rcases sharedUnit_cases hb i s with ⟨f, h⟩ | ⟨u, -, h⟩ | ⟨c, hc, -, -, h⟩
    · rw [h]
      exact hzero
    · rw [h]
      exact hzero
    · rw [h]
      exact hzero.withUnit hc s

theorem sitesFromZero_after (name : String) (t : Thresholds) {requests : List Request}
    (hr : ∀ r ∈ requests, r.Generates) :
    Canonical ((new name t).after requests) ∧ SitesFromZero ((new name t).after requests) :=
  after_invariant (fun b => Canonical b ∧ SitesFromZero b)
    (fun hr hb => ⟨(Request.continues hb.1 hr).canonical, Request.sitesFromZero hb.1 hb.2 hr⟩)
    ⟨canonical_new name t, sitesFromZero_new name t⟩ hr

theorem withUnit_ne (b : ModuleBuilder) (i : Nat) (c : ClassBody) (s : Shape) : b.withUnit i c s ≠ b := by
  intro h
  have hlength : b.shared.length + 1 = b.shared.length := by
    simpa [withUnit] using congrArg (fun b => b.shared.length) h
  omega

/-- After any row of requests that generate code: a batch that is refused leaves the builder as it was, but for two
cases. An earlier batch was lowered into the class and the first site makes a unit: then the fault is that of its name,
and the unit stays, with its method and its number. Or the numbers of units run out: then what was lowered stays. -/
theorem refused_leaves {name : String} {t : Thresholds} {requests : List Request} (hr : ∀ r ∈ requests, r.Generates)
    {f : Fault} (h : (lower i sites).outcome ((new name t).after requests) = (.error f, b')) :
    (b' = (new name t).after requests ↔ (¬∃ c s, LeftBehind ((new name t).after requests) i sites c s) ∧
      ¬∃ c, RunsShort ((new name t).after requests) i sites c) ∧
    (∀ c s, LeftBehind ((new name t).after requests) i sites c s →
      f = siteTaken c ∧ b' = ((new name t).after requests).withUnit i c s.shape) ∧
    ∀ c, RunsShort ((new name t).after requests) i sites c →
      f = .overflow ∧ LoweredUntil ((new name t).after requests) i sites b' := by
  obtain ⟨hb, hzero⟩ := sitesFromZero_after name t hr
  generalize (new name t).after requests = b at hb hzero h ⊢
  have hapart : ∀ {c s c'}, LeftBehind b i sites c s → ¬RunsShort b i sites c' := by
    intro c s c' hleft hshort
    obtain rfl : c = c' := Option.some.inj (hleft.cls.symm.trans hshort.cls)
    exact hshort.unsited hleft.sited
  rcases lower_cases hb hzero i sites with
    ⟨ls, b₁, hok⟩ | ⟨f', hsame, hearly, hlate⟩ | ⟨c, s, hleft, hrun⟩ | ⟨c, b₁, hshort, huntil, hrun⟩
  · cases hok.symm.trans h
  · cases hsame.symm.trans h
    exact ⟨⟨fun _ => ⟨fun ⟨c, s, hleft⟩ => hearly c s hleft, fun ⟨c, hshort⟩ => hlate c hshort⟩, fun _ => rfl⟩,
      fun c s hleft => absurd hleft (hearly c s), fun c hshort => absurd hshort (hlate c)⟩
  · cases hrun.symm.trans h
    refine ⟨⟨fun hsame => absurd hsame (withUnit_ne _ _ _ _), fun hnone => absurd ⟨c, s, hleft⟩ hnone.1⟩, ?_,
      fun c' hshort => absurd hshort (hapart hleft)⟩
    intro c' s' hleft'
    obtain rfl : c = c' := Option.some.inj (hleft.cls.symm.trans hleft'.cls)
    obtain rfl : s = s' := Option.some.inj (hleft.first.symm.trans hleft'.first)
    exact ⟨rfl, rfl⟩
  · cases hrun.symm.trans h
    exact ⟨⟨fun hsame => absurd hsame (huntil.ne hshort), fun hnone => absurd ⟨c, hshort⟩ hnone.2⟩,
      fun c' s hleft => absurd hshort (hapart hleft), fun _ _ => ⟨rfl, huntil⟩⟩

def oneRead : List Request := [.openClass "Script", .lower 0 [sharingRead "x" 7]]

theorem refused_leaves_secondRead :
    (∀ r ∈ oneRead, r.Generates) ∧
    ∃ c f b', LeftBehind ((new "m" ⟨0, 0⟩).after oneRead) 0 [sharingRead "y" 8] c (sharingRead "y" 8) ∧
      (lower 0 [sharingRead "y" 8]).outcome ((new "m" ⟨0, 0⟩).after oneRead) = (.error f, b') ∧
      f = siteTaken c ∧ b' = ((new "m" ⟨0, 0⟩).after oneRead).withUnit 0 c (sharingRead "y" 8).shape := by
  have hr : ∀ r ∈ oneRead, r.Generates := by simp [oneRead, Request.Generates]
  have hrun : (lower 0 [sharingRead "y" 8]).outcome ((new "m" ⟨0, 0⟩).after oneRead) = (.error _, _) := rfl
  have hleft : LeftBehind ((new "m" ⟨0, 0⟩).after oneRead) 0 [sharingRead "y" 8] _ (sharingRead "y" 8) :=
    { first := rfl
      cls := rfl
      encodable := by
        intro s hs
        obtain rfl := List.mem_singleton.1 hs
        exact encodable_sharingRead "y" (by decide)
      countable := countable_of_length (by decide)
      sited := ⟨_, List.mem_cons_of_mem _ (List.mem_singleton_self _), rfl⟩
      makes := ⟨by decide, by decide⟩
      room := by decide }
  exact ⟨hr, _, _, _, hleft, hrun, (refused_leaves hr hrun).2.1 _ _ hleft⟩

/-- The second read is refused, but its unit was made: the class has one more method, the builder one more unit, and the
next unit has another number. -/
theorem refused_read_emits :
    ∃ f b', (lower 0 [sharingRead "y" 8]).outcome ((new "m" ⟨0, 0⟩).after oneRead) = (.error f, b') ∧
      (((new "m" ⟨0, 0⟩).after oneRead).units.map fun c => c.methods.map Method.name) =
        [[":scopeGet$0", "site$0"]] ∧
      (b'.units.map fun c => c.methods.map Method.name) = [[":scopeGet$0", "site$0", ":scopeGet$1"]] ∧
      b'.shared ≠ ((new "m" ⟨0, 0⟩).after oneRead).shared ∧
      b'.nextGet ≠ ((new "m" ⟨0, 0⟩).after oneRead).nextGet :=
  ⟨_, _, rfl, rfl, rfl, by decide, by decide⟩

end ModuleBuilder
end ScriptHost
