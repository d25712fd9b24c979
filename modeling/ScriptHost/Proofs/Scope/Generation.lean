import ScriptHost.Proofs.Scope.Cache
import ScriptHost.Proofs.Scope.Numbering

/-!
# What a batch generates

A batch of valid sites is accepted if there are numbers for its units, and the class has no method under the names that
it needs (`lowerFrom_accepted`). What it then adds is told by the builder before: one unit for each new shape that
shares, and the method of each site (`lowerFrom_result`). Both come from what one site does (`lowerSite_iff`). If only
the numbers are too few, the batch stops before the first site for whose unit there is none (`lowerFrom_cases`).
-/

namespace ScriptHost

def Site.lowered (s : Site) (l : LoweredSite) : Method := (s.method l.cls l.name l.shared).toOption.getD default

theorem Site.method_lowered {s : Site} (hs : s.validate = .ok ()) (cls name : String) (shared : Option SharedUnit) :
    s.method cls name shared = .ok (s.lowered ⟨cls, name, shared⟩) := by
  obtain ⟨m, hm⟩ := ModuleBuilder.method_valid hs cls name shared
  rw [Site.lowered, hm]
  rfl

namespace ModuleBuilder

/-- The shapes of the sites that share, in a batch with the given shapes. -/
def sharedShapes (t : Thresholds) (census : Census) (sites : List Site) : List Shape :=
  (sites.filter fun s => sharesSite t (census.count s.shape) s).map Site.shape

/-- The unit that a site of a batch with the given shapes uses, of those that a builder has. -/
def unitOf (b : ModuleBuilder) (census : Census) (s : Site) : Option SharedUnit :=
  if sharesSite b.thresholds (census.count s.shape) s then b.findShared s.shape else none

/-- A site of a batch as it is lowered into a class under a number, where a builder has its unit. -/
def loweredAs (b : ModuleBuilder) (cls : String) (census : Census) (index : Nat) (s : Site) : LoweredSite :=
  ⟨cls, "site$" ++ toString index, b.unitOf census s⟩

def siteNames (index count : Nat) : List String := (List.range' index count).map fun k => "site$" ++ toString k

/-- The class has no method under any of the names. -/
def Fresh (c : ClassBody) (names : List String) : Prop := ∀ m ∈ c.methods, m.name ∉ names

theorem fresh_append {c : ClassBody} {names names' : List String} :
    Fresh c (names ++ names') ↔ Fresh c names ∧ Fresh c names' := by
  simp only [Fresh, List.mem_append, not_or]
  exact ⟨fun h => ⟨fun m hm => (h m hm).1, fun m hm => (h m hm).2⟩, fun h m hm => ⟨h.1 m hm, h.2 m hm⟩⟩

theorem fresh_adding {c : ClassBody} {ms : List Method} {names : List String} :
    Fresh (c.adding ms) names ↔ Fresh c names ∧ ∀ m ∈ ms, m.name ∉ names := by
  simp only [Fresh, ClassBody.adding, List.mem_append, or_imp, forall_and]

variable {b b' : ModuleBuilder} {i index : Nat} {c : ClassBody} {s : Site} {census : Census}

theorem newUnits_ne_site {cls : String} {row : List Shape} {u : SharedUnit} (hu : u ∈ b.newUnits cls row) (k : Nat) :
    u.name ≠ "site$" ++ toString k := by
  intro he
  obtain ⟨n, -, hn⟩ := name_numbered hu
  have hshared := isShared_unit (m := u.method) hn
  rw [isShared_site (m := u.method) he] at hshared
  cases hshared

/-! ## One site -/

theorem sharedShapes_cons (t : Thresholds) (census : Census) (s : Site) (ss : List Site) :
    sharedShapes t census (s :: ss) = sharedShapes t census [s] ++ sharedShapes t census ss := by
  unfold sharedShapes
  rw [← List.singleton_append, List.filter_append, List.map_append]

theorem sharedShapes_singleton (t : Thresholds) (census : Census) (s : Site) :
    sharedShapes t census [s] = if sharesSite t (census.count s.shape) s then [s.shape] else [] := by
  unfold sharedShapes
  rw [List.filter_singleton]
  split <;> simp_all

/-- A unit is made if there is a number for it and the class has no method under its name. -/
theorem makeUnit_iff (hc : b.units[i]? = some c) {s : Shape} {u : SharedUnit} :
    (makeUnit i s c.name).outcome b = (.ok u, b') ↔
      (b.Room s.isCall ∧ ∀ m ∈ c.methods, m.name ≠ (b.nextUnit s c.name).name) ∧ u = b.nextUnit s c.name ∧
        b' = b.withUnit i c s := by
  constructor
  · intro h
    by_cases hroom : b.Room s.isCall
    · rcases makeUnit_cases hc hroom with ⟨f, hfail⟩ | ⟨hnew, hmade⟩
      · cases hfail.symm.trans h
      · cases hmade.symm.trans h
        exact ⟨⟨hroom, hnew⟩, rfl, rfl⟩
    · cases (makeUnit_full hroom c.name).symm.trans h
  · rintro ⟨⟨hroom, hnew⟩, rfl, rfl⟩
    exact makeUnit_fresh hc hroom hnew

theorem sharedUnit_iff (hc : b.units[i]? = some c) {s : Shape} (hd : s.symbol.isDynamic = false)
    (hop : ∃ n, (if s.isCall then s.callOperands else .ok 0) = .ok n) {u : SharedUnit} {us : List SharedUnit}
    (hus : us = b.newUnits c.name [s]) :
    (sharedUnit i s).outcome b = (.ok u, b') ↔
      (b.RoomFor us ∧ Fresh c (us.map SharedUnit.name)) ∧ b'.findShared s = some u ∧
        b' = b.extended i us (us.map SharedUnit.method) := by
  rw [outcome_sharedUnit hc hd hop]
  cases hf : b.findShared s with
  | some v =>
    have hknown : s ∈ b.shared.map SharedUnit.shape := List.mem_map.2 ⟨v, findShared_some hf⟩
    have hnone : us = [] := by
      rw [hus, newUnits, newShapes, if_pos hknown]
      rfl
    rw [hnone, List.map_nil, List.map_nil, extended_nil]
    constructor
    · intro h
      cases h
      exact ⟨⟨roomFor_nil, by simp [Fresh]⟩, hf, rfl⟩
    · rintro ⟨-, hu, rfl⟩
      obtain rfl : v = u := Option.some.inj (hf.symm.trans hu)
      rfl
  | none =>
    have hone : us = [b.nextUnit s c.name] := by
      rw [hus, newUnits, newShapes, if_neg (findShared_none.1 hf)]
      rfl
    have hfound : (b.withUnit i c s).findShared s = some (b.nextUnit s c.name) := by
      have hself : (b.nextUnit s c.name).shape = s := rfl
      unfold findShared at hf
      simp [findShared, withUnit, List.find?_append, hf, hself]
    have hfresh : Fresh c [(b.nextUnit s c.name).name] ↔ ∀ m ∈ c.methods, m.name ≠ (b.nextUnit s c.name).name := by
      simp [Fresh]
    rw [hone, List.map_singleton, List.map_singleton, ← withUnit_eq hc, roomFor_singleton, hfresh]
    dsimp only
    rw [makeUnit_iff hc]
    constructor
    · rintro ⟨hnew, rfl, rfl⟩
      exact ⟨hnew, hfound, rfl⟩
    · rintro ⟨hnew, hu, rfl⟩
      exact ⟨hnew, (Option.some.inj (hfound.symm.trans hu)).symm, rfl⟩

theorem isDynamic_of_sharesSite {t : Thresholds} {n : UInt32} (h : sharesSite t n s = true) :
    s.shape.symbol.isDynamic = false := by
  unfold sharesSite at h
  simp only [Bool.and_eq_true, Bool.not_eq_true'] at h
  exact h.1.1

theorem unitFor_iff (hc : b.units[i]? = some c) (hs : s.validate = .ok ()) {shared : Option SharedUnit}
    {us : List SharedUnit} (hus : us = b.newUnits c.name (sharedShapes b.thresholds census [s])) :
    (unitFor i census s).outcome b = (.ok shared, b') ↔
      (b.RoomFor us ∧ Fresh c (us.map SharedUnit.name)) ∧ shared = b'.unitOf census s ∧
        b' = b.extended i us (us.map SharedUnit.method) := by
  unfold unitFor
  rw [Run.outcome_bind, Run.outcome_get]
  dsimp only
  by_cases hshares : sharesSite b.thresholds (census.count s.shape) s = true
  · have hd : s.shape.symbol.isDynamic = false := isDynamic_of_sharesSite hshares
    have hunit : ∀ us ms, (b.extended i us ms).unitOf census s = (b.extended i us ms).findShared s.shape :=
      fun us ms => if_pos hshares
    rw [sharedShapes_singleton, if_pos hshares] at hus
    have hiff : ∀ (u : SharedUnit) (b₁ : ModuleBuilder), (sharedUnit i s.shape).outcome b = (.ok u, b₁) ↔ _ :=
      fun u b₁ => sharedUnit_iff hc hd (callOperands_valid hs) hus
    rw [if_pos hshares, Run.outcome_map]
    constructor
    · intro h
      rcases hrun : (sharedUnit i s.shape).outcome b with ⟨r, b₁⟩
      rw [hrun] at h
      cases r with
      | error f => cases h
      | ok u =>
        cases h
        obtain ⟨hfresh, hu, rfl⟩ := (hiff u _).1 hrun
        exact ⟨hfresh, by rw [hunit, hu], rfl⟩
    · rintro ⟨hfresh, rfl, rfl⟩
      have hsome : ((b.extended i us (us.map SharedUnit.method)).findShared s.shape).isSome = true := by
        rw [hus]
        exact isSome_findShared_extended (List.mem_singleton_self _)
      obtain ⟨u, hu⟩ := Option.isSome_iff_exists.1 hsome
      rw [(hiff u _).2 ⟨hfresh, hu, rfl⟩, hunit, hu]
      rfl
  · have hnone : us = [] := by
      rw [hus, sharedShapes_singleton, if_neg hshares]
      rfl
    have hunit : b.unitOf census s = none := if_neg hshares
    rw [if_neg hshares, hnone, List.map_nil, List.map_nil, extended_nil]
    constructor
    · intro h
      cases h
      exact ⟨⟨roomFor_nil, by simp [Fresh]⟩, hunit.symm, rfl⟩
    · rintro ⟨-, rfl, rfl⟩
      rw [hunit]
      rfl

theorem emitSite_iff (hc : b.units[i]? = some c) (hs : s.validate = .ok ()) {shared : Option SharedUnit}
    {l : LoweredSite} :
    (emitSite i index s shared).outcome b = (.ok l, b') ↔
      Fresh c ["site$" ++ toString index] ∧ l = ⟨c.name, "site$" ++ toString index, shared⟩ ∧
        b' = b.extended i [] [s.lowered l] := by
  have hm := Site.method_lowered hs c.name ("site$" ++ toString index) shared
  have hname := (method_ok hm).2.1
  unfold emitSite
  rw [Run.outcome_bind, outcome_unit_some hc]
  dsimp only
  rw [hm]
  dsimp only
  by_cases hfresh : Fresh c ["site$" ++ toString index]
  · have hadd := addMethod_new hc (method_ok hm).1
      fun m' hm' he => hfresh m' hm' (List.mem_singleton.2 (he.trans hname))
    rw [Run.outcome_bind, hadd, withMethod_eq hc]
    constructor
    · intro h
      cases h
      exact ⟨hfresh, rfl, rfl⟩
    · rintro ⟨-, rfl, rfl⟩
      rfl
  · refine ⟨fun h => absurd ?_ hfresh, fun h => absurd h.1 hfresh⟩
    obtain ⟨_, b₂, hadd, -⟩ := Run.outcome_bind_ok h
    obtain ⟨d, d', hd, hok, -⟩ := addMethod_ok hadd
    obtain rfl : c = d := Option.some.inj (hc.symm.trans hd)
    intro m' hm' he
    refine (add_ok hok).2 (List.mem_map.2 ⟨m', hm', ?_⟩)
    rw [List.mem_singleton.1 he, hname]

/-- A valid site is lowered if there is a number for its unit, if its shape is new, and the names of what it generates are
free. -/
theorem lowerSite_iff (hc : b.units[i]? = some c) (hs : s.validate = .ok ()) {l : LoweredSite}
    {us : List SharedUnit} (hus : us = b.newUnits c.name (sharedShapes b.thresholds census [s])) :
    (lowerSite i census index s).outcome b = (.ok l, b') ↔
      (b.RoomFor us ∧ Fresh c (us.map SharedUnit.name) ∧ Fresh c ["site$" ++ toString index]) ∧
        l = b'.loweredAs c.name census index s ∧
        b' = b.extended i us (us.map SharedUnit.method ++ [s.lowered l]) := by
  have hunits : ∀ m ∈ us.map SharedUnit.method, m.name ∉ ["site$" ++ toString index] := by
    intro m hm he
    obtain ⟨u, hu, rfl⟩ := List.mem_map.1 hm
    exact newUnits_ne_site (hus ▸ hu) index (List.mem_singleton.1 he)
  have hclass : (b.extended i us (us.map SharedUnit.method)).units[i]? =
      some (c.adding (us.map SharedUnit.method)) := getElem?_extended hc
  have hsame : ∀ m, (b.extended i us (us.map SharedUnit.method)).extended i [] [m] =
      b.extended i us (us.map SharedUnit.method ++ [m]) := by
    intro m
    rw [extended_extended, List.append_nil]
  have hunit : ∀ ms, (b.extended i us ms).unitOf census s =
      (b.extended i us (us.map SharedUnit.method)).unitOf census s := fun ms => rfl
  rw [lowerSite_eq]
  constructor
  · intro h
    obtain ⟨shared, b₁, hfor, hemit⟩ := Run.outcome_bind_ok h
    obtain ⟨⟨hroom, hfresh⟩, rfl, rfl⟩ := (unitFor_iff hc hs hus).1 hfor
    obtain ⟨hsite, rfl, rfl⟩ := (emitSite_iff hclass hs).1 hemit
    rw [hsame]
    exact ⟨⟨hroom, hfresh, (fresh_adding.1 hsite).1⟩, by rw [loweredAs, hunit]; rfl, rfl⟩
  · rintro ⟨⟨hroom, hfresh, hsite⟩, hl, rfl⟩
    rw [loweredAs, hunit] at hl
    rw [Run.outcome_bind, (unitFor_iff hc hs hus).2 ⟨⟨hroom, hfresh⟩, rfl, rfl⟩]
    exact (emitSite_iff hclass hs).2 ⟨fresh_adding.2 ⟨hsite, hunits⟩, hl, (hsame _).symm⟩

/-! ## Batches -/

/-- The names of what a batch generates in a class. -/
def newNames (b : ModuleBuilder) (cls : String) (census : Census) (index : Nat) (sites : List Site) : List String :=
  (b.newUnits cls (sharedShapes b.thresholds census sites)).map SharedUnit.name ++ siteNames index sites.length

theorem mem_siteNames {index count : Nat} {x : String} :
    x ∈ siteNames index count ↔ ∃ k, index ≤ k ∧ k < index + count ∧ "site$" ++ toString k = x := by
  simp only [siteNames, List.mem_map, List.mem_range'_1, and_assoc]

theorem siteNames_succ (index count : Nat) :
    siteNames index (count + 1) = ("site$" ++ toString index) :: siteNames (index + 1) count := by
  rw [siteNames, List.range'_succ, List.map_cons, siteNames]

theorem loweredAs_extended {us us' : List SharedUnit} {ms ms' : List Method}
    (hus : us = b.newUnits c.name (sharedShapes b.thresholds census [s])) :
    ((b.extended i us ms).extended i us' ms').loweredAs c.name census index s =
      (b.extended i us ms).loweredAs c.name census index s := by
  unfold loweredAs unitOf
  by_cases hshares : sharesSite b.thresholds (census.count s.shape) s = true
  · have hrow : s.shape ∈ sharedShapes b.thresholds census [s] := by
      rw [sharedShapes_singleton, if_pos hshares]
      exact List.mem_singleton_self _
    have hsome : ((b.extended i us ms).findShared s.shape).isSome = true := by
      rw [hus]
      exact isSome_findShared_extended hrow
    obtain ⟨u, hu⟩ := Option.isSome_iff_exists.1 hsome
    have hu' : ((b.extended i us ms).extended i us' ms').findShared s.shape = some u := findShared_extended hu
    rw [hu, hu']
    rfl
  · have hnone : ∀ o : Option SharedUnit,
        (if sharesSite b.thresholds (census.count s.shape) s then o else none) = none := fun _ => if_neg hshares
    show LoweredSite.mk _ _ (if sharesSite b.thresholds _ _ then _ else none) =
      LoweredSite.mk _ _ (if sharesSite b.thresholds _ _ then _ else none)
    rw [hnone, hnone]

/-- What an accepted batch leaves: there were numbers and the names were free, each site has its method and those that share the unit of
their shape, and nothing is added but these methods and units. -/
theorem lowerFrom_result {sites : List Site} {ls : List LoweredSite}
    (h : (lowerFrom i census index sites).outcome b = (.ok ls, b')) (hc : b.units[i]? = some c)
    (hv : ∀ s ∈ sites, s.validate = .ok ()) :
    (b.RoomFor (b.newUnits c.name (sharedShapes b.thresholds census sites)) ∧
      Fresh c (b.newNames c.name census index sites)) ∧
    ls = (sites.mapIdx fun k s => b'.loweredAs c.name census (index + k) s) ∧
    ∃ ms, b' = b.extended i (b.newUnits c.name (sharedShapes b.thresholds census sites)) ms ∧
      ms.Perm ((b.newUnits c.name (sharedShapes b.thresholds census sites)).map SharedUnit.method ++
        sites.mapIdx fun k s => s.lowered (b'.loweredAs c.name census (index + k) s)) := by
  induction sites generalizing index ls b c with
  | nil =>
    cases h
    exact ⟨⟨roomFor_nil, by simp [Fresh, newNames, newUnits, sharedShapes, newShapes, numbered, siteNames]⟩, rfl, [],
      extended_nil.symm, .nil⟩
  | cons s ss ih =>
    obtain ⟨l, b₁, hsite, hrest⟩ := Run.outcome_bind_ok h
    obtain ⟨ls', b₂, htail, hend⟩ := Run.outcome_bind_ok hrest
    cases hend
    obtain ⟨⟨hroom, hunits, hname⟩, hl, hb₁⟩ := (lowerSite_iff hc (hv s (List.mem_cons_self ..)) rfl).1 hsite
    generalize hus : b.newUnits c.name (sharedShapes b.thresholds census [s]) = us at hroom hunits hb₁
    have hc₁ : b₁.units[i]? = some (c.adding (us.map SharedUnit.method ++ [s.lowered l])) := by
      rw [hb₁]
      exact getElem?_extended hc
    obtain ⟨⟨hroom', hfresh⟩, hls, ms, hb', hms⟩ := ih htail hc₁ fun s' hs' => hv s' (List.mem_cons_of_mem _ hs')
    have hnew : b.newUnits c.name (sharedShapes b.thresholds census (s :: ss)) =
        us ++ b₁.newUnits c.name (sharedShapes b₁.thresholds census ss) := by
      rw [sharedShapes_cons, newUnits_append (hus ▸ hroom), hus, ← hb₁, hb₁]
      rfl
    have hhead : b'.loweredAs c.name census (index + 0) s = l := by
      rw [Nat.add_zero, hb', hl, hb₁]
      exact loweredAs_extended hus.symm
    have hplace : ∀ k s', b'.loweredAs c.name census (index + (k + 1)) s' =
        b'.loweredAs c.name census (index + 1 + k) s' := by
      intro k s'
      rw [Nat.add_assoc, Nat.add_comm 1 k]
    simp only [ClassBody.name_adding] at hroom' hfresh hls hb' hms
    refine ⟨⟨?_, ?_⟩, ?_, us.map SharedUnit.method ++ [s.lowered l] ++ ms, ?_, ?_⟩
    · rw [hnew]
      rw [hb₁] at hroom' ⊢
      exact roomFor_append.2 ⟨hroom, hroom'⟩
    · obtain ⟨hunits', hnames'⟩ := fresh_append.1 (fresh_adding.1 hfresh).1
      unfold newNames
      rw [hnew, List.map_append, List.length_cons, siteNames_succ, fresh_append, fresh_append]
      exact ⟨⟨hunits, hunits'⟩, fresh_append.2 ⟨hname, hnames'⟩⟩
    · rw [List.mapIdx_cons, hls, hhead]
      simp only [hplace]
    · rw [hb', hb₁, extended_extended, ← hb₁, ← hnew]
    · rw [hnew, List.map_append, List.mapIdx_cons, hhead]
      simp only [hplace, List.append_assoc]
      refine List.Perm.append_left _ ?_
      exact (hms.cons (s.lowered l)).trans List.perm_middle.symm

theorem lowerSite_accepted {ss : List Site} {us : List SharedUnit} (hc : b.units[i]? = some c)
    (hs : s.validate = .ok ()) (hus : us = b.newUnits c.name (sharedShapes b.thresholds census [s]))
    (hroom : b.RoomFor us) (hfresh : Fresh c (b.newNames c.name census index (s :: ss))) :
    ∃ l ms, (lowerSite i census index s).outcome b = (.ok l, b.extended i us ms) ∧
      Fresh (c.adding ms) ((b.extended i us ms).newNames c.name census (index + 1) ss) := by
  have hnew : ∀ ms, b.newUnits c.name (sharedShapes b.thresholds census (s :: ss)) =
      us ++ (b.extended i us ms).newUnits c.name (sharedShapes b.thresholds census ss) := by
    intro ms
    rw [sharedShapes_cons, newUnits_append (hus ▸ hroom), hus]
  have hdistinct : ((b.newUnits c.name (sharedShapes b.thresholds census (s :: ss))).map SharedUnit.name).Nodup :=
    nodup_names_numbered
  unfold newNames at hfresh
  obtain ⟨hunits, hnames⟩ := fresh_append.1 hfresh
  rw [List.length_cons, siteNames_succ, ← List.singleton_append, fresh_append] at hnames
  have hfirst : Fresh c (us.map SharedUnit.name) := by
    rw [hnew [], List.map_append, fresh_append] at hunits
    exact hunits.1
  generalize hl : (b.extended i us []).loweredAs c.name census index s = l
  have hsite := (lowerSite_iff (l := l) hc hs hus).2 ⟨⟨hroom, hfirst, hnames.1⟩, by rw [← hl]; rfl, rfl⟩
  refine ⟨l, _, hsite, fresh_adding.2 ⟨fresh_append.2 ⟨?_, hnames.2⟩, fun m hm hmem => ?_⟩⟩
  · rw [hnew (us.map SharedUnit.method ++ [s.lowered l]), List.map_append, fresh_append] at hunits
    exact hunits.2
  · rw [hnew (us.map SharedUnit.method ++ [s.lowered l]), List.map_append] at hdistinct
    rcases List.mem_append.1 hm with hm | hm
    · obtain ⟨u, hu, rfl⟩ := List.mem_map.1 hm
      rcases List.mem_append.1 hmem with hmem | hmem
      · exact List.disjoint_of_nodup_append hdistinct (List.mem_map_of_mem hu) hmem
      · obtain ⟨k, -, -, he⟩ := mem_siteNames.1 hmem
        exact newUnits_ne_site (hus ▸ hu) k he.symm
    · have hname : m.name = "site$" ++ toString index := by
        rw [List.mem_singleton.1 hm, ← hl]
        exact (method_ok (Site.method_lowered hs ..)).2.1
      rw [hname] at hmem
      rcases List.mem_append.1 hmem with hmem | hmem
      · obtain ⟨u, hu, he⟩ := List.mem_map.1 hmem
        exact newUnits_ne_site hu index he
      · obtain ⟨k, hk, -, he⟩ := mem_siteNames.1 hmem
        have := Text.append_toString_inj he
        omega

theorem lowerFrom_cons {ss : List Site} {l : LoweredSite} (h : (lowerSite i census index s).outcome b = (.ok l, b')) :
    (lowerFrom i census index (s :: ss)).outcome b =
      (lowerFrom i census (index + 1) ss >>= fun ls => pure (l :: ls)).outcome b' := by
  rw [lowerFrom, Run.outcome_bind, h]

theorem lowerFrom_accepted {sites : List Site} (hc : b.units[i]? = some c) (hv : ∀ s ∈ sites, s.validate = .ok ())
    (hroom : b.RoomFor (b.newUnits c.name (sharedShapes b.thresholds census sites)))
    (hfresh : Fresh c (b.newNames c.name census index sites)) :
    ∃ ls b', (lowerFrom i census index sites).outcome b = (.ok ls, b') := by
  induction sites generalizing index b c with
  | nil => exact ⟨[], b, rfl⟩
  | cons s ss ih =>
    rw [sharedShapes_cons] at hroom
    obtain ⟨l, ms, hsite, hrest⟩ := lowerSite_accepted hc (hv s (List.mem_cons_self ..)) rfl
      ((@roomFor_newUnits_append b i [] _ _ _).1 hroom).1 hfresh
    have hroom' := (@roomFor_newUnits_append b i ms _ _ _).1 hroom |>.2
    obtain ⟨ls, b', htail⟩ := ih (getElem?_extended hc) (fun s' hs' => hv s' (List.mem_cons_of_mem _ hs')) hroom' hrest
    refine ⟨l :: ls, b', ?_⟩
    rw [lowerFrom_cons hsite, Run.outcome_bind, htail]
    rfl

theorem lowerSite_full (hc : b.units[i]? = some c) (hs : s.validate = .ok ())
    (hshares : sharesSite b.thresholds (census.count s.shape) s = true) (hmissing : b.findShared s.shape = none)
    (hfull : ¬b.Room s.shape.isCall) (index : Nat) : (lowerSite i census index s).outcome b = (.error .overflow, b) := by
  have hd : s.shape.symbol.isDynamic = false := isDynamic_of_sharesSite hshares
  rw [lowerSite_eq, Run.outcome_bind, unitFor, Run.outcome_bind, Run.outcome_get]
  dsimp only
  rw [if_pos hshares, Run.outcome_map, outcome_sharedUnit hc hd (callOperands_valid hs), hmissing]
  dsimp only
  rw [makeUnit_full hfull]
  rfl

theorem roomFor_site (b : ModuleBuilder) (cls : String) (census : Census) (s : Site) :
    b.RoomFor (b.newUnits cls (sharedShapes b.thresholds census [s])) ∨
      sharesSite b.thresholds (census.count s.shape) s = true ∧ b.findShared s.shape = none ∧ ¬b.Room s.shape.isCall := by
  rw [sharedShapes_singleton]
  by_cases hshares : sharesSite b.thresholds (census.count s.shape) s = true
  · rw [if_pos hshares, newUnits, newShapes]
    by_cases hknown : s.shape ∈ b.shared.map SharedUnit.shape
    · rw [if_pos hknown]
      exact .inl roomFor_nil
    · rw [if_neg hknown]
      by_cases hroom : b.Room s.shape.isCall
      · exact .inl (roomFor_singleton.2 hroom)
      · exact .inr ⟨hshares, findShared_none.2 hknown, hroom⟩
  · rw [if_neg hshares]
    exact .inl roomFor_nil

/-- A batch of valid sites under names that are free is lowered, or it stops before a site for whose unit there is no
number. -/
theorem lowerFrom_cases {sites : List Site} (hc : b.units[i]? = some c) (hv : ∀ s ∈ sites, s.validate = .ok ())
    (hfresh : Fresh c (b.newNames c.name census index sites)) :
    (∃ ls b', (lowerFrom i census index sites).outcome b = (.ok ls, b')) ∨
      ∃ before s rest ls b₁ c₁, sites = before ++ s :: rest ∧
        (lowerFrom i census index before).outcome b = (.ok ls, b₁) ∧ b₁.units[i]? = some c₁ ∧
        sharesSite b₁.thresholds (census.count s.shape) s = true ∧ b₁.findShared s.shape = none ∧
        ¬b₁.Room s.shape.isCall ∧ (lowerFrom i census index sites).outcome b = (.error .overflow, b₁) := by
  induction sites generalizing index b c with
  | nil => exact .inl ⟨[], b, rfl⟩
  | cons s ss ih =>
    have hs := hv s (List.mem_cons_self ..)
    rcases roomFor_site b c.name census s with hroom | ⟨hshares, hmissing, hfull⟩
    · obtain ⟨l, ms, hsite, hrest⟩ := lowerSite_accepted hc hs rfl hroom hfresh
      rcases ih (getElem?_extended hc) (fun s' hs' => hv s' (List.mem_cons_of_mem _ hs')) hrest with
        ⟨ls, b', htail⟩ | ⟨before, s', rest, ls, b₁, c₁, rfl, hbefore, hc₁, hshares, hmissing, hfull, hend⟩
      · refine .inl ⟨l :: ls, b', ?_⟩
        rw [lowerFrom_cons hsite, Run.outcome_bind, htail]
        rfl
      · refine .inr ⟨s :: before, s', rest, l :: ls, b₁, c₁, rfl, ?_, hc₁, hshares, hmissing, hfull, ?_⟩
        · rw [lowerFrom_cons hsite, Run.outcome_bind, hbefore]
          rfl
        · rw [lowerFrom_cons hsite, Run.outcome_bind, hend]
    · refine .inr ⟨[], s, ss, [], b, c, rfl, rfl, hc, hshares, hmissing, hfull, ?_⟩
      rw [lowerFrom, Run.outcome_bind, lowerSite_full hc hs hshares hmissing hfull]

end ModuleBuilder
end ScriptHost
