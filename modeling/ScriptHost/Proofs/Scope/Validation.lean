import ScriptHost.Proofs.Scope.Assembly
import ScriptHost.Proofs.Scope.Policy

/-!
# What validation assures

Validation accepts the sites whose program point, depth and parameters can be encoded (`Site.Encodable`), and refuses
any other with the fault of the first check that it fails (`Site.Refused`). A batch is refused for its first site that
is refused, and nothing is generated. If all its sites are accepted and the class has no methods of sites yet, then what
lowering it adds is what assembling its methods step by step gives, and no later step can fail but one: the counts of
shapes and the numbers of units are words of 32 bits, and both are counted up without a check. So the batch is lowered
exactly if neither runs out (`validation_complete`).
-/

namespace ScriptHost

/-! ## Sites -/

/-- Code can be generated for the site: its program point fits above the flags, its depth into a signed word, and its
arguments, if it is a call, behind the leading parameters of a shared unit. -/
structure Site.Encodable (s : Site) : Prop where
  point : 0 ≤ s.point ∧ s.point ≤ SiteFlags.maxPoint
  depth : ∀ links, s.depth = .known links → links.toNat ≤ 2147483647
  params : s.shape.isCall = true → fixedSlots + slotCount s.shape.params ≤ maxParamSlots

/-- The first check that the site fails, by its fault. -/
inductive Site.Refused (s : Site) : InternalFault → Prop
  | point (hp : ¬(0 ≤ s.point ∧ s.point ≤ SiteFlags.maxPoint)) :
    Refused s (.sitePointRange s.shape.symbol.name s.point)
  | depth (hp : 0 ≤ s.point ∧ s.point ≤ SiteFlags.maxPoint) {links : UInt32} (hd : s.depth = .known links)
    (hlinks : 2147483647 < links.toNat) : Refused s (.depthRange links.toNat)
  | params (hp : 0 ≤ s.point ∧ s.point ≤ SiteFlags.maxPoint)
    (hd : ∀ links, s.depth = .known links → links.toNat ≤ 2147483647) (hcall : s.shape.isCall = true)
    (hslots : maxParamSlots < fixedSlots + slotCount s.shape.params) :
    Refused s (.paramSlots s.shape.symbol.name (fixedSlots + slotCount s.shape.params))

theorem SiteFlags.validPoint_iff {pp : Int32} : validPoint pp = true ↔ 0 ≤ pp ∧ pp ≤ maxPoint := by
  simp [validPoint]

theorem ScopeDepth.encode_cases (depth : ScopeDepth) :
    (∃ d, depth.encode = .ok d) ∧ (∀ links, depth = .known links → links.toNat ≤ 2147483647) ∨
      ∃ links, depth = .known links ∧ 2147483647 < links.toNat ∧ depth.encode = .error (.depthRange links.toNat) := by
  cases depth with
  | dynamic => exact .inl ⟨⟨-1, rfl⟩, fun links h => nomatch h⟩
  | known links =>
    by_cases hlinks : links.toNat < 0x80000000
    · refine .inl ⟨⟨_, if_pos hlinks⟩, fun links' h => ?_⟩
      cases h
      omega
    · exact .inr ⟨links, rfl, by omega, if_neg hlinks⟩

namespace Site

variable {s : Site}

theorem Encodable.validate (hs : s.Encodable) : s.validate = .ok () := by
  rw [Site.validate, if_pos (SiteFlags.validPoint_iff.2 hs.point)]
  rcases s.depth.encode_cases with ⟨⟨d, hd⟩, -⟩ | ⟨links, hdepth, hlinks, -⟩
  · rw [hd]
    split
    · next hcall =>
      rw [Shape.callOperands, if_neg (Nat.not_lt.2 (hs.params hcall))]
      rfl
    · rfl
  · exact absurd (hs.depth links hdepth) (Nat.not_le.2 hlinks)

theorem Refused.validate {e : InternalFault} (hs : s.Refused e) : s.validate = .error e := by
  rw [Site.validate]
  cases hs with
  | point hp => exact if_neg (mt SiteFlags.validPoint_iff.1 hp)
  | depth hp hd hlinks =>
    rw [if_pos (SiteFlags.validPoint_iff.2 hp), hd, ScopeDepth.encode, if_neg (by omega)]
    rfl
  | params hp hd hcall hslots =>
    rw [if_pos (SiteFlags.validPoint_iff.2 hp), if_pos hcall, Shape.callOperands, if_pos hslots]
    rcases s.depth.encode_cases with ⟨⟨d, hd⟩, -⟩ | ⟨links, hdepth, hlinks, -⟩
    · rw [hd]
      rfl
    · exact absurd (hd links hdepth) (Nat.not_le.2 hlinks)

theorem encodable_or_refused (s : Site) : s.Encodable ∨ ∃ e, s.Refused e := by
  by_cases hp : 0 ≤ s.point ∧ s.point ≤ SiteFlags.maxPoint
  · rcases s.depth.encode_cases with ⟨-, hd⟩ | ⟨links, hdepth, hlinks, -⟩
    · by_cases hparams : s.shape.isCall = true → fixedSlots + slotCount s.shape.params ≤ maxParamSlots
      · exact .inl ⟨hp, hd, hparams⟩
      · obtain ⟨hcall, hslots⟩ := Classical.not_imp.1 hparams
        exact .inr ⟨_, .params hp hd hcall (Nat.not_le.1 hslots)⟩
    · exact .inr ⟨_, .depth hp hdepth hlinks⟩
  · exact .inr ⟨_, .point hp⟩

theorem validate_iff : s.validate = .ok () ↔ s.Encodable := by
  refine ⟨fun h => ?_, Encodable.validate⟩
  rcases s.encodable_or_refused with hs | ⟨e, hs⟩
  · exact hs
  · cases h.symm.trans hs.validate

theorem validate_error_iff {e : InternalFault} : s.validate = .error e ↔ s.Refused e := by
  refine ⟨fun h => ?_, Refused.validate⟩
  rcases s.encodable_or_refused with hs | ⟨e', hs⟩
  · cases h.symm.trans hs.validate
  · cases h.symm.trans hs.validate
    exact hs

theorem Encodable.fits (hs : s.Encodable) : s.shape.Fits :=
  Shape.fits_of_operands (ModuleBuilder.callOperands_valid hs.validate)

theorem Encodable.assemble (hs : s.Encodable) {cls name : String} {shared : Option SharedUnit} {m : Method}
    (hm : s.method cls name shared = .ok m) : s.assemble cls name shared = .ok m := by
  rw [assemble_eq hs.fits, hm, asInternal_ok]

end Site

namespace ModuleBuilder

variable {b b' : ModuleBuilder} {i : Nat} {c : ClassBody} {sites : List Site} {ls : List LoweredSite}

/-! ## Batches -/

/-- There are numbers for the units that are made for a batch. -/
def RoomForBatch (b : ModuleBuilder) (sites : List Site) : Prop :=
  ∀ isCall, b.counter isCall + {x ∈ b.missingShapes b.thresholds sites | x.isCall = isCall}.ncard < UInt32.size

theorem roomForBatch_iff {census : Census} (ht : Tallies census sites) (b : ModuleBuilder) (cls : String) :
    b.RoomForBatch sites ↔ b.RoomFor (b.newUnits cls (sharedShapes b.thresholds census sites)) := by
  unfold RoomForBatch RoomFor
  simp only [countP_newUnits ht b cls]

theorem roomForBatch_of_length (h : ∀ isCall, b.counter isCall + sites.length < UInt32.size) : b.RoomForBatch sites := by
  intro isCall
  have hsub : {x ∈ b.missingShapes b.thresholds sites | x.isCall = isCall} ⊆
      ((sites.map Site.shape).toFinset : Set Shape) := by
    rintro x ⟨⟨⟨s, hs, -, rfl⟩, -⟩, -⟩
    simpa using ⟨s, hs, rfl⟩
  have hcard := Set.ncard_le_ncard hsub (Finset.finite_toSet _)
  rw [Set.ncard_coe_finset] at hcard
  have hlength := List.toFinset_card_le (sites.map Site.shape)
  rw [List.length_map] at hlength
  have hlt := h isCall
  omega

theorem Canonical.fresh_newNames (hb : Canonical b) (hc : b.units[i]? = some c)
    (hnone : ∀ m ∈ c.methods, ∀ k : Nat, m.name ≠ "site$" ++ toString k) {census : Census} :
    Fresh c (b.newNames c.name census 0 sites) := by
  intro m hm hx
  by_cases hshared : m.isShared = true
  · obtain ⟨j, hj⟩ := List.mem_iff_getElem?.1 hm
    obtain ⟨u, hu, rfl⟩ := hb.owner ⟨c, hc, hj⟩ hshared
    exact hb.toNumbered.notMem_newNames hu hx
  · rcases List.mem_append.1 hx with hx | hx
    · obtain ⟨u, hu, he⟩ := List.mem_map.1 hx
      obtain ⟨n, -, hn⟩ := name_numbered hu
      exact hshared (isShared_unit (he.symm.trans hn))
    · obtain ⟨k, -, -, he⟩ := mem_siteNames.1 hx
      exact hnone m hm k he.symm

theorem lower_refused {before rest : List Site} {s : Site} {e : InternalFault} (hbefore : ∀ s' ∈ before, s'.Encodable)
    (hcount : Countable before) (hs : s.Refused e) (i : Nat) (b : ModuleBuilder) :
    (lower i (before ++ s :: rest)).outcome b = (.error (.error (.internal e)), b) := by
  rw [lower, survey_invalid (fun s' hs' => (hbefore s' hs').validate) hcount hs.validate]
  rfl

theorem lower_uncountable {before : List Site} (hbefore : ∀ s ∈ before, s.Encodable) (hover : ¬Countable before)
    (rest : List Site) (i : Nat) (b : ModuleBuilder) :
    (lower i (before ++ rest)).outcome b = (.error .overflow, b) := by
  rw [lower, survey_overflow (fun s hs => (hbefore s hs).validate) hover]
  rfl

theorem lower_surveyed (i : Nat) (sites : List Site) (b : ModuleBuilder) :
    (∃ before s rest e, sites = before ++ s :: rest ∧ (∀ s' ∈ before, s'.Encodable) ∧ Countable before ∧
      s.Refused e ∧ (lower i sites).outcome b = (.error (.error (.internal e)), b)) ∨
    (¬Countable sites ∧ (lower i sites).outcome b = (.error .overflow, b)) ∨
    (∀ s ∈ sites, s.Encodable) ∧ ∃ census, Tallies census sites ∧ lower i sites = lowerFrom i census 0 sites := by
  rcases survey_cases sites with
    ⟨census, hok, hv, htallies⟩ | ⟨before, s, rest, e, rfl, hbefore, hcount, hs, -⟩ | ⟨hover, hcount⟩
  · exact .inr (.inr ⟨fun s hs => Site.validate_iff.1 (hv s hs), census, htallies, lower_of_survey hok⟩)
  · have hencodable : ∀ s' ∈ before, s'.Encodable := fun s' hs' => Site.validate_iff.1 (hbefore s' hs')
    have hrefused := Site.validate_error_iff.1 hs
    exact .inl ⟨before, s, rest, e, rfl, hencodable, hcount, hrefused, lower_refused hencodable hcount hrefused i b⟩
  · refine .inr (.inl ⟨hcount, ?_⟩)
    rw [lower, hover]
    rfl

/-- Sites that can be encoded and counted are lowered into a class without methods of sites, if there are numbers for
their units. -/
theorem lowerFrom_iff (hb : Canonical b) (hc : b.units[i]? = some c)
    (hnone : ∀ m ∈ c.methods, ∀ k : Nat, m.name ≠ "site$" ++ toString k) (hs : ∀ s ∈ sites, s.Encodable)
    {census : Census} (ht : Tallies census sites) :
    ((∃ ls b', (lowerFrom i census 0 sites).outcome b = (.ok ls, b')) ↔ b.RoomForBatch sites) ∧
      ∀ f b', (lowerFrom i census 0 sites).outcome b = (.error f, b') → f = .overflow := by
  have hv : ∀ s ∈ sites, s.validate = .ok () := fun s hmem => (hs s hmem).validate
  have hfresh : Fresh c (b.newNames c.name census 0 sites) := hb.fresh_newNames hc hnone
  rw [roomForBatch_iff ht b c.name]
  refine ⟨⟨fun ⟨ls, b', h⟩ => (lowerFrom_result h hc hv).1.1, fun h => lowerFrom_accepted hc hv h hfresh⟩, ?_⟩
  intro f b' h
  rcases lowerFrom_cases hc hv hfresh with ⟨ls, b₁, hok⟩ | ⟨-, -, -, -, b₁, -, -, -, -, -, -, -, hstop⟩
  · cases hok.symm.trans h
  · cases hstop.symm.trans h
    rfl

/-- What assembling the methods of a lowered site gives is in the builder. -/
structure Assembled (b : ModuleBuilder) (s : Site) (l : LoweredSite) : Prop where
  method : ∃ c ∈ b.units, c.name = l.cls ∧ ∃ m ∈ c.methods, m.name = l.name ∧
    s.assemble l.cls l.name l.shared = .ok m
  unit : ∀ u, l.shared = some u → ∃ c ∈ b.units, c.name = u.cls ∧ ∃ m ∈ c.methods, m.name = u.name ∧
    u.assemble = .ok m

theorem assembled_of_lower (hb : Consistent b) (h : (lower i sites).outcome b = (.ok ls, b')) {k : Nat} {s : Site}
    {l : LoweredSite} (hk : sites[k]? = some s) (hl : ls[k]? = some l) : Assembled b' s l := by
  have hb' : Consistent b' := by
    have hbuilds := (builds_lower i sites b).consistent hb
    rwa [h] at hbuilds
  obtain ⟨hv, l', hl', hat⟩ := lower_ok h hk
  obtain rfl : l' = l := Option.some.inj (hl'.symm.trans hl)
  have hs := Site.validate_iff.1 hv
  refine ⟨?_, fun u hu => ?_⟩
  · obtain ⟨c, hc, hcls, m, hm, hname, hmethod⟩ := hat.emitted.method
    exact ⟨c, hc, hcls, m, hm, hname, hs.assemble hmethod⟩
  · obtain ⟨hmem, hshape⟩ := hat.emitted.unit u hu
    obtain ⟨c, hc, hcls, hm⟩ := hb'.owned u hmem
    exact ⟨c, hc, hcls, u.method, hm, rfl, SharedUnit.assemble_ok (hshape ▸ hs.fits)⟩

/-- After any row of requests that generate code, for a class that has no methods of sites yet: a batch is lowered
exactly if all its sites can be encoded, and the numbers of its shapes and units fit their words. Then the methods that
its sites and their units need are assembled without a failure. A batch is refused with the fault of the first site that
cannot be encoded, and nothing is generated, if the sites before it can be counted. Nothing else can fail but the
counting. -/
theorem validation_complete {name : String} {t : Thresholds} {requests : List Request}
    (hr : ∀ r ∈ requests, r.Generates) (hc : ((new name t).after requests).units[i]? = some c)
    (hnone : ∀ m ∈ c.methods, ∀ k : Nat, m.name ≠ "site$" ++ toString k) (sites : List Site) :
    ((∃ ls b', (lower i sites).outcome ((new name t).after requests) = (.ok ls, b')) ↔
      (∀ s ∈ sites, s.Encodable) ∧ Countable sites ∧ ((new name t).after requests).RoomForBatch sites) ∧
    (∀ before s rest e, sites = before ++ s :: rest → (∀ s' ∈ before, s'.Encodable) → Countable before →
      s.Refused e → (lower i sites).outcome ((new name t).after requests) =
        (.error (.error (.internal e)), (new name t).after requests)) ∧
    (∀ f b', (lower i sites).outcome ((new name t).after requests) = (.error f, b') →
      (∃ before s rest e, sites = before ++ s :: rest ∧ (∀ s' ∈ before, s'.Encodable) ∧ Countable before ∧
        s.Refused e ∧ f = .error (.internal e) ∧ b' = (new name t).after requests) ∨
      f = .overflow ∧ (¬Countable sites ∧ b' = (new name t).after requests ∨
        ¬((new name t).after requests).RoomForBatch sites)) ∧
    ∀ ls b', (lower i sites).outcome ((new name t).after requests) = (.ok ls, b') →
      ∀ (k : Nat) (s : Site) (l : LoweredSite), sites[k]? = some s → ls[k]? = some l → Assembled b' s l := by
  have hb := canonical_after (canonical_new name t) hr
  have hconsistent := consistent_after (consistent_new name t) requests
  generalize (new name t).after requests = b at hb hconsistent hc ⊢
  refine ⟨?_, ?_, ?_, fun ls b' h k s l => assembled_of_lower hconsistent h⟩
  · constructor
    · rintro ⟨ls, b', h⟩
      obtain ⟨census, hsurvey, hfrom⟩ := surveyed_of_lower h
      obtain ⟨hv, htallies⟩ := survey_ok hsurvey
      have hs : ∀ s ∈ sites, s.Encodable := fun s hmem => Site.validate_iff.1 (hv s hmem)
      exact ⟨hs, htallies.countable, (lowerFrom_iff hb hc hnone hs htallies).1.1 ⟨ls, b', hfrom⟩⟩
    · rintro ⟨hs, hcount, hroom⟩
      rcases survey_of_valid fun s hmem => (hs s hmem).validate with ⟨census, hsurvey, htallies⟩ | ⟨-, hover⟩
      · rw [lower_of_survey hsurvey]
        exact (lowerFrom_iff hb hc hnone hs htallies).1.2 hroom
      · exact absurd hcount hover
  · rintro before s rest e rfl hbefore hcount hs
    exact lower_refused hbefore hcount hs i b
  · intro f b' h
    rcases lower_surveyed i sites b with
      ⟨before, s, rest, e, he, hbefore, hcount, hs, hrun⟩ | ⟨hcount, hrun⟩ | ⟨hs, census, htallies, hfrom⟩
    · cases hrun.symm.trans h
      exact .inl ⟨before, s, rest, e, he, hbefore, hcount, hs, rfl, rfl⟩
    · cases hrun.symm.trans h
      exact .inr ⟨rfl, .inl ⟨hcount, rfl⟩⟩
    · rw [hfrom] at h
      obtain ⟨hroom, hfault⟩ := lowerFrom_iff hb hc hnone hs htallies
      refine .inr ⟨hfault f b' h, .inr fun hbatch => ?_⟩
      obtain ⟨ls, b₁, hok⟩ := hroom.2 hbatch
      cases hok.symm.trans h

/-- A call at the greatest program point and the greatest depth, with a row of integers as arguments. -/
def farCall (arguments : Nat) : Site :=
  ⟨⟨⟨"f", .known 0⟩, .call .int (List.replicate arguments .int), .scope, true⟩, .known 2147483647, 2097151⟩

theorem validation_complete_farCall :
    (∀ r ∈ [Request.openClass "Script"], r.Generates) ∧
    ((new "m" ⟨0, 0⟩).after [.openClass "Script"]).units[0]? = some ⟨"Script", []⟩ ∧
    (∃ ls b', (lower 0 [farCall 252]).outcome ((new "m" ⟨0, 0⟩).after [.openClass "Script"]) = (.ok ls, b')) ∧
    ¬∃ ls b', (lower 0 [farCall 252, farCall 253]).outcome ((new "m" ⟨0, 0⟩).after [.openClass "Script"]) =
      (.ok ls, b') := by
  have hr : ∀ r ∈ [Request.openClass "Script"], r.Generates := by simp [Request.Generates]
  have hc : ((new "m" ⟨0, 0⟩).after [.openClass "Script"]).units[0]? = some ⟨"Script", []⟩ := rfl
  have hcomplete := validation_complete hr hc (by simp)
  have hroom : ∀ isCall, ((new "m" ⟨0, 0⟩).after [.openClass "Script"]).counter isCall + [farCall 252].length <
      UInt32.size := by decide
  refine ⟨hr, hc, (hcomplete _).1.2 ⟨fun s hs => ?_, countable_of_length (by decide), roomForBatch_of_length hroom⟩,
    fun h => ?_⟩
  · obtain rfl := List.mem_singleton.1 hs
    refine ⟨by decide, fun links hd => ?_, fun _ => ?_⟩
    · cases hd
      decide
    · decide +kernel
  · have hs := ((hcomplete _).1.1 h).1 (farCall 253) (by simp)
    exact absurd (hs.params rfl) (by decide +kernel)

/-- A read of a variable that shares. -/
def sharingRead (name : String) (pp : Int32) : Site :=
  ⟨⟨⟨name, .known 0⟩, .read .int, .scope, false⟩, .known 0, pp⟩

theorem encodable_sharingRead (name : String) {pp : Int32} (hp : 0 ≤ pp ∧ pp ≤ SiteFlags.maxPoint) :
    (sharingRead name pp).Encodable where
  point := hp
  depth links hd := by
    cases hd
    decide
  params hcall := nomatch hcall

/-- One more read than a word of 32 bits can count: the batch overflows, though all its sites can be encoded. It also
does before a site that is to be refused. -/
theorem validation_overflows :
    (∀ s ∈ List.replicate UInt32.size (sharingRead "x" 7), s.Encodable) ∧
    (sharingRead "y" (-1)).Refused (.sitePointRange "y" (-1)) ∧
    (lower 0 (List.replicate UInt32.size (sharingRead "x" 7))).outcome
      ((new "m" ⟨0, 0⟩).after [.openClass "Script"]) =
        (.error .overflow, (new "m" ⟨0, 0⟩).after [.openClass "Script"]) ∧
    (lower 0 (List.replicate UInt32.size (sharingRead "x" 7) ++ [sharingRead "y" (-1)])).outcome
      ((new "m" ⟨0, 0⟩).after [.openClass "Script"]) =
        (.error .overflow, (new "m" ⟨0, 0⟩).after [.openClass "Script"]) := by
  have hs : ∀ s ∈ List.replicate UInt32.size (sharingRead "x" 7), s.Encodable := by
    intro s hs
    rw [List.eq_of_mem_replicate hs]
    exact encodable_sharingRead "x" (by decide)
  have hover := not_countable_replicate (sharingRead "x" 7) (Nat.le_refl UInt32.size)
  refine ⟨hs, .point (by decide), ?_, lower_uncountable hs hover _ _ _⟩
  rw [← List.append_nil (List.replicate UInt32.size (sharingRead "x" 7))]
  exact lower_uncountable hs hover _ _ _

end ModuleBuilder
end ScriptHost
