import ScriptHost.Proofs.Assoc
import ScriptHost.Proofs.Scope.Cache

/-!
# Finished modules are complete

A builder keeps its code in a row of classes. In the finished module it is found by the names of classes and
methods, and static calls go by these names as well. Each static call that is generated is that of a shared unit
which the builder has (`Wired`), and every request keeps this. So the code that requests returned and the
methods that static calls name are in the module, as long as their classes are (`finished_complete`). Of classes
with one name only the last is in the module, and the code of the others is lost with them.
-/

namespace ScriptHost

/-! ## Static calls -/

/-- A static call is that of one of the units. -/
def Insn.LinksTo (units : List SharedUnit) : Insn → Prop
  | .invoke cls name signature => ∃ u ∈ units, u.cls = cls ∧ u.name = name ∧ u.signature = signature
  | _ => True

/-- All static calls of the method are those of the units. -/
def Method.LinksTo (units : List SharedUnit) (m : Method) : Prop := ∀ i ∈ m.code, i.LinksTo units

section

variable {units : List SharedUnit}

theorem Method.LinksTo.mono {m : Method} (h : m.LinksTo units) {units' : List SharedUnit}
    (hu : ∀ u ∈ units, u ∈ units') : m.LinksTo units' := by
  intro i hi
  have hlinks := h i hi
  cases i with
  | invoke cls name signature =>
    obtain ⟨u, hmem, hnames⟩ := hlinks
    exact ⟨u, hu u hmem, hnames⟩
  | _ => trivial

variable (units) in
theorem linksTo_accessCode (s : Shape) (flags : SiteFlags) (start : Nat) :
    ∀ i ∈ s.accessCode flags start, i.LinksTo units :=
  s.forall_mem_accessCode (fun _ _ => trivial) (fun _ => trivial) trivial (fun _ _ _ _ => trivial)
    (fun _ _ _ => trivial) start

theorem SharedUnit.linksTo_method (u : SharedUnit) : u.method.LinksTo units := by
  have hoperation := linksTo_accessCode units u.shape u.shape.unitFlags fixedSlots
  intro i hi
  simp only [SharedUnit.method, List.mem_append] at hi
  rcases hi with ((hi | hi) | hi) | hi
  · revert i
    simp [SharedUnit.walk, Insn.LinksTo]
  · exact hoperation i hi
  · rw [List.mem_singleton.1 hi]
    trivial
  · split at hi
    · revert i
      simp [SharedUnit.recovery, Insn.LinksTo]
    · cases hi

/-- A site calls the shared unit that it was given, and nothing else. -/
theorem Site.linksTo_method {s : Site} {cls name : String} {shared : Option SharedUnit} {m : Method}
    (h : s.method cls name shared = .ok m) (hu : ∀ u, shared = some u → u ∈ units) : m.LinksTo units := by
  cases shared with
  | none =>
    obtain ⟨depth, flags, hdepth, hflags⟩ := inline_ok h
    have haccess := linksTo_accessCode units s.shape flags 1
    rw [method_inline h hdepth hflags]
    simpa [Method.LinksTo, Insn.LinksTo, or_imp, forall_and] using haccess
  | some u =>
    obtain ⟨depth, hdepth⟩ := sharing_ok h
    rw [method_sharing h hdepth]
    intro i hi
    simp only [List.mem_cons, List.mem_append, List.not_mem_nil, or_false] at hi
    rcases hi with rfl | rfl | rfl | hi | rfl | rfl
    · trivial
    · trivial
    · trivial
    · exact forall_mem_loadParams (P := Insn.LinksTo units) (fun _ _ => trivial) 1 _ i hi
    · exact ⟨u, hu u rfl, rfl, rfl, rfl⟩
    · trivial

end

namespace ModuleBuilder

/-! ## Wired builders -/

/-- Every static call in a class of the builder is that of a shared unit of the builder. -/
structure Wired (b : ModuleBuilder) : Prop where
  canonical : Canonical b
  links : ∀ {i j : Nat} {m : Method}, MethodAt b i j m → m.LinksTo b.shared

def Keeps (b b' : ModuleBuilder) : Prop := Wired b → Wired b'

theorem Keeps.refl (b : ModuleBuilder) : Keeps b b := id

theorem Keeps.trans {a b c : ModuleBuilder} (h₁ : Keeps a b) (h₂ : Keeps b c) : Keeps a c := h₂ ∘ h₁

theorem wired_new (name : String) (t : Thresholds) : Wired (new name t) := by
  refine ⟨canonical_new name t, ?_⟩
  rintro i j m ⟨c, hc, -⟩
  cases hc

section

variable {b : ModuleBuilder} {i : Nat} {c : ClassBody} {m : Method}

theorem Wired.opened (hb : Wired b) (cls : String) : Wired (b.opened cls) :=
  ⟨hb.canonical.opened cls, fun h => hb.links (methodAt_opened.1 h)⟩

theorem Wired.withMethod (hb : Wired b) (hc : b.units[i]? = some c) (hm : m.isShared = false)
    (hlinks : m.LinksTo b.shared) : Wired (b.withMethod i c m) := by
  refine ⟨hb.canonical.withSite hc hm, fun h => ?_⟩
  rcases (methodAt_withMethod hc).1 h with h | ⟨-, -, rfl⟩
  · exact hb.links h
  · exact hlinks

theorem Wired.withUnit (hb : Wired b) (hc : b.units[i]? = some c) {s : Shape} (hs : b.findShared s = none)
    (hroom : b.Room s.isCall) : Wired (b.withUnit i c s) := by
  refine ⟨hb.canonical.withUnit hc hs hroom, fun h => ?_⟩
  rcases (methodAt_withUnit hc s).1 h with h | ⟨-, -, rfl⟩
  · exact (hb.links h).mono fun u hu => List.mem_append_left _ hu
  · exact SharedUnit.linksTo_method _

end

theorem keeps_sharedUnit (i : Nat) (s : Shape) : Run.Moves Keeps (sharedUnit i s) := by
  intro b hb
  rcases sharedUnit_cases hb.canonical i s with ⟨f, hf⟩ | ⟨u, -, hu⟩ | ⟨c, hc, hnone, hroom, hmade⟩
  · rw [hf]
    exact hb
  · rw [hu]
    exact hb
  · rw [hmade]
    exact hb.withUnit hc hnone hroom

theorem keeps_unitFor (i : Nat) (census : Census) (s : Site) : Run.Moves Keeps (unitFor i census s) := by
  refine (Run.moves_get .refl).bind .trans fun b => ?_
  by_cases hshares : sharesSite b.thresholds (census.count s.shape) s
  · rw [if_pos hshares]
    exact (keeps_sharedUnit i s.shape).map some
  · rw [if_neg hshares]
    exact Run.moves_pure .refl none

theorem Wired.emitSite {b : ModuleBuilder} (hb : Wired b) (i index : Nat) (s : Site) {shared : Option SharedUnit}
    (hu : ∀ u, shared = some u → u ∈ b.shared) : Wired ((emitSite i index s shared).outcome b).2 := by
  have hunit := (outcome_unit i b).1
  rw [ModuleBuilder.emitSite, Run.outcome_bind]
  rcases hrun : (unit i).outcome b with ⟨r, b₁⟩
  rw [hrun] at hunit
  obtain rfl : b₁ = b := hunit
  cases r with
  | error f => exact hb
  | ok c =>
    dsimp only
    cases hm : s.method c.name ("site$" ++ toString index) shared with
    | error e => exact hb
    | ok m =>
      rw [Run.outcome_bind]
      rcases addMethod_cases i m b₁ with ⟨f, hf⟩ | ⟨d, hd, hok⟩
      · rw [hf]
        exact hb
      · rw [hok]
        exact hb.withMethod hd (isShared_site (method_ok hm).2.1) (Site.linksTo_method hm hu)

theorem keeps_lowerSite (i : Nat) (census : Census) (index : Nat) (s : Site) :
    Run.Moves Keeps (lowerSite i census index s) := by
  intro b hb
  have hunit := keeps_unitFor i census s b hb
  rw [lowerSite_eq, Run.outcome_bind]
  rcases hrun : (unitFor i census s).outcome b with ⟨r, b₁⟩
  rw [hrun] at hunit
  cases r with
  | error f => exact hunit
  | ok shared =>
    -- a unit that the site is given is known to the builder by now
    exact hunit.emitSite i index s fun u hu => ((unitFor_ok hrun).2 u hu).1

theorem keeps_lower (i : Nat) (sites : List Site) : Run.Moves Keeps (lower i sites) :=
  moves_lower .refl .trans fun census k s _ _ => keeps_lowerSite i census k s

theorem Request.keeps {r : Request} (hr : r.Generates) (b : ModuleBuilder) : Keeps b (r.apply b) := by
  cases r with
  | openClass cls => exact fun hb => hb.opened cls
  | addMethod i m => exact hr.elim
  | sharedUnit i s => exact keeps_sharedUnit i s b
  | lower i sites => exact keeps_lower i sites b

theorem wired_after {b : ModuleBuilder} (hb : Wired b) {requests : List Request}
    (hr : ∀ r ∈ requests, r.Generates) : Wired (b.after requests) :=
  after_invariant Wired (fun hr hb => Request.keeps hr _ hb) hb hr

/-! ## Finished modules -/

/-- At most one class of the builder has the name. -/
def Single (b : ModuleBuilder) (cls : String) : Prop := (b.units.map ClassBody.name).count cls ≤ 1

instance (b : ModuleBuilder) (cls : String) : Decidable (Single b cls) := inferInstanceAs (Decidable (_ ≤ 1))

theorem mem_foldl_put {cs : List ClassBody} {t : Assoc String ClassBody} {e : String × ClassBody}
    (h : e ∈ (cs.foldl (fun t c => t.put c.name c) t).entries) : e ∈ t.entries ∨ e.2 ∈ cs := by
  induction cs generalizing t with
  | nil => exact .inl h
  | cons c cs ih =>
    rcases ih h with h | h
    · rcases Assoc.mem_entries_put h with h | rfl
      · exact .inl h
      · exact .inr (List.mem_cons_self ..)
    · exact .inr (List.mem_cons_of_mem _ h)

section

variable {b : ModuleBuilder}

/-- A finished module has no other methods than its builder. -/
theorem methodAt_of_finish {m : Method} (h : m ∈ b.finish.methods) : ∃ i j, MethodAt b i j m := by
  obtain ⟨e, he, hm⟩ := List.mem_flatMap.1 h
  have hc : e.2 ∈ b.units := (mem_foldl_put he).resolve_left List.not_mem_nil
  obtain ⟨i, hi⟩ := List.mem_iff_getElem?.1 hc
  obtain ⟨j, hj⟩ := List.mem_iff_getElem?.1 hm
  exact ⟨i, j, e.2, hi, hj⟩

theorem Consistent.method?_unit (hb : Consistent b) {u : SharedUnit} (hu : u ∈ b.shared)
    (hone : Single b u.cls) : b.finish.method? u.cls u.name = some u.method := by
  obtain ⟨c, hc, hn, hm⟩ := hb.owned u hu
  rw [← hn] at hone ⊢
  exact finish_method? hb hc hone hm

theorem Consistent.method?_site (hb : Consistent b) {s : Site} {l : LoweredSite} (h : Emitted b s l)
    (hone : Single b l.cls) :
    ∃ m, s.method l.cls l.name l.shared = .ok m ∧ b.finish.method? l.cls l.name = some m := by
  obtain ⟨c, hc, hn, m, hm, hmn, hok⟩ := h.method
  refine ⟨m, hok, ?_⟩
  rw [← hn] at hone
  rw [← hn, ← hmn]
  exact finish_method? hb hc hone hm

end

theorem LoweredBy.emitted {name : String} {t : Thresholds} {requests : List Request} {s : Site} {l : LoweredSite}
    (h : LoweredBy name t requests s l) : Emitted ((new name t).after requests) s l := by
  obtain ⟨before, rest, i, sites, ls, b, k, rfl, hlower, hk, hl⟩ := h
  obtain ⟨-, l', hl', hat⟩ := lower_ok hlower hk
  obtain rfl : l' = l := Option.some.inj (hl'.symm.trans hl)
  have hb : (Request.lower i sites).apply ((new name t).after before) = b := congrArg Prod.snd hlower
  rw [after_split, hb]
  exact hat.emitted.mono (grows_after b rest)

/-- After any row of requests that generate code, the finished module has what they returned, under its names
and with the code that was generated for it: each shared unit, asked for by itself or for a site, and each
lowered site. A static call in the module names a method that is there and has the signature of the call. All
this is for names of classes that one class has. -/
theorem finished_complete {name : String} {t : Thresholds} {requests : List Request}
    (hr : ∀ r ∈ requests, r.Generates) :
    (∀ s u, Granted name t requests s u → Single ((new name t).after requests) u.cls →
      u.shape = s ∧ ((new name t).after requests).finish.method? u.cls u.name = some u.method) ∧
    (∀ s l, LoweredBy name t requests s l → Single ((new name t).after requests) l.cls →
      ∃ m, s.method l.cls l.name l.shared = .ok m ∧
        ((new name t).after requests).finish.method? l.cls l.name = some m) ∧
    ∀ m ∈ ((new name t).after requests).finish.methods, ∀ cls method signature,
      .invoke cls method signature ∈ m.code → Single ((new name t).after requests) cls →
        ∃ target, ((new name t).after requests).finish.method? cls method = some target ∧
          target.signature = signature := by
  have hb := consistent_after (consistent_new name t) requests
  refine ⟨fun s u h hone => ⟨h.mem.2, hb.method?_unit h.mem.1 hone⟩,
    fun s l h hone => hb.method?_site h.emitted hone, fun m hm cls method signature hi hone => ?_⟩
  obtain ⟨i, j, hat⟩ := methodAt_of_finish hm
  obtain ⟨u, hu, rfl, rfl, rfl⟩ := (wired_after (wired_new name t) hr).links hat _ hi
  exact ⟨u.method, hb.method?_unit hu hone, rfl⟩

/-- Requests for the unit of a call in one class, and for a site that uses it in another. -/
def libraryRequests : List Request :=
  [.openClass "Script", .openClass "Library", .sharedUnit 1 ⟨⟨"f", .known 0⟩, .call .int [], .scope, true⟩,
    .lower 0 [⟨⟨⟨"f", .known 0⟩, .call .int [], .scope, true⟩, .known 0, 7⟩]]

def libraryUnit : SharedUnit := ⟨⟨⟨"f", .known 0⟩, .call .int [], .scope, true⟩, "Library", ":scopeCall$0"⟩

theorem finished_complete_library :
    (∀ r ∈ libraryRequests, r.Generates) ∧
    ((new "m" ⟨0, 0⟩).after libraryRequests).finish.method? "Library" ":scopeCall$0" = some libraryUnit.method ∧
    (∃ m, ((new "m" ⟨0, 0⟩).after libraryRequests).finish.method? "Script" "site$0" = some m) ∧
    ∃ m ∈ ((new "m" ⟨0, 0⟩).after libraryRequests).finish.methods, libraryUnit.invocation ∈ m.code ∧
      ∃ target, ((new "m" ⟨0, 0⟩).after libraryRequests).finish.method? "Library" ":scopeCall$0" = some target ∧
        target.signature = libraryUnit.signature := by
  have hr : ∀ r ∈ libraryRequests, r.Generates := by simp [libraryRequests, Request.Generates]
  have hgranted : Granted "m" ⟨0, 0⟩ libraryRequests libraryUnit.shape libraryUnit :=
    @Granted.unit "m" ⟨0, 0⟩ libraryRequests (libraryRequests.take 2) _ 1 _ _ _ rfl rfl
  have hlowered : LoweredBy "m" ⟨0, 0⟩ libraryRequests ⟨libraryUnit.shape, .known 0, 7⟩
      ⟨"Script", "site$0", some libraryUnit⟩ :=
    ⟨libraryRequests.take 3, [], 0, _, _, _, 0, rfl, rfl, rfl, rfl⟩
  have hlibrary : Single ((new "m" ⟨0, 0⟩).after libraryRequests) "Library" := by decide
  have hscript : Single ((new "m" ⟨0, 0⟩).after libraryRequests) "Script" := by decide
  have hcall : ∃ m ∈ ((new "m" ⟨0, 0⟩).after libraryRequests).finish.methods,
      libraryUnit.invocation ∈ m.code := by decide
  obtain ⟨hunits, hsites, hcalls⟩ := @finished_complete "m" ⟨0, 0⟩ libraryRequests hr
  obtain ⟨site, -, hsite⟩ := hsites _ _ hlowered hscript
  obtain ⟨m, hm, hi⟩ := hcall
  exact ⟨hr, (hunits _ _ hgranted hlibrary).2, ⟨site, hsite⟩, m, hm, hi, hcalls m hm _ _ _ hi hlibrary⟩

/-- The same requests, and another class under the name of the first one with code. -/
def reopeningRequests : List Request := libraryRequests ++ [.openClass "Library"]

/-- The unit that was granted is not in the finished module, in which a static call names it. -/
theorem reopened_class_lost :
    Granted "m" ⟨0, 0⟩ reopeningRequests libraryUnit.shape libraryUnit ∧
    ((new "m" ⟨0, 0⟩).after reopeningRequests).finish.method? "Library" ":scopeCall$0" = none ∧
    ∃ m ∈ ((new "m" ⟨0, 0⟩).after reopeningRequests).finish.methods, libraryUnit.invocation ∈ m.code :=
  ⟨@Granted.unit "m" ⟨0, 0⟩ reopeningRequests (libraryRequests.take 2) _ 1 _ _ _ rfl rfl, by decide, by decide⟩

end ModuleBuilder
end ScriptHost
