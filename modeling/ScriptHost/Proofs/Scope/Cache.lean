import Mathlib.Data.List.Induction
import ScriptHost.Proofs.Scope.Emission
import ScriptHost.Proofs.Scope.Evaluation

/-!
# The cache of shared units is canonical

Over any row of requests for shared units and for lowered batches, two requests are granted the same unit
exactly if they ask for the same shape. Each unit has one method, in the class that it was first asked for,
and nothing that is asked later moves or changes it. A request that cannot be granted because its parameters
take too many slots changes nothing.
-/

namespace ScriptHost
namespace ModuleBuilder

/-! ## Requests that only generate code -/

/-- The request adds no method from elsewhere. -/
def Request.Generates : Request → Prop
  | .addMethod .. => False
  | _ => True

theorem after_invariant (P : ModuleBuilder → Prop)
    (hstep : ∀ {b : ModuleBuilder} {r : Request}, r.Generates → P b → P (r.apply b)) {b : ModuleBuilder} (hb : P b)
    {requests : List Request} (hr : ∀ r ∈ requests, r.Generates) : P (b.after requests) := by
  induction requests generalizing b with
  | nil => exact hb
  | cons r rs ih =>
    exact ih (hstep (hr r (List.mem_cons_self ..)) hb) fun r' hr' => hr r' (List.mem_cons_of_mem _ hr')

/-- The request asks for the unit of the shape in the class at place `i`. -/
def Request.Asks (r : Request) (i : Nat) (s : Shape) : Prop :=
  match r with
  | .sharedUnit i' s' => i' = i ∧ s' = s
  | .lower i' sites => i' = i ∧ s ∈ sites.map Site.shape
  | _ => False

/-- What a request does to a canonical builder: methods and classes stay where they are, and new units have
their methods in the class that they were asked for. -/
structure Continues (r : Request) (b b' : ModuleBuilder) : Prop where
  canonical : Canonical b'
  kept : ∀ {i j : Nat} {m : Method}, MethodAt b i j m → MethodAt b' i j m
  classes : ∀ {i : Nat} {cls : String},
    (b.units.map ClassBody.name)[i]? = some cls → (b'.units.map ClassBody.name)[i]? = some cls
  made : ∀ u ∈ b'.shared, u ∈ b.shared ∨ ∃ i j, r.Asks i u.shape ∧ MethodAt b' i j u.method ∧
    (b'.units.map ClassBody.name)[i]? = some u.cls

theorem Continues.ofProceeds {r : Request} {b b' : ModuleBuilder} {i : Nat} {asked : Shape → Prop}
    (hb : Canonical b) (h : Proceeds i asked b b') (ha : ∀ s, asked s → r.Asks i s) : Continues r b b' := by
  obtain ⟨hcanonical, hext⟩ := h hb
  refine ⟨hcanonical, hext.kept, fun h => hext.classes ▸ h, fun u hu => ?_⟩
  rcases hext.made u hu with hu | ⟨hs, ⟨j, hj⟩, hcls⟩
  · exact .inl hu
  · exact .inr ⟨i, j, ha _ hs, hj, hcls⟩

theorem Request.continues {b : ModuleBuilder} (hb : Canonical b) {r : Request} (hr : r.Generates) :
    Continues r b (r.apply b) := by
  cases r with
  | openClass cls =>
    have hclasses : ∀ {i : Nat} {cls' : String}, (b.units.map ClassBody.name)[i]? = some cls' →
        ((b.opened cls).units.map ClassBody.name)[i]? = some cls' := by
      intro i cls' h
      rw [opened, List.map_append, List.getElem?_append_left (List.getElem?_eq_some_iff.1 h).1, h]
    exact ⟨hb.opened cls, methodAt_opened.2, hclasses, fun u hu => .inl hu⟩
  | addMethod i m => exact hr.elim
  | sharedUnit i s =>
    have h : Proceeds i (s = ·) b ((ModuleBuilder.sharedUnit i s).outcome b).2 := proceeds_sharedUnit i rfl b
    exact .ofProceeds hb h fun s' hs' => ⟨rfl, hs'⟩
  | lower i sites => exact .ofProceeds hb (proceeds_lower i sites b) fun s hs => ⟨rfl, hs⟩

section

variable {b : ModuleBuilder} {requests : List Request}

theorem canonical_after (hb : Canonical b) (hr : ∀ r ∈ requests, r.Generates) : Canonical (b.after requests) :=
  after_invariant Canonical (fun hr hb => (Request.continues hb hr).canonical) hb hr

/-- No request moves or changes a method that is there. -/
theorem methodAt_after (hb : Canonical b) (hr : ∀ r ∈ requests, r.Generates) {i j : Nat} {m : Method}
    (h : MethodAt b i j m) : MethodAt (b.after requests) i j m := by
  refine (after_invariant (fun b => Canonical b ∧ MethodAt b i j m) (fun hr hb => ?_) ⟨hb, h⟩ hr).2
  have hstep := Request.continues hb.1 hr
  exact ⟨hstep.canonical, hstep.kept hb.2⟩

/-- The class at place `i` is the one that the unit was first asked for: the request that made the unit asked
for it there, and no unit of its shape was there before. -/
def FirstRequested (b : ModuleBuilder) (requests : List Request) (u : SharedUnit) (i : Nat) : Prop :=
  ∃ (before : List Request) (r : Request) (rest : List Request), requests = before ++ r :: rest ∧
    r.Asks i u.shape ∧ (∀ v ∈ (b.after before).shared, v.shape ≠ u.shape) ∧
    u ∈ (r.apply (b.after before)).shared

theorem FirstRequested.append {u : SharedUnit} {i : Nat} (h : FirstRequested b requests u i) (r : Request) :
    FirstRequested b (requests ++ [r]) u i := by
  obtain ⟨before, r', rest, rfl, h⟩ := h
  exact ⟨before, r', rest ++ [r], by simp, h⟩

/-- Every unit has its method in the class that it was first asked for. -/
theorem exists_firstRequested (hb : Canonical b) (hnone : b.shared = []) (hr : ∀ r ∈ requests, r.Generates)
    {u : SharedUnit} (hu : u ∈ (b.after requests).shared) :
    ∃ i j, FirstRequested b requests u i ∧ MethodAt (b.after requests) i j u.method ∧
      ((b.after requests).units.map ClassBody.name)[i]? = some u.cls := by
  -- on the requests from the last one back: the unit is there before it, or this request made it
  induction requests using List.reverseRecOn with
  | nil =>
    rw [after, List.foldl_nil, hnone] at hu
    cases hu
  | append_singleton rs r ih =>
    have hrs : ∀ r' ∈ rs, r'.Generates := fun r' hr' => hr r' (List.mem_append_left _ hr')
    have hbefore := canonical_after hb hrs
    have hstep := r.continues hbefore (hr r (List.mem_append_right _ (List.mem_singleton_self r)))
    rw [after_append] at hu ⊢
    change u ∈ (r.apply (b.after rs)).shared at hu
    show ∃ i j, _ ∧ MethodAt (r.apply (b.after rs)) i j u.method ∧ _
    by_cases hold : u ∈ (b.after rs).shared
    · obtain ⟨i, j, hfirst, hj, hcls⟩ := ih hrs hold
      exact ⟨i, j, hfirst.append r, hstep.kept hj, hstep.classes hcls⟩
    · obtain ⟨i, j, hasks, hj, hcls⟩ := (hstep.made u hu).resolve_left hold
      refine ⟨i, j, ⟨rs, r, [], rfl, hasks, fun v hv he => hold ?_, hu⟩, hj, hcls⟩
      have hsame : v = u := hstep.canonical.findShared ((r.apply_grows _).shared v hv) hu he
      exact hsame ▸ hv

end

/-! ## Granted requests -/

/-- One of the requests asked for the unit of the shape, itself or for a site of a batch, and was given `u`. -/
inductive Granted (name : String) (t : Thresholds) (requests : List Request) : Shape → SharedUnit → Prop where
  | unit {before rest : List Request} {i : Nat} {s : Shape} {u : SharedUnit} {b : ModuleBuilder}
    (hr : requests = before ++ .sharedUnit i s :: rest)
    (h : (sharedUnit i s).outcome ((new name t).after before) = (.ok u, b)) : Granted name t requests s u
  | site {s : Site} {l : LoweredSite} {u : SharedUnit} (h : LoweredBy name t requests s l)
    (hu : l.shared = some u) : Granted name t requests s.shape u

theorem after_split (b : ModuleBuilder) (before : List Request) (r : Request) (rest : List Request) :
    b.after (before ++ r :: rest) = (r.apply (b.after before)).after rest := after_append b before (r :: rest)

theorem Granted.mem {name : String} {t : Thresholds} {requests : List Request} {s : Shape} {u : SharedUnit}
    (h : Granted name t requests s u) : u ∈ ((new name t).after requests).shared ∧ u.shape = s := by
  cases h with
  | @unit before rest i s u b hr h =>
    obtain ⟨hmem, hshape⟩ := sharedUnit_ok h
    have hb : (Request.sharedUnit i s).apply ((new name t).after before) = b := congrArg Prod.snd h
    rw [hr, after_split, hb]
    exact ⟨(grows_after b rest).shared u hmem, hshape⟩
  | @site s l u h hu =>
    obtain ⟨before, rest, i, sites, ls, b, k, rfl, hlower, hk, hl⟩ := h
    obtain ⟨-, l', hl', hat⟩ := lower_ok hlower hk
    obtain rfl : l' = l := Option.some.inj (hl'.symm.trans hl)
    obtain ⟨hmem, hshape⟩ := hat.emitted.unit u hu
    have hb : (Request.lower i sites).apply ((new name t).after before) = b := congrArg Prod.snd hlower
    rw [after_split, hb]
    exact ⟨(grows_after b rest).shared u hmem, hshape⟩

/-- Two shapes agree in each field. -/
structure SameFields (s s' : Shape) : Prop where
  name : s.symbol.name = s'.symbol.name
  hint : s.symbol.hint = s'.symbol.hint
  valueType : s.valueType = s'.valueType
  returnType : s.returnType = s'.returnType
  isCall : s.isCall = s'.isCall
  params : s.params = s'.params
  flags : s.flags = s'.flags
  optimistic : s.optimistic = s'.optimistic

theorem eq_iff_sameFields {s s' : Shape} : s = s' ↔ SameFields s s' := by
  constructor
  · rintro rfl
    exact ⟨rfl, rfl, rfl, rfl, rfl, rfl, rfl, rfl⟩
  · intro h
    obtain ⟨⟨name, hint⟩, access, flags, optimistic⟩ := s
    obtain ⟨⟨name', hint'⟩, access', flags', optimistic'⟩ := s'
    obtain ⟨rfl, rfl, hvalue, hreturn, hcall, hparams, rfl, rfl⟩ := h
    cases access with
    | read ty =>
      cases access' with
      | read ty' =>
        obtain rfl : ty = ty' := hvalue
        rfl
      | call ret params => cases hcall
    | call ret params =>
      cases access' with
      | read ty' => cases hcall
      | call ret' params' =>
        obtain rfl : ret = ret' := hreturn
        obtain rfl : params = params' := hparams
        rfl

/-! ## Requests with too many slots -/

/-- The fault of a request whose parameters take too many slots. -/
def IsSlotFault : Fault → Prop
  | .error (.internal (.paramSlots ..)) => True
  | _ => False

theorem avoids_unit (i : Nat) : Run.Avoids IsSlotFault (unit i) := by
  refine Run.avoids_get.bind fun b => ?_
  cases b.units[i]? with
  | some c => exact Run.avoids_pure c
  | none => exact Run.avoids_throw id

theorem avoids_addMethod (i : Nat) (m : Method) : Run.Avoids IsSlotFault (addMethod i m) := by
  refine (avoids_unit i).bind fun c => ?_
  unfold ClassBody.add
  split_ifs
  · exact Run.avoids_throw id
  · exact Run.avoids_throw id
  · intro b f h
    cases h

theorem avoids_sharedUnit (i : Nat) {s : Shape} (hs : ∃ n, (if s.isCall then s.callOperands else .ok 0) = .ok n) :
    Run.Avoids IsSlotFault (sharedUnit i s) := by
  obtain ⟨n, hn⟩ := hs
  rw [sharedUnit_eq]
  refine (avoids_unit i).bind fun c => ?_
  by_cases hd : s.symbol.isDynamic
  · rw [if_pos hd]
    exact Run.avoids_throw id
  · rw [if_neg hd, hn]
    refine Run.avoids_get.bind fun b => ?_
    cases b.findShared s with
    | some u => exact Run.avoids_pure u
    | none =>
      have hfresh : Run.Avoids IsSlotFault (freshName s.isCall) := by
        intro b f h
        by_cases hroom : b.Room s.isCall
        · rw [outcome_freshName hroom] at h
          cases h
        · rw [outcome_freshName_full hroom] at h
          cases h
          exact id
      refine hfresh.bind fun name => (avoids_addMethod i _).bind fun _ => ?_
      intro b f h
      cases h

theorem method_valid {s : Site} (hs : s.validate = .ok ()) (cls name : String) (shared : Option SharedUnit) :
    ∃ m, s.method cls name shared = .ok m := by
  obtain ⟨hp, depth, hd⟩ := Site.validate_ok hs
  cases shared with
  | some u =>
    rw [Site.method, Site.sharedCode, hd]
    exact ⟨_, rfl⟩
  | none =>
    rw [Site.method, Site.inlineCode, hd, Site.siteFlags_ok hp]
    exact ⟨_, rfl⟩

theorem callOperands_valid {s : Site} (hs : s.validate = .ok ()) :
    ∃ n, (if s.shape.isCall then s.shape.callOperands else .ok 0) = .ok n := by
  obtain ⟨hp, depth, hd⟩ := Site.validate_ok hs
  rw [Site.validate, if_pos hp, hd] at hs
  split_ifs with hcall
  · cases ho : s.shape.callOperands with
    | ok n => exact ⟨n, rfl⟩
    | error e => simp [hcall, ho, bind, Except.bind] at hs
  · exact ⟨0, rfl⟩

theorem avoids_lowerFrom (i : Nat) (census : Census) (index : Nat) {sites : List Site}
    (hs : ∀ s ∈ sites, s.validate = .ok ()) : Run.Avoids IsSlotFault (lowerFrom i census index sites) := by
  induction sites generalizing index with
  | nil => exact Run.avoids_pure []
  | cons s ss ih =>
    have hvalid := hs s (List.mem_cons_self ..)
    have hsite : Run.Avoids IsSlotFault (lowerSite i census index s) := by
      rw [lowerSite_eq]
      refine Run.Avoids.bind ?_ fun shared => (avoids_unit i).bind fun c => ?_
      · refine Run.avoids_get.bind fun b => ?_
        split_ifs
        · exact (avoids_sharedUnit i (callOperands_valid hvalid)).map some
        · exact Run.avoids_pure none
      · obtain ⟨m, hm⟩ := method_valid hvalid c.name ("site$" ++ toString index) shared
        rw [hm]
        exact (avoids_addMethod i m).bind fun _ => Run.avoids_pure _
    refine hsite.bind fun l => ?_
    exact (ih (index + 1) fun s' hs' => hs s' (List.mem_cons_of_mem _ hs')).bind fun ls => Run.avoids_pure _

/-- A batch that is refused for its slots is refused before anything is generated. -/
theorem lower_slotFault {i : Nat} {sites : List Site} {b b' : ModuleBuilder} {f : Fault}
    (h : (lower i sites).outcome b = (.error f, b')) (hf : IsSlotFault f) : b' = b := by
  rw [lower] at h
  cases hs : survey {} sites with
  | error f' =>
    rw [hs] at h
    exact (congrArg Prod.snd h).symm
  | ok census =>
    rw [hs] at h
    exact absurd hf (avoids_lowerFrom i census 0 (survey_ok hs).1 b f (congrArg Prod.fst h))

/-! ## The cache -/

/-- After any row of requests that generate code: requests were granted the same unit exactly if their shapes
agree in each field; every unit has one method, in the class that it was first asked for, and keeps it there
through all later requests; names of units are distinct in the whole module; the cache has as many units as
there are generated methods of units; and a request that fails, for a batch because of its slots, changes
nothing. -/
theorem cache_canonical {name : String} {t : Thresholds} {requests : List Request}
    (hr : ∀ r ∈ requests, r.Generates) :
    (∀ s u, Granted name t requests s u → u ∈ ((new name t).after requests).shared) ∧
    (∀ s u s' u', Granted name t requests s u → Granted name t requests s' u' →
      (u = u' ↔ SameFields s s')) ∧
    (∀ u ∈ ((new name t).after requests).shared, ∃ i j, FirstRequested (new name t) requests u i ∧
      (((new name t).after requests).units.map ClassBody.name)[i]? = some u.cls ∧
      ∀ later : List Request, (∀ r ∈ later, r.Generates) →
        MethodAt ((new name t).after (requests ++ later)) i j u.method ∧
        ∀ i' j' m, MethodAt ((new name t).after (requests ++ later)) i' j' m → m.name = u.name →
          i' = i ∧ j' = j) ∧
    (∀ u ∈ ((new name t).after requests).shared, ∀ v ∈ ((new name t).after requests).shared,
      u ≠ v → u.name ≠ v.name) ∧
    ((new name t).after requests).shared.length = ((new name t).after requests).sharedMethods.length ∧
    (∀ i s f b', (sharedUnit i s).outcome ((new name t).after requests) = (.error f, b') →
      b' = (new name t).after requests) ∧
    ∀ i sites symbol slots b', (lower i sites).outcome ((new name t).after requests) =
      (.error (.error (.internal (.paramSlots symbol slots))), b') → b' = (new name t).after requests := by
  have hb := canonical_after (canonical_new name t) hr
  refine ⟨fun s u h => h.mem.1, fun s u s' u' h h' => ?_, fun u hu => ?_, fun u hu v hv hne he => ?_, ?_,
    fun i s f b' h => ?_, fun i sites symbol slots b' h => lower_slotFault h trivial⟩
  · obtain ⟨hu, rfl⟩ := h.mem
    obtain ⟨hu', rfl⟩ := h'.mem
    rw [← eq_iff_sameFields]
    exact ⟨congrArg _, hb.findShared hu hu'⟩
  · obtain ⟨i, j, hfirst, hj, hcls⟩ := exists_firstRequested (canonical_new name t) rfl hr hu
    refine ⟨i, j, hfirst, hcls, fun later hlater => ?_⟩
    rw [after_append]
    have hkept := methodAt_after hb hlater hj
    refine ⟨hkept, fun i' j' m hm hn => ?_⟩
    exact (canonical_after hb hlater).unique hm hkept
      (by rw [Method.isShared, hn]; exact isShared_method hb hu) hn
  · exact hne (List.inj_on_of_nodup_map hb.names hu hv he)
  · rw [hb.emitted.length_eq, List.length_map]
  · rcases sharedUnit_cases hb i s with ⟨f', hf⟩ | ⟨u, -, hu⟩ | ⟨c, -, -, -, hmade⟩
    · rw [hf] at h
      exact (congrArg Prod.snd h).symm
    · rw [hu] at h
      cases h
    · rw [hmade] at h
      cases h

def callTwice : List Request :=
  [.openClass "Script", .openClass "Library", .sharedUnit 1 ⟨⟨"f", .known 0⟩, .call .int [], .scope, true⟩,
    .sharedUnit 0 ⟨⟨"f", .known 0⟩, .call .int [], .scope, true⟩]

theorem cache_canonical_callTwice :
    (∀ r ∈ callTwice, r.Generates) ∧
    Granted "m" ⟨1, 1⟩ callTwice ⟨⟨"f", .known 0⟩, .call .int [], .scope, true⟩
      ⟨⟨⟨"f", .known 0⟩, .call .int [], .scope, true⟩, "Library", ":scopeCall$0"⟩ ∧
    ((new "m" ⟨1, 1⟩).after callTwice).shared.length = 1 ∧
    ((new "m" ⟨1, 1⟩).after callTwice).sharedMethods.length = 1 := by
  have hr : ∀ r ∈ callTwice, r.Generates := by simp [callTwice, Request.Generates]
  have hgranted : Granted "m" ⟨1, 1⟩ callTwice ⟨⟨"f", .known 0⟩, .call .int [], .scope, true⟩
      ⟨⟨⟨"f", .known 0⟩, .call .int [], .scope, true⟩, "Library", ":scopeCall$0"⟩ :=
    @Granted.unit "m" ⟨1, 1⟩ callTwice (callTwice.take 3) [] 0 _ _ _ rfl rfl
  have hone : ((new "m" ⟨1, 1⟩).after callTwice).shared.length = 1 := rfl
  obtain ⟨-, -, -, -, hlength, -⟩ := @cache_canonical "m" ⟨1, 1⟩ callTwice hr
  exact ⟨hr, hgranted, hone, hlength ▸ hone⟩

end ModuleBuilder
end ScriptHost
