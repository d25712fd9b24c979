import Mathlib.Data.Nat.Digits.Defs
import ScriptHost.Proofs.Adapter.Naming

/-!
# What generated bytes tell

A generated class has a name and a dispatch for each method of its target. Nothing else in it depends on the names that
were asked for, and its length depends on the target alone, as every name ends in a hash of sixteen digits
(`Descriptor.generable_iff`). So the set of methods that the names override decides the bytes, and the dispatches tell
the set (`Descriptor.bytes_determine`).
-/

namespace ScriptHost

/-! ## Lengths of names -/

namespace Text

theorem toNat_digitChar_lt : ∀ d < 16, (Nat.digitChar d).toNat < 0x80 := by decide

theorem length_toBytes_ofList {cs : List Char} (h : ∀ c ∈ cs, c.toNat < 0x80) :
    (toBytes (String.ofList cs)).length = cs.length := by
  rw [toBytes_eq_flatMap, String.toList_ofList]
  induction cs with
  | nil => rfl
  | cons c cs ih =>
    rw [List.flatMap_cons, List.length_append, utf8EncodeChar_of_lt (h c (List.mem_cons_self ..)),
      ih fun d hd => h d (List.mem_cons_of_mem _ hd), List.length_singleton, List.length_cons, Nat.add_comm]

theorem length_hexPadded {width n : Nat} (hwidth : 0 < width) (hn : n < 16 ^ width) :
    (toBytes (hexPadded width n)).length = width := by
  have hdigits := Nat.toDigits_length 16 n width hwidth hn
  rw [hexPadded, length_toBytes_ofList, List.length_append, List.length_replicate, Nat.sub_add_cancel hdigits]
  intro c hc
  rcases List.mem_append.1 hc with hc | hc
  · obtain rfl := List.eq_of_mem_replicate hc
    decide
  · obtain ⟨d, hd, rfl⟩ := exists_of_mem_toDigits hc
    exact toNat_digitChar_lt d hd

end Text

open Text

namespace Descriptor

variable {target : HostType} {names names' : List String} {classLevel : Bool} {d d' : Descriptor}

theorem length_nameFor (target : HostType) (overrides overrides' : List String) (classLevel classLevel' : Bool) :
    (toBytes (nameFor target overrides classLevel)).length =
      (toBytes (nameFor target overrides' classLevel')).length := by
  have hhash : ∀ h : UInt64, (toBytes (hexPadded 16 h.toNat)).length = 16 :=
    fun h => length_hexPadded (by decide) h.toNat_lt
  rw [nameFor, nameFor, toBytes_append, toBytes_append _ (hexPadded _ _), List.length_append, List.length_append,
    hhash, hhash]

/-! ## Lengths of classes -/

theorem length_methodRow (m : HostMethod) (dispatch dispatch' : Dispatch) :
    (ClassFile.methodRow ⟨m.name, m.signature, dispatch⟩).length =
      (ClassFile.methodRow ⟨m.name, m.signature, dispatch'⟩).length := by
  simp [ClassFile.methodRow]

theorem length_methodsRow (target : HostType) (overrides overrides' : List String) (classLevel classLevel' : Bool) :
    (ClassFile.methodsRow (classFile target overrides classLevel).methods).length =
      (ClassFile.methodsRow (classFile target overrides' classLevel').methods).length := by
  simp only [ClassFile.methodsRow, classFile, List.length_append, List.length_map, List.flatMap_map,
    List.length_flatMap]
  congr 3
  funext m
  exact length_methodRow m _ _

theorem length_headPayload (target : HostType) (overrides overrides' : List String) (classLevel classLevel' : Bool) :
    (ClassFile.headPayload (classFile target overrides classLevel)).length =
      (ClassFile.headPayload (classFile target overrides' classLevel')).length := by
  have hname := length_nameFor target overrides overrides' classLevel classLevel'
  simp only [ClassFile.headPayload, classFile, ClassFile.textBytes, List.length_append, hname]
  rfl

theorem lengths_payloads (target : HostType) (overrides overrides' : List String) (classLevel classLevel' : Bool) :
    (classFile target overrides classLevel).sections.map (fun s => s.payload.length) =
      (classFile target overrides' classLevel').sections.map fun s => s.payload.length := by
  show [_, _, _, _] = [_, _, _, _]
  dsimp only
  rw [length_headPayload target overrides overrides' classLevel classLevel',
    length_methodsRow target overrides overrides' classLevel classLevel']
  rfl

/-- Whether a class fits its length fields depends on its target alone. -/
theorem fits_classFile {overrides : List String} (h : (classFile target overrides classLevel).Fits)
    (overrides' : List String) (classLevel' : Bool) : (classFile target overrides' classLevel').Fits := by
  have hname : (toBytes (nameFor target overrides' classLevel')).length < 0x100000000 := by
    rw [length_nameFor target overrides' overrides classLevel' classLevel]
    exact h.name
  have hmethods : ∀ m ∈ (classFile target overrides' classLevel').methods,
      ∃ m' ∈ (classFile target overrides classLevel).methods, m'.name = m.name ∧ m'.signature = m.signature := by
    intro m hm
    obtain ⟨method, hmethod, rfl⟩ := List.mem_map.1 hm
    exact ⟨_, List.mem_map_of_mem hmethod, rfl, rfl⟩
  refine ⟨h.version, hname, h.target, h.refs, ⟨?_, fun m hm => ?_⟩, fun m hm => ?_, fun s hs => ?_⟩
  · have hcount := h.methods.1
    simp only [classFile, List.length_map] at hcount ⊢
    exact hcount
  · obtain ⟨m', hm', hsame, -⟩ := hmethods m hm
    exact hsame ▸ h.methods.2 m' hm'
  · obtain ⟨m', hm', -, hsame⟩ := hmethods m hm
    exact hsame ▸ h.params m' hm'
  · have hlen : s.payload.length ∈ (classFile target overrides classLevel).sections.map fun s => s.payload.length := by
      rw [lengths_payloads target overrides overrides' classLevel classLevel']
      exact List.mem_map_of_mem (f := fun s => s.payload.length) hs
    obtain ⟨s', hs', hsame⟩ := List.mem_map.1 hlen
    exact hsame ▸ h.payloads s' hs'

end Descriptor

/-- The classes that are generated for the target fit their length fields. -/
def HostType.Generable (t : HostType) : Prop := ∀ names classLevel, (Descriptor.classOf t names classLevel).Fits

namespace Descriptor

variable {target : HostType} {names names' : List String} {classLevel : Bool} {d d' : Descriptor}

theorem generable_iff (target : HostType) (names : List String) (classLevel : Bool) :
    target.Generable ↔ (classOf target names classLevel).Fits :=
  ⟨fun h => h names classLevel, fun h _ _ => fits_classFile h _ _⟩

instance (t : HostType) : Decidable t.Generable := decidable_of_iff _ (generable_iff t [] false).symm

/-! ## Overridden methods -/

/-- The methods that names override: those asked for that the target has and that are not final. -/
def overridden (target : HostType) (names : List String) : Finset String :=
  names.toFinset ∩ (target.overridable.map HostMethod.name).toFinset

theorem mem_overridden {name : String} : name ∈ overridden target names ↔ name ∈ effective target names := by
  rw [mem_effective, overridden, Finset.mem_inter, List.mem_toFinset, List.mem_toFinset, List.mem_map]

theorem effective_eq_iff :
    effective target names = effective target names' ↔ overridden target names = overridden target names' := by
  constructor
  · intro h
    ext name
    rw [mem_overridden, mem_overridden, h]
  · intro h
    refine (ascending_sortNames _).ext (ascending_sortNames _) fun name => ?_
    show name ∈ effective target names ↔ name ∈ effective target names'
    rw [← mem_overridden, ← mem_overridden, h]

theorem generate_congr (h : overridden target names = overridden target names') (classLevel : Bool) :
    generate target names classLevel = generate target names' classLevel := by
  rw [← generate_effective, effective_eq_iff.2 h, generate_effective]

theorem dispatchOf_effective (names : List String) (m : HostMethod) : dispatchOf (effective target names) m =
    if m.name ∈ overridden target names then .script else if m.body.isSome then .super else .unsupported := by
  cases hbody : m.body with
  | none => simp [dispatchOf, mem_overridden, HostMethod.isAbstract, hbody]
  | some b => simp [dispatchOf, mem_overridden, HostMethod.isAbstract, hbody]

theorem dispatchOf_eq_script {overrides : List String} {m : HostMethod} :
    dispatchOf overrides m = .script ↔ m.name ∈ overrides := by
  simp only [dispatchOf, List.contains_iff_mem]
  split_ifs with hmem <;> simp [hmem]

theorem overridden_of_methods
    (h : (classOf target names classLevel).methods = (classOf target names' classLevel).methods) :
    overridden target names = overridden target names' := by
  have hdispatch : ∀ m ∈ target.methods,
      dispatchOf (effective target names) m = dispatchOf (effective target names') m := by
    intro m hm
    exact congrArg MethodEntry.dispatch (List.map_inj_left.1 h m hm)
  have hmem : ∀ {names names' : List String}, (∀ m ∈ target.methods,
      dispatchOf (effective target names) m = dispatchOf (effective target names') m) →
      ∀ name ∈ effective target names, name ∈ effective target names' := by
    intro names names' hsame name hname
    obtain ⟨-, m, hm, rfl⟩ := mem_effective.1 hname
    rw [← dispatchOf_eq_script] at hname ⊢
    rw [← hsame m (HostType.mem_overridable.1 hm).1, hname]
  ext name
  rw [mem_overridden, mem_overridden]
  exact ⟨hmem hdispatch name, hmem (fun m hm => (hdispatch m hm).symm) name⟩

/-! ## Generated bytes -/

theorem decode_generated (h : target.Generable) (hd : generate target names classLevel = .ok d) :
    ClassFile.decode d.bytes = .ok (classOf target names classLevel) :=
  ClassFile.decode_written (h names classLevel) (generate_ok hd).1

/-- What names override decides the bytes that are generated for them, and the bytes tell it. -/
theorem bytes_eq_iff (h : target.Generable) (hd : generate target names classLevel = .ok d)
    (hd' : generate target names' classLevel = .ok d') :
    d.bytes = d'.bytes ↔ overridden target names = overridden target names' := by
  constructor
  · intro hbytes
    have hread := decode_generated h hd
    rw [hbytes, decode_generated h hd'] at hread
    exact overridden_of_methods (congrArg ClassFile.methods (Except.ok.inj hread).symm)
  · intro hsame
    rw [generate_congr hsame, hd'] at hd
    rw [Except.ok.inj hd]

/-- The class that is generated for names, said of the target and the methods that they override. -/
def described (target : HostType) (names : List String) (classLevel : Bool) (className : String) : ClassFile where
  version := currentVersion
  name := className
  target := target.name
  kind := target.kind
  classLevel := classLevel
  refs := [Symbols.adapterServices, Symbols.scriptObject, Symbols.scriptFunction, Symbols.jsType, target.name]
  methods := target.methods.map fun m => ⟨m.name, m.signature,
    if m.name ∈ overridden target names then .script else if m.body.isSome then .super else .unsupported⟩
  annotations := some ⟨some target.domain.name, .empty⟩

theorem classOf_eq_described (hd : generate target names classLevel = .ok d) :
    classOf target names classLevel = described target names classLevel d.className := by
  simp only [classOf, classFile, described, dispatchOf_effective, (generate_ok hd).2.2.1]
  rfl

/-- The set of methods that names override decides the bytes that are generated for them, and the bytes tell the set.
They are read as the class of the target that sends just these methods to the script. -/
theorem bytes_determine (h : target.Generable) (classLevel : Bool) (names names' : List String) :
    ∃ d d', generate target names classLevel = .ok d ∧ generate target names' classLevel = .ok d' ∧
      (d.bytes = d'.bytes ↔ overridden target names = overridden target names') ∧
      (d.bytes = d'.bytes → d.className = d'.className ∧ d.overrides = d'.overrides) ∧
      (Ascending d.overrides ∧ d.overrides.toFinset = overridden target names) ∧
      ClassFile.decode d.bytes = .ok (described target names classLevel d.className) := by
  obtain ⟨d, hd⟩ := exists_generate (h names classLevel)
  obtain ⟨d', hd'⟩ := exists_generate (h names' classLevel)
  refine ⟨d, d', hd, hd', bytes_eq_iff h hd hd', fun hbytes => ?_, ?_, ?_⟩
  · rw [generate_congr ((bytes_eq_iff h hd hd').1 hbytes), hd'] at hd
    rw [Except.ok.inj hd]
    exact ⟨rfl, rfl⟩
  · rw [overrides_of_generate hd]
    refine ⟨ascending_sortNames _, ?_⟩
    ext name
    rw [List.mem_toFinset, mem_overridden]
  · rw [decode_generated h hd, classOf_eq_described hd]

/-- A class with a method of each kind: one without a body, one with a body, one that is final. -/
def panel : HostType where
  name := "ui.Panel"
  kind := .classType
  domain := .trusted "ui"
  methods := [⟨"draw", ⟨.object, [.int]⟩, false, none⟩, ⟨"size", ⟨.int, []⟩, false, some 0⟩,
    ⟨"id", ⟨.long, []⟩, true, some 1⟩, ⟨"label", ⟨.object, []⟩, false, none⟩]

theorem bytes_determine_panel : panel.Generable ∧
    ∃ d d', generate panel ["size", "draw", "id", "draw", "paint"] true = .ok d ∧
      generate panel ["draw", "size"] true = .ok d' ∧ d.bytes = d'.bytes ∧ d.overrides = ["draw", "size"] ∧
      ∃ d'', generate panel ["draw"] true = .ok d'' ∧ d.bytes ≠ d''.bytes := by
  have hgenerable : panel.Generable := by decide +kernel
  obtain ⟨d, d', hd, hd', hbytes, -⟩ :=
    bytes_determine hgenerable true ["size", "draw", "id", "draw", "paint"] ["draw", "size"]
  obtain ⟨e, d'', he, hd'', hother, -⟩ :=
    bytes_determine hgenerable true ["size", "draw", "id", "draw", "paint"] ["draw"]
  obtain rfl := Except.ok.inj (hd.symm.trans he)
  refine ⟨hgenerable, d, d', hd, hd', hbytes.2 (by decide +kernel), ?_, d'', hd'', fun hsame => ?_⟩
  · rw [overrides_of_generate hd]
    decide +kernel
  · exact absurd (hother.1 hsame) (by decide +kernel)

end Descriptor

end ScriptHost
