import Mathlib.Data.List.Nodup
import ScriptHost.Proofs.Scope.Batch
import ScriptHost.Proofs.Text.Numbered

/-!
# Where shared units come from

A request for a shared unit does one of three things: it fails and leaves the builder as it is, it finds the
unit of the shape, or it makes the unit, which adds one method to the class it was asked for
(`sharedUnit_cases`). In a builder whose methods all come from such requests and from lowered sites, shared
units and methods with names of shared units correspond one to one (`Canonical`), and a request keeps every
method in its place (`Extends`).
-/

namespace ScriptHost

/-- Names of shared units start with a colon. -/
def Method.isShared (m : Method) : Bool := m.name.toList[0]? == some ':'

namespace ModuleBuilder

/-! ## Names of units -/

theorem units_counted (b : ModuleBuilder) (isCall : Bool) : (b.counted isCall).units = b.units := by
  cases isCall <;> rfl

theorem getElem?_units_counted {b : ModuleBuilder} {i : Nat} {c : ClassBody} (hc : b.units[i]? = some c)
    (isCall : Bool) : (b.counted isCall).units[i]? = some c := by
  rw [units_counted, hc]

theorem shared_counted (b : ModuleBuilder) (isCall : Bool) : (b.counted isCall).shared = b.shared := by
  cases isCall <;> rfl

theorem counter_counted {b : ModuleBuilder} {isCall : Bool} (hroom : b.Room isCall) (isCall' : Bool) :
    (b.counted isCall).counter isCall' = b.counter isCall' + if isCall == isCall' then 1 else 0 := by
  unfold Room at hroom
  cases isCall <;> cases isCall' <;> simp [counter, counted] at hroom ⊢ <;> omega

theorem counter_le_counted {b : ModuleBuilder} {isCall : Bool} (hroom : b.Room isCall) (isCall' : Bool) :
    b.counter isCall' ≤ (b.counted isCall).counter isCall' := by
  rw [counter_counted hroom]
  exact Nat.le_add_right _ _

theorem getElem?_unitName (isCall : Bool) (n : Nat) :
    (unitName isCall n).toList[6]? = some (if isCall then 'C' else 'G') := by
  cases isCall <;> exact Text.getElem?_append (by decide)

theorem unitName_inj {isCall isCall' : Bool} {n n' : Nat} (h : unitName isCall n = unitName isCall' n') :
    isCall = isCall' ∧ n = n' := by
  have hkind : isCall = isCall' := by
    have hchar := getElem?_unitName isCall n
    rw [h, getElem?_unitName] at hchar
    cases isCall <;> cases isCall' <;> first | rfl | exact absurd hchar (by decide)
  subst hkind
  exact ⟨rfl, Text.append_toString_inj h⟩

theorem isShared_unit {m : Method} {isCall : Bool} {n : Nat} (h : m.name = unitName isCall n) :
    m.isShared = true := by
  have hchar : (unitName isCall n).toList[0]? = some ':' := by
    cases isCall <;> exact Text.getElem?_append (by decide)
  rw [Method.isShared, h, hchar]
  rfl

theorem isShared_site {m : Method} {index : Nat} (h : m.name = "site$" ++ toString index) :
    m.isShared = false := by
  have hchar : ("site$" ++ toString index).toList[0]? = some 's' := Text.getElem?_append (by decide)
  rw [Method.isShared, h, hchar]
  rfl

/-! ## Methods in their places -/

/-- The class at place `i` has the method at place `j`. -/
def MethodAt (b : ModuleBuilder) (i j : Nat) (m : Method) : Prop :=
  ∃ c, b.units[i]? = some c ∧ c.methods[j]? = some m

/-- All methods of the classes whose names are those of shared units. -/
def sharedMethods (b : ModuleBuilder) : List Method := (b.units.flatMap ClassBody.methods).filter Method.isShared

def withMethod (b : ModuleBuilder) (i : Nat) (c : ClassBody) (m : Method) : ModuleBuilder :=
  { b with units := b.units.set i { c with methods := c.methods ++ [m] } }

variable {b b' : ModuleBuilder} {i : Nat} {c : ClassBody} {m : Method}

theorem MethodAt.congr (h : b'.units = b.units) {j : Nat} : MethodAt b' i j m ↔ MethodAt b i j m := by
  rw [MethodAt, MethodAt, h]

theorem methodAt_withMethod (hc : b.units[i]? = some c) {i' j : Nat} {m' : Method} :
    MethodAt (b.withMethod i c m) i' j m' ↔
      MethodAt b i' j m' ∨ i' = i ∧ j = c.methods.length ∧ m' = m := by
  have hlt := (List.getElem?_eq_some_iff.1 hc).1
  unfold MethodAt withMethod
  by_cases hi : i = i'
  · subst hi
    simp only [List.getElem?_set_self hlt, hc, Option.some.injEq, exists_eq_left', true_and]
    rw [List.getElem?_append]
    by_cases hj : j < c.methods.length
    · rw [if_pos hj]
      exact ⟨.inl, fun h => h.elim id fun h => absurd h.1 (Nat.ne_of_lt hj)⟩
    · rw [if_neg hj, List.getElem?_eq_none (Nat.le_of_not_lt hj), List.getElem?_singleton]
      split
      · next h0 =>
        have : j = c.methods.length := by omega
        simp [this, eq_comm]
      · next h0 =>
        have : j ≠ c.methods.length := by omega
        simp [this]
  · simp [List.getElem?_set_ne hi, Ne.symm hi]

theorem flatMap_set_append {cs : List ClassBody} (hc : cs[i]? = some c) (m : Method) :
    ((cs.set i { c with methods := c.methods ++ [m] }).flatMap ClassBody.methods).Perm
      (m :: cs.flatMap ClassBody.methods) := by
  induction cs generalizing i with
  | nil => cases hc
  | cons d cs ih =>
    cases i with
    | zero =>
      obtain rfl : d = c := Option.some.inj hc
      rw [List.set_cons_zero, List.flatMap_cons, List.flatMap_cons, List.append_assoc]
      exact List.perm_middle
    | succ i =>
      rw [List.set_cons_succ, List.flatMap_cons, List.flatMap_cons]
      exact ((ih hc).append_left d.methods).trans List.perm_middle

theorem sharedMethods_withMethod (hc : b.units[i]? = some c) (m : Method) :
    (b.withMethod i c m).sharedMethods.Perm (if m.isShared then m :: b.sharedMethods else b.sharedMethods) := by
  have h := (flatMap_set_append hc m).filter Method.isShared
  rwa [List.filter_cons] at h

theorem mem_sharedMethods {j : Nat} (h : MethodAt b i j m) (hm : m.isShared = true) : m ∈ b.sharedMethods := by
  obtain ⟨c, hc, hj⟩ := h
  refine List.mem_filter.2 ⟨List.mem_flatMap.2 ⟨c, List.mem_of_getElem? hc, List.mem_of_getElem? hj⟩, hm⟩

theorem addMethod_cases (i : Nat) (m : Method) (b : ModuleBuilder) :
    (∃ f, (addMethod i m).outcome b = (.error f, b)) ∨
      ∃ c, b.units[i]? = some c ∧ (addMethod i m).outcome b = (.ok (), b.withMethod i c m) := by
  have hu := outcome_unit i b
  rw [addMethod, Run.outcome_bind]
  rcases hrun : (unit i).outcome b with ⟨r, b₁⟩
  rw [hrun] at hu
  obtain rfl : b₁ = b := hu.1
  cases r with
  | error f => exact .inl ⟨f, rfl⟩
  | ok c =>
    dsimp only
    cases hm : c.add m with
    | error e => exact .inl ⟨_, rfl⟩
    | ok c' =>
      obtain ⟨rfl, -⟩ := add_ok hm
      exact .inr ⟨c, (hu.2 c).1 rfl, rfl⟩

theorem addMethod_new (hc : b.units[i]? = some c) (hcls : m.cls = c.name)
    (hnew : ∀ m' ∈ c.methods, m'.name ≠ m.name) :
    (addMethod i m).outcome b = (.ok (), b.withMethod i c m) := by
  have hadd : c.add m = .ok { c with methods := c.methods ++ [m] } := by
    have hany : ¬(c.methods.any fun m' => m'.name == m.name) = true := by
      rw [List.any_eq_true]
      rintro ⟨m', hm', he⟩
      exact hnew m' hm' (beq_iff_eq.1 he)
    rw [ClassBody.add, if_neg (not_not_intro hcls), if_neg hany]
  rw [addMethod, Run.outcome_bind, outcome_unit_some hc]
  dsimp only
  rw [hadd]
  rfl

/-! ## Canonical builders -/

/-- Shared units and the methods with their names correspond one to one, and the names are numbered. -/
structure Canonical (b : ModuleBuilder) : Prop where
  shapes : (b.shared.map SharedUnit.shape).Nodup
  numbered : ∀ u ∈ b.shared, ∃ n < b.counter u.shape.isCall, u.name = unitName u.shape.isCall n
  names : (b.shared.map SharedUnit.name).Nodup
  emitted : b.sharedMethods.Perm (b.shared.map SharedUnit.method)
  unique : ∀ {i j i' j' : Nat} {m m' : Method}, MethodAt b i j m → MethodAt b i' j' m' → m.isShared = true →
    m.name = m'.name → i = i' ∧ j = j'

/-- What requests for the shapes `asked` do at place `i`: methods stay where they are, and the units that are
new are for these shapes and have their methods in the class at place `i`. -/
structure Extends (i : Nat) (asked : Shape → Prop) (b b' : ModuleBuilder) : Prop where
  kept : ∀ {i' j : Nat} {m : Method}, MethodAt b i' j m → MethodAt b' i' j m
  classes : b'.units.map ClassBody.name = b.units.map ClassBody.name
  shared : ∀ u ∈ b.shared, u ∈ b'.shared
  made : ∀ u ∈ b'.shared, u ∈ b.shared ∨ asked u.shape ∧ (∃ j, MethodAt b' i j u.method) ∧
    (b'.units.map ClassBody.name)[i]? = some u.cls

/-- A canonical builder stays one, and goes on as `Extends` says. -/
def Proceeds (i : Nat) (asked : Shape → Prop) (b b' : ModuleBuilder) : Prop :=
  Canonical b → Canonical b' ∧ Extends i asked b b'

variable {asked : Shape → Prop}

theorem Extends.refl (b : ModuleBuilder) : Extends i asked b b :=
  ⟨id, rfl, fun _ => id, fun _ => .inl⟩

theorem Extends.trans {a b c : ModuleBuilder} (h₁ : Extends i asked a b) (h₂ : Extends i asked b c) :
    Extends i asked a c := by
  refine ⟨fun h => h₂.kept (h₁.kept h), h₂.classes.trans h₁.classes, fun u hu => h₂.shared u (h₁.shared u hu),
    fun u hu => ?_⟩
  rcases h₂.made u hu with hu | hu
  · rcases h₁.made u hu with hu | ⟨ha, ⟨j, hj⟩, hcls⟩
    · exact .inl hu
    · exact .inr ⟨ha, ⟨j, h₂.kept hj⟩, h₂.classes ▸ hcls⟩
  · exact .inr hu

theorem Proceeds.refl (b : ModuleBuilder) : Proceeds i asked b b := fun hb => ⟨hb, .refl b⟩

theorem Proceeds.trans {a b c : ModuleBuilder} (h₁ : Proceeds i asked a b) (h₂ : Proceeds i asked b c) :
    Proceeds i asked a c := by
  intro ha
  obtain ⟨hb, hab⟩ := h₁ ha
  obtain ⟨hc, hbc⟩ := h₂ hb
  exact ⟨hc, hab.trans hbc⟩

theorem canonical_new (name : String) (t : Thresholds) : Canonical (new name t) where
  shapes := List.nodup_nil
  numbered _ hu := nomatch hu
  names := List.nodup_nil
  emitted := .nil
  unique h := by
    obtain ⟨c, hc, -⟩ := h
    cases hc

theorem Canonical.findShared (hb : Canonical b) {u : SharedUnit} (hu : u ∈ b.shared) {v : SharedUnit}
    (hv : v ∈ b.shared) (h : u.shape = v.shape) : u = v :=
  List.inj_on_of_nodup_map hb.shapes hu hv h

/-- A method with the name of a shared unit is the method of one. -/
theorem Canonical.owner (hb : Canonical b) {j : Nat} (h : MethodAt b i j m) (hm : m.isShared = true) :
    ∃ u ∈ b.shared, u.method = m :=
  List.mem_map.1 (hb.emitted.mem_iff.1 (mem_sharedMethods h hm))

theorem isShared_method (hb : Canonical b) {u : SharedUnit} (hu : u ∈ b.shared) : u.method.isShared = true := by
  obtain ⟨n, -, hn⟩ := hb.numbered u hu
  exact isShared_unit (m := u.method) hn

/-! ## Opening classes and adding sites -/

theorem methodAt_opened {cls : String} {j : Nat} : MethodAt (b.opened cls) i j m ↔ MethodAt b i j m := by
  unfold MethodAt opened
  dsimp only
  rw [List.getElem?_append]
  split
  · rfl
  · next hlt =>
    rw [List.getElem?_eq_none (Nat.le_of_not_lt hlt), List.getElem?_singleton]
    split
    · simp [eq_comm]
    · simp

theorem Canonical.opened (hb : Canonical b) (cls : String) : Canonical (b.opened cls) where
  shapes := hb.shapes
  numbered := hb.numbered
  names := hb.names
  emitted := by
    have h : (b.opened cls).sharedMethods = b.sharedMethods := by
      simp [sharedMethods, ModuleBuilder.opened]
    rw [h]
    exact hb.emitted
  unique h h' := hb.unique (methodAt_opened.1 h) (methodAt_opened.1 h')

theorem Canonical.withSite (hb : Canonical b) (hc : b.units[i]? = some c) (hm : m.isShared = false) :
    Canonical (b.withMethod i c m) where
  shapes := hb.shapes
  numbered := hb.numbered
  names := hb.names
  emitted := by
    have h := sharedMethods_withMethod hc m
    rw [hm] at h
    exact h.trans hb.emitted
  unique h h' hs he := by
    -- a name of a shared unit is neither that of the new method nor the same as it
    rcases (methodAt_withMethod hc).1 h with h | ⟨-, -, rfl⟩
    · rcases (methodAt_withMethod hc).1 h' with h' | ⟨-, -, rfl⟩
      · exact hb.unique h h' hs he
      · rw [Method.isShared, he] at hs
        rw [Method.isShared, hs] at hm
        cases hm
    · rw [hm] at hs
      cases hs

theorem classes_withMethod (hc : b.units[i]? = some c) (m : Method) :
    (b.withMethod i c m).units.map ClassBody.name = b.units.map ClassBody.name := by
  obtain ⟨hlt, rfl⟩ := List.getElem?_eq_some_iff.1 hc
  rw [withMethod, List.map_set]
  dsimp only
  rw [← List.getElem_map ClassBody.name (h := by simpa using hlt), List.set_getElem_self]

theorem extends_withMethod (hc : b.units[i]? = some c) (m : Method) :
    Extends i asked b (b.withMethod i c m) :=
  ⟨fun h => (methodAt_withMethod hc).2 (.inl h), classes_withMethod hc m, fun _ => id, fun _ => .inl⟩

theorem proceeds_addMethod (hm : m.isShared = false) : Run.Moves (Proceeds i asked) (addMethod i m) := by
  intro b
  rcases addMethod_cases i m b with ⟨f, hf⟩ | ⟨c, hc, hok⟩
  · rw [hf]
    exact .refl b
  · rw [hok]
    exact fun hb => ⟨hb.withSite hc hm, extends_withMethod hc m⟩

/-! ## Making units -/

/-- The unit that the builder makes next for a shape, in a class. -/
def nextUnit (b : ModuleBuilder) (s : Shape) (cls : String) : SharedUnit :=
  ⟨s, cls, unitName s.isCall (b.counter s.isCall)⟩

def withUnit (b : ModuleBuilder) (i : Nat) (c : ClassBody) (s : Shape) : ModuleBuilder :=
  { (b.counted s.isCall).withMethod i c (b.nextUnit s c.name).method with
    shared := b.shared ++ [b.nextUnit s c.name] }

theorem methodAt_withUnit (hc : b.units[i]? = some c) (s : Shape) {i' j : Nat} :
    MethodAt (b.withUnit i c s) i' j m ↔
      MethodAt b i' j m ∨ i' = i ∧ j = c.methods.length ∧ m = (b.nextUnit s c.name).method := by
  have h : MethodAt ((b.counted s.isCall).withMethod i c (b.nextUnit s c.name).method) i' j m ↔ _ :=
    methodAt_withMethod (getElem?_units_counted hc s.isCall)
  rw [MethodAt.congr (units_counted b s.isCall)] at h
  exact h

theorem Canonical.name_ne_nextUnit (hb : Canonical b) {u : SharedUnit} (hu : u ∈ b.shared) (s : Shape)
    (cls : String) : u.name ≠ (b.nextUnit s cls).name := by
  intro h
  obtain ⟨n, hlt, hn⟩ := hb.numbered u hu
  obtain ⟨hkind, rfl⟩ := unitName_inj (hn.symm.trans h)
  rw [hkind] at hlt
  exact Nat.lt_irrefl _ hlt

theorem Canonical.methodAt_ne_nextUnit (hb : Canonical b) {j : Nat} (h : MethodAt b i j m) (s : Shape)
    (cls : String) : m.name ≠ (b.nextUnit s cls).name := by
  intro hn
  obtain ⟨u, hu, rfl⟩ := hb.owner h (isShared_unit hn)
  exact hb.name_ne_nextUnit hu s cls hn

theorem sharedMethods_withUnit (hc : b.units[i]? = some c) (s : Shape) :
    (b.withUnit i c s).sharedMethods.Perm ((b.nextUnit s c.name).method :: b.sharedMethods) := by
  have hperm := sharedMethods_withMethod (getElem?_units_counted hc s.isCall) (b.nextUnit s c.name).method
  have hsame : (b.counted s.isCall).sharedMethods = b.sharedMethods := by
    rw [sharedMethods, sharedMethods, units_counted]
  rw [if_pos (isShared_unit (m := (b.nextUnit s c.name).method) rfl), hsame] at hperm
  exact hperm

theorem nodup_map_concat {α β : Type} {f : α → β} {l : List α} {a : α} (hl : (l.map f).Nodup)
    (ha : ∀ x ∈ l, f x ≠ f a) : ((l ++ [a]).map f).Nodup := by
  rw [List.map_append]
  refine List.nodup_append.2 ⟨hl, List.nodup_singleton _, fun x hx y hy => ?_⟩
  obtain ⟨z, hz, rfl⟩ := List.mem_map.1 hx
  obtain rfl : y = f a := List.mem_singleton.1 hy
  exact ha z hz

/-- Shared units have distinct shapes, and names with numbers that have been used up. This holds of every builder, also
when other methods were added to its classes. -/
structure Numbered (b : ModuleBuilder) : Prop where
  shapes : (b.shared.map SharedUnit.shape).Nodup
  names : ∀ u ∈ b.shared, ∃ n < b.counter u.shape.isCall, u.name = unitName u.shape.isCall n

theorem Canonical.toNumbered (hb : Canonical b) : Numbered b := ⟨hb.shapes, hb.numbered⟩

theorem Numbered.withUnit (hb : Numbered b) (i : Nat) (c : ClassBody) {s : Shape} (hs : b.findShared s = none)
    (hroom : b.Room s.isCall) : Numbered (b.withUnit i c s) where
  shapes := nodup_map_concat (a := b.nextUnit s c.name) hb.shapes fun u hu he => by
    have hfound := List.find?_eq_none.1 hs u hu
    exact hfound (decide_eq_true he)
  names u hu := by
    have hcounter : ∀ isCall, b.counter isCall ≤ (b.withUnit i c s).counter isCall :=
      counter_le_counted hroom
    rcases List.mem_append.1 hu with hu | hu
    · obtain ⟨n, hlt, hn⟩ := hb.names u hu
      exact ⟨n, Nat.lt_of_lt_of_le hlt (hcounter _), hn⟩
    · obtain rfl := List.mem_singleton.1 hu
      refine ⟨b.counter s.isCall, ?_, rfl⟩
      show b.counter s.isCall < (b.counted s.isCall).counter s.isCall
      rw [counter_counted hroom, beq_self_eq_true, if_pos rfl]
      exact Nat.lt_succ_self _

theorem Canonical.withUnit (hb : Canonical b) (hc : b.units[i]? = some c) {s : Shape}
    (hs : b.findShared s = none) (hroom : b.Room s.isCall) : Canonical (b.withUnit i c s) where
  shapes := (hb.toNumbered.withUnit i c hs hroom).shapes
  numbered := (hb.toNumbered.withUnit i c hs hroom).names
  names := nodup_map_concat hb.names fun u hu => hb.name_ne_nextUnit hu s c.name
  emitted := by
    show (b.withUnit i c s).sharedMethods.Perm ((b.shared ++ [b.nextUnit s c.name]).map SharedUnit.method)
    rw [List.map_append]
    exact ((sharedMethods_withUnit hc s).trans (hb.emitted.cons _)).trans (List.perm_append_singleton _ _).symm
  unique h h' hm he := by
    -- the new method is the only one under its name
    rcases (methodAt_withUnit hc s).1 h with h | ⟨rfl, rfl, rfl⟩
    · rcases (methodAt_withUnit hc s).1 h' with h' | ⟨-, -, rfl⟩
      · exact hb.unique h h' hm he
      · exact absurd he (hb.methodAt_ne_nextUnit h s c.name)
    · rcases (methodAt_withUnit hc s).1 h' with h' | ⟨rfl, rfl, -⟩
      · exact absurd he.symm (hb.methodAt_ne_nextUnit h' s c.name)
      · exact ⟨rfl, rfl⟩

theorem extends_withUnit (hc : b.units[i]? = some c) (s : Shape) : Extends i (· = s) b (b.withUnit i c s) := by
  have hclasses : (b.withUnit i c s).units.map ClassBody.name = b.units.map ClassBody.name := by
    rw [← units_counted b s.isCall]
    exact classes_withMethod (getElem?_units_counted hc s.isCall) _
  refine ⟨fun h => (methodAt_withUnit hc s).2 (.inl h), hclasses, fun u hu => List.mem_append_left _ hu,
    fun u hu => ?_⟩
  rcases List.mem_append.1 hu with hu | hu
  · exact .inl hu
  · obtain rfl := List.mem_singleton.1 hu
    refine .inr ⟨rfl, ⟨_, (methodAt_withUnit hc s).2 (.inr ⟨rfl, rfl, rfl⟩)⟩, ?_⟩
    rw [hclasses, List.getElem?_map, hc]
    rfl

theorem makeUnit_fresh (hc : b.units[i]? = some c) {s : Shape} (hroom : b.Room s.isCall)
    (hnew : ∀ m' ∈ c.methods, m'.name ≠ (b.nextUnit s c.name).name) :
    (makeUnit i s c.name).outcome b = (.ok (b.nextUnit s c.name), b.withUnit i c s) := by
  have hadd : (addMethod i (⟨s, c.name, unitName s.isCall (b.counter s.isCall)⟩ : SharedUnit).method).outcome
      (b.counted s.isCall) = (.ok (), (b.counted s.isCall).withMethod i c (b.nextUnit s c.name).method) :=
    addMethod_new (getElem?_units_counted hc s.isCall) rfl hnew
  rw [makeUnit, Run.outcome_bind, outcome_freshName hroom]
  dsimp only
  rw [Run.outcome_bind, hadd, ModuleBuilder.withUnit, ← shared_counted b s.isCall]
  rfl

theorem makeUnit_full {s : Shape} (hfull : ¬b.Room s.isCall) (cls : String) :
    (makeUnit i s cls).outcome b = (.error .overflow, b) := by
  rw [makeUnit, Run.outcome_bind, outcome_freshName_full hfull]

theorem makeUnit_new (hb : Canonical b) (hc : b.units[i]? = some c) {s : Shape} (hroom : b.Room s.isCall) :
    (makeUnit i s c.name).outcome b = (.ok (b.nextUnit s c.name), b.withUnit i c s) := by
  refine makeUnit_fresh hc hroom fun m' hm' => ?_
  obtain ⟨j, hj⟩ := List.mem_iff_getElem?.1 hm'
  exact hb.methodAt_ne_nextUnit ⟨c, hc, hj⟩ s c.name

theorem outcome_sharedUnit (hc : b.units[i]? = some c) {s : Shape} (hd : s.symbol.isDynamic = false)
    (hop : ∃ n, (if s.isCall then s.callOperands else .ok 0) = .ok n) :
    (sharedUnit i s).outcome b =
      match b.findShared s with
      | some u => (.ok u, b)
      | none => (makeUnit i s c.name).outcome b := by
  obtain ⟨n, hn⟩ := hop
  rw [sharedUnit_eq, Run.outcome_bind, outcome_unit_some hc]
  dsimp only
  rw [if_neg (by rw [hd]; decide), Run.outcome_bind, Run.outcome_get]
  dsimp only
  cases b.findShared s with
  | some u => rfl
  | none =>
    dsimp only
    rw [hn]

/-- A request for a shared unit fails and changes nothing, or gives the unit that is there, or makes one. -/
theorem sharedUnit_cases (hb : Canonical b) (i : Nat) (s : Shape) :
    (∃ f, (sharedUnit i s).outcome b = (.error f, b)) ∨
      (∃ u ∈ b.shared, (sharedUnit i s).outcome b = (.ok u, b)) ∨
        ∃ c, b.units[i]? = some c ∧ b.findShared s = none ∧ b.Room s.isCall ∧
          (sharedUnit i s).outcome b = (.ok (b.nextUnit s c.name), b.withUnit i c s) := by
  have hu := outcome_unit i b
  rw [sharedUnit_eq, Run.outcome_bind]
  rcases hrun : (unit i).outcome b with ⟨r, b₁⟩
  rw [hrun] at hu
  obtain rfl : b₁ = b := hu.1
  cases r with
  | error f => exact .inl ⟨f, rfl⟩
  | ok c =>
    have hc := (hu.2 c).1 rfl
    dsimp only
    by_cases hd : s.symbol.isDynamic
    · rw [if_pos hd]
      exact .inl ⟨_, rfl⟩
    · rw [if_neg hd, Run.outcome_bind, Run.outcome_get]
      dsimp only
      cases hf : b₁.findShared s with
      | some u => exact .inr (.inl ⟨u, (findShared_some hf).1, rfl⟩)
      | none =>
        dsimp only
        cases if s.isCall then s.callOperands else .ok 0 with
        | error e => exact .inl ⟨_, rfl⟩
        | ok n =>
          by_cases hroom : b₁.Room s.isCall
          · exact .inr (.inr ⟨c, hc, rfl, hroom, makeUnit_new hb hc hroom⟩)
          · exact .inl ⟨_, makeUnit_full hroom c.name⟩

theorem proceeds_sharedUnit (i : Nat) {s : Shape} (hs : asked s) :
    Run.Moves (Proceeds i asked) (sharedUnit i s) := by
  intro b hb
  rcases sharedUnit_cases hb i s with ⟨f, hf⟩ | ⟨u, -, hu⟩ | ⟨c, hc, hnone, hroom, hmade⟩
  · rw [hf]
    exact Proceeds.refl b hb
  · rw [hu]
    exact Proceeds.refl b hb
  · rw [hmade]
    refine ⟨hb.withUnit hc hnone hroom, ?_⟩
    have h := extends_withUnit hc s
    refine ⟨h.kept, h.classes, h.shared, fun u hu => ?_⟩
    rcases h.made u hu with hu | ⟨rfl, hmethod, hcls⟩
    · exact .inl hu
    · exact .inr ⟨hs, hmethod, hcls⟩

/-! ## Lowering -/

theorem proceeds_unitFor (i : Nat) (census : Census) {s : Site} (hs : asked s.shape) :
    Run.Moves (Proceeds i asked) (unitFor i census s) := by
  refine (Run.moves_get .refl).bind .trans fun b => ?_
  by_cases hshares : sharesSite b.thresholds (census.count s.shape) s
  · rw [if_pos hshares]
    exact (proceeds_sharedUnit i hs).map some
  · rw [if_neg hshares]
    exact Run.moves_pure .refl none

theorem proceeds_emitSite (i index : Nat) (s : Site) (shared : Option SharedUnit) :
    Run.Moves (Proceeds i asked) (emitSite i index s shared) := by
  have hunit : Run.Moves (Proceeds i asked) (unit i) := by
    intro b
    rw [(outcome_unit i b).1]
    exact .refl b
  refine hunit.bind .trans fun c => ?_
  cases hm : s.method c.name ("site$" ++ toString index) shared with
  | error e => exact Run.moves_fail .refl e
  | ok m =>
    exact (proceeds_addMethod (isShared_site (method_ok hm).2.1)).bind .trans fun _ => Run.moves_pure .refl _

theorem proceeds_lowerSite (i : Nat) (census : Census) (index : Nat) {s : Site} (hs : asked s.shape) :
    Run.Moves (Proceeds i asked) (lowerSite i census index s) := by
  rw [lowerSite_eq]
  exact (proceeds_unitFor i census hs).bind .trans fun shared => proceeds_emitSite i index s shared

theorem proceeds_lower (i : Nat) (sites : List Site) :
    Run.Moves (Proceeds i (· ∈ sites.map Site.shape)) (lower i sites) :=
  moves_lower .refl .trans fun census k _ hs _ => proceeds_lowerSite i census k (List.mem_map_of_mem hs)

end ModuleBuilder
end ScriptHost
