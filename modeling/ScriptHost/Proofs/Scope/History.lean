import Mathlib.Logic.Relation
import ScriptHost.Proofs.Run
import ScriptHost.Proofs.Scope.Survey

/-!
# Histories of a module builder

Other than opening classes, everything that can be asked of a builder comes down to three changes
(`Change`): a finished method is added to a class, a name counter moves, and a unit whose method is in
place becomes known as shared. What holds of every builder (`Consistent`) and what no later request undoes
(`Grows`) is proved once for each change. Every request is a row of changes (`Builds`), also when it fails
halfway.
-/

namespace ScriptHost

open Relation

namespace ModuleBuilder

def new (name : String) (thresholds : Thresholds) : ModuleBuilder := { name, thresholds }

/-! ## Changes -/

/-- One change of a builder with the classes that it has. -/
inductive Change : ModuleBuilder → ModuleBuilder → Prop where
  | addMethod {b : ModuleBuilder} {i : Nat} {c c' : ClassBody} {m : Method} (hc : b.units[i]? = some c)
    (hm : c.add m = .ok c') : Change b { b with units := b.units.set i c' }
  | count (b : ModuleBuilder) (nextGet nextCall : UInt32) : Change b { b with nextGet, nextCall }
  | share {b : ModuleBuilder} {c : ClassBody} {u : SharedUnit} (hc : c ∈ b.units) (hn : c.name = u.cls)
    (hm : u.method ∈ c.methods) : Change b { b with shared := b.shared ++ [u] }

abbrev Evolves : ModuleBuilder → ModuleBuilder → Prop := ReflTransGen Change

/-- Every class has methods of its own and of distinct names, and the method of each shared unit is in
the class that the unit names. -/
structure Consistent (b : ModuleBuilder) : Prop where
  names : ∀ c ∈ b.units, (c.methods.map Method.name).Nodup
  owned : ∀ u ∈ b.shared, ∃ c ∈ b.units, c.name = u.cls ∧ u.method ∈ c.methods

/-- What stays: thresholds, classes with their methods, and shared units. -/
structure Grows (b b' : ModuleBuilder) : Prop where
  thresholds : b'.thresholds = b.thresholds
  classes : ∀ (i : Nat) (c : ClassBody), b.units[i]? = some c →
    ∃ c' : ClassBody, b'.units[i]? = some c' ∧ c'.name = c.name ∧ ∀ m ∈ c.methods, m ∈ c'.methods
  shared : ∀ u ∈ b.shared, u ∈ b'.shared

theorem add_ok {c c' : ClassBody} {m : Method} (h : c.add m = .ok c') :
    c' = { c with methods := c.methods ++ [m] } ∧ m.name ∉ c.methods.map Method.name := by
  simp only [ClassBody.add] at h
  split at h
  · cases h
  · split at h
    · cases h
    · next hnew =>
      refine ⟨(Except.ok.inj h).symm, ?_⟩
      intro hmem
      obtain ⟨m', hm', he⟩ := List.mem_map.1 hmem
      exact hnew (List.any_eq_true.2 ⟨m', hm', by simp [he]⟩)

theorem Change.grows {b b' : ModuleBuilder} (h : Change b b') : Grows b b' := by
  cases h with
  | @addMethod i c c' m hc hm =>
    obtain ⟨rfl, -⟩ := add_ok hm
    refine ⟨rfl, fun j d hj => ?_, fun u hu => hu⟩
    by_cases hij : i = j
    · subst hij
      have hlt := (List.getElem?_eq_some_iff.1 hc).1
      obtain rfl : c = d := Option.some.inj (hc.symm.trans hj)
      exact ⟨{ c with methods := c.methods ++ [m] }, by rw [List.getElem?_set_self hlt], rfl,
        fun m hm => List.mem_append_left _ hm⟩
    · exact ⟨d, by rw [List.getElem?_set_ne hij, hj], rfl, fun m hm => hm⟩
  | count nextGet nextCall => exact ⟨rfl, fun i c hi => ⟨c, hi, rfl, fun m hm => hm⟩, fun u hu => hu⟩
  | share hc hn hm =>
    exact ⟨rfl, fun i c hi => ⟨c, hi, rfl, fun m hm => hm⟩, fun u hu => List.mem_append_left _ hu⟩

theorem Grows.refl (b : ModuleBuilder) : Grows b b :=
  ⟨rfl, fun _ c hi => ⟨c, hi, rfl, fun _ hm => hm⟩, fun _ hu => hu⟩

theorem Grows.trans {a b c : ModuleBuilder} (h₁ : Grows a b) (h₂ : Grows b c) : Grows a c := by
  refine ⟨h₂.thresholds.trans h₁.thresholds, fun i x hi => ?_, fun u hu => h₂.shared u (h₁.shared u hu)⟩
  obtain ⟨y, hy, hyn, hym⟩ := h₁.classes i x hi
  obtain ⟨z, hz, hzn, hzm⟩ := h₂.classes i y hy
  exact ⟨z, hz, hzn.trans hyn, fun m hm => hzm m (hym m hm)⟩

theorem Evolves.grows {b b' : ModuleBuilder} (h : Evolves b b') : Grows b b' := by
  induction h with
  | refl => exact Grows.refl b
  | tail _ hc ih => exact ih.trans hc.grows

theorem Grows.mem {b b' : ModuleBuilder} (h : Grows b b') {c : ClassBody} (hc : c ∈ b.units) :
    ∃ c' ∈ b'.units, c'.name = c.name ∧ ∀ m ∈ c.methods, m ∈ c'.methods := by
  obtain ⟨i, hi, rfl⟩ := List.mem_iff_getElem.1 hc
  obtain ⟨c', hc', hn, hm⟩ := h.classes i _ (List.getElem?_eq_getElem hi)
  exact ⟨c', List.mem_of_getElem? hc', hn, hm⟩

theorem Grows.owned {b b' : ModuleBuilder} (h : Grows b b') (hb : Consistent b) (u : SharedUnit)
    (hu : u ∈ b.shared) : ∃ c ∈ b'.units, c.name = u.cls ∧ u.method ∈ c.methods := by
  obtain ⟨c, hc, hn, hm⟩ := hb.owned u hu
  obtain ⟨c', hc', hn', hm'⟩ := h.mem hc
  exact ⟨c', hc', hn'.trans hn, hm' _ hm⟩

theorem Change.consistent {b b' : ModuleBuilder} (h : Change b b') (hb : Consistent b) : Consistent b' := by
  have hold := h.grows.owned hb
  cases h with
  | addMethod hc hm =>
    obtain ⟨rfl, hnew⟩ := add_ok hm
    refine ⟨fun d hd => ?_, hold⟩
    rcases List.mem_or_eq_of_mem_set hd with hd | rfl
    · exact hb.names d hd
    · have hnodup := hb.names _ (List.mem_of_getElem? hc)
      simp only [List.map_append, List.map_cons, List.map_nil]
      refine List.nodup_append.2 ⟨hnodup, by simp, fun x hx y hy => ?_⟩
      rintro rfl
      exact hnew (List.mem_singleton.1 hy ▸ hx)
  | count nextGet nextCall => exact ⟨hb.names, hold⟩
  | @share c u hc hn hm =>
    refine ⟨hb.names, fun v hv => ?_⟩
    rcases List.mem_append.1 hv with hv | hv
    · exact hold v hv
    · cases List.mem_singleton.1 hv
      exact ⟨c, hc, hn, hm⟩

theorem Evolves.consistent {b b' : ModuleBuilder} (h : Evolves b b') (hb : Consistent b) : Consistent b' := by
  induction h with
  | refl => exact hb
  | tail _ hc ih => exact hc.consistent ih

theorem Change.names {b b' : ModuleBuilder} (h : Change b b') :
    b'.units.map ClassBody.name = b.units.map ClassBody.name := by
  cases h with
  | @addMethod i c c' m hc hm =>
    obtain ⟨rfl, -⟩ := add_ok hm
    apply List.ext_getElem?
    intro j
    rw [List.getElem?_map, List.getElem?_map]
    by_cases hj : i = j
    · subst hj
      rw [List.getElem?_set_self (List.getElem?_eq_some_iff.1 hc).1, hc]
      rfl
    · rw [List.getElem?_set_ne hj]
  | count nextGet nextCall => rfl
  | share hc hn hm => rfl

theorem Evolves.names {b b' : ModuleBuilder} (h : Evolves b b') :
    b'.units.map ClassBody.name = b.units.map ClassBody.name := by
  induction h with
  | refl => rfl
  | tail _ hc ih => exact hc.names.trans ih

def opened (b : ModuleBuilder) (cls : String) : ModuleBuilder := { b with units := b.units ++ [⟨cls, []⟩] }

theorem grows_opened (b : ModuleBuilder) (cls : String) : Grows b (b.opened cls) := by
  refine ⟨rfl, fun i c hi => ?_, fun u hu => hu⟩
  have hlt := (List.getElem?_eq_some_iff.1 hi).1
  exact ⟨c, by rw [opened, List.getElem?_append_left hlt, hi], rfl, fun m hm => hm⟩

theorem Consistent.opened {b : ModuleBuilder} (hb : Consistent b) (cls : String) :
    Consistent (b.opened cls) := by
  refine ⟨fun c hc => ?_, (grows_opened b cls).owned hb⟩
  rcases List.mem_append.1 hc with hc | hc
  · exact hb.names c hc
  · cases List.mem_singleton.1 hc
    exact List.nodup_nil

theorem consistent_new (name : String) (t : Thresholds) : Consistent (new name t) :=
  ⟨by simp [new], by simp [new]⟩

/-! ## What each request does -/

/-- Every run of the computation, whether it succeeds or not, is a row of changes. -/
abbrev Builds {α : Type} (x : Build α) : Prop := Run.Moves Evolves x

theorem outcome_unit (i : Nat) (b : ModuleBuilder) :
    ((unit i).outcome b).2 = b ∧ ∀ c, ((unit i).outcome b).1 = .ok c ↔ b.units[i]? = some c := by
  simp only [unit, Run.outcome_bind, Run.outcome_get]
  cases b.units[i]? <;> simp

theorem outcome_unit_some {i : Nat} {b : ModuleBuilder} {c : ClassBody} (hc : b.units[i]? = some c) :
    (unit i).outcome b = (.ok c, b) :=
  Prod.ext (((outcome_unit i b).2 c).2 hc) (outcome_unit i b).1

theorem outcome_unit_none {i : Nat} {b : ModuleBuilder} (hnone : b.units[i]? = none) :
    ∃ f, (unit i).outcome b = (.error f, b) := by
  simp [unit, Run.outcome_bind, hnone]

theorem unit_ok {i : Nat} {b b' : ModuleBuilder} {c : ClassBody} (h : (unit i).outcome b = (.ok c, b')) :
    b' = b ∧ b.units[i]? = some c := by
  have hu := outcome_unit i b
  rw [h] at hu
  exact ⟨hu.1, (hu.2 c).1 rfl⟩

theorem builds_unit (i : Nat) : Builds (unit i) := by
  intro b
  rw [(outcome_unit i b).1]

theorem addMethod_ok {i : Nat} {m : Method} {b b' : ModuleBuilder}
    (h : (addMethod i m).outcome b = (.ok (), b')) :
    ∃ c c', b.units[i]? = some c ∧ c.add m = .ok c' ∧ b' = { b with units := b.units.set i c' } := by
  obtain ⟨c, b₁, hu, hadd⟩ := Run.outcome_bind_ok h
  obtain ⟨rfl, hc⟩ := unit_ok hu
  cases hm : c.add m with
  | ok c' =>
    rw [hm] at hadd
    cases hadd
    exact ⟨c, c', hc, hm, rfl⟩
  | error e =>
    rw [hm] at hadd
    cases hadd

theorem builds_addMethod (i : Nat) (m : Method) : Builds (addMethod i m) := by
  intro b
  simp only [addMethod, Run.outcome_bind]
  have hu := outcome_unit i b
  rcases hrun : (unit i).outcome b with ⟨r, b'⟩
  rw [hrun] at hu
  obtain rfl := hu.1
  cases r with
  | error f => exact .refl
  | ok c =>
    have hc := (hu.2 c).1 rfl
    dsimp only
    cases hm : c.add m with
    | ok c' => exact .single (.addMethod hc hm)
    | error e => exact .refl

/-- What the names of shared units for reads and for calls start with. -/
def unitPrefix (isCall : Bool) : String := if isCall then ":scopeCall$" else ":scopeGet$"

def unitName (isCall : Bool) (n : Nat) : String := unitPrefix isCall ++ toString n

/-- The number of the next shared unit for reads or for calls. -/
def counter (b : ModuleBuilder) (isCall : Bool) : Nat := (if isCall then b.nextCall else b.nextGet).toNat

/-- There is a number for one more shared unit for reads or for calls. -/
def Room (b : ModuleBuilder) (isCall : Bool) : Prop := b.counter isCall + 1 < UInt32.size

instance (b : ModuleBuilder) (isCall : Bool) : Decidable (b.Room isCall) := inferInstanceAs (Decidable (_ < _))

/-- The builder with a number used up. -/
def counted (b : ModuleBuilder) (isCall : Bool) : ModuleBuilder :=
  if isCall then { b with nextCall := b.nextCall + 1 } else { b with nextGet := b.nextGet + 1 }

theorem outcome_freshName {b : ModuleBuilder} {isCall : Bool} (hroom : b.Room isCall) :
    (freshName isCall).outcome b = (.ok (unitName isCall (b.counter isCall)), b.counted isCall) := by
  unfold Room counter at hroom
  unfold freshName countedUp
  rw [Run.outcome_of, if_pos hroom]
  cases isCall <;> rfl

theorem outcome_freshName_full {b : ModuleBuilder} {isCall : Bool} (hfull : ¬b.Room isCall) :
    (freshName isCall).outcome b = (.error .overflow, b) := by
  unfold Room counter at hfull
  unfold freshName countedUp
  rw [Run.outcome_of, if_neg hfull]

theorem builds_freshName (isCall : Bool) : Builds (freshName isCall) := by
  intro b
  by_cases hroom : b.Room isCall
  · rw [outcome_freshName hroom]
    cases isCall
    · exact .single (.count b (b.nextGet + 1) b.nextCall)
    · exact .single (.count b b.nextGet (b.nextCall + 1))
  · rw [outcome_freshName_full hroom]

/-- Make the shared unit of a shape in a class that it names. -/
def makeUnit (i : Nat) (s : Shape) (cls : String) : Build SharedUnit := do
  let name ← freshName s.isCall
  addMethod i (⟨s, cls, name⟩ : SharedUnit).method
  modify fun b => { b with shared := b.shared ++ [⟨s, cls, name⟩] }
  return ⟨s, cls, name⟩

theorem sharedUnit_eq (i : Nat) (s : Shape) :
    sharedUnit i s = (do
      let c ← unit i
      if s.symbol.isDynamic then
        throw (Fault.panic ("shared scope call requested for dynamically scoped symbol '" ++ s.symbol.name ++ "'"))
      else
        let b ← get
        match b.findShared s with
        | some u => return u
        | none =>
          match if s.isCall then s.callOperands else .ok 0 with
          | .error e => Run.fail e
          | .ok _ => makeUnit i s c.name) := by
  rw [sharedUnit]
  congr 1
  funext c
  by_cases hd : s.symbol.isDynamic
  · rw [if_pos hd, if_pos hd, Run.throw_bind]
  · rw [if_neg hd, if_neg hd]
    dsimp only
    congr 1
    funext b
    cases b.findShared s with
    | some u => rfl
    | none =>
      dsimp only
      by_cases hcall : s.isCall
      · rw [if_pos hcall, if_pos hcall]
        cases s.callOperands with
        | error e => dsimp only; rw [Run.fail_bind]
        | ok n => rfl
      · rw [if_neg hcall, if_neg hcall]
        rfl

theorem builds_makeUnit {i : Nat} {c : ClassBody} (s : Shape) {b : ModuleBuilder} (hc : b.units[i]? = some c) :
    Evolves b ((makeUnit i s c.name).outcome b).2 := by
  have hfresh := builds_freshName s.isCall b
  rw [makeUnit, Run.outcome_bind]
  rcases hrun : (freshName s.isCall).outcome b with ⟨r, b₁⟩
  rw [hrun] at hfresh
  cases r with
  | error f => exact hfresh
  | ok name =>
    dsimp only
    have hadd := builds_addMethod i (⟨s, c.name, name⟩ : SharedUnit).method b₁
    rw [Run.outcome_bind]
    rcases hrun' : (addMethod i (⟨s, c.name, name⟩ : SharedUnit).method).outcome b₁ with ⟨r', b₂⟩
    rw [hrun'] at hadd
    cases r' with
    | error f => exact hfresh.trans hadd
    | ok _ =>
      obtain ⟨d, d', hd, hm, rfl⟩ := addMethod_ok hrun'
      obtain ⟨d₁, hd₁, hn₁, -⟩ := hfresh.grows.classes i c hc
      obtain rfl : d = d₁ := Option.some.inj (hd.symm.trans hd₁)
      obtain ⟨rfl, -⟩ := add_ok hm
      refine (hfresh.trans hadd).tail
        (.share (c := ⟨d.name, d.methods ++ [(⟨s, c.name, name⟩ : SharedUnit).method]⟩) ?_ hn₁ ?_)
      · exact List.mem_of_getElem? (List.getElem?_set_self (List.getElem?_eq_some_iff.1 hd).1)
      · exact List.mem_append_right _ (List.mem_singleton_self _)

theorem makeUnit_ok {i : Nat} {s : Shape} {cls : String} {b b' : ModuleBuilder} {u : SharedUnit}
    (h : (makeUnit i s cls).outcome b = (.ok u, b')) : u ∈ b'.shared ∧ u.shape = s := by
  obtain ⟨name, b₁, -, h₁⟩ := Run.outcome_bind_ok h
  obtain ⟨_, b₂, -, h₂⟩ := Run.outcome_bind_ok h₁
  cases h₂
  exact ⟨List.mem_append_right _ (List.mem_singleton_self _), rfl⟩

theorem builds_sharedUnit (i : Nat) (s : Shape) : Builds (sharedUnit i s) := by
  intro b
  rw [sharedUnit_eq, Run.outcome_bind]
  have hu := outcome_unit i b
  rcases hrun : (unit i).outcome b with ⟨r, b'⟩
  rw [hrun] at hu
  obtain rfl := hu.1
  cases r with
  | error f => exact .refl
  | ok c =>
    have hc := (hu.2 c).1 rfl
    dsimp only
    by_cases hd : s.symbol.isDynamic
    · rw [if_pos hd]
      exact .refl
    · rw [if_neg hd, Run.outcome_bind, Run.outcome_get]
      dsimp only
      cases b'.findShared s with
      | some u => exact .refl
      | none =>
        dsimp only
        cases if s.isCall then s.callOperands else .ok 0 with
        | error e => exact .refl
        | ok n => exact builds_makeUnit s hc

theorem findShared_some {b : ModuleBuilder} {s : Shape} {u : SharedUnit} (h : b.findShared s = some u) :
    u ∈ b.shared ∧ u.shape = s :=
  ⟨List.mem_of_find?_eq_some h, by simpa using List.find?_some h⟩

theorem findShared_none {b : ModuleBuilder} {s : Shape} :
    b.findShared s = none ↔ s ∉ b.shared.map SharedUnit.shape := by
  rw [findShared, List.find?_eq_none]
  simp

theorem sharedUnit_ok {i : Nat} {s : Shape} {b b' : ModuleBuilder} {u : SharedUnit}
    (h : (sharedUnit i s).outcome b = (.ok u, b')) : u ∈ b'.shared ∧ u.shape = s := by
  rw [sharedUnit_eq] at h
  obtain ⟨c, b₁, -, h₁⟩ := Run.outcome_bind_ok h
  by_cases hd : s.symbol.isDynamic
  · rw [if_pos hd] at h₁
    cases h₁
  · rw [if_neg hd, Run.outcome_bind, Run.outcome_get] at h₁
    dsimp only at h₁
    cases hf : b₁.findShared s with
    | some v =>
      rw [hf] at h₁
      cases h₁
      exact findShared_some hf
    | none =>
      rw [hf] at h₁
      dsimp only at h₁
      cases hop : (if s.isCall then s.callOperands else .ok 0) with
      | error e =>
        rw [hop] at h₁
        cases h₁
      | ok n =>
        rw [hop] at h₁
        exact makeUnit_ok h₁

end ModuleBuilder
end ScriptHost
