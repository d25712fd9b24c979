import Mathlib.Data.List.Nodup
import ScriptHost.Adapter.Instance

/-!
# Which methods go to the script

A generated class lists the methods of its target, and sends those to the script that the implementations covered
when it was generated. For a type that has one method of each name these are the methods that are covered and not
final (`Descriptor.dispatchOf_names`), and implementations that have not changed cover the same methods and give
the same functions (`Overrides.Unchanged`).
-/

namespace ScriptHost

/-! ## Sorted names -/

theorem mem_insertName {x y : String} {xs : List String} : y ∈ insertName x xs ↔ y = x ∨ y ∈ xs := by
  induction xs with
  | nil => simp [insertName]
  | cons z zs ih =>
    rw [insertName]
    split
    · simp
    · next hxz =>
      split
      · rw [List.mem_cons, ih, List.mem_cons, or_left_comm]
      · next hzx =>
        have hxz : x = z := Text.eq_of_not_before (by simpa using hxz) (by simpa using hzx)
        simp [hxz]

theorem mem_sortNames {x : String} {xs : List String} : x ∈ sortNames xs ↔ x ∈ xs := by
  induction xs with
  | nil => rfl
  | cons y ys ih =>
    rw [sortNames, List.foldr_cons, mem_insertName, ← sortNames, ih, List.mem_cons]

/-! ## Methods of host types -/

namespace HostType

/-- The type has one method of each name at most. Adding methods keeps this, as a method takes the place of an earlier
one of its name. -/
def Distinct (t : HostType) : Prop := (t.methods.map HostMethod.name).Nodup

theorem distinct_empty (name : String) (kind : TypeKind) (domain : Domain) : (empty name kind domain).Distinct :=
  List.nodup_nil

variable {t : HostType} {m m' : HostMethod} {name : String}

theorem Distinct.withMethod (h : t.Distinct) (m : HostMethod) : (t.withMethod m).Distinct := by
  rw [Distinct, HostType.withMethod, List.map_append, List.nodup_append]
  refine ⟨h.sublist (List.filter_sublist.map _), List.nodup_singleton _, ?_⟩
  rintro _ hm' _ hm rfl
  obtain ⟨m', hm', hname⟩ := List.mem_map.1 hm'
  rw [List.map_singleton, List.mem_singleton] at hm
  simp [hname, hm] at hm'

theorem Distinct.eq (h : t.Distinct) (hm : m ∈ t.methods) (hm' : m' ∈ t.methods) (hname : m'.name = m.name) :
    m' = m := List.inj_on_of_nodup_map h hm' hm hname

theorem method?_some (h : t.method? name = some m) : m ∈ t.methods ∧ m.name = name :=
  ⟨List.mem_of_find?_eq_some h, by simpa using List.find?_some h⟩

theorem mem_overridable : m ∈ t.overridable ↔ m ∈ t.methods ∧ m.isFinal = false := by
  rw [overridable, List.mem_filter, Bool.not_eq_true']

end HostType

/-! ## Generated classes -/

section

variable {t : HostType} {m : HostMethod} {ov : Overrides} {h : Heap}

theorem Overrides.mem_names {name : String} :
    name ∈ ov.names h t ↔ ∃ m ∈ t.overridable, ov.covers h m = true ∧ m.name = name := by
  simp only [names, mem_sortNames, List.mem_map, List.mem_filter, and_assoc]

theorem Descriptor.mem_effective {requested : List String} {name : String} :
    name ∈ effective t requested ↔ name ∈ requested ∧ ∃ m ∈ t.overridable, m.name = name := by
  simp only [effective, mem_sortNames, List.mem_map, List.mem_filter, List.contains_iff_mem]
  constructor
  · rintro ⟨m, ⟨hm, hrequested⟩, rfl⟩
    exact ⟨hrequested, m, hm, rfl⟩
  · rintro ⟨hrequested, m, hm, rfl⟩
    exact ⟨m, ⟨hm, hrequested⟩, rfl⟩

theorem Descriptor.mem_effective_names (ht : t.Distinct) (hm : m ∈ t.methods) :
    m.name ∈ effective t (ov.names h t) ↔ m.isFinal = false ∧ ov.covers h m = true := by
  rw [mem_effective, Overrides.mem_names]
  constructor
  · rintro ⟨⟨m', hm', hcovers, hname⟩, -⟩
    obtain ⟨hmem, hfinal⟩ := HostType.mem_overridable.1 hm'
    obtain rfl := ht.eq hm hmem hname
    exact ⟨hfinal, hcovers⟩
  · rintro ⟨hfinal, hcovers⟩
    have hm' := HostType.mem_overridable.2 ⟨hm, hfinal⟩
    exact ⟨⟨m, hm', hcovers, rfl⟩, m, hm', rfl⟩

theorem Descriptor.dispatchOf_names (ht : t.Distinct) (hm : m ∈ t.methods) :
    dispatchOf (effective t (ov.names h t)) m =
      if m.isFinal = false ∧ ov.covers h m = true then .script
      else if m.isAbstract then .unsupported else .super := by
  simp only [dispatchOf, List.contains_iff_mem, mem_effective_names ht hm]

end

/-! ## Implementations that do not change -/

theorem Heap.findFrom_congr {h h' : Heap} {name : String} {cs : List Cell} :
    ∀ {c : Cell}, (∀ c' ∈ c :: cs, h'.own? c'.id name = h.own? c'.id name) →
      h'.findFrom name c cs = h.findFrom name c cs := by
  induction cs with
  | nil =>
    intro c hc
    rw [findFrom, findFrom, hc c (List.mem_singleton_self c)]
  | cons p ps ih =>
    intro c hc
    rw [findFrom, findFrom, hc c (List.mem_cons_self ..), ih fun c' hc' => hc c' (List.mem_cons_of_mem _ hc')]

namespace Overrides

def Unchanged (ov : Overrides) (h h' : Heap) : Prop :=
  ∀ o, ov = .object o → ∀ c ∈ o.cell :: o.ancestors, ∀ name, h'.own? c.id name = h.own? c.id name

variable {ov : Overrides} {h h' : Heap}

theorem Unchanged.functionFor (hu : ov.Unchanged h h') (method : String) :
    ov.functionFor h' method = ov.functionFor h method := by
  cases ov with
  | function f => rfl
  | object o =>
    have hfind : h'.find? o method = h.find? o method :=
      Heap.findFrom_congr fun c hc => hu o rfl c hc method
    rw [Overrides.functionFor, Overrides.functionFor, functionIn, functionIn, hfind]

theorem Unchanged.covers (hu : ov.Unchanged h h') (m : HostMethod) : ov.covers h' m = ov.covers h m := by
  cases ov with
  | function f => rfl
  | object o => exact congrArg Option.isSome (hu.functionFor m.name)

theorem exists_functionFor {m : HostMethod} (hc : ov.covers h m = true) :
    ∃ f, ov.functionFor h m.name = some f := by
  cases ov with
  | function f => exact ⟨f, rfl⟩
  | object o => exact Option.isSome_iff_exists.1 hc

end Overrides

end ScriptHost
