import ScriptHost.Adapter.Modules
import ScriptHost.Proofs.Text.Numbered

/-!
# Edges of the module graph

Modules of adapters are numbered and differ from the engine's. An export is there once it
was added, and goes only with one of the two modules that it joins.
-/

namespace ScriptHost

namespace ModuleId

theorem adapter_inj {n k : Nat} (h : adapter n = adapter k) : n = k :=
  Text.append_toString_inj (p := "scopelink.adapters.unnamed$") (congrArg ModuleId.name h)

theorem getElem?_name_adapter (n : Nat) : (adapter n).name.toList[10]? = some 'a' := by
  show ("scopelink.adapters.unnamed$" ++ toString n).toList[10]? = _
  exact Text.getElem?_append (by decide)

theorem adapter_ne_engine (n : Nat) : adapter n ≠ engine := by
  intro h
  have hchar := getElem?_name_adapter n
  rw [h] at hchar
  exact absurd hchar (by decide)

end ModuleId

namespace ModuleGraph

theorem mem_withMember {α : Type} [DecidableEq α] {x y : α} {xs : List α} :
    y ∈ withMember x xs ↔ y ∈ xs ∨ y = x := by
  rw [withMember]
  split
  · next h =>
    constructor
    · exact Or.inl
    · rintro (hy | rfl)
      · exact hy
      · exact h
  · simp

theorem isExported_iff (g : ModuleGraph) (owner : ModuleId) (package : String) (target : ModuleId) :
    g.isExported owner package target = true ↔ ⟨owner, package, target⟩ ∈ g.exports := by
  rw [isExported, List.contains_iff_mem]

theorem mem_exports_addExport {g : ModuleGraph} {owner target : ModuleId} {package : String} {e : ExportEdge} :
    e ∈ (g.addExport owner package target).exports ↔ e ∈ g.exports ∨ e = ⟨owner, package, target⟩ :=
  mem_withMember

theorem mem_exports_removeModule {g : ModuleGraph} {m : ModuleId} {e : ExportEdge} :
    e ∈ (g.removeModule m).exports ↔ e ∈ g.exports ∧ e.owner ≠ m ∧ e.target ≠ m := by
  simp [removeModule]

end ModuleGraph
end ScriptHost
