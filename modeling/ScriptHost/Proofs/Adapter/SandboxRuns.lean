import ScriptHost.Proofs.Adapter.SandboxEffects

/-!
# Runs that make, use and drop sandboxes

Every world that a run reaches is well formed (`Reachable.wellFormed`): numbers and modules are not given
out twice, and the engine exports its two runtime packages, and no other, to the module of each live
sandbox. The end of a sandbox may be the end of its parents too, so what is live is asked of a sandbox
together with those that it keeps alive (`lineage`).
-/

namespace ScriptHost

mutual

/-- A sandbox and those that its parents keep alive. -/
def Sandbox.lineage : Sandbox → List Sandbox
  | ⟨id, context, descriptor, parent, domain, module⟩ =>
    ⟨id, context, descriptor, parent, domain, module⟩ :: parent.lineage

def Parent.lineage : Parent → List Sandbox
  | .publishing cls => cls.lineage
  | .engine | .classPath | .broken => []

def AdapterClass.lineage : AdapterClass → List Sandbox
  | ⟨s, _, _⟩ => s.lineage

end

/-! ## Chains of parents -/

def Parent.held : Parent → List Sandbox
  | .publishing cls => [cls.sandbox]
  | .engine | .classPath | .broken => []

section

variable {P : Sandbox → Prop}

mutual

theorem Sandbox.byParent (h : ∀ s, (∀ p ∈ s.parent.held, P p) → P s) : ∀ s, P s
  | ⟨_, _, _, parent, _, _⟩ => h _ (Parent.byParent h parent)

theorem Parent.byParent (h : ∀ s, (∀ p ∈ s.parent.held, P p) → P s) : ∀ p : Parent, ∀ s ∈ p.held, P s
  | .publishing cls, _, hs => List.mem_singleton.1 hs ▸ AdapterClass.byParent h cls
  | .engine, _, hs | .classPath, _, hs | .broken, _, hs => nomatch hs

theorem AdapterClass.byParent (h : ∀ s, (∀ p ∈ s.parent.held, P p) → P s) : ∀ c : AdapterClass, P c.sandbox
  | ⟨s, _, _⟩ => Sandbox.byParent h s

end

end

theorem Sandbox.lineage_eq (s : Sandbox) : s.lineage = s :: s.parent.lineage := by
  cases s
  rw [Sandbox.lineage]

theorem Parent.lineage_eq (p : Parent) : p.lineage = p.held.flatMap Sandbox.lineage := by
  cases p with
  | publishing cls =>
    obtain ⟨s, file, overrides⟩ := cls
    simp [Parent.lineage, AdapterClass.lineage, held]
  | _ => simp [Parent.lineage, held]

theorem Sandbox.mem_lineage {s t : Sandbox} : t ∈ s.lineage ↔ t = s ∨ ∃ p ∈ s.parent.held, t ∈ p.lineage := by
  rw [lineage_eq, Parent.lineage_eq, List.mem_cons, List.mem_flatMap]

theorem Sandbox.mem_lineage_self (s : Sandbox) : s ∈ s.lineage := mem_lineage.2 (.inl rfl)

theorem Sandbox.mem_lineage_trans {s t : Sandbox} (hs : s ∈ t.lineage) (u : Sandbox) :
    t ∈ u.lineage → s ∈ u.lineage := by
  refine Sandbox.byParent (P := fun u => t ∈ u.lineage → s ∈ u.lineage) (fun u ih ht => ?_) u
  rcases mem_lineage.1 ht with rfl | ⟨p, hp, ht⟩
  · exact hs
  · exact mem_lineage.2 (.inr ⟨p, hp, ih p hp ht⟩)

/-- A sandbox has fewer sandboxes above it than one that it keeps from going. -/
theorem Sandbox.lineage_length_lt {s p : Sandbox} (hp : p ∈ s.parent.held) : p.lineage.length < s.lineage.length := by
  rw [lineage_eq s, Parent.lineage_eq, List.length_cons, Nat.lt_succ_iff]
  obtain ⟨l, l', heq⟩ := List.append_of_mem hp
  rw [heq, List.flatMap_append, List.flatMap_cons, List.length_append, List.length_append]
  omega

namespace World

theorem release_eq (w : World) (s : Sandbox) :
    w.release s =
      match w.sandboxes.get? s.id with
      | none => w
      | some live =>
        if live.handles ≤ 1 then (w.forget s.id s.context s.module).releaseParent s.parent
        else { w with sandboxes := w.sandboxes.put s.id { live with handles := live.handles - 1 } } := by
  cases s
  unfold release
  rfl

theorem releaseClass_eq (w : World) (c : AdapterClass) : w.releaseClass c = w.release c.sandbox := by
  cases c
  rw [releaseClass]

theorem releaseParent_eq (w : World) (p : Parent) : w.releaseParent p = p.held.foldl release w := by
  cases p with
  | publishing cls => rw [releaseParent, releaseClass_eq]; rfl
  | _ => rw [releaseParent]; rfl

/-- What relates a world to the ones that a count or the end of a sandbox leads to relates it to what giving up a
handle leads to. -/
theorem moves_release {R : World → World → Prop} (hrefl : ∀ w, R w w)
    (htrans : ∀ {w₁ w₂ w₃}, R w₁ w₂ → R w₂ w₃ → R w₁ w₃)
    (hcount : ∀ (w : World) (s : Sandbox) {l : LiveSandbox}, w.sandboxes.get? s.id = some l →
      R w { w with sandboxes := w.sandboxes.put s.id { l with handles := l.handles - 1 } })
    (hforget : ∀ (w : World) (s : Sandbox), R w (w.forget s.id s.context s.module)) :
    ∀ (s : Sandbox) (w : World), R w (w.release s) := by
  have hall : ∀ ps : List Sandbox, (∀ p ∈ ps, ∀ w : World, R w (w.release p)) → ∀ w, R w (ps.foldl release w) := by
    intro ps
    induction ps with
    | nil => exact fun _ w => hrefl w
    | cons p ps ih =>
      intro hps w
      rw [List.forall_mem_cons] at hps
      exact htrans (hps.1 w) (ih hps.2 (w.release p))
  refine Sandbox.byParent ?_
  intro s ih w
  rw [release_eq]
  cases hl : w.sandboxes.get? s.id with
  | none => exact hrefl w
  | some l =>
    dsimp only
    split
    · rw [releaseParent_eq]
      exact htrans (hforget w s) (hall _ ih _)
    · exact hcount w s hl

/-! ## Runs -/

/-- What may happen next in a world. A live sandbox can be used, and whoever makes a sandbox under an adapter
class holds that class. -/
inductive Step : World → World → Prop
  | create {w : World} (c : ContextId) (d : Descriptor) (parent : Parent) (domain : Domain)
      (hp : ∀ cls, parent = .publishing cls → w.Holds cls.sandbox) :
      Step w ((Sandbox.new c d parent domain).outcome w).2
  | load {w : World} {s : Sandbox} (hs : w.Holds s) (name : String) : Step w ((s.load name).outcome w).2
  | find {w : World} {s : Sandbox} (hs : w.Holds s) (name : String) : Step w ((s.find name).outcome w).2
  | retain {w : World} {s : Sandbox} (hs : w.Holds s) : Step w (w.retain s)
  | release {w : World} {s : Sandbox} (hs : w.Holds s) : Step w (w.release s)
  /-- Anything that makes and drops no sandbox, and leaves the module graphs alone. -/
  | other {w w' : World} (h : SameSandboxes w w') : Step w w'

inductive Reachable : World → Prop
  | init : Reachable {}
  | step {w w' : World} (hw : Reachable w) (h : Step w w') : Reachable w'

/-! ## Well-formed worlds -/

/-- The sandbox was made in this world, and no other one has its number. -/
def Genuine (w : World) (s : Sandbox) : Prop := s.id < w.nextSandbox ∧ ∀ t, w.sandbox? s.id = some t → t = s

structure WellFormed (w : World) : Prop where
  id : ∀ {id s}, w.sandbox? id = some s → s.id = id
  lineage : ∀ {id s}, w.sandbox? id = some s → ∀ t ∈ s.lineage, w.Genuine t
  module : ∀ {id s}, w.sandbox? id = some s → ∃ n < (w.graph s.context).nextAdapter, s.module = .adapter n
  /-- Within a context, the module tells the sandbox. -/
  distinct : ∀ {id id' s s'}, w.sandbox? id = some s → w.sandbox? id' = some s' → s.context = s'.context →
    s.module = s'.module → id = id'
  exports : ∀ {id s}, w.sandbox? id = some s → ∀ package,
    ⟨.engine, package, s.module⟩ ∈ (w.graph s.context).exports ↔
      package = Symbols.runtimePackage ∨ package = Symbols.linkerPackage
  /-- The next module of a graph has no edge yet. -/
  fresh : ∀ {c e n}, e ∈ (w.graph c).exports → e.target = .adapter n → n < (w.graph c).nextAdapter

theorem WellFormed.empty : WellFormed {} where
  id h := nomatch h
  lineage h := nomatch h
  module h := nomatch h
  distinct h := nomatch h
  exports h := nomatch h
  fresh h := nomatch h

variable {w w' : World} {s : Sandbox}

theorem WellFormed.canAccess_engine (hw : WellFormed w) (hs : w.Holds s) (package : String) :
    (w.graph s.context).canAccess s.module .engine package = true ↔
      package = Symbols.runtimePackage ∨ package = Symbols.linkerPackage := by
  obtain ⟨n, -, hm⟩ := hw.module hs
  have hself : (s.module == ModuleId.engine) = false := by
    rw [hm]
    exact beq_false_of_ne (ModuleId.adapter_ne_engine n)
  have hhost : (ModuleId.engine == ModuleId.host) = false := by decide
  rw [ModuleGraph.canAccess, hself, hhost, Bool.false_or, Bool.false_or, ModuleGraph.isExported_iff]
  exact hw.exports hs package

theorem SameSandboxes.genuine (h : SameSandboxes w w') (hs : w.Genuine s) : w'.Genuine s := by
  rwa [Genuine, h.next, h.sandbox]

theorem WellFormed.same (hw : WellFormed w) (h : SameSandboxes w w') : WellFormed w' where
  id hs := hw.id (h.sandbox _ ▸ hs)
  lineage hs t ht := h.genuine (hw.lineage (h.sandbox _ ▸ hs) t ht)
  module hs := h.graph _ ▸ hw.module (h.sandbox _ ▸ hs)
  distinct hs hs' := hw.distinct (h.sandbox _ ▸ hs) (h.sandbox _ ▸ hs')
  exports hs := h.graph _ ▸ hw.exports (h.sandbox _ ▸ hs)
  fresh he hn := h.graph _ ▸ hw.fresh (h.graph _ ▸ he) hn

/-! ### A sandbox is made -/

theorem mem_exports_grant {g : ModuleGraph} {m : ModuleId} {e : ExportEdge} :
    e ∈ (Sandbox.grant g m).exports ↔
      e ∈ g.exports ∨ e = ⟨.engine, Symbols.runtimePackage, m⟩ ∨ e = ⟨.engine, Symbols.linkerPackage, m⟩ := by
  show e ∈ ((g.addExport .engine Symbols.runtimePackage m).addExport .engine Symbols.linkerPackage m).exports ↔ _
  rw [ModuleGraph.mem_exports_addExport, ModuleGraph.mem_exports_addExport, or_assoc]

namespace Created

theorem cases (h : Created w w' s) {id : SandboxId} {t : Sandbox} (ht : w'.sandbox? id = some t) :
    id = s.id ∧ t = s ∨ w.sandbox? id = some t := by
  rw [h.sandbox] at ht
  split at ht
  · next hid => exact .inl ⟨hid.symm, (Option.some.inj ht).symm⟩
  · exact .inr ht

theorem mem_exports (h : Created w w' s) {c : ContextId} {e : ExportEdge} :
    e ∈ (w'.graph c).exports ↔ e ∈ (w.graph c).exports ∨ s.context = c ∧
      (e = ⟨.engine, Symbols.runtimePackage, s.module⟩ ∨ e = ⟨.engine, Symbols.linkerPackage, s.module⟩) := by
  rw [h.graph]
  by_cases hc : s.context = c
  · rw [if_pos hc, mem_exports_grant, and_iff_right hc]
    rfl
  · rw [if_neg hc]
    exact ⟨.inl, fun he => he.resolve_right fun h => hc h.1⟩

theorem nextAdapter_own (h : Created w w' s) :
    (w'.graph s.context).nextAdapter = (w.graph s.context).nextAdapter + 1 := by
  rw [h.graph, if_pos rfl]
  rfl

theorem nextAdapter_le (h : Created w w' s) (c : ContextId) :
    (w.graph c).nextAdapter ≤ (w'.graph c).nextAdapter := by
  by_cases hc : s.context = c
  · subst hc
    exact h.nextAdapter_own ▸ Nat.le_succ _
  · have hgraph : w'.graph c = w.graph c := by rw [h.graph, if_neg hc]
    exact hgraph ▸ Nat.le_refl _

theorem genuine (h : Created w w' s) {t : Sandbox} (ht : w.Genuine t) : w'.Genuine t := by
  refine ⟨h.next ▸ Nat.lt_succ_of_lt ht.1, fun t' ht' => ?_⟩
  rcases h.cases ht' with ⟨hid, -⟩ | ht'
  · have hlt := ht.1
    rw [hid, h.id] at hlt
    exact absurd hlt (Nat.lt_irrefl _)
  · exact ht.2 t' ht'

theorem holds (h : Created w w' s) : w'.Holds s := by
  rw [Holds, h.sandbox, if_pos rfl]

theorem genuine_self (h : Created w w' s) : w'.Genuine s := by
  refine ⟨?_, fun t ht => Option.some.inj (ht.symm.trans h.holds)⟩
  rw [h.id, h.next]
  exact Nat.lt_succ_self _

theorem module_ne (h : Created w w' s) (hw : WellFormed w) {id : SandboxId} {t : Sandbox}
    (ht : w.sandbox? id = some t) (hc : t.context = s.context) : t.module ≠ s.module := by
  obtain ⟨n, hn, ht⟩ := hw.module ht
  rw [ht, h.module]
  intro heq
  rw [hc, ModuleId.adapter_inj heq] at hn
  exact Nat.lt_irrefl _ hn

end Created

theorem WellFormed.created (hw : WellFormed w) (h : Created w w' s) (hp : ∀ t ∈ s.parent.lineage, w.Genuine t) :
    WellFormed w' where
  id ht := by
    rcases h.cases ht with ⟨rfl, rfl⟩ | ht
    · rfl
    · exact hw.id ht
  lineage ht t' ht' := by
    rcases h.cases ht with ⟨-, rfl⟩ | ht
    · rw [Sandbox.lineage_eq, List.mem_cons] at ht'
      rcases ht' with rfl | ht'
      · exact h.genuine_self
      · exact h.genuine (hp t' ht')
    · exact h.genuine (hw.lineage ht t' ht')
  module ht := by
    rcases h.cases ht with ⟨-, rfl⟩ | ht
    · exact ⟨_, h.nextAdapter_own ▸ Nat.lt_succ_self _, h.module⟩
    · obtain ⟨n, hn, ht⟩ := hw.module ht
      exact ⟨n, Nat.lt_of_lt_of_le hn (h.nextAdapter_le _), ht⟩
  distinct ht ht' hc hm := by
    rcases h.cases ht with ⟨rfl, rfl⟩ | ht <;> rcases h.cases ht' with ⟨rfl, rfl⟩ | ht'
    · rfl
    · exact absurd hm.symm (h.module_ne hw ht' hc.symm)
    · exact absurd hm (h.module_ne hw ht hc)
    · exact hw.distinct ht ht' hc hm
  exports ht package := by
    rw [h.mem_exports]
    -- the new module had no edge before, and the new edges lead to no older module
    rcases h.cases ht with ⟨-, heq⟩ | ht
    · rw [heq]
      have hfresh : ⟨.engine, package, s.module⟩ ∉ (w.graph s.context).exports :=
        fun he => Nat.lt_irrefl _ (hw.fresh he h.module)
      simp [hfresh]
    · rw [hw.exports ht]
      refine ⟨fun he => he.resolve_right fun ⟨hc, he⟩ => ?_, .inl⟩
      exact absurd (he.elim (congrArg ExportEdge.target) (congrArg ExportEdge.target)) (h.module_ne hw ht hc.symm)
  fresh he hn := by
    rcases h.mem_exports.1 he with he | ⟨rfl, hnew⟩
    · exact Nat.lt_of_lt_of_le (hw.fresh he hn) (h.nextAdapter_le _)
    · rw [hnew.elim (congrArg ExportEdge.target) (congrArg ExportEdge.target), h.module] at hn
      rw [h.nextAdapter_own, ← ModuleId.adapter_inj hn]
      exact Nat.lt_succ_self _

/-! ### A sandbox goes -/

namespace Forgotten

theorem sandbox_of (h : Forgotten w w' s) {id : SandboxId} {t : Sandbox} (ht : w'.sandbox? id = some t) :
    s.id ≠ id ∧ w.sandbox? id = some t := by
  rw [h.sandbox] at ht
  split at ht
  · cases ht
  · next hid => exact ⟨hid, ht⟩

theorem mem_exports (h : Forgotten w w' s) {c : ContextId} {e : ExportEdge} :
    e ∈ (w'.graph c).exports ↔
      e ∈ (w.graph c).exports ∧ (s.context = c → e.owner ≠ s.module ∧ e.target ≠ s.module) := by
  rw [h.graph]
  by_cases hc : s.context = c
  · rw [if_pos hc, ModuleGraph.mem_exports_removeModule, imp_iff_right hc]
  · rw [if_neg hc]
    exact ⟨fun he => ⟨he, fun hc' => absurd hc' hc⟩, And.left⟩

theorem nextAdapter (h : Forgotten w w' s) (c : ContextId) :
    (w'.graph c).nextAdapter = (w.graph c).nextAdapter := by
  rw [h.graph]
  split <;> rfl

theorem genuine (h : Forgotten w w' s) {t : Sandbox} (ht : w.Genuine t) : w'.Genuine t :=
  ⟨h.next ▸ ht.1, fun t' ht' => ht.2 t' (h.sandbox_of ht').2⟩

end Forgotten

theorem WellFormed.forgotten (hw : WellFormed w) (h : Forgotten w w' s) (hs : w.Holds s) : WellFormed w' where
  id ht := hw.id (h.sandbox_of ht).2
  lineage ht t' ht' := h.genuine (hw.lineage (h.sandbox_of ht).2 t' ht')
  module ht := h.nextAdapter _ ▸ hw.module (h.sandbox_of ht).2
  distinct ht ht' := hw.distinct (h.sandbox_of ht).2 (h.sandbox_of ht').2
  exports ht package := by
    obtain ⟨hid, ht⟩ := h.sandbox_of ht
    rw [h.mem_exports, hw.exports ht]
    refine and_iff_left fun hc => ⟨?_, fun hm => hid (hw.distinct hs ht hc hm.symm)⟩
    obtain ⟨n, -, hm⟩ := hw.module hs
    rw [hm]
    exact (ModuleId.adapter_ne_engine n).symm
  fresh he hn := h.nextAdapter _ ▸ hw.fresh (h.mem_exports.1 he).1 hn

theorem WellFormed.release :
    ∀ (s : Sandbox) {w : World}, WellFormed w → (∀ t ∈ s.lineage, w.Genuine t) → WellFormed (w.release s) := by
  refine Sandbox.byParent fun s ih w hw hs => ?_
  rw [Sandbox.lineage_eq, List.forall_mem_cons] at hs
  -- a sandbox that ends is the one that the world holds under its number; its parent is next
  rcases w.release_cases s with h | ⟨t, w', ht, h, hrel⟩
  · exact hw.same h
  · rw [hs.1.2 t ht] at ht
    have hw' : WellFormed w' := hw.forgotten h ht
    rw [hrel, releaseParent_eq]
    cases hp : s.parent with
    | publishing cls =>
      rw [hp] at ih hs
      refine ih cls.sandbox (List.mem_singleton_self _) hw' fun t ht => h.genuine (hs.2 t ?_)
      exact (Parent.lineage_eq _).symm ▸ List.mem_flatMap.2 ⟨cls.sandbox, List.mem_singleton_self _, ht⟩
    | engine | classPath | broken => exact hw'

/-! ### Every run -/

theorem WellFormed.step (hw : WellFormed w) (h : Step w w') : WellFormed w' := by
  cases h with
  | create c d parent domain hp =>
    rcases Sandbox.new_outcome c d parent domain w with ⟨f, hf⟩ | ⟨w', ho, hnew⟩
    · rw [hf]
      exact hw
    · rw [ho]
      refine hw.created hnew ?_
      cases parent with
      | publishing cls =>
        obtain ⟨s', file, overrides⟩ := cls
        exact hw.lineage (hp _ rfl)
      | engine | classPath | broken => exact fun t ht => nomatch ht
  | load hs name => exact hw.same (Sandbox.keeps_load _ name _)
  | find hs name => exact hw.same (Sandbox.keeps_find _ name _)
  | retain hs => exact hw.same (sameSandboxes_retain _ _)
  | release hs => exact WellFormed.release _ hw (hw.lineage hs)
  | other h => exact hw.same h

theorem Reachable.wellFormed (hw : Reachable w) : WellFormed w := by
  induction hw with
  | init => exact .empty
  | step _ h ih => exact ih.step h

theorem Reachable.onThread (hw : Reachable w) (f : Thread → Thread) : Reachable (Engine.onThread f w) :=
  .step hw (.other ⟨rfl, fun _ => rfl, fun _ => rfl⟩)

theorem Reachable.ensuring_release {α : Type} {x : EngineM α} (hw : Reachable w) (hs : w.Holds s) (hx : Keeps x) :
    Reachable ((x.ensuring fun w => w.release s).outcome w).2 :=
  .step (.step hw (.other (hx w))) (.release (((hx w).sandbox s.id).trans hs))

end World
end ScriptHost
