import Mathlib.Data.List.Perm.Basic
import Mathlib.Data.List.Nodup
import ScriptHost.Proofs.Adapter.SandboxRuns

/-!
# What holds on to sandboxes

A sandbox is live as long as something leads to it: a handle, or a live sandbox whose class was published to it as
its parent. The engine keeps a number for each live sandbox. `Balanced` says that the number is how many
references there are, given those from outside (`rs`), and that nothing else is live; `Granted` that the module
graphs hold the edges of the live sandboxes, each once, and no others. Both are kept by whatever gives out or gives
up a reference (`Exact`). A sandbox that goes gives its own reference to its parent back to the outside, which
gives it up next.
-/

namespace ScriptHost

/-! ## The edges of a sandbox -/

namespace Sandbox

def exportEdges (s : Sandbox) : List ExportEdge :=
  [⟨.engine, Symbols.runtimePackage, s.module⟩, ⟨.engine, Symbols.linkerPackage, s.module⟩]

def readEdge (s : Sandbox) : ReadEdge := ⟨.engine, s.module⟩

theorem mem_exportEdges {s : Sandbox} {e : ExportEdge} (he : e ∈ s.exportEdges) :
    e.owner = .engine ∧ e.target = s.module := by
  rcases List.mem_pair.1 he with rfl | rfl <;> exact ⟨rfl, rfl⟩

end Sandbox

/-! ## References and grants -/

namespace World

def live (w : World) : List Sandbox := w.sandboxes.entries.map fun e => e.2.sandbox

def liveIn (w : World) (c : ContextId) : List Sandbox := w.live.filter fun s => s.context = c

def parents (w : World) : List Sandbox := w.live.flatMap fun s => s.parent.held

/-- The live sandboxes are those that are referenced, and the number of each is how often it is, where `rs` are the
references from outside. -/
structure Balanced (w : World) (rs : List Sandbox) : Prop where
  keys : w.sandboxes.keys.Nodup
  holds : ∀ s ∈ rs ++ w.parents, w.Holds s
  handles : ∀ {id l}, w.sandboxes.get? id = some l →
    0 < l.handles ∧ l.handles = (rs ++ w.parents).countP fun s => s.id = id

/-- Each module graph holds the edges of the live sandboxes of its context, each once, and no others. -/
structure Granted (w : World) : Prop where
  exports : ∀ c, (w.graph c).exports.Perm ((w.liveIn c).flatMap Sandbox.exportEdges)
  reads : ∀ c, (w.graph c).reads.Perm ((w.liveIn c).map Sandbox.readEdge)

structure Exact (w : World) (rs : List Sandbox) : Prop extends Balanced w rs, Granted w where
  wellFormed : w.WellFormed

theorem Exact.empty : Exact {} [] where
  keys := .nil
  holds _ hs := nomatch hs
  handles h := nomatch h
  exports _ := .refl []
  reads _ := .refl []
  wellFormed := .empty

variable {w w' : World} {s : Sandbox} {rs rs' : List Sandbox}

theorem mem_live (h : w.WellFormed) (hk : w.sandboxes.keys.Nodup) : s ∈ w.live ↔ w.Holds s := by
  rw [live, List.mem_map, Holds, sandbox?]
  constructor
  · rintro ⟨⟨id, l⟩, hmem, rfl⟩
    have hget := Assoc.get?_of_mem hk hmem
    have hid : l.sandbox.id = id := h.id (by rw [sandbox?, hget]; rfl)
    rw [hid, hget]
    rfl
  · intro hs
    obtain ⟨l, hget, hl⟩ := Option.map_eq_some_iff.1 hs
    exact ⟨(s.id, l), Assoc.mem_of_get? hget, hl⟩

theorem live_eq (h : w'.sandboxes.view LiveSandbox.sandbox = w.sandboxes.view LiveSandbox.sandbox) :
    w'.live = w.live := by
  have hlive : ∀ w : World, w.live = (w.sandboxes.view LiveSandbox.sandbox).entries.map Prod.snd := fun w => by
    rw [live, Assoc.view, List.map_map]
    rfl
  rw [hlive, hlive, h]

theorem keys_eq (h : w'.sandboxes.view LiveSandbox.sandbox = w.sandboxes.view LiveSandbox.sandbox) :
    w'.sandboxes.keys = w.sandboxes.keys := by
  rw [← Assoc.keys_view LiveSandbox.sandbox, h, Assoc.keys_view]

/-! ### References change -/

theorem Exact.recount (h : Exact w rs) (hw : SameSandboxes w w')
    (hv : w'.sandboxes.view LiveSandbox.sandbox = w.sandboxes.view LiveSandbox.sandbox) (hrs : ∀ s ∈ rs', w.Holds s)
    (hn : ∀ {id l}, w'.sandboxes.get? id = some l →
      0 < l.handles ∧ l.handles = (rs' ++ w.parents).countP fun s => s.id = id) : Exact w' rs' := by
  have hlive := live_eq hv
  have hparents : w'.parents = w.parents := by rw [parents, hlive, parents]
  refine ⟨⟨keys_eq hv ▸ h.keys, fun s hs => ?_, hparents ▸ hn⟩, ⟨fun c => ?_, fun c => ?_⟩, h.wellFormed.same hw⟩
  · rw [hparents, List.mem_append] at hs
    rw [Holds, hw.sandbox]
    exact hs.elim (hrs s) fun hs => h.holds s (List.mem_append_right _ hs)
  · rw [hw.graph, liveIn, hlive]
    exact h.exports c
  · rw [hw.graph, liveIn, hlive]
    exact h.reads c

theorem Exact.perm (h : Exact w rs) (hp : rs.Perm rs') : Exact w rs' := by
  refine h.recount (.refl w) rfl (fun s hs => h.holds s (List.mem_append_left _ (hp.mem_iff.2 hs))) fun hl => ?_
  rw [← (hp.append_right w.parents).countP_eq]
  exact h.handles hl

theorem Exact.retain (h : Exact w rs) (hs : w.Holds s) : Exact (w.retain s) (s :: rs) := by
  have hview : (w.retain s).sandboxes.view LiveSandbox.sandbox = w.sandboxes.view LiveSandbox.sandbox :=
    Assoc.view_adjust (fun _ => by rfl) _ _
  refine h.recount (sameSandboxes_retain w s) hview ?_ fun {id l} hl => ?_
  · exact List.forall_mem_cons.2 ⟨hs, fun t ht => h.holds t (List.mem_append_left _ ht)⟩
  · rw [List.cons_append, List.countP_cons]
    have hget : (w.sandboxes.adjust s.id fun l => { l with handles := l.handles + 1 }).get? id = some l := hl
    rw [Assoc.get?_adjust] at hget
    by_cases hid : s.id = id
    · rw [if_pos hid] at hget
      obtain ⟨l', hl', rfl⟩ := Option.map_eq_some_iff.1 hget
      have hcount := h.handles hl'
      simp only [hid, decide_true, if_true]
      omega
    · rw [if_neg hid] at hget
      simpa [hid] using h.handles hget

theorem Exact.decrement (h : Exact w (s :: rs)) {l : LiveSandbox} (hl : w.sandboxes.get? s.id = some l)
    (hmany : ¬l.handles ≤ 1) :
    Exact { w with sandboxes := w.sandboxes.put s.id { l with handles := l.handles - 1 } } rs := by
  have hview : (w.sandboxes.put s.id { l with handles := l.handles - 1 }).view LiveSandbox.sandbox =
    w.sandboxes.view LiveSandbox.sandbox := Assoc.view_put hl rfl
  refine h.recount (w.sameSandboxes_put hl rfl) hview (fun t ht => ?_) fun {id l'} hl' => ?_
  · exact h.holds t (List.mem_append_left _ (List.mem_cons_of_mem _ ht))
  · have hget : (w.sandboxes.put s.id { l with handles := l.handles - 1 }).get? id = some l' := hl'
    rw [Assoc.get?_put] at hget
    by_cases hid : s.id = id
    · rw [if_pos hid] at hget
      obtain rfl := Option.some.inj hget
      have hcount := h.handles hl
      rw [List.cons_append, List.countP_cons] at hcount
      simp only [hid, decide_true, if_true] at hcount ⊢
      omega
    · rw [if_neg hid] at hget
      have hcount := h.handles hget
      rw [List.cons_append, List.countP_cons] at hcount
      simpa [hid] using hcount

/-! ### A sandbox is made -/

theorem Exact.id_lt (h : Exact w rs) (hs : w.Holds s) : s.id < w.nextSandbox :=
  (h.wellFormed.lineage hs s s.mem_lineage_self).1

theorem Exact.get?_next (h : Exact w rs) : w.sandboxes.get? w.nextSandbox = none := by
  cases hl : w.sandboxes.get? w.nextSandbox with
  | none => rfl
  | some l =>
    have hs : w.sandbox? w.nextSandbox = some l.sandbox := by rw [sandbox?, hl]; rfl
    have hid := h.wellFormed.id hs
    have hlt := h.id_lt (by rw [Holds, hid]; exact hs)
    rw [hid] at hlt
    exact absurd hlt (Nat.lt_irrefl _)

theorem Created.holds_of (hc : Created w w' s) {t : Sandbox} (hlt : t.id < w.nextSandbox) (ht : w.Holds t) :
    w'.Holds t := by
  have hne : s.id ≠ t.id := by
    rw [hc.id]
    exact Nat.ne_of_gt hlt
  rwa [Holds, hc.sandbox, if_neg hne]

theorem Exact.fresh_reads (h : Exact w rs) {c : ContextId} {e : ReadEdge} (he : e ∈ (w.graph c).reads) :
    e.target ≠ .adapter (w.graph c).nextAdapter := by
  rw [(h.reads c).mem_iff] at he
  obtain ⟨t, ht, rfl⟩ := List.mem_map.1 he
  obtain ⟨hlive, hcontext⟩ := List.mem_filter.1 ht
  obtain ⟨n, hn, hm⟩ := h.wellFormed.module ((mem_live h.wellFormed h.keys).1 hlive)
  rw [of_decide_eq_true hcontext] at hn
  rw [Sandbox.readEdge, hm]
  intro heq
  rw [ModuleId.adapter_inj heq] at hn
  exact Nat.lt_irrefl _ hn

theorem withMember_of_not_mem {α : Type} [DecidableEq α] {x : α} {xs : List α} (h : x ∉ xs) :
    ModuleGraph.withMember x xs = xs ++ [x] := if_neg h

theorem exports_grant {g : ModuleGraph} {t : Sandbox} (h : ∀ e ∈ g.exports, e.target ≠ t.module) :
    (Sandbox.grant g t.module).exports = g.exports ++ t.exportEdges := by
  have hruntime : (⟨.engine, Symbols.runtimePackage, t.module⟩ : ExportEdge) ∉ g.exports := fun he => h _ he rfl
  have hlinker : (⟨.engine, Symbols.linkerPackage, t.module⟩ : ExportEdge) ∉
      g.exports ++ [⟨.engine, Symbols.runtimePackage, t.module⟩] := by
    rw [List.mem_append, List.mem_singleton, not_or]
    refine ⟨fun he => h _ he rfl, fun heq => ?_⟩
    have hpackage : Symbols.linkerPackage = Symbols.runtimePackage := congrArg ExportEdge.package heq
    exact absurd hpackage (by decide)
  show ModuleGraph.withMember _ (ModuleGraph.withMember _ g.exports) = _
  rw [withMember_of_not_mem hruntime, withMember_of_not_mem hlinker, List.append_assoc]
  rfl

theorem reads_grant {g : ModuleGraph} {t : Sandbox} (h : ∀ e ∈ g.reads, e.target ≠ t.module) :
    (Sandbox.grant g t.module).reads = g.reads ++ [t.readEdge] :=
  withMember_of_not_mem fun he => h _ he rfl

theorem liveIn_append (hl : w'.live = w.live ++ [s]) (c : ContextId) :
    w'.liveIn c = w.liveIn c ++ if s.context = c then [s] else [] := by
  rw [liveIn, hl, List.filter_append]
  by_cases hc : s.context = c <;> simp [hc, liveIn]

/-- A new sandbox takes over the reference to its parent. -/
theorem Exact.created (h : Exact w (s.parent.held ++ rs)) (hc : Created w w' s)
    (hw : w'.sandboxes = w.sandboxes.put s.id { sandbox := s, handles := 1 }) : Exact w' (s :: rs) := by
  have hnone : w.sandboxes.get? s.id = none := hc.id ▸ h.get?_next
  have hlive : w'.live = w.live ++ [s] := by
    rw [live, hw, Assoc.entries_put_of_none hnone, List.map_append]
    rfl
  have hparents : w'.parents = w.parents ++ s.parent.held := by
    rw [parents, hlive, List.flatMap_append, List.flatMap_singleton]
    rfl
  -- the references that there were, and the one to the new sandbox
  have hperm : (s :: rs ++ w'.parents).Perm (s :: (s.parent.held ++ rs ++ w.parents)) := by
    rw [hparents, List.cons_append, ← List.append_assoc]
    refine .cons _ ?_
    rw [List.append_assoc s.parent.held]
    exact List.perm_append_comm
  have hwell : w'.WellFormed := by
    refine h.wellFormed.created hc fun t ht => ?_
    rw [Parent.lineage_eq, List.mem_flatMap] at ht
    obtain ⟨p, hp, ht⟩ := ht
    exact h.wellFormed.lineage (h.holds p (List.mem_append_left _ (List.mem_append_left _ hp))) t ht
  refine ⟨⟨?_, fun t ht => ?_, fun {id l} hl => ?_⟩, ⟨fun c => ?_, fun c => ?_⟩, hwell⟩
  · rw [hw]
    exact Assoc.nodup_keys_put h.keys s.id _
  · rcases List.mem_cons.1 (hperm.mem_iff.1 ht) with rfl | ht
    · exact hc.holds
    · exact hc.holds_of (h.id_lt (h.holds t ht)) (h.holds t ht)
  · rw [hw, Assoc.get?_put] at hl
    rw [hperm.countP_eq, List.countP_cons]
    by_cases hid : s.id = id
    · rw [if_pos hid] at hl
      obtain rfl := Option.some.inj hl
      have hzero : (s.parent.held ++ rs ++ w.parents).countP (fun t => t.id = id) = 0 := by
        rw [List.countP_eq_zero]
        intro t ht heq
        have hlt := h.id_lt (h.holds t ht)
        rw [of_decide_eq_true heq, ← hid, hc.id] at hlt
        exact Nat.lt_irrefl _ hlt
      rw [hzero, if_pos (decide_eq_true hid)]
      exact ⟨Nat.one_pos, rfl⟩
    · rw [if_neg hid] at hl
      simpa [hid] using h.handles hl
  · rw [hc.graph, liveIn_append hlive, List.flatMap_append]
    by_cases hcontext : s.context = c
    · subst hcontext
      rw [if_pos rfl, if_pos rfl, List.flatMap_singleton, exports_grant]
      · exact (h.exports _).append_right _
      · rw [hc.module]
        exact fun e he heq => Nat.lt_irrefl _ (h.wellFormed.fresh he heq)
    · simpa [hcontext] using h.exports c
  · rw [hc.graph, liveIn_append hlive, List.map_append]
    by_cases hcontext : s.context = c
    · subst hcontext
      rw [if_pos rfl, if_pos rfl, reads_grant]
      · exact (h.reads _).append_right _
      · rw [hc.module]
        exact fun e he => h.fresh_reads he
    · simpa [hcontext] using h.reads c

/-! ### A sandbox goes -/

theorem exports_removeModule {g : ModuleGraph} {ts : List Sandbox}
    (h : g.exports.Perm (s.exportEdges ++ ts.flatMap Sandbox.exportEdges)) (hs : s.module ≠ .engine)
    (ht : ∀ t ∈ ts, t.module ≠ s.module) :
    (g.removeModule s.module).exports.Perm (ts.flatMap Sandbox.exportEdges) := by
  have hp := h.filter fun e => e.owner != s.module && e.target != s.module
  have hown : s.exportEdges.filter (fun e => e.owner != s.module && e.target != s.module) = [] := by
    rw [List.filter_eq_nil_iff]
    intro e he
    simp [(Sandbox.mem_exportEdges he).2]
  have hothers : (ts.flatMap Sandbox.exportEdges).filter (fun e => e.owner != s.module && e.target != s.module) =
      ts.flatMap Sandbox.exportEdges := by
    rw [List.filter_eq_self]
    intro e he
    obtain ⟨t, hmem, he⟩ := List.mem_flatMap.1 he
    obtain ⟨howner, htarget⟩ := Sandbox.mem_exportEdges he
    simp [howner, htarget, ht t hmem, Ne.symm hs]
  rwa [List.filter_append, hown, hothers, List.nil_append] at hp

theorem reads_removeModule {g : ModuleGraph} {ts : List Sandbox}
    (h : g.reads.Perm (s.readEdge :: ts.map Sandbox.readEdge)) (hs : s.module ≠ .engine)
    (ht : ∀ t ∈ ts, t.module ≠ s.module) :
    (g.removeModule s.module).reads.Perm (ts.map Sandbox.readEdge) := by
  have hp := h.filter fun e => e.reader != s.module && e.target != s.module
  have hothers : (ts.map Sandbox.readEdge).filter (fun e => e.reader != s.module && e.target != s.module) =
      ts.map Sandbox.readEdge := by
    rw [List.filter_eq_self]
    intro e he
    obtain ⟨t, hmem, rfl⟩ := List.mem_map.1 he
    simp [Sandbox.readEdge, ht t hmem, Ne.symm hs]
  rwa [List.filter_cons_of_neg (by simp [Sandbox.readEdge]), hothers] at hp

theorem WellFormed.module_ne_engine (h : w.WellFormed) (hs : w.Holds s) : s.module ≠ .engine := by
  obtain ⟨n, -, hm⟩ := h.module hs
  rw [hm]
  exact ModuleId.adapter_ne_engine n

/-- With the last reference to it a sandbox goes, and leaves the reference to its parent. -/
theorem Exact.forget (h : Exact w (s :: rs)) {l : LiveSandbox} (hl : w.sandboxes.get? s.id = some l)
    (hlast : l.handles ≤ 1) : Exact (w.forget s.id s.context s.module) (s.parent.held ++ rs) := by
  have hf := forgotten_forget w s
  have hs : w.Holds s := h.holds s (List.mem_append_left _ (List.mem_cons_self ..))
  have hsandbox : l.sandbox = s := by
    have heq : w.sandbox? s.id = some l.sandbox := by rw [sandbox?, hl]; rfl
    exact Option.some.inj (heq.symm.trans hs)
  have hlive : w.live.Perm (s :: (w.forget s.id s.context s.module).live) := by
    have hperm := (Assoc.perm_erase h.keys hl).map fun e => e.2.sandbox
    rwa [List.map_cons, hsandbox] at hperm
  have hparents : w.parents.Perm (s.parent.held ++ (w.forget s.id s.context s.module).parents) :=
    hlive.flatMap_right _
  have hperm : (s.parent.held ++ rs ++ (w.forget s.id s.context s.module).parents).Perm (rs ++ w.parents) := by
    rw [List.append_assoc]
    refine List.perm_append_comm.trans ?_
    rw [List.append_assoc]
    exact (List.perm_append_comm.trans hparents.symm).append_left rs
  have hcount := (h.handles hl).2
  rw [List.cons_append, List.countP_cons, if_pos (decide_eq_true rfl)] at hcount
  -- nothing else leads to it
  have hne : ∀ t ∈ rs ++ w.parents, s.id ≠ t.id := by
    have hzero : (rs ++ w.parents).countP (fun t => t.id = s.id) = 0 := by omega
    exact fun t ht heq => List.countP_eq_zero.1 hzero t ht (decide_eq_true heq.symm)
  have hkeys : (w.forget s.id s.context s.module).sandboxes.keys.Nodup := Assoc.nodup_keys_erase h.keys s.id
  have hwell := h.wellFormed.forgotten hf hs
  have hliveIn : ∀ c, (w.liveIn c).Perm
      ((if s.context = c then [s] else []) ++ (w.forget s.id s.context s.module).liveIn c) := fun c => by
    have hp := hlive.filter fun t => t.context = c
    by_cases hcontext : s.context = c <;> simpa [hcontext, liveIn] using hp
  have hmodule : ∀ t ∈ (w.forget s.id s.context s.module).liveIn s.context, t.module ≠ s.module := by
    intro t ht heq
    obtain ⟨ht, hcontext⟩ := List.mem_filter.1 ht
    obtain ⟨hid, ht⟩ := hf.sandbox_of ((mem_live hwell hkeys).1 ht)
    exact hid (h.wellFormed.distinct hs ht (of_decide_eq_true hcontext).symm heq.symm)
  refine ⟨⟨hkeys, fun t ht => ?_, fun {id l'} hl' => ?_⟩, ⟨fun c => ?_, fun c => ?_⟩, hwell⟩
  · have ht := hperm.mem_iff.1 ht
    rw [Holds, hf.sandbox, if_neg (hne t ht)]
    exact h.holds t (by rw [List.cons_append]; exact List.mem_cons_of_mem _ ht)
  · have hget : (w.sandboxes.erase s.id).get? id = some l' := hl'
    rw [Assoc.get?_erase] at hget
    by_cases hid : s.id = id
    · rw [if_pos hid] at hget
      cases hget
    · rw [if_neg hid] at hget
      have hold := h.handles hget
      rw [List.cons_append, List.countP_cons, if_neg (by simpa using hid)] at hold
      rwa [hperm.countP_eq]
  · have hexports := (h.exports c).trans ((hliveIn c).flatMap_right _)
    rw [hf.graph]
    by_cases hcontext : s.context = c
    · subst hcontext
      rw [if_pos rfl, List.singleton_append, List.flatMap_cons] at hexports
      rw [if_pos rfl]
      exact exports_removeModule hexports (h.wellFormed.module_ne_engine hs) hmodule
    · rw [if_neg hcontext, List.nil_append] at hexports
      rwa [if_neg hcontext]
  · have hreads := (h.reads c).trans ((hliveIn c).map _)
    rw [hf.graph]
    by_cases hcontext : s.context = c
    · subst hcontext
      rw [if_pos rfl, List.singleton_append, List.map_cons] at hreads
      rw [if_pos rfl]
      exact reads_removeModule hreads (h.wellFormed.module_ne_engine hs) hmodule
    · rw [if_neg hcontext, List.nil_append] at hreads
      rwa [if_neg hcontext]

theorem Exact.releaseAll {ps : List Sandbox}
    (hps : ∀ p ∈ ps, ∀ (w : World) (rs : List Sandbox), Exact w (p :: rs) → Exact (w.release p) rs) :
    ∀ w : World, Exact w (ps ++ rs) → Exact (ps.foldl World.release w) rs := by
  induction ps with
  | nil => exact fun _ h => h
  | cons p ps ih =>
    rw [List.forall_mem_cons] at hps
    exact fun w h => ih hps.2 (w.release p) (hps.1 w _ h)

theorem Exact.release : ∀ (s : Sandbox) (w : World) (rs : List Sandbox), Exact w (s :: rs) → Exact (w.release s) rs := by
  refine Sandbox.byParent ?_
  intro s ih w rs h
  have hs : w.Holds s := h.holds s (List.mem_append_left _ (List.mem_cons_self ..))
  obtain ⟨l, hl, -⟩ := Option.map_eq_some_iff.1 hs
  rw [release_eq, hl]
  dsimp only
  by_cases hlast : l.handles ≤ 1
  · rw [if_pos hlast, releaseParent_eq]
    exact releaseAll ih _ (h.forget hl hlast)
  · rw [if_neg hlast]
    exact h.decrement hl hlast

/-! ### What is live -/

theorem mem_parents {t : Sandbox} (ht : t ∈ w.live) {p : Sandbox} (hp : p ∈ t.parent.held) : p ∈ w.parents :=
  List.mem_flatMap.2 ⟨t, ht, hp⟩

theorem Exact.holds_lineage (h : Exact w rs) {t : Sandbox} :
    ∀ s : Sandbox, w.Holds s → t ∈ s.lineage → w.Holds t := by
  refine Sandbox.byParent ?_
  intro s ih hs ht
  rcases Sandbox.mem_lineage.1 ht with rfl | ⟨p, hp, ht⟩
  · exact hs
  · have hparent := mem_parents ((mem_live h.wellFormed h.keys).2 hs) hp
    exact ih p hp (h.holds p (List.mem_append_right _ hparent)) ht

theorem exists_lineage_bound (ts : List Sandbox) : ∃ bound, ∀ t ∈ ts, t.lineage.length ≤ bound := by
  induction ts with
  | nil => exact ⟨0, fun t ht => nomatch ht⟩
  | cons t ts ih =>
    obtain ⟨bound, hbound⟩ := ih
    refine ⟨max t.lineage.length bound, List.forall_mem_cons.2 ⟨Nat.le_max_left .., fun u hu => ?_⟩⟩
    exact Nat.le_trans (hbound u hu) (Nat.le_max_right ..)

/-- Something leads to every live sandbox from outside: as long as a sandbox is held by a live one below it, that
one has a longer row of sandboxes above it. -/
theorem Exact.rooted (h : Exact w rs) {s : Sandbox} (hs : w.Holds s) : ∃ r ∈ rs, s ∈ r.lineage := by
  obtain ⟨bound, hbound⟩ := exists_lineage_bound w.live
  induction hn : bound - s.lineage.length using Nat.strongRecOn generalizing s with
  | _ n ih =>
    obtain ⟨l, hl, -⟩ := Option.map_eq_some_iff.1 hs
    obtain ⟨hpos, hcount⟩ := h.handles hl
    obtain ⟨t, ht, hid⟩ := List.countP_pos_iff.1 (hcount ▸ hpos)
    have htwo : w.sandbox? s.id = some t := of_decide_eq_true hid ▸ h.holds t ht
    obtain rfl := Option.some.inj (htwo.symm.trans hs)
    rcases List.mem_append.1 ht with ht | ht
    · exact ⟨t, ht, t.mem_lineage_self⟩
    · obtain ⟨u, hu, ht⟩ := List.mem_flatMap.1 ht
      have hlt := Sandbox.lineage_length_lt ht
      have hle := hbound u hu
      obtain ⟨r, hr, hur⟩ := ih (bound - u.lineage.length) (by omega) ((mem_live h.wellFormed h.keys).1 hu) rfl
      exact ⟨r, hr, Sandbox.mem_lineage_trans (Sandbox.mem_lineage.2 (.inr ⟨t, ht, t.mem_lineage_self⟩)) r hur⟩

end World
end ScriptHost
