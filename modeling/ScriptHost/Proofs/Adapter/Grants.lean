import ScriptHost.Proofs.Adapter.Handles
import ScriptHost.Proofs.Adapter.Requests

/-!
# The edges of live sandboxes

After every run of requests, and at every point within one, each module graph holds just what the sandboxes that
something leads to are granted: the engine's exports of its two runtime packages to their modules and its reads of
them (`Held.grants_exact`). The steps of a run keep the balance of handles and references (`Sound`), and whatever is
live at some later point was live before or has a module that was not given out before (`Later`).
-/

namespace ScriptHost

open World

namespace World

/-! ## Steps keep the balance -/

variable {w w' : World} {s : Sandbox} {rs : List Sandbox}

theorem Quiet.view_sandbox (h : Quiet w w') :
    w'.sandboxes.view LiveSandbox.sandbox = w.sandboxes.view LiveSandbox.sandbox := by
  have hview : ∀ t : Assoc SandboxId LiveSandbox,
      t.view LiveSandbox.sandbox = (t.view fun l => (l.sandbox, l.handles)).view Prod.fst := fun t => by
    rw [Assoc.view, Assoc.view, Assoc.view, List.map_map]
    rfl
  rw [hview, hview, h.sandboxes]

theorem Quiet.sameSandboxes (h : Quiet w w') : SameSandboxes w w' := by
  refine ⟨h.next, fun id => ?_, h.graph⟩
  rw [sandbox?, sandbox?, ← Assoc.get?_view, h.view_sandbox, Assoc.get?_view]

theorem Exact.quiet (h : Exact w rs) (hw : Quiet w w') : Exact w' rs := by
  refine h.recount hw.sameSandboxes hw.view_sandbox (fun s hs => h.holds s (List.mem_append_left _ hs))
    fun {id l} hl => ?_
  have hget : (w.sandboxes.get? id).map (fun l => (l.sandbox, l.handles)) = some (l.sandbox, l.handles) := by
    rw [← Assoc.get?_view, ← hw.sandboxes, Assoc.get?_view, hl]
    rfl
  obtain ⟨l', hl', heq⟩ := Option.map_eq_some_iff.1 hget
  have hhandles : l'.handles = l.handles := congrArg Prod.snd heq
  rw [← hhandles]
  exact h.handles hl'

theorem Exact.new (h : Exact w rs) (c : ContextId) (d : Descriptor) {parent : Parent} (domain : Domain)
    (hp : ∀ p ∈ parent.held, w.Holds p) :
    (∀ s w', (Sandbox.new c d parent domain).outcome w = (.ok s, w') → Exact w' (s :: rs)) ∧
      ∀ f w', (Sandbox.new c d parent domain).outcome w = (.error f, w') → Exact w' rs := by
  rw [Sandbox.new, Run.outcome_bind, Engine.outcome_check]
  by_cases hgrants : w.thread.grants .createClassLoader
  · rw [if_pos hgrants]
    have hadd : ∀ v : World, Exact v (parent.held ++ rs) →
        Exact ((v.granted c).add (v.fresh c d parent domain)) (v.fresh c d parent domain :: rs) :=
      fun v hv => hv.created (created_add (.refl _) d parent domain) rfl
    refine ⟨fun s w' ho => ?_, fun f w' ho => ?_⟩
    · cases parent with
      | publishing cls =>
        cases ho
        exact hadd (w.retain cls.sandbox) (h.retain (hp cls.sandbox (List.mem_singleton_self _)))
      | _ =>
        cases ho
        exact hadd w h
    · cases ho
  · rw [if_neg hgrants]
    refine ⟨fun s w' ho => ?_, fun f w' ho => ?_⟩
    · cases ho
    · cases ho
      exact h

theorem resolve_ne_adapter (ctx : Context) (name : String) (c : AdapterClass) :
    ctx.resolve name ≠ .ok (.adapter c) := by
  rcases ctx.resolve_cases name with ⟨-, hr⟩ | ⟨-, ⟨t, -, -, hr⟩ | hr⟩
  all_goals
    rw [hr]
    nofun

theorem outside_adapter {ctx : Context} {name : String} {c : AdapterClass}
    (h : s.outside? ctx name = .ok (some (.adapter c))) : c.sandbox ∈ s.parent.held := by
  rw [Sandbox.outside?] at h
  dsimp only at h
  split at h
  · split at h
    · cases hr : ctx.resolve name with
      | error e =>
        rw [hr] at h
        cases h
      | ok t =>
        rw [hr] at h
        cases h
        exact absurd hr (resolve_ne_adapter ctx name c)
    · cases h
  · split at h
    · next found hr =>
      split at h
      · cases h
        cases hp : s.parent with
        | engine =>
          rw [hp] at hr
          exact absurd hr (resolve_ne_adapter ctx name c)
        | classPath =>
          rw [hp, Parent.resolve, Context.resolveHost] at hr
          split at hr <;> cases hr
        | broken =>
          rw [hp] at hr
          cases hr
        | publishing cls =>
          rw [hp, Parent.resolve] at hr
          split at hr
          · cases hr
            exact List.mem_singleton_self _
          · exact absurd hr (resolve_ne_adapter ctx name c)
      · cases h
    · cases h
    · cases h

theorem load_held {name : String} {t : LoadedType} (h : (s.load name).outcome w = (.ok t, w')) :
    ∀ r ∈ t.held, r ∈ s.lineage := by
  intro r hr
  rcases Sandbox.load_ok h with ho | ⟨-, c, w₁, rfl, hown⟩
  · cases t with
    | adapter c =>
      obtain rfl := List.mem_singleton.1 hr
      exact Sandbox.mem_lineage.2 (.inr ⟨c.sandbox, outside_adapter ho, c.sandbox.mem_lineage_self⟩)
    | _ => cases hr
  · obtain rfl := List.mem_singleton.1 hr
    rw [(Sandbox.ownClass_ok hown).1]
    exact s.mem_lineage_self

theorem Exact.load (h : Exact w rs) (hs : w.Holds s) (name : String) :
    (∀ t w', (s.load name).outcome w = (.ok t, w') → Exact w' (t.held ++ rs)) ∧
      ∀ f w', (s.load name).outcome w = (.error f, w') → Exact w' rs := by
  have hresolve := defineClosed_quiet.moves_resolve s name w
  refine ⟨fun t w' ho => ?_, fun f w' ho => ?_⟩
  · have hheld := load_held ho
    obtain ⟨t', w₁, hr, ho⟩ := Run.outcome_bind_ok ho
    rw [hr] at hresolve
    cases ho
    have hw₁ := h.quiet hresolve
    cases t with
    | adapter c =>
      have hc := h.holds_lineage s hs (hheld c.sandbox (List.mem_singleton_self _))
      exact hw₁.retain ((hresolve.sameSandboxes.sandbox _).trans hc)
    | _ => exact hw₁
  · rcases Run.outcome_bind_error ho with hr | ⟨t, w₁, hr, ho⟩
    · rw [hr] at hresolve
      exact h.quiet hresolve
    · cases ho

theorem Exact.find (h : Exact w rs) (hs : w.Holds s) (name : String) :
    (∀ c w', (s.find name).outcome w = (.ok c, w') → Exact w' (c.sandbox :: rs)) ∧
      ∀ f w', (s.find name).outcome w = (.error f, w') → Exact w' rs := by
  have hown := defineClosed_quiet.moves_ownClass s name w
  refine ⟨fun c w' ho => ?_, fun f w' ho => ?_⟩
  · obtain ⟨c', w₁, hr, ho⟩ := Run.outcome_bind_ok ho
    have hc := (Sandbox.ownClass_ok hr).1
    rw [hr] at hown
    cases ho
    have hs₁ : w₁.Holds c.sandbox := by
      rw [hc]
      exact (hown.sameSandboxes.sandbox _).trans hs
    exact (h.quiet hown).retain hs₁
  · rcases Run.outcome_bind_error ho with hr | ⟨c, w₁, hr, ho⟩
    · rw [hr] at hown
      exact h.quiet hown
    · cases ho

/-! ## Caches of factories -/

theorem Exact.withFactories (h : Exact w rs) (fs : Assoc FactoryId Factory) : Exact { w with factories := fs } rs :=
  h.recount ⟨rfl, fun _ => rfl, fun _ => rfl⟩ rfl (fun s hs => h.holds s (List.mem_append_left _ hs)) h.handles

theorem Quiet.cached (h : Quiet w w') : w'.cached = w.cached := by
  have hcached : ∀ w : World, w.cached = (w.factories.view fun f => (f.context, f.classes)).entries.flatMap
      fun e => e.2.2.entries.map fun c => c.2.sandbox := fun w => by
    rw [World.cached, Assoc.view, List.flatMap_map]
    rfl
  rw [hcached, hcached, h.factories]

theorem Quiet.factoryKeys (h : Quiet w w') : w'.factories.keys = w.factories.keys := by
  rw [← Assoc.keys_view fun f : Factory => (f.context, f.classes), h.factories, Assoc.keys_view]

theorem SameFactories.cached (h : SameFactories w w') : w'.cached = w.cached := by
  rw [World.cached, h, World.cached]

theorem cached_open {id : FactoryId} (c : ContextId) (hid : w.factories.get? id = none) :
    ({ w with factories := w.factories.put id { context := c } } : World).cached = w.cached := by
  rw [World.cached]
  dsimp only
  rw [Assoc.entries_put_of_none hid, List.flatMap_append]
  exact List.append_nil _

theorem cached_cache {id : FactoryId} {f : Factory} {name : String} {cls : AdapterClass}
    (hf : w.factories.get? id = some f) (hname : f.classes.get? name = none) :
    ({ w with factories := w.factories.adjust id fun f =>
      { f with classes := f.classes.put name cls } } : World).cached.Perm (cls.sandbox :: w.cached) := by
  obtain ⟨es, es', heq, hput⟩ := Assoc.exists_entries hf
  have hnew : ({ f with classes := f.classes.put name cls } : Factory).sandboxes = f.sandboxes ++ [cls.sandbox] := by
    rw [Factory.sandboxes, Factory.sandboxes]
    dsimp only
    rw [Assoc.entries_put_of_none hname, List.map_append]
    rfl
  rw [World.cached, World.cached, Assoc.adjust, hf]
  dsimp only
  rw [hput, heq]
  have hmiddle : (es.flatMap (fun e => e.2.sandboxes) ++ f.sandboxes ++
        cls.sandbox :: es'.flatMap fun e => e.2.sandboxes).Perm
      (cls.sandbox :: (es.flatMap (fun e => e.2.sandboxes) ++ f.sandboxes ++ es'.flatMap fun e => e.2.sandboxes)) :=
    List.perm_middle
  simpa [hnew] using hmiddle

theorem cached_close {id : FactoryId} {f : Factory} (hn : w.factories.keys.Nodup)
    (hf : w.factories.get? id = some f) :
    w.cached.Perm (f.sandboxes ++ ({ w with factories := w.factories.erase id } : World).cached) :=
  (Assoc.perm_erase hn hf).flatMap_right _

end World

namespace Held

/-! ## Every step -/

/-- Handles and edges are as many as the references from outside ask for. -/
structure Sound (x : Held) : Prop where
  exact : x.world.Exact x.roots
  factories : x.world.factories.keys.Nodup

theorem Sound.empty : Sound ⟨{}, []⟩ := ⟨.empty, .nil⟩

theorem Sound.holds {x : Held} (h : x.Sound) {s : Sandbox} (hs : x.Referenced s) : x.world.Holds s := by
  obtain ⟨r, hr, hs⟩ := hs
  exact h.exact.holds_lineage r (h.exact.holds r (List.mem_append_left _ hr)) hs

theorem Sound.referenced_iff {x : Held} (h : x.Sound) {s : Sandbox} : x.Referenced s ↔ s ∈ x.world.live := by
  rw [mem_live h.exact.wellFormed h.exact.keys]
  exact ⟨h.holds, h.exact.rooted⟩

/-- A computation that leaves factories alone keeps the balance if it gives the handles that it says it gives. -/
theorem Sound.settle {α : Type} {x : Held} (h : x.Sound) {m : EngineM α} (hm : Run.Moves SameFactories m)
    {ok : α → List Sandbox}
    (hok : ∀ a w', m.outcome x.world = (.ok a, w') → Exact w' (ok a ++ x.roots))
    (herr : ∀ f w', m.outcome x.world = (.error f, w') → Exact w' x.roots) :
    Sound (Held.settle (fun a => ok a ++ x.handles) x.handles (m.outcome x.world)) := by
  have hw := hm x.world
  rcases hrun : m.outcome x.world with ⟨r, w'⟩
  rw [hrun] at hw
  have hcached := SameFactories.cached hw
  have hfactories : w'.factories.keys.Nodup := hw ▸ h.factories
  cases r with
  | ok a =>
    refine ⟨?_, hfactories⟩
    have hexact := hok a w' hrun
    rwa [roots, ← hcached, ← List.append_assoc] at hexact
  | error f =>
    refine ⟨?_, hfactories⟩
    have hexact := herr f w' hrun
    rwa [roots, ← hcached] at hexact

theorem Sound.step {x y : Held} (h : x.Sound) (hs : Step x y) : y.Sound := by
  cases hs with
  | create c d parent domain hp =>
    rw [after_map]
    obtain ⟨hok, herr⟩ := h.exact.new c d domain fun p hmem => h.holds (hp p hmem)
    exact h.settle (Sandbox.new_sameFactories c d parent domain) hok herr
  | load hs name =>
    rw [after_map]
    obtain ⟨hok, herr⟩ := h.exact.load (h.holds hs) name
    exact h.settle (useClosed_sameFactories.moves_load _ name) hok herr
  | find hs name =>
    rw [after_map]
    obtain ⟨hok, herr⟩ := h.exact.find (h.holds hs) name
    exact h.settle (useClosed_sameFactories.moves_find _ name) hok herr
  | share hs => exact ⟨h.exact.retain (h.holds hs), h.factories⟩
  | @release s hs hh =>
    have hperm := hh.append_right x.world.cached
    have hfactories := x.world.factories_release s
    refine ⟨?_, hfactories ▸ h.factories⟩
    have hexact := (h.exact.perm hperm).release s x.world _
    rwa [← SameFactories.cached hfactories] at hexact
  | openFactory id c hid =>
    refine ⟨?_, Assoc.nodup_keys_put h.factories id _⟩
    have hexact := h.exact.withFactories (x.world.factories.put id { context := c })
    rwa [roots, ← cached_open c hid] at hexact
  | @cache f cls hs id name hf hname hh =>
    have hkeys := Assoc.keys_adjust x.world.factories id fun f => { f with classes := f.classes.put name cls }
    refine ⟨(h.exact.withFactories _).perm ?_, hkeys.symm ▸ h.factories⟩
    refine (hh.append_right _).trans ?_
    exact List.perm_middle.symm.trans ((cached_cache hf hname).symm.append_left _)
  | closeFactory id hf =>
    refine ⟨(h.exact.withFactories _).perm ?_, Assoc.nodup_keys_erase h.factories id⟩
    refine ((cached_close h.factories hf).append_left x.handles).trans ?_
    rw [← List.append_assoc]
    exact List.perm_append_comm.append_right _
  | other hw hh =>
    refine ⟨?_, hw.factoryKeys ▸ h.factories⟩
    have hexact := (h.exact.quiet hw).perm (hh.append_right x.world.cached)
    rwa [← hw.cached] at hexact

theorem Sound.reaches {x y : Held} (h : x.Sound) (hr : Reaches x y) : y.Sound := by
  induction hr with
  | refl => exact h
  | tail _ hs ih => exact ih.step hs

end Held

/-! ## Modules are not given out again -/

namespace World

/-- What is live later was live before, or has a module that was not given out before. -/
structure Later (w w' : World) : Prop where
  next : ∀ c, (w.graph c).nextAdapter ≤ (w'.graph c).nextAdapter
  sandbox : ∀ {id t}, w'.sandbox? id = some t →
    w.sandbox? id = some t ∨ ∃ n, (w.graph t.context).nextAdapter ≤ n ∧ t.module = .adapter n

variable {w w' w'' : World} {s : Sandbox}

theorem Later.refl (w : World) : Later w w := ⟨fun _ => Nat.le_refl _, .inl⟩

theorem Later.trans (h : Later w w') (h' : Later w' w'') : Later w w'' := by
  refine ⟨fun c => Nat.le_trans (h.next c) (h'.next c), fun ht => ?_⟩
  rcases h'.sandbox ht with ht | ⟨n, hn, hm⟩
  · exact h.sandbox ht
  · exact .inr ⟨n, Nat.le_trans (h.next _) hn, hm⟩

theorem SameSandboxes.later (h : SameSandboxes w w') : Later w w' :=
  ⟨fun c => h.graph c ▸ Nat.le_refl _, fun ht => .inl (h.sandbox _ ▸ ht)⟩

theorem Created.later (h : Created w w' s) : Later w w' := by
  refine ⟨h.nextAdapter_le, fun ht => ?_⟩
  rcases h.cases ht with ⟨-, rfl⟩ | ht
  · exact .inr ⟨_, Nat.le_refl _, h.module⟩
  · exact .inl ht

theorem Forgotten.later (h : Forgotten w w' s) : Later w w' :=
  ⟨fun c => Nat.le_of_eq (h.nextAdapter c).symm, fun ht => .inl (h.sandbox_of ht).2⟩

theorem later_release (w : World) (s : Sandbox) : Later w (w.release s) := by
  refine moves_release Later.refl Later.trans (fun w s l hl => ?_) (fun w s => (forgotten_forget w s).later) s w
  refine SameSandboxes.later (w.sameSandboxes_put hl ?_)
  rfl

theorem Later.distinct (h : Later w w') (hw : w.WellFormed) {s t : Sandbox} (hs : w.Holds s)
    (ht : w'.Holds t) (hc : s.context = t.context) (hm : s.module = t.module) : s = t := by
  obtain ⟨n, hn, hsn⟩ := hw.module hs
  rcases h.sandbox ht with ht | ⟨k, hk, htk⟩
  · have hid := hw.distinct hs ht hc hm
    rw [Holds, hid, ht] at hs
    exact (Option.some.inj hs).symm
  · rw [hsn, htk] at hm
    rw [ModuleId.adapter_inj hm, hc] at hn
    exact absurd hn (Nat.not_lt.2 hk)

end World

namespace Held

theorem Step.later {x y : Held} (h : Step x y) : Later x.world y.world := by
  have hsettle : ∀ {α : Type} {m : EngineM α} {ok : α → List Sandbox} {err : List Sandbox},
      Later x.world (m.outcome x.world).2 → Later x.world (settle ok err (m.outcome x.world)).world := by
    intro α m ok err hm
    generalize m.outcome x.world = o at hm
    obtain ⟨_ | _, w⟩ := o <;> exact hm
  cases h with
  | create c d parent domain hp =>
    rw [after_map]
    refine hsettle ?_
    rcases Sandbox.new_outcome c d parent domain x.world with ⟨f, hf⟩ | ⟨w', ho, hc⟩
    · rw [hf]
      exact .refl _
    · rw [ho]
      exact hc.later
  | load hs name =>
    rw [after_map]
    exact hsettle (Sandbox.keeps_load _ name x.world).later
  | find hs name =>
    rw [after_map]
    exact hsettle (Sandbox.keeps_find _ name x.world).later
  | share hs => exact (sameSandboxes_retain _ _).later
  | release hh => exact later_release _ _
  | openFactory id c hid => exact SameSandboxes.later ⟨rfl, fun _ => rfl, fun _ => rfl⟩
  | cache id name hf hname hh => exact SameSandboxes.later ⟨rfl, fun _ => rfl, fun _ => rfl⟩
  | closeFactory id hf => exact SameSandboxes.later ⟨rfl, fun _ => rfl, fun _ => rfl⟩
  | other hw hh => exact hw.sameSandboxes.later

theorem Reaches.later {x y : Held} (h : Reaches x y) : Later x.world y.world := by
  induction h with
  | refl => exact .refl _
  | tail _ hs ih => exact ih.trans hs.later

/-! ## Requests that fail -/

section

variable {w w' : World} {id : FactoryId} {target : HostType} {ov : Overrides}

theorem cached_of_fails {α : Type} {m : EngineM α} (hm : Run.Moves SameFactories m) {f : Fault}
    (h : m.outcome w = (.error f, w')) : w'.cached = w.cached := by
  have hw := hm w
  rw [h] at hw
  exact SameFactories.cached hw

theorem cached_of_adapterClass_fails {f : Fault} (h : (Factory.adapterClass id target ov).outcome w = (.error f, w')) :
    w'.cached = w.cached := by
  have hdescriptor : Quiet w ((Factory.descriptor id target ov).outcome w).2 := quiet_descriptor target ov w
  rcases Run.outcome_bind_error h with hd | ⟨d, w₁, hd, h₁⟩
  · rw [hd] at hdescriptor
    exact hdescriptor.cached
  · rw [hd] at hdescriptor
    rcases Run.outcome_bind_error h₁ with hget | ⟨fac, w₂, hget, h₂⟩
    · cases hget
    · cases hget
      cases hc : ((w₁.factories.get? id).getD default).classes.get? d.className with
      | some cls =>
        rw [hc] at h₂
        cases h₂
      | none =>
        rw [hc] at h₂
        rcases Run.outcome_bind_error h₂ with hload | ⟨cls, w₃, -, h₃⟩
        · exact (cached_of_fails (Factory.load_sameFactories target d) hload).trans hdescriptor.cached
        · cases h₃

theorem instantiate_sameFactories (cls : AdapterClass) : Run.Moves SameFactories cls.instantiate := by
  rw [AdapterClass.instantiate]
  cases cls.overrides with
  | some ov => exact fun w => rfl
  | none => exact Run.moves_fail .refl _

end

namespace Request

/-- The engine fails to give the class that a request needs. -/
def LoadFails (x : Held) : Request → Prop
  | .newAdapter id target ov => ∃ f, ((Factory.adapterClass id target ov).outcome x.world).1 = .error f
  | r => ∃ f, (r.run.outcome x.world).1 = .error f

theorem roots_of_fails {α : Type} {x : Held} {m : EngineM α} {g : α → List Sandbox}
    (h : ∃ f, ((g <$> m).outcome x.world).1 = .error f)
    (hm : ∀ f w', m.outcome x.world = (.error f, w') → w'.cached = x.world.cached) :
    (x.after (g <$> m)).roots = x.roots := by
  obtain ⟨f, h⟩ := h
  rw [Run.outcome_map] at h
  rw [after_map]
  rcases hrun : m.outcome x.world with ⟨r, w'⟩
  cases r with
  | ok a =>
    rw [hrun] at h
    cases h
  | error f' =>
    show x.handles ++ w'.cached = _
    rw [hm f' w' hrun, roots]

/-- A request that is not given its class leaves nothing behind. -/
theorem LoadFails.roots {x : Held} {r : Request} (h : r.LoadFails x) : (x.after r.run).roots = x.roots := by
  cases r with
  | create c d parent domain =>
    exact roots_of_fails h fun _ _ => cached_of_fails (Sandbox.new_sameFactories c d parent domain)
  | symbol s name =>
    exact roots_of_fails h fun _ _ => cached_of_fails (useClosed_sameFactories.moves_load s name)
  | ownClass s name =>
    exact roots_of_fails h fun _ _ => cached_of_fails (useClosed_sameFactories.moves_find s name)
  | generate d c parent domain =>
    exact roots_of_fails h fun _ _ => cached_of_fails (d.load_sameFactories c parent domain)
  | newInstance cls ov => exact roots_of_fails h fun _ _ => cached_of_fails (Factory.newInstance_sameFactories ov cls)
  | instantiate cls => exact roots_of_fails h fun _ _ => cached_of_fails (instantiate_sameFactories cls)
  | openFactory id c =>
    obtain ⟨f, hf⟩ := h
    cases hf
  | adapterClass id target ov => exact roots_of_fails h fun _ _ => cached_of_adapterClass_fails
  | newAdapter id target ov =>
    obtain ⟨f, hf⟩ := h
    rcases hrun : (Factory.adapterClass id target ov).outcome x.world with ⟨r, w'⟩
    rw [hrun] at hf
    cases hf
    have hnew : (Factory.newAdapter id target ov).outcome x.world = (.error f, w') := by
      rw [Factory.newAdapter, Run.outcome_bind, hrun]
    refine roots_of_fails ⟨f, by rw [Run.outcome_map, hnew]; rfl⟩ fun f' w'' h => ?_
    cases hnew.symm.trans h
    exact cached_of_adapterClass_fails hrun
  | extend id target ov =>
    exact roots_of_fails h fun _ _ => cached_of_fails (Factory.extend_sameFactories target ov)
  | dropFactory id =>
    obtain ⟨f, hf⟩ := h
    cases hf

end Request

/-! ## Module graphs -/

/-- The edges of a graph are just those that some sandboxes are granted, three for each. -/
structure GrantsJust (g : ModuleGraph) (P : Sandbox → Prop) : Prop where
  exports : ∀ e, e ∈ g.exports ↔ ∃ s, P s ∧
    (e = ⟨.engine, Symbols.runtimePackage, s.module⟩ ∨ e = ⟨.engine, Symbols.linkerPackage, s.module⟩)
  reads : ∀ e, e ∈ g.reads ↔ ∃ s, P s ∧ e = ⟨.engine, s.module⟩
  edgeCount : ∃ ss : List Sandbox, ss.Nodup ∧ (∀ s, s ∈ ss ↔ P s) ∧ g.edgeCount = 3 * ss.length

theorem nodup_live {w : World} {rs : List Sandbox} (h : w.Exact rs) : w.live.Nodup := by
  have hkeys : w.live.map Sandbox.id = w.sandboxes.keys := by
    rw [live, List.map_map]
    refine List.map_congr_left fun e he => h.wellFormed.id ?_
    rw [sandbox?, Assoc.get?_of_mem h.keys he]
    rfl
  exact .of_map Sandbox.id (hkeys ▸ h.keys)

theorem Sound.grantsJust {x : Held} (h : x.Sound) (c : ContextId) :
    GrantsJust (x.world.graph c) fun s => x.Referenced s ∧ s.context = c := by
  have hmem : ∀ s, s ∈ x.world.liveIn c ↔ x.Referenced s ∧ s.context = c := fun s => by
    rw [liveIn, List.mem_filter, h.referenced_iff, decide_eq_true_iff]
  refine ⟨fun e => ?_, fun e => ?_, x.world.liveIn c, (nodup_live h.exact).filter _, hmem, ?_⟩
  · rw [(h.exact.exports c).mem_iff, List.mem_flatMap]
    exact exists_congr fun s => and_congr (hmem s) List.mem_pair
  · rw [(h.exact.reads c).mem_iff, List.mem_map]
    exact exists_congr fun s => and_congr (hmem s) eq_comm
  · have hexports : ((x.world.liveIn c).flatMap Sandbox.exportEdges).length = 2 * (x.world.liveIn c).length := by
      induction x.world.liveIn c with
      | nil => rfl
      | cons s ss ih =>
        rw [List.flatMap_cons, List.length_append, ih]
        simp only [Sandbox.exportEdges, List.length_cons, List.length_nil]
        omega
    rw [ModuleGraph.edgeCount, (h.exact.exports c).length_eq, (h.exact.reads c).length_eq, hexports, List.length_map]
    omega

theorem GrantsJust.no_outgoing {g : ModuleGraph} {P : Sandbox → Prop} (h : GrantsJust g P) (n : Nat) :
    g.hasOutgoingEdges (.adapter n) = false := by
  have hne : ModuleId.engine ≠ .adapter n := (ModuleId.adapter_ne_engine n).symm
  rw [ModuleGraph.hasOutgoingEdges, Bool.or_eq_false_iff, List.any_eq_false, List.any_eq_false]
  refine ⟨fun e he => ?_, fun e he => ?_⟩
  · obtain ⟨s, -, rfl | rfl⟩ := (h.exports e).1 he <;> simpa using hne
  · obtain ⟨s, -, rfl⟩ := (h.reads e).1 he
    simpa using hne

/-- At every point of every run, the graph of each context holds just the grants of the sandboxes that something leads
to; none starts at the module of an adapter. What is referenced at two points has a module of its own, requests are
runs, and one that is not given its class leaves the edges as they were. -/
theorem grants_exact {x : Held} (hx : Reaches ⟨{}, []⟩ x) :
    (∀ c, GrantsJust (x.world.graph c) fun s => x.Referenced s ∧ s.context = c) ∧
    (∀ c n, (x.world.graph c).hasOutgoingEdges (.adapter n) = false) ∧
    (∀ y, Reaches x y → ∀ s t, x.Referenced s → y.Referenced t → s.context = t.context → s.module = t.module →
      s = t) ∧
    ∀ r : Request, r.Allowed x → Reaches x (x.after r.run) ∧
      (r.LoadFails x → ∀ c,
        (∀ e, e ∈ ((x.after r.run).world.graph c).exports ↔ e ∈ (x.world.graph c).exports) ∧
        ∀ e, e ∈ ((x.after r.run).world.graph c).reads ↔ e ∈ (x.world.graph c).reads) := by
  have hsound := Sound.empty.reaches hx
  refine ⟨hsound.grantsJust, fun c => (hsound.grantsJust c).no_outgoing, fun y hy s t hs ht hc hm => ?_,
    fun r hr => ⟨r.reaches hr, fun hfails c => ?_⟩⟩
  · exact hy.later.distinct hsound.exact.wellFormed (hsound.holds hs) ((hsound.reaches hy).holds ht) hc hm
  · have hafter := (hsound.reaches (r.reaches hr)).grantsJust c
    have hbefore := hsound.grantsJust c
    have hsame : ∀ s, (x.after r.run).Referenced s ↔ x.Referenced s := fun s => by
      rw [Referenced, hfails.roots, Referenced]
    simp only [hsame] at hafter
    exact ⟨fun e => (hafter.exports e).trans (hbefore.exports e).symm,
      fun e => (hafter.reads e).trans (hbefore.reads e).symm⟩

def servedOnce : Held := after ⟨Factory.started, []⟩ (Request.adapterClass 0 Factory.trusted Factory.byFunction).run

theorem reaches_started : Reaches ⟨{}, []⟩ ⟨Factory.started, []⟩ := by
  have hcontexts : Quiet {} { contexts := ⟨[(0, { options := {}, global := default })]⟩ } := by
    refine ⟨rfl, rfl, fun c => ?_, rfl⟩
    by_cases hc : 0 = c
    · subst hc
      rfl
    · simp [graph, context, Assoc.get?, Assoc.getIn, hc]
  have hopen : Reaches ⟨{ contexts := ⟨[(0, { options := {}, global := default })]⟩ }, []⟩ ⟨Factory.started, []⟩ :=
    (Step.openFactory 0 0 rfl).reaches
  exact (Reaches.quiet hcontexts []).trans hopen

theorem reaches_servedOnce : Reaches ⟨{}, []⟩ servedOnce := reaches_started.trans (Request.reaches _ ⟨_, rfl⟩)

/-- One sandbox is referenced then. The factory can be asked for a class of its own, and the sandbox for a class that
it does not have; that fails and leaves the edges. -/
theorem grants_exact_served :
    ∃ s, servedOnce.Referenced s ∧ s.context = 0 ∧
      (servedOnce.world.graph 0).isExported .engine Symbols.linkerPackage s.module = true ∧
      (servedOnce.world.graph 0).hasOutgoingEdges (.adapter 0) = false ∧
      Reaches servedOnce (servedOnce.after (Request.extend 0 Factory.untrusted Factory.byFunction).run) ∧
      ∀ e, e ∈ ((servedOnce.after (Request.ownClass s (s.descriptor.className ++ "$")).run).world.graph 0).reads ↔
        e ∈ (servedOnce.world.graph 0).reads := by
  obtain ⟨hgrants, houtgoing, -, hrequests⟩ := grants_exact reaches_servedOnce
  have hserved : (servedOnce.world.graph 0).edgeCount = 3 ∧ (servedOnce.world.factories.get? 0).isSome = true := by
    decide +kernel
  have hextend := hrequests (.extend 0 Factory.untrusted Factory.byFunction)
    (Option.isSome_iff_exists.1 hserved.2)
  obtain ⟨ss, -, hss, hlength⟩ := (hgrants 0).edgeCount
  match ss with
  | [] =>
    rw [hserved.1] at hlength
    cases hlength
  | s :: ss =>
    obtain ⟨hs, hc⟩ := (hss s).1 (List.mem_cons_self ..)
    have hfails : (Request.ownClass s (s.descriptor.className ++ "$")).LoadFails servedOnce := by
      have hname : s.descriptor.className ++ "$" ≠ s.descriptor.className := fun heq => by
        have hlength := congrArg String.length heq
        rw [String.length_append] at hlength
        exact absurd hlength (by simp)
      refine ⟨.error (.classNotFound (s.descriptor.className ++ "$")), ?_⟩
      rw [Request.run, Run.outcome_map, Sandbox.find, Sandbox.ownClass, if_pos hname]
      rfl
    refine ⟨s, hs, hc, ?_, houtgoing 0 0, hextend.1, ((hrequests (.ownClass s _) hs).2 hfails 0).2⟩
    rw [ModuleGraph.isExported_iff, (hgrants 0).exports]
    exact ⟨s, ⟨hs, hc⟩, .inr rfl⟩

end Held
end ScriptHost
