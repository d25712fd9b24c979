import ScriptHost.Adapter.Sandbox
import ScriptHost.Proofs.Adapter.Modules
import ScriptHost.Proofs.Assoc
import ScriptHost.Proofs.Run

/-!
# What making, using and dropping a sandbox changes

Of a world, only three things matter to what a sandbox sees: which sandboxes are live, the number of the
next one, and the module graphs. Most of what happens leaves them as they are (`SameSandboxes`); a new
sandbox adds itself and the edges of its module (`Created`), and the end of one takes both away
(`Forgotten`).
-/

namespace ScriptHost

namespace World

/-! ## What matters of a world -/

def sandbox? (w : World) (id : SandboxId) : Option Sandbox := (w.sandboxes.get? id).map LiveSandbox.sandbox

def Holds (w : World) (s : Sandbox) : Prop := w.sandbox? s.id = some s

def graph (w : World) (c : ContextId) : ModuleGraph := (w.context c).graph

structure SameSandboxes (w w' : World) : Prop where
  next : w'.nextSandbox = w.nextSandbox
  sandbox : ∀ id, w'.sandbox? id = w.sandbox? id
  graph : ∀ c, w'.graph c = w.graph c

/-- The world has one sandbox more. Its number and module are the next ones. -/
structure Created (w w' : World) (s : Sandbox) : Prop where
  id : s.id = w.nextSandbox
  module : s.module = .adapter (w.graph s.context).nextAdapter
  next : w'.nextSandbox = w.nextSandbox + 1
  sandbox : ∀ id, w'.sandbox? id = if s.id = id then some s else w.sandbox? id
  graph : ∀ c, w'.graph c =
    if s.context = c then Sandbox.grant (w.graph c).newAdapterModule.2 s.module else w.graph c

/-- The world is without a sandbox, and its graph without the sandbox's module. -/
structure Forgotten (w w' : World) (s : Sandbox) : Prop where
  next : w'.nextSandbox = w.nextSandbox
  sandbox : ∀ id, w'.sandbox? id = if s.id = id then none else w.sandbox? id
  graph : ∀ c, w'.graph c = if s.context = c then (w.graph c).removeModule s.module else w.graph c

theorem SameSandboxes.refl (w : World) : SameSandboxes w w := ⟨rfl, fun _ => rfl, fun _ => rfl⟩

theorem SameSandboxes.trans {w w' w'' : World} (h : SameSandboxes w w') (h' : SameSandboxes w' w'') :
    SameSandboxes w w'' :=
  ⟨h'.next.trans h.next, fun id => (h'.sandbox id).trans (h.sandbox id), fun c => (h'.graph c).trans (h.graph c)⟩

theorem context_setContext (w : World) (c c' : ContextId) (ctx : Context) :
    (w.setContext c ctx).context c' = if c = c' then ctx else w.context c' := by
  simp only [context, setContext, Assoc.get?_put]
  split <;> rfl

theorem sameSandboxes_adjust (w : World) (id : SandboxId) {f : LiveSandbox → LiveSandbox}
    (hf : ∀ l, (f l).sandbox = l.sandbox) :
    SameSandboxes w { w with sandboxes := w.sandboxes.adjust id f } := by
  refine ⟨rfl, fun id' => ?_, fun _ => rfl⟩
  simp only [sandbox?, Assoc.get?_adjust]
  split
  · rw [Option.map_map]
    congr 1
    funext l
    exact hf l
  · rfl

theorem sameSandboxes_put (w : World) {id : SandboxId} {l l' : LiveSandbox} (hl : w.sandboxes.get? id = some l)
    (h : l'.sandbox = l.sandbox) : SameSandboxes w { w with sandboxes := w.sandboxes.put id l' } := by
  refine ⟨rfl, fun id' => ?_, fun _ => rfl⟩
  show ((w.sandboxes.put id l').get? id').map LiveSandbox.sandbox = (w.sandboxes.get? id').map LiveSandbox.sandbox
  rw [← Assoc.get?_view, ← Assoc.get?_view, Assoc.view_put hl h]

theorem sameSandboxes_retain (w : World) (s : Sandbox) : SameSandboxes w (w.retain s) :=
  sameSandboxes_adjust w s.id fun _ => rfl

theorem sameSandboxes_setContext (w : World) (c : ContextId) {ctx : Context} (h : ctx.graph = w.graph c) :
    SameSandboxes w (w.setContext c ctx) := by
  refine ⟨rfl, fun _ => rfl, fun c' => ?_⟩
  simp only [graph, context_setContext]
  split
  · next hc => rw [← hc, h, graph]
  · rfl

theorem forgotten_forget (w : World) (s : Sandbox) : Forgotten w (w.forget s.id s.context s.module) s := by
  refine ⟨rfl, fun id => ?_, fun c => ?_⟩
  · show ((w.sandboxes.erase s.id).get? id).map LiveSandbox.sandbox = _
    rw [Assoc.get?_erase]
    split <;> rfl
  · show ((w.setContext s.context { w.context s.context with
      graph := (w.context s.context).graph.removeModule s.module }).context c).graph = _
    rw [context_setContext]
    split
    · next hc => rw [hc, graph]
    · rfl

end World

/-! ## Operations -/

open World

/-- The module of the next sandbox of a context, with its edges. -/
def World.granted (w : World) (c : ContextId) : World :=
  w.setContext c { w.context c with
    graph := Sandbox.grant (w.graph c).newAdapterModule.2 (.adapter (w.graph c).nextAdapter) }

def World.fresh (w : World) (c : ContextId) (d : Descriptor) (parent : Parent) (domain : Domain) : Sandbox :=
  ⟨w.nextSandbox, c, d, parent, domain, .adapter (w.graph c).nextAdapter⟩

def World.add (w : World) (s : Sandbox) : World :=
  { w with nextSandbox := w.nextSandbox + 1, sandboxes := w.sandboxes.put s.id { sandbox := s, handles := 1 } }

theorem World.created_add {w w' : World} {c : ContextId} (h : SameSandboxes (w.granted c) w') (d : Descriptor)
    (parent : Parent) (domain : Domain) :
    Created w (w'.add (w.fresh c d parent domain)) (w.fresh c d parent domain) := by
  refine ⟨rfl, rfl, congrArg (· + 1) h.next, fun id => ?_, fun c' => ?_⟩
  · rw [sandbox?, add, Assoc.get?_put]
    split
    · rfl
    · exact h.sandbox id
  · refine (h.graph c').trans ?_
    rw [World.graph, World.granted, context_setContext, fresh]
    split
    · next hc => rw [hc]
    · rfl

theorem Engine.outcome_check (p : Permission) (w : World) :
    (Engine.check p).outcome w =
      (if w.thread.grants p then .ok () else .error (.error (.privilege p)), w) := by
  rw [Engine.check, Run.outcome_bind, Run.outcome_get]
  dsimp only
  split <;> rfl

theorem Sandbox.new_outcome (c : ContextId) (d : Descriptor) (parent : Parent) (domain : Domain) (w : World) :
    (∃ f, (Sandbox.new c d parent domain).outcome w = (.error f, w)) ∨
      ∃ w', (Sandbox.new c d parent domain).outcome w = (.ok (w.fresh c d parent domain), w') ∧
        Created w w' (w.fresh c d parent domain) := by
  rw [Sandbox.new, Run.outcome_bind, Engine.outcome_check]
  by_cases hp : w.thread.grants .createClassLoader
  · rw [if_pos hp]
    dsimp only
    cases parent with
    | publishing cls =>
      exact .inr ⟨((w.granted c).retain cls.sandbox).add (w.fresh c d (.publishing cls) domain), rfl,
        created_add (sameSandboxes_retain _ cls.sandbox) d _ domain⟩
    | _ => exact .inr ⟨(w.granted c).add (w.fresh c d _ domain), rfl, created_add (.refl _) d _ domain⟩
  · rw [if_neg hp]
    exact .inl ⟨_, rfl⟩

/-! ## Use -/

/-- The relation holds across all that a sandbox changes when it looks up symbols and defines its class: contexts,
but not their graphs, and definitions. -/
structure DefineClosed (R : World → World → Prop) : Prop where
  refl : ∀ w, R w w
  trans : ∀ {w₁ w₂ w₃}, R w₁ w₂ → R w₂ w₃ → R w₁ w₃
  context : ∀ (w : World) (c : ContextId) {ctx : Context}, ctx.graph = w.graph c → R w (w.setContext c ctx)
  define : ∀ (w : World) (s : Sandbox) (d : Definition), R w (w.setDefinition s d)

/-- The relation holds also where a handle is given out. -/
structure UseClosed (R : World → World → Prop) : Prop extends DefineClosed R where
  retain : ∀ (w : World) (s : Sandbox), R w (w.retain s)

theorem useClosed_sameSandboxes : UseClosed SameSandboxes where
  refl := .refl
  trans := .trans
  context := sameSandboxes_setContext
  define w s _ := sameSandboxes_adjust w s.id fun _ => rfl
  retain := sameSandboxes_retain

namespace DefineClosed

variable {R : World → World → Prop} (hR : DefineClosed R) (s : Sandbox)

include hR

theorem moves_searchOutside (name : String) : Run.Moves R (s.searchOutside name) :=
  (Run.moves_get hR.refl).bind hR.trans fun _ => Run.moves_ofExcept hR.refl _

theorem moves_link (cls : String) (symbols : List String) : Run.Moves R (s.link cls symbols) := by
  induction symbols with
  | nil => exact Run.moves_pure hR.refl ()
  | cons symbol rest ih =>
    rw [Sandbox.link]
    split
    · exact Run.moves_fail hR.refl _
    · refine (hR.moves_searchOutside s symbol).bind hR.trans fun found => ?_
      cases found with
      | some t => exact ih
      | none => exact Run.moves_fail hR.refl _

theorem moves_define : Run.Moves R s.define := by
  rw [Sandbox.define]
  have hdump : Run.Moves R s.dump := fun w => hR.context w s.context rfl
  refine hdump.bind hR.trans fun _ => ?_
  cases ClassFile.decode s.descriptor.bytes with
  | error e => exact Run.moves_fail hR.refl _
  | ok file =>
    dsimp only
    split
    · exact Run.moves_fail hR.refl _
    · split
      · exact Run.moves_fail hR.refl _
      · refine (hR.moves_link s _ file.refs).bind hR.trans fun _ => ?_
        refine Run.Moves.bind (fun w => hR.define w s { file }) hR.trans fun _ => ?_
        exact Run.moves_pure hR.refl file

theorem moves_ownClass (name : String) : Run.Moves R (s.ownClass name) := by
  rw [Sandbox.ownClass]
  split
  · exact Run.moves_fail hR.refl _
  · refine (Run.moves_get hR.refl).bind hR.trans fun w => ?_
    cases w.definition? s with
    | some d => exact Run.moves_pure hR.refl _
    | none => exact (hR.moves_define s).bind hR.trans fun file => Run.moves_pure hR.refl _

theorem moves_resolve (name : String) : Run.Moves R (s.resolve name) := by
  refine (hR.moves_searchOutside s name).bind hR.trans fun found => ?_
  cases found with
  | some t => exact Run.moves_pure hR.refl t
  | none => exact (hR.moves_ownClass s name).map _

end DefineClosed

namespace UseClosed

variable {R : World → World → Prop} (hR : UseClosed R) (s : Sandbox)

include hR

theorem retainLoaded (w : World) (t : LoadedType) : R w (w.retainLoaded t) := by
  cases t with
  | adapter c => exact hR.retain w c.sandbox
  | _ => exact hR.refl w

theorem moves_load (name : String) : Run.Moves R (s.load name) :=
  (hR.moves_resolve s name).bind hR.trans fun t =>
    Run.Moves.bind (fun w => hR.retainLoaded w t) hR.trans fun _ => Run.moves_pure hR.refl t

theorem moves_find (name : String) : Run.Moves R (s.find name) :=
  (hR.moves_ownClass s name).bind hR.trans fun c =>
    Run.Moves.bind (fun w => hR.retain w c.sandbox) hR.trans fun _ => Run.moves_pure hR.refl c

end UseClosed

/-- A computation that makes and drops no sandbox. -/
abbrev Keeps {α : Type} (x : EngineM α) : Prop := Run.Moves SameSandboxes x

theorem Sandbox.keeps_load (s : Sandbox) (name : String) : Keeps (s.load name) :=
  useClosed_sameSandboxes.moves_load s name

theorem Sandbox.keeps_find (s : Sandbox) (name : String) : Keeps (s.find name) :=
  useClosed_sameSandboxes.moves_find s name

/-! ## Giving up handles -/

/-- Giving up a handle changes a count, or is the end of the sandbox. The handle of its parent goes with it. -/
theorem World.release_cases (w : World) (s : Sandbox) :
    SameSandboxes w (w.release s) ∨
      ∃ t w', w.sandbox? s.id = some t ∧ Forgotten w w' s ∧ w.release s = w'.releaseParent s.parent := by
  obtain ⟨id, context, descriptor, parent, domain, module⟩ := s
  rw [World.release]
  cases hl : w.sandboxes.get? id with
  | none => exact .inl (.refl w)
  | some l =>
    dsimp only
    split
    · refine .inr ⟨l.sandbox, _, ?_, forgotten_forget w ⟨id, context, descriptor, parent, domain, module⟩, rfl⟩
      rw [sandbox?, hl]
      rfl
    · exact .inl (w.sameSandboxes_put hl rfl)

end ScriptHost
