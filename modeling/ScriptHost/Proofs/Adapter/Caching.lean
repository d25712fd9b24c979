import Mathlib.Data.Finset.Card
import ScriptHost.Proofs.Adapter.Dispatch
import ScriptHost.Proofs.Adapter.Failures

/-!
# Which requests share a class

A factory can be asked for a class, for an instance, and for a class with implementations of its own (`RequestKind`). Over a
history of such requests that can be told apart (`Distinguished`), what the factory keeps is exactly what the requests say
(`Ledger`): a class for each pair of a target and names covered for which one was given, under its generated name, in a
sandbox with a number of its own. So requests share a class just where they name the same target and cover the same methods
(`caching_exact`).
-/

namespace ScriptHost.Factory

open World

/-! ## Requests and replies -/

inductive RequestKind where
  | cached
  | adapter
  | extended
deriving DecidableEq

/-- The class that is given on a request; an adapter is an instance of it. -/
def request (id : FactoryId) (target : HostType) (ov : Overrides) : RequestKind → EngineM AdapterClass
  | .cached => adapterClass id target ov
  | .adapter => Instance.cls <$> newAdapter id target ov
  | .extended => extend id target ov

/-- A request to a factory, the methods that its implementations covered then, and the class that was given on it. -/
structure Reply where
  kind : RequestKind
  target : HostType
  covered : List String
  given : Option AdapterClass

def reply (id : FactoryId) (target : HostType) (ov : Overrides) (w : World) (kind : RequestKind) : Reply :=
  ⟨kind, target, ov.names w.heap target, ((request id target ov kind).outcome w).1.toOption⟩

namespace Reply

def isCached (r : Reply) : Bool := r.kind != .extended

def className (r : Reply) : String := Descriptor.nameOf r.target r.covered false

def pair (r : Reply) : HostType × Finset String := (r.target, r.covered.toFinset)

def isServed (r : Reply) : Bool := r.isCached && r.given.isSome

/-- The class was given through the caches, under the name. -/
def Gives (r : Reply) (name : String) (c : AdapterClass) : Prop :=
  r.isCached = true ∧ r.given = some c ∧ r.className = name

/-- If one of two requests was for a class with implementations of its own, they were not given the same class. -/
def Separate (r r' : Reply) : Prop :=
  r.isCached = false ∨ r'.isCached = false → ∀ c c', r.given = some c → r'.given = some c' → c.sameType c' = false

theorem Separate.symm {r r' : Reply} (h : r.Separate r') : r'.Separate r := by
  intro hkind c c' hc hc'
  rw [AdapterClass.sameType, Bool.beq_comm]
  exact h hkind.symm c' c hc' hc

theorem separate_of_mem {rs : List Reply} (h : rs.Pairwise Separate) {r r' : Reply} (hr : r ∈ rs) (hr' : r' ∈ rs)
    (hne : r ≠ r') : r.Separate r' := by
  induction h with
  | nil => cases hr
  | cons hfirst _ ih =>
    rcases List.mem_cons.1 hr with rfl | hmem <;> rcases List.mem_cons.1 hr' with rfl | hmem'
    · exact absurd rfl hne
    · exact hfirst r' hmem'
    · exact (hfirst r hmem).symm
    · exact ih hmem hmem'

end Reply

def asked (rs : List Reply) : Asked := (rs.filter Reply.isCached).map fun r => (r.target, r.covered)

/-- The worlds of all histories of a factory, with the requests to it, the latest first. Between them anything may happen
that leaves the factory alone; numbers of sandboxes are not given out again. -/
inductive Replied (id : FactoryId) : List Reply → World → Prop
  | new (w : World) (c : ContextId) : Replied id [] ((new c id).outcome w).2
  | ask {rs : List Reply} {w : World} (h : Replied id rs w) (target : HostType) (ov : Overrides) (kind : RequestKind) :
    Replied id (reply id target ov w kind :: rs) ((request id target ov kind).outcome w).2
  | other {rs : List Reply} {w w' : World} (h : Replied id rs w)
    (hfactory : w'.factories.get? id = w.factories.get? id) (hnext : w.nextSandbox ≤ w'.nextSandbox) : Replied id rs w'

/-! ## What the caches hold -/

/-- What holds of a request on its own: a class that was given through the caches takes implementations for it, and its
number was given out. -/
structure Reply.Fair (r : Reply) (next : SandboxId) : Prop where
  ascending : Ascending r.covered
  fits : r.isCached = true → ∀ c, r.given = some c →
    ∃ d, c.MadeFrom d ∧ Descriptor.generate r.target r.covered false = .ok d
  number : ∀ c, r.given = some c → c.sandbox.id < next

theorem Reply.Fair.later {r : Reply} {next next' : SandboxId} (h : r.Fair next) (hnext : next ≤ next') : r.Fair next' :=
  { h with number := fun c hc => Nat.lt_of_lt_of_le (h.number c hc) hnext }

theorem Reply.Fair.of_none {r : Reply} {next : SandboxId} (h : Ascending r.covered) (hnone : r.given = none) :
    r.Fair next where
  ascending := h
  fits _ c hc := by
    rw [hnone] at hc
    cases hc
  number c hc := by
    rw [hnone] at hc
    cases hc

theorem Reply.Fair.of_given {r : Reply} {next : SandboxId} {c : AdapterClass} (h : Ascending r.covered)
    (hgiven : r.given = some c) (hnumber : c.sandbox.id < next)
    (hfits : ∃ d, c.MadeFrom d ∧ Descriptor.generate r.target r.covered false = .ok d) : r.Fair next where
  ascending := h
  fits _ c' hc' := by
    obtain rfl := Option.some.inj (hgiven.symm.trans hc')
    exact hfits
  number c' hc' := by
    obtain rfl := Option.some.inj (hgiven.symm.trans hc')
    exact hnumber

/-- The factory keeps just the classes that were given through its caches, under their generated names. Each class has a
number of its own. -/
structure Ledger (rs : List Reply) (next : SandboxId) (f : Factory) : Prop where
  keys : f.classes.keys.Nodup
  classes : ∀ {name c}, f.classes.get? name = some c ↔ ∃ r ∈ rs, r.Gives name c
  replies : ∀ r ∈ rs, r.Fair next
  distinct : ∀ {name name' c c'}, f.classes.get? name = some c → f.classes.get? name' = some c' →
    c.sandbox.id = c'.sandbox.id → name = name'
  separate : rs.Pairwise Reply.Separate

namespace Ledger

variable {rs : List Reply} {next next' : SandboxId} {f f' : Factory} {r : Reply} {c : AdapterClass}

theorem empty (next : SandboxId) (context : ContextId) : Ledger [] next { context } where
  keys := .nil
  classes := ⟨(nomatch ·), fun ⟨_, h, _⟩ => (nomatch h)⟩
  replies _ h := nomatch h
  distinct h := nomatch h
  separate := .nil

theorem later (h : Ledger rs next f) (hnext : next ≤ next') : Ledger rs next' f :=
  { h with replies := fun r hr => (h.replies r hr).later hnext }

theorem number_lt (h : Ledger rs next f) {name : String} (hc : f.classes.get? name = some c) : c.sandbox.id < next := by
  obtain ⟨r, hr, -, hgiven, -⟩ := h.classes.1 hc
  exact (h.replies r hr).number c hgiven

section

variable (h : Ledger rs next f) (hnext : next ≤ next') (hfair : r.Fair next')

include h hnext hfair

theorem aside (hclasses : f'.classes = f.classes) (hcached : r.isCached = true → r.given = none)
    (hnew : ∀ c, r.given = some c → next ≤ c.sandbox.id) : Ledger (r :: rs) next' f' where
  keys := hclasses ▸ h.keys
  classes {name c} := by
    have hno : ¬r.Gives name c := fun ⟨hc, hgiven, _⟩ => by
      rw [hcached hc] at hgiven
      cases hgiven
    rw [hclasses, h.classes, List.exists_mem_cons_iff, or_iff_right hno]
  replies := List.forall_mem_cons.2 ⟨hfair, fun r' hr' => (h.replies r' hr').later hnext⟩
  distinct hc hc' := h.distinct (hclasses ▸ hc) (hclasses ▸ hc')
  separate := by
    refine List.pairwise_cons.2 ⟨fun r' hr' _ c c' hc hc' => ?_, h.separate⟩
    have hlt := Nat.lt_of_lt_of_le ((h.replies r' hr').number c' hc') (hnew c hc)
    exact beq_false_of_ne (Nat.ne_of_gt hlt)

theorem hit (hclasses : f'.classes = f.classes) (hcached : r.isCached = true) (hgiven : r.given = some c)
    (hkept : f.classes.get? r.className = some c) : Ledger (r :: rs) next' f' where
  keys := hclasses ▸ h.keys
  classes {name c'} := by
    rw [hclasses, List.exists_mem_cons_iff, ← h.classes, or_iff_right_of_imp]
    rintro ⟨-, hgiven', rfl⟩
    rw [hkept, ← hgiven, hgiven']
  replies := List.forall_mem_cons.2 ⟨hfair, fun r' hr' => (h.replies r' hr').later hnext⟩
  distinct hc hc' := h.distinct (hclasses ▸ hc) (hclasses ▸ hc')
  separate := by
    refine List.pairwise_cons.2 ⟨fun r' hr' hkind c₁ c' hc₁ hc' => ?_, h.separate⟩
    obtain rfl := Option.some.inj (hgiven.symm.trans hc₁)
    -- the class was given on an earlier request, which is separate from the other one
    have hr'cached : r'.isCached = false := hkind.resolve_left (by rw [hcached]; simp)
    obtain ⟨r'', hr'', hcached'', hgiven'', -⟩ := h.classes.1 hkept
    have hne : r'' ≠ r' := fun heq => by
      rw [heq, hr'cached] at hcached''
      cases hcached''
    exact Reply.separate_of_mem h.separate hr'' hr' hne (.inr hr'cached) c c' hgiven'' hc'

theorem entry (hclasses : f'.classes = f.classes.put r.className c) (hcached : r.isCached = true)
    (hgiven : r.given = some c) (habsent : f.classes.get? r.className = none) (hnew : next ≤ c.sandbox.id) :
    Ledger (r :: rs) next' f' := by
  have hget : ∀ name, f'.classes.get? name = if r.className = name then some c else f.classes.get? name := fun name => by
    rw [hclasses, Assoc.get?_put]
  refine
    { keys := hclasses ▸ Assoc.nodup_keys_put h.keys _ _
      classes := fun {name c'} => ?_
      replies := List.forall_mem_cons.2 ⟨hfair, fun r' hr' => (h.replies r' hr').later hnext⟩
      distinct := fun {name name' c₁ c₂} h₁ h₂ heq => ?_
      separate := List.pairwise_cons.2 ⟨fun r' hr' _ c₁ c' hc₁ hc' => ?_, h.separate⟩ }
  · rw [hget, List.exists_mem_cons_iff, ← h.classes]
    by_cases hname : r.className = name
    · subst hname
      rw [if_pos rfl, habsent, ← hgiven]
      simp [Reply.Gives, hcached]
    · rw [if_neg hname, or_iff_right fun hgives => hname hgives.2.2]
  · rw [hget] at h₁ h₂
    split at h₁ <;> split at h₂
    · next hname hname' => exact hname.symm.trans hname'
    · obtain rfl := Option.some.inj h₁
      exact absurd heq (Nat.ne_of_gt (Nat.lt_of_lt_of_le (h.number_lt h₂) hnew))
    · obtain rfl := Option.some.inj h₂
      exact absurd heq (Nat.ne_of_lt (Nat.lt_of_lt_of_le (h.number_lt h₁) hnew))
    · exact h.distinct h₁ h₂ heq
  · obtain rfl := Option.some.inj (hgiven.symm.trans hc₁)
    have hlt := Nat.lt_of_lt_of_le ((h.replies r' hr').number c' hc') hnew
    exact beq_false_of_ne (Nat.ne_of_gt hlt)

end

end Ledger

/-! ## What a request changes -/

theorem asked_cached {r : Reply} (h : r.isCached = true) (rs : List Reply) :
    asked (r :: rs) = (r.target, r.covered) :: asked rs := by
  rw [asked, List.filter_cons_of_pos h, List.map_cons, asked]

theorem mem_asked {rs : List Reply} {r : Reply} (hr : r ∈ rs) (h : r.isCached = true) :
    (r.target, r.covered) ∈ asked rs :=
  List.mem_map_of_mem (List.mem_filter.2 ⟨hr, h⟩)

theorem asked_subset (r : Reply) (rs : List Reply) : asked rs ⊆ asked (r :: rs) :=
  List.map_subset _ (List.filter_subset _ (List.subset_cons_self ..))

theorem Distinguished.mono {asked asked' : Asked} (h : Distinguished asked') (hs : asked ⊆ asked') :
    Distinguished asked :=
  ⟨fun ht ht' => h.targets (hs ht) (hs ht'), fun ht ht' => h.classes (hs ht) (hs ht')⟩

section

variable {id : FactoryId} {target : HostType} {ov : Overrides} {w : World} {f : Factory} {rs : List Reply}

theorem Sound.own {asked : Asked} {names : List String} (h : Sound asked f)
    (hd : Distinguished ((target, names) :: asked)) {d : Descriptor}
    (hk : f.descriptors.get? ⟨target.name, names⟩ = some d) : Descriptor.generate target names false = .ok d := by
  obtain ⟨t, ht, hname, hg⟩ := h.descriptors hk
  obtain rfl := hd.targets (List.mem_cons_of_mem _ ht) (List.mem_cons_self ..) hname
  exact hg

theorem extend_number (hf : w.factories.get? id = some f) {c : AdapterClass} {w' : World}
    (h : (extend id target ov).outcome w = (.ok c, w')) :
    c.sandbox.id = w.nextSandbox ∧ c.sandbox.id < w'.nextSandbox := by
  obtain ⟨d, c', hl, rfl⟩ := extend_loaded h
  obtain ⟨-, hnumber, hlt, -⟩ := load_made hf hl
  exact ⟨hnumber, hlt⟩

/-- The factory is there, and keeps what the requests say. -/
def Keeps (id : FactoryId) (rs : List Reply) (w : World) : Prop :=
  ∃ f, w.factories.get? id = some f ∧ Ledger rs w.nextSandbox f

namespace Ledger

section

variable (h : Ledger rs w.nextSandbox f) (hf : w.factories.get? id = some f) (hsound : Sound (asked rs) f)

include h hf hsound

/-- A request for a class, as a reply that goes through the caches. -/
theorem keeps_adapterClass (hd : Distinguished ((target, ov.names w.heap target) :: asked rs)) {r : Reply}
    (hcached : r.isCached = true) (htarget : r.target = target) (hcovered : r.covered = ov.names w.heap target)
    (hgiven : r.given = ((adapterClass id target ov).outcome w).1.toOption) :
    Keeps id (r :: rs) ((adapterClass id target ov).outcome w).2 := by
  have hanswers := adapterClass_answers hf target ov
  have hadvances := engineClosed_advances.moves_adapterClass id target ov w
  generalize (adapterClass id target ov).outcome w = result at hanswers hadvances hgiven ⊢
  have hasked : asked (r :: rs) = (target, ov.names w.heap target) :: asked rs := by
    rw [asked_cached hcached, htarget, hcovered]
  have hascending : Ascending r.covered := hcovered ▸ ov.ascending_names w.heap target
  have hgenerate : ∀ {d w₁}, Describes id f target ov w d w₁ →
      Descriptor.generate r.target r.covered false = .ok d ∧ d.className = r.className := by
    intro d w₁ hdescribes
    have hg := hdescribes.generate fun d hk => hsound.own hd hk
    rw [← hcovered, ← htarget] at hg
    exact ⟨hg, (Descriptor.generate_ok hg).2.2.1⟩
  cases hanswers with
  | undescribed _ _ =>
    exact ⟨f, hf, h.aside (Nat.le_refl _) (.of_none hascending hgiven) rfl (fun _ => hgiven)
      fun c hc => nomatch hgiven.symm.trans hc⟩
  | @kept d w₁ c hdescribes hc =>
    obtain ⟨hg, hname⟩ := hgenerate hdescribes
    obtain ⟨f₁, hf₁, -, hclasses, -⟩ := hdescribes.factory hf
    rw [hname] at hc
    have hfits : ∃ d, c.MadeFrom d ∧ Descriptor.generate r.target r.covered false = .ok d := by
      -- the class was made for a request of the same name, so for this one
      obtain ⟨r', hr', hcached', hgiven', hname'⟩ := h.classes.1 hc
      have hsame := hd.classes (List.mem_cons_of_mem _ (mem_asked hr' hcached'))
        (hasked ▸ mem_asked (List.mem_cons_self ..) hcached) hname'
      rw [← hsame.1, ← hsame.2]
      exact (h.replies r' hr').fits hcached' c hgiven'
    have hnumber := Nat.lt_of_lt_of_le (h.number_lt hc) hadvances.next
    exact ⟨f₁, hf₁, h.hit hadvances.next (.of_given hascending hgiven hnumber hfits) hclasses hcached hgiven
      hc⟩
  | @unloaded d w₁ w₂ e hdescribes hc hl =>
    obtain ⟨f₁, hf₁, -, hclasses, -⟩ := hdescribes.factory hf
    exact ⟨f₁, (congrArg (Assoc.get? · id) (factories_load hl)).trans hf₁, h.aside hadvances.next
      (.of_none hascending hgiven) hclasses (fun _ => hgiven) fun c hc => nomatch hgiven.symm.trans hc⟩
  | @loaded d w₁ w₂ c hdescribes hc hl =>
    obtain ⟨hg, hname⟩ := hgenerate hdescribes
    obtain ⟨f₁, hf₁, -, hclasses, -⟩ := hdescribes.factory hf
    obtain ⟨hmade, hnumber, hlt, -⟩ := load_made hf₁ hl
    have hnext : w₁.nextSandbox = w.nextSandbox := by rw [hdescribes.rest]
    rw [hname] at hc
    refine ⟨{ f₁ with classes := f₁.classes.put d.className c }, ?_, h.entry hadvances.next
      (.of_given hascending hgiven hlt ⟨d, hmade, hg⟩) ?_ hcached hgiven hc (Nat.le_of_eq (hnumber.trans hnext).symm)⟩
    · show ((w₂.keepClass id c d.className).factories).get? id = _
      rw [keepClass, Assoc.get?_adjust, if_pos rfl, factories_load hl, hf₁]
      rfl
    · rw [hclasses, hname]

theorem newAdapter_given (hd : Distinguished ((target, ov.names w.heap target) :: asked rs)) :
    ((newAdapter id target ov).outcome w).1.map Instance.cls = ((adapterClass id target ov).outcome w).1 ∧
      ((newAdapter id target ov).outcome w).2.factories = ((adapterClass id target ov).outcome w).2.factories ∧
      ((adapterClass id target ov).outcome w).2.nextSandbox ≤ ((newAdapter id target ov).outcome w).2.nextSandbox := by
  obtain ⟨f', -, h'⟩ := h.keeps_adapterClass hf hsound hd (r := reply id target ov w .cached) rfl rfl rfl rfl
  have hadvances := engineClosed_advances.moves_adapterClass id target ov w
  rcases newAdapter_cases id target ov w with ⟨e, w₁, hclass, hrun⟩ | ⟨c, w₁, hclass, ⟨e, hnew, -⟩ | hrun⟩
  · rw [hclass, hrun]
    exact ⟨rfl, rfl, Nat.le_refl _⟩
  · have hgiven : (reply id target ov w .cached).given = some c := congrArg (fun r => r.1.toOption) hclass
    obtain ⟨d, hmade, (hg : Descriptor.generate target (ov.names w.heap target) false = .ok d)⟩ :=
      (h'.replies _ (List.mem_cons_self ..)).fits rfl c hgiven
    have hheap : w₁.heap = w.heap := by
      rw [hclass] at hadvances
      exact hadvances.heap
    rw [← hheap] at hg
    rw [hmade.newInstance hg] at hnew
    cases hnew
  · rw [hclass, hrun]
    refine ⟨rfl, factories_releaseClass _ c, ?_⟩
    exact (engineClosed_advances.releasesClass c (w₁.retain c.sandbox)).next

theorem keeps_newAdapter (hd : Distinguished ((target, ov.names w.heap target) :: asked rs)) :
    Keeps id (reply id target ov w .adapter :: rs) ((request id target ov .adapter).outcome w).2 := by
  obtain ⟨hgiven, hfactories, hnext⟩ := h.newAdapter_given hf hsound hd
  have hsame : ((request id target ov .adapter).outcome w).1 = ((adapterClass id target ov).outcome w).1 := by
    rw [request, Run.outcome_map, hgiven]
  obtain ⟨f', hf', h'⟩ := h.keeps_adapterClass hf hsound hd (r := reply id target ov w .adapter) rfl rfl rfl
    (congrArg Except.toOption hsame)
  rw [request, Run.outcome_map]
  exact ⟨f', (congrArg (Assoc.get? · id) hfactories).trans hf', h'.later hnext⟩

omit hsound in
theorem keeps_extend : Keeps id (reply id target ov w .extended :: rs) ((extend id target ov).outcome w).2 := by
  have hadvances := engineClosed_advances.moves_extend id target ov w
  have hsame : SameFactories w ((extend id target ov).outcome w).2 := extend_sameFactories target ov w
  have hnumber : ∀ c, (reply id target ov w .extended).given = some c →
      c.sandbox.id = w.nextSandbox ∧ c.sandbox.id < ((extend id target ov).outcome w).2.nextSandbox := by
    intro c hc
    change ((extend id target ov).outcome w).1.toOption = some c at hc
    rcases hrun : (extend id target ov).outcome w with ⟨e | c', w'⟩ <;> rw [hrun] at hc <;> cases hc
    exact extend_number hf hrun
  refine ⟨f, (congrArg (Assoc.get? · id) hsame).trans hf, h.aside hadvances.next ?_ rfl
    (fun hc => nomatch hc) fun c hc => Nat.le_of_eq (hnumber c hc).1.symm⟩
  exact ⟨ov.ascending_names w.heap target, (nomatch ·), fun c hc => (hnumber c hc).2⟩

end

end Ledger

/-- The entries of the caches were made for what went through them. -/
theorem Replied.sound (h : Replied id rs w) (hf : w.factories.get? id = some f) : Sound (asked rs) f := by
  have hserved : Served id (asked rs) w := by
    clear hf
    induction h with
    | new w c => exact .new w c
    | ask h target ov kind ih =>
      cases kind with
      | cached => exact ih.adapterClass target ov
      | adapter =>
        rw [request, Run.outcome_map]
        exact ih.newAdapter target ov
      | extended => exact ih.extend target ov
    | other _ hfactory _ ih => exact ih.other hfactory
  obtain ⟨f', hf', hsound⟩ := hserved.serves
  obtain rfl := Option.some.inj (hf'.symm.trans hf)
  exact hsound

theorem Replied.keeps (h : Replied id rs w) (hd : Distinguished (asked rs)) : Keeps id rs w := by
  induction h with
  | new w c =>
    refine ⟨{ context := c }, ?_, .empty ..⟩
    exact Assoc.get?_put_self ..
  | @ask rs w h target ov kind ih =>
    have hold := hd.mono (asked_subset ..)
    obtain ⟨f, hf, hledger⟩ := ih hold
    cases kind with
    | cached => exact hledger.keeps_adapterClass hf (h.sound hf) hd rfl rfl rfl rfl
    | adapter => exact hledger.keeps_newAdapter hf (h.sound hf) hd
    | extended => exact hledger.keeps_extend hf
  | other h hfactory hnext ih =>
    obtain ⟨f, hf, hledger⟩ := ih hd
    exact ⟨f, hfactory.trans hf, hledger.later hnext⟩

/-! ## Exact caches -/

theorem card_toFinset_map {α β γ : Type} [DecidableEq β] [DecidableEq γ] {f : α → β} {g : α → γ} (l : List α)
    (h : ∀ a ∈ l, ∀ b ∈ l, f a = f b ↔ g a = g b) : (l.map f).toFinset.card = (l.map g).toFinset.card := by
  induction l with
  | nil => rfl
  | cons a l ih =>
    have hmem : f a ∈ l.map f ↔ g a ∈ l.map g := by
      simp only [List.mem_map]
      refine exists_congr fun b => and_congr_right fun hb => ?_
      exact h b (List.mem_cons_of_mem _ hb) a (List.mem_cons_self ..)
    have hrest := ih fun b hb b' hb' => h b (List.mem_cons_of_mem _ hb) b' (List.mem_cons_of_mem _ hb')
    rw [List.map_cons, List.map_cons, List.toFinset_cons, List.toFinset_cons, Finset.card_insert_eq_ite,
      Finset.card_insert_eq_ite, hrest]
    simp only [List.mem_toFinset, hmem]

/-- What a factory keeps after a history of requests, and what comes of the next. -/
structure CachesExactly (id : FactoryId) (rs : List Reply) (w : World) : Prop where
  /-- Requests that go through the caches are given the same class just where they name the same target and their
  implementations covered the same methods. -/
  shared : ∀ r ∈ rs, ∀ r' ∈ rs, r.isCached = true → r'.isCached = true →
    ∀ c c', r.given = some c → r'.given = some c' →
      (c.sameType c' = true ↔ r.target = r'.target ∧ ∀ name, name ∈ r.covered ↔ name ∈ r'.covered)
  /-- The classes that are kept are those that were given, one for each target and set of methods. -/
  kept : ∃ f, w.factories.get? id = some f ∧
    (∀ name c, f.classes.get? name = some c ↔ ∃ r ∈ rs, r.Gives name c) ∧
    f.classes.size = ((rs.filter Reply.isServed).map Reply.pair).toFinset.card
  /-- A class with implementations of its own was given on no other request. -/
  separate : rs.Pairwise Reply.Separate
  /-- Where a class is given, an instance of it is, and where it fails, the instance fails in the same way. -/
  instances : ∀ target ov, Distinguished ((target, ov.names w.heap target) :: asked rs) →
    ((newAdapter id target ov).outcome w).1.map Instance.cls = ((adapterClass id target ov).outcome w).1
  /-- A request that fails leaves the classes that are kept. -/
  failures : ∀ target ov kind e w', Distinguished ((target, ov.names w.heap target) :: asked rs) →
    (request id target ov kind).outcome w = (.error e, w') →
      (w'.factories.get? id).map Factory.classes = (w.factories.get? id).map Factory.classes
  /-- A class with implementations of its own has a number that was not given out, and both caches are left. -/
  extensions : ∀ target ov, ((extend id target ov).outcome w).2.factories = w.factories ∧
    ∀ c w', (extend id target ov).outcome w = (.ok c, w') → w.nextSandbox ≤ c.sandbox.id

namespace Ledger

variable (h : Ledger rs w.nextSandbox f) (hd : Distinguished (asked rs))

include h hd

theorem className_eq_iff {r r' : Reply} (hr : r ∈ rs) (hr' : r' ∈ rs) (hcached : r.isCached = true)
    (hcached' : r'.isCached = true) :
    r.className = r'.className ↔ r.target = r'.target ∧ ∀ name, name ∈ r.covered ↔ name ∈ r'.covered := by
  constructor
  · intro hname
    obtain ⟨htarget, hcovered⟩ := hd.classes (mem_asked hr hcached) (mem_asked hr' hcached') hname
    exact ⟨htarget, fun name => by rw [hcovered]⟩
  · rintro ⟨htarget, hcovered⟩
    have hsame := (h.replies r hr).ascending.ext (h.replies r' hr').ascending hcovered
    rw [Reply.className, Reply.className, htarget, hsame]

theorem sameType_iff {r r' : Reply} (hr : r ∈ rs) (hr' : r' ∈ rs) (hcached : r.isCached = true)
    (hcached' : r'.isCached = true) {c c' : AdapterClass} (hgiven : r.given = some c) (hgiven' : r'.given = some c') :
    c.sameType c' = true ↔ r.target = r'.target ∧ ∀ name, name ∈ r.covered ↔ name ∈ r'.covered := by
  have hc : f.classes.get? r.className = some c := h.classes.2 ⟨r, hr, hcached, hgiven, rfl⟩
  have hc' : f.classes.get? r'.className = some c' := h.classes.2 ⟨r', hr', hcached', hgiven', rfl⟩
  rw [← h.className_eq_iff hd hr hr' hcached hcached', AdapterClass.sameType, beq_iff_eq]
  constructor
  · exact h.distinct hc hc'
  · intro hname
    rw [hname, hc'] at hc
    obtain rfl := Option.some.inj hc
    rfl

theorem size_classes : f.classes.size = ((rs.filter Reply.isServed).map Reply.pair).toFinset.card := by
  have hserved : ∀ r ∈ rs.filter Reply.isServed, r ∈ rs ∧ r.isCached = true := by
    intro r hr
    obtain ⟨hmem, hkind⟩ := List.mem_filter.1 hr
    rw [Reply.isServed, Bool.and_eq_true] at hkind
    exact ⟨hmem, hkind.1⟩
  have hkeys : f.classes.keys.toFinset = ((rs.filter Reply.isServed).map Reply.className).toFinset := by
    ext name
    rw [List.mem_toFinset, List.mem_toFinset, List.mem_map]
    constructor
    · intro hmem
      cases hc : f.classes.get? name with
      | none => exact absurd hmem (Assoc.not_mem_keys hc)
      | some c =>
        obtain ⟨r, hr, hcached, hgiven, hname⟩ := h.classes.1 hc
        exact ⟨r, List.mem_filter.2 ⟨hr, by rw [Reply.isServed, hcached, hgiven]; rfl⟩, hname⟩
    · rintro ⟨r, hr, rfl⟩
      obtain ⟨hmem, hserves⟩ := List.mem_filter.1 hr
      rw [Reply.isServed, Bool.and_eq_true, Option.isSome_iff_exists] at hserves
      obtain ⟨hcached, c, hgiven⟩ := hserves
      exact List.mem_map_of_mem (Assoc.mem_of_get? (h.classes.2 ⟨r, hmem, hcached, hgiven, rfl⟩))
  calc f.classes.size = f.classes.keys.length := by rw [Assoc.size, Assoc.keys, List.length_map]
    _ = f.classes.keys.toFinset.card := (List.toFinset_card_of_nodup h.keys).symm
    _ = ((rs.filter Reply.isServed).map Reply.className).toFinset.card := by rw [hkeys]
    _ = ((rs.filter Reply.isServed).map Reply.pair).toFinset.card := by
      refine card_toFinset_map _ fun r hr r' hr' => ?_
      obtain ⟨hmem, hcached⟩ := hserved r hr
      obtain ⟨hmem', hcached'⟩ := hserved r' hr'
      rw [h.className_eq_iff hd hmem hmem' hcached hcached', Reply.pair, Reply.pair, Prod.mk.injEq, Finset.ext_iff]
      simp only [List.mem_toFinset]

end Ledger

/-- After every history of requests to a factory that can be told apart, its caches are exact. -/
theorem caching_exact (h : Replied id rs w) (hd : Distinguished (asked rs)) : CachesExactly id rs w := by
  obtain ⟨f, hf, hledger⟩ := h.keeps hd
  have hsound := h.sound hf
  refine
    { shared := fun r hr r' hr' hcached hcached' c c' hgiven hgiven' =>
        hledger.sameType_iff hd hr hr' hcached hcached' hgiven hgiven'
      kept := ⟨f, hf, fun name c => hledger.classes, hledger.size_classes hd⟩
      separate := hledger.separate
      instances := fun target ov hnext => (hledger.newAdapter_given hf hsound hnext).1
      failures := fun target ov kind e w' hnext hrun => ?_
      extensions := fun target ov => ⟨extend_sameFactories target ov w, fun c w' hrun => ?_⟩ }
  · cases kind with
    | cached => exact (adapterClass_error hf hrun).1.classes id
    | adapter =>
      rw [request, Run.outcome_map] at hrun
      rcases hnew : (newAdapter id target ov).outcome w with ⟨e' | i, w₁⟩ <;> rw [hnew] at hrun <;> cases hrun
      exact (newAdapter_error hf (fun d hk => hsound.own hnext hk) hnew).classes id
    | extended => exact (extend_error hf hrun).1.classes id
  · exact Nat.le_of_eq (extend_number hf hrun).1.symm

end

/-- A request for a class, then one for an instance, to a factory that was started. -/
theorem caching_exact_twice :
    let first := reply 0 trusted byFunction started .cached
    let next := ((request 0 trusted byFunction .cached).outcome started).2
    let second := reply 0 trusted byFunction next .adapter
    Distinguished (asked [second, first]) ∧
      ∃ c c', first.given = some c ∧ second.given = some c' ∧ c'.sameType c = true := by
  intro first next second
  have hreplied : Replied 0 [second, first] ((request 0 trusted byFunction .adapter).outcome next).2 :=
    .ask (.ask (.new _ 0) trusted byFunction .cached) trusted byFunction .adapter
  have htarget : second.target = first.target := Eq.trans (b := trusted) rfl rfl
  obtain ⟨hcovered, hfirst, hsecond⟩ : second.covered = first.covered ∧ first.given.isSome = true ∧
      second.given.isSome = true := by decide +kernel
  have hdistinguished : Distinguished (asked [second, first]) := by
    refine (distinguished_single trusted first.covered).mono fun a ha => ?_
    have hasked : asked [second, first] = [(trusted, second.covered), (trusted, first.covered)] := rfl
    rw [hasked, hcovered] at ha
    simpa using ha
  obtain ⟨c, hc⟩ := Option.isSome_iff_exists.1 hfirst
  obtain ⟨c', hc'⟩ := Option.isSome_iff_exists.1 hsecond
  have hexact := caching_exact hreplied hdistinguished
  have hshared := hexact.shared second (by simp) first (by simp) rfl rfl c' c hc' hc
  exact ⟨hdistinguished, c, c', hc, hc', hshared.2 ⟨htarget, fun name => by rw [hcovered]⟩⟩

end ScriptHost.Factory
