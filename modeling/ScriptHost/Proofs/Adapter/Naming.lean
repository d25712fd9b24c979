import Mathlib.Combinatorics.Pigeonhole
import Mathlib.Data.Finset.Powerset
import ScriptHost.Proofs.Adapter.Caching
import ScriptHost.Proofs.Adapter.NameHash
import ScriptHost.Proofs.Text.Numbered

/-!
# What generated names tell

The name of a generated class tells the state that its hash ends in (`Descriptor.nameFor_inj`), and no more. It tells
the class level, and it tells override sets apart that end in different states (`Descriptor.NameTells`); a target with
more than 64 methods that may be overridden has sets that it does not (`Descriptor.exists_collision`). A factory that is
only asked for one target gives one class to just the requests whose names agree (`Factory.SharesByDigest`): a request
whose name is that of another set is given the class of that set, and no instance.
-/

namespace ScriptHost

open World

/-! ## Names -/

namespace Descriptor

variable {target : HostType} {names names' overrides overrides' : List String} {classLevel classLevel' : Bool}
  {d d' : Descriptor}

theorem nameFor_inj : nameFor target overrides classLevel = nameFor target overrides' classLevel' ↔
    NameHash.digest target overrides classLevel = NameHash.digest target overrides' classLevel' := by
  rw [← NameHash.adapterHash_inj]
  refine ⟨fun heq => ?_, fun heq => by rw [nameFor, nameFor, heq]⟩
  rw [nameFor, nameFor, String.append_right_inj] at heq
  exact UInt64.toNat_inj.1 (Text.hexPadded_inj heq)

theorem effective_effective (target : HostType) (names : List String) :
    effective target (effective target names) = effective target names := by
  refine (ascending_sortNames _).ext (ascending_sortNames _) fun name => ?_
  show name ∈ effective target (effective target names) ↔ name ∈ effective target names
  rw [mem_effective]
  exact and_iff_left_of_imp fun hname => (mem_effective.1 hname).2

theorem generate_effective (target : HostType) (names : List String) (classLevel : Bool) :
    generate target (effective target names) classLevel = generate target names classLevel := by
  unfold generate
  rw [effective_effective]

theorem classLevel_of_generate (h : generate target names classLevel = .ok d) : d.classLevel = classLevel := by
  simp only [generate] at h
  split at h
  · cases h
    rfl
  · cases h

theorem className_of_generate (h : generate target names classLevel = .ok d) :
    d.className = nameFor target d.overrides d.classLevel := by
  rw [(generate_ok h).2.2.1, overrides_of_generate h, classLevel_of_generate h, nameOf]

/-- What the names of two descriptors of one target tell about them. -/
structure NameTells (target : HostType) (d d' : Descriptor) : Prop where
  digests : d.className = d'.className ↔
    NameHash.digest target d.overrides d.classLevel = NameHash.digest target d'.overrides d'.classLevel
  levels : d.overrides = d'.overrides → (d.className = d'.className ↔ d.classLevel = d'.classLevel)
  /-- Overrides that come last in both do not matter. -/
  prefixes : ∀ p p' q, d.overrides = p ++ q → d'.overrides = p' ++ q → (d.className = d'.className ↔
    NameHash.digest target p d.classLevel = NameHash.digest target p' d'.classLevel)
  /-- Where one override stands for another of the same signature, the names tell the words of the two. -/
  renames : ∀ p q a b, d.overrides = p ++ a :: q → d'.overrides = p ++ b :: q → d.classLevel = d'.classLevel →
    (target.method? a).map HostMethod.signature = (target.method? b).map HostMethod.signature →
    (d.className = d'.className ↔ NameHash.bytesWord (Text.toBytes a) = NameHash.bytesWord (Text.toBytes b))

theorem nameTells (hd : generate target names classLevel = .ok d) (hd' : generate target names' classLevel' = .ok d') :
    NameTells target d d' := by
  have hdigests : d.className = d'.className ↔
      NameHash.digest target d.overrides d.classLevel = NameHash.digest target d'.overrides d'.classLevel := by
    rw [className_of_generate hd, className_of_generate hd', nameFor_inj]
  refine ⟨hdigests, fun hsame => ?_, fun p p' q hp hp' => ?_, fun p q a b ha hb hlevel hsignature => ?_⟩
  · rw [hdigests, hsame, NameHash.digest_classLevel]
  · rw [hdigests, hp, hp', NameHash.digest_append]
  · rw [hdigests, ha, hb, hlevel, NameHash.digest_rename hsignature]

/-- There are more override sets of more than 64 methods than there are states. -/
theorem exists_collision (target : HostType) (classLevel : Bool)
    (hmany : 64 < (target.overridable.map HostMethod.name).toFinset.card) :
    ∃ names names', effective target names ≠ effective target names' ∧
      nameOf target names classLevel = nameOf target names' classLevel := by
  let all := (target.overridable.map HostMethod.name).toFinset
  let state (s : Finset String) : Nat := (NameHash.digest target (effective target s.toList) classLevel).toNat
  have hcard : (Finset.range (2 ^ 64)).card < all.powerset.card := by
    rw [Finset.card_range, Finset.card_powerset]
    exact Nat.pow_lt_pow_right (by decide) hmany
  have hrange : ∀ s ∈ all.powerset, state s ∈ Finset.range (2 ^ 64) := fun s _ =>
    Finset.mem_range.2 (UInt64.toNat_lt _)
  obtain ⟨s, hs, s', hs', hne, hstate⟩ := Finset.exists_ne_map_eq_of_card_lt_of_maps_to hcard hrange
  refine ⟨s.toList, s'.toList, fun heq => hne (Finset.ext fun name => ?_), nameFor_inj.2 (UInt64.toNat_inj.1 hstate)⟩
  -- every subset is the set of its effective overrides
  have hmem : ∀ u ∈ all.powerset, name ∈ effective target u.toList ↔ name ∈ u := by
    intro u hu
    rw [mem_effective, Finset.mem_toList]
    refine and_iff_left_of_imp fun hname => ?_
    obtain ⟨m, hm, rfl⟩ := List.mem_map.1 (List.mem_toFinset.1 (Finset.mem_powerset.1 hu hname))
    exact ⟨m, hm, rfl⟩
  rw [← hmem s hs, heq, hmem s' hs']

end Descriptor

/-! ## Classes kept for one target -/

namespace Factory

variable {id : FactoryId} {target : HostType} {ov : Overrides} {rs : List Reply} {w : World} {f : Factory}
  {c : AdapterClass} {next : SandboxId}

/-- The classes that a factory keeps were made from descriptors of the target, and each has a number of its own. -/
structure Shelf (target : HostType) (next : SandboxId) (f : Factory) : Prop where
  made : ∀ {name c}, f.classes.get? name = some c →
    ∃ names d, Descriptor.generate target names false = .ok d ∧ c.MadeFrom d
  number_lt : ∀ {name c}, f.classes.get? name = some c → c.sandbox.id < next
  distinct : ∀ {name name' c c'}, f.classes.get? name = some c → f.classes.get? name' = some c' →
    c.sandbox.id = c'.sandbox.id → name = name'

namespace Shelf

theorem new (context : ContextId) : Shelf target next { context } := ⟨(nomatch ·), (nomatch ·), (nomatch ·)⟩

theorem later {next' : SandboxId} (h : Shelf target next f) (hnext : next ≤ next') : Shelf target next' f :=
  { h with number_lt := fun hc => Nat.lt_of_lt_of_le (h.number_lt hc) hnext }

theorem same {f' : Factory} (h : Shelf target next f) (hclasses : f'.classes = f.classes) : Shelf target next f' := by
  refine ⟨fun hc => h.made (hclasses ▸ hc), fun hc => h.number_lt (hclasses ▸ hc), fun hc hc' => ?_⟩
  exact h.distinct (hclasses ▸ hc) (hclasses ▸ hc')

theorem put {f' : Factory} {name : String} {names : List String} {d : Descriptor} (h : Shelf target next f)
    (hclasses : f'.classes = f.classes.put name c) (hnumber : c.sandbox.id = next)
    (hg : Descriptor.generate target names false = .ok d) (hmade : c.MadeFrom d) : Shelf target (next + 1) f' := by
  have hget : ∀ n, f'.classes.get? n = if name = n then some c else f.classes.get? n := fun n => by
    rw [hclasses, Assoc.get?_put]
  refine ⟨fun {n _} hc => ?_, fun {n _} hc => ?_, fun {n n' _ _} hc hc' heq => ?_⟩
  · rw [hget] at hc
    split at hc
    · cases hc
      exact ⟨names, d, hg, hmade⟩
    · exact h.made hc
  · rw [hget] at hc
    split at hc
    · cases hc
      rw [hnumber]
      exact Nat.lt_succ_self next
    · exact Nat.lt_succ_of_lt (h.number_lt hc)
  · rw [hget] at hc hc'
    split at hc <;> split at hc'
    · next hn hn' => exact hn.symm.trans hn'
    · cases hc
      exact absurd (heq.symm.trans hnumber) (Nat.ne_of_lt (h.number_lt hc'))
    · cases hc'
      exact absurd (heq.trans hnumber) (Nat.ne_of_lt (h.number_lt hc))
    · exact h.distinct hc hc' heq

end Shelf

/-- What is kept stays, and what was given for the names is kept under their name. -/
structure Shelved (target : HostType) (names : List String) (given : Option AdapterClass) (f f' : Factory) : Prop where
  stays : ∀ {name c}, f.classes.get? name = some c → f'.classes.get? name = some c
  kept : ∀ {c}, given = some c → f'.classes.get? (Descriptor.nameOf target names false) = some c

theorem Shelf.after_adapterClass (h : Shelf target w.nextSandbox f) (hf : w.factories.get? id = some f)
    (ov : Overrides)
    (hown : ∀ d, f.descriptors.get? (keyFor w.heap target ov) = some d →
      Descriptor.generate target (ov.names w.heap target) false = .ok d) :
    ∃ f', ((adapterClass id target ov).outcome w).2.factories.get? id = some f' ∧
      Shelf target ((adapterClass id target ov).outcome w).2.nextSandbox f' ∧
      Shelved target (ov.names w.heap target) ((adapterClass id target ov).outcome w).1.toOption f f' := by
  have hanswers := adapterClass_answers hf target ov
  have hadvances := engineClosed_advances.moves_adapterClass id target ov w
  generalize (adapterClass id target ov).outcome w = result at hanswers hadvances ⊢
  cases hanswers with
  | undescribed _ _ => exact ⟨f, hf, h, fun hc => hc, fun hgiven => nomatch hgiven⟩
  | @kept d w₁ c hdescribes hc =>
    obtain ⟨f₁, hf₁, -, hclasses, -⟩ := hdescribes.factory hf
    rw [(Descriptor.generate_ok (hdescribes.generate hown)).2.2.1] at hc
    refine ⟨f₁, hf₁, (h.same hclasses).later hadvances.next, fun hc => hclasses ▸ hc, fun hgiven => ?_⟩
    cases hgiven
    exact hclasses ▸ hc
  | @unloaded d w₁ w₂ e hdescribes hc hl =>
    obtain ⟨f₁, hf₁, -, hclasses, -⟩ := hdescribes.factory hf
    exact ⟨f₁, (congrArg (Assoc.get? · id) (factories_load hl)).trans hf₁, (h.same hclasses).later hadvances.next,
      fun hc => hclasses ▸ hc, fun hgiven => nomatch hgiven⟩
  | @loaded d w₁ w₂ c hdescribes hc hl =>
    have hg := hdescribes.generate hown
    obtain ⟨f₁, hf₁, -, hclasses, -⟩ := hdescribes.factory hf
    obtain ⟨hmade, hnumber, hlt, -⟩ := load_made hf₁ hl
    have hnext : w₁.nextSandbox = w.nextSandbox := by rw [hdescribes.rest]
    have hput : { f₁ with classes := f₁.classes.put d.className c }.classes = f.classes.put d.className c := by
      rw [hclasses]
    have hshelf := (h.put hput (hnumber.trans hnext) hg hmade).later (hnumber.trans hnext ▸ hlt)
    refine ⟨_, ?_, hshelf, fun {name c'} hc' => ?_, fun hgiven => ?_⟩
    · show ((w₂.keepClass id c d.className).factories).get? id = _
      rw [keepClass, Assoc.get?_adjust, if_pos rfl, factories_load hl, hf₁]
      rfl
    · have hne : d.className ≠ name := fun heq => by
        rw [heq, hc'] at hc
        cases hc
      rw [hput, Assoc.get?_put, if_neg hne, hc']
    · cases hgiven
      rw [← (Descriptor.generate_ok hg).2.2.1]
      exact Assoc.get?_put_self ..

/-- A request for an instance leaves the factory as one for the class does, and its instance is of that class. -/
theorem newAdapter_as_class (id : FactoryId) (target : HostType) (ov : Overrides) (w : World) :
    ((newAdapter id target ov).outcome w).2.factories = ((adapterClass id target ov).outcome w).2.factories ∧
      ((adapterClass id target ov).outcome w).2.nextSandbox ≤ ((newAdapter id target ov).outcome w).2.nextSandbox ∧
      ∀ i, ((newAdapter id target ov).outcome w).1 = .ok i → ((adapterClass id target ov).outcome w).1 = .ok i.cls := by
  have hreleases : ∀ (c : AdapterClass) (w₁ : World), w₁.nextSandbox ≤ (w₁.releaseClass c).nextSandbox := fun c w₁ =>
    (engineClosed_advances.releasesClass c w₁).next
  rcases newAdapter_cases id target ov w with ⟨e, w₁, hclass, hrun⟩ | ⟨c, w₁, hclass, ⟨e, -, hrun⟩ | hrun⟩
  · rw [hclass, hrun]
    exact ⟨rfl, Nat.le_refl _, fun i hi => nomatch hi⟩
  · rw [hclass, hrun]
    exact ⟨factories_releaseClass w₁ c, hreleases c w₁, fun i hi => nomatch hi⟩
  · rw [hclass, hrun]
    refine ⟨factories_releaseClass _ c, hreleases c (w₁.retain c.sandbox), fun i hi => ?_⟩
    cases hi
    rfl

/-! ## Histories of one target -/

/-- The classes that were given through the caches are kept, each under the name of its request. -/
def Kept (rs : List Reply) (f : Factory) : Prop :=
  ∀ r ∈ rs, r.isCached = true → ∀ c, r.given = some c → f.classes.get? r.className = some c

theorem Shelved.cons {f' : Factory} {names : List String} {given : Option AdapterClass} {r : Reply}
    (h : Shelved target names given f f') (hkept : Kept rs f)
    (hname : r.className = Descriptor.nameOf target names false) (hgiven : ∀ c, r.given = some c → given = some c) :
    Kept (r :: rs) f' := by
  refine List.forall_mem_cons.2 ⟨fun _ c hc => ?_, fun r' hr' hcached c hc => ?_⟩
  · rw [hname]
    exact h.kept (hgiven c hc)
  · exact h.stays (hkept r' hr' hcached c hc)

def Stocks (id : FactoryId) (target : HostType) (rs : List Reply) (w : World) : Prop :=
  ∃ f, w.factories.get? id = some f ∧ Shelf target w.nextSandbox f ∧ Kept rs f

/-- What a factory has for a target was generated for it, if it was only asked for this target. -/
theorem Replied.own (h : Replied id rs w) (hone : ∀ r ∈ rs, r.target = target) (hf : w.factories.get? id = some f)
    {names : List String} {d : Descriptor} (hk : f.descriptors.get? ⟨target.name, names⟩ = some d) :
    Descriptor.generate target names false = .ok d := by
  obtain ⟨t, ht, -, hg⟩ := (h.sound hf).descriptors hk
  obtain ⟨r, hr, hpair⟩ := List.mem_map.1 ht
  obtain rfl : t = target := (congrArg Prod.fst hpair).symm.trans (hone r (List.mem_of_mem_filter hr))
  exact hg

theorem Replied.stocks (h : Replied id rs w) (hone : ∀ r ∈ rs, r.target = target) : Stocks id target rs w := by
  induction h with
  | new w c => exact ⟨{ context := c }, Assoc.get?_put_self .., .new c, fun r hr => nomatch hr⟩
  | @ask rs w h t ov kind ih =>
    obtain ⟨ht, hrest⟩ := List.forall_mem_cons.1 hone
    obtain rfl : t = target := ht
    obtain ⟨f, hf, hshelf, hkept⟩ := ih hrest
    obtain ⟨f', hf', hshelf', hshelved⟩ := hshelf.after_adapterClass hf ov fun d hk => h.own hrest hf hk
    obtain ⟨hfactories, hnext, hclass⟩ := newAdapter_as_class id t ov w
    cases kind with
    | cached => exact ⟨f', hf', hshelf', hshelved.cons hkept rfl fun c hc => hc⟩
    | adapter =>
      rw [request, Run.outcome_map]
      refine ⟨f', (congrArg (Assoc.get? · id) hfactories).trans hf', hshelf'.later hnext,
        hshelved.cons hkept rfl fun c hc => ?_⟩
      change ((request id t ov .adapter).outcome w).1.toOption = some c at hc
      rw [request, Run.outcome_map] at hc
      rcases hnew : ((newAdapter id t ov).outcome w).1 with e | i <;> rw [hnew] at hc <;> cases hc
      rw [hclass i hnew]
      rfl
    | extended =>
      have hsame : SameFactories w ((extend id t ov).outcome w).2 := extend_sameFactories t ov w
      have hadvances := engineClosed_advances.moves_extend id t ov w
      refine ⟨f, (congrArg (Assoc.get? · id) hsame).trans hf, hshelf.later hadvances.next,
        List.forall_mem_cons.2 ⟨fun hcached => ?_, hkept⟩⟩
      cases hcached
  | other h hfactory hnext ih =>
    obtain ⟨f, hf, hshelf, hkept⟩ := ih hone
    exact ⟨f, hfactory.trans hf, hshelf.later hnext, hkept⟩

theorem newInstance_refused {d : Descriptor} {names : List String}
    (hg : Descriptor.generate target names false = .ok d) (hmade : c.MadeFrom d)
    (hne : ov.names w.heap target ≠ c.descriptor.overrides) :
    (c.newInstance ov).outcome w =
      (.error (.error (ScriptFault.overrideMismatch (ov.names w.heap target) c.name c.descriptor.overrides)), w) := by
  have htarget : c.target = target := by
    rw [AdapterClass.target, ← AdapterClass.descriptor, hmade.descriptor, (Descriptor.generate_ok hg).2.1]
  rw [AdapterClass.newInstance, if_neg (by simp [hmade.classLevel hg]), Run.outcome_bind, Run.outcome_get]
  dsimp only
  rw [htarget, if_pos hne]
  rfl

/-- What a factory that is only asked for one target makes of requests whose names may agree. -/
structure SharesByDigest (id : FactoryId) (target : HostType) (rs : List Reply) (w : World) : Prop where
  /-- Requests that go through the caches are given one class just where the hashes of their overrides end in one
  state. -/
  shared : ∀ r ∈ rs, ∀ r' ∈ rs, r.isCached = true → r'.isCached = true →
    ∀ c c', r.given = some c → r'.given = some c' →
      (c.sameType c' = true ↔ NameHash.digest target r.covered false = NameHash.digest target r'.covered false)
  /-- The class that is given is that of the request, or of an earlier one with the same state. -/
  served : ∀ ov c w', (adapterClass id target ov).outcome w = (.ok c, w') →
    ∃ names, c.IsFor target names false ∧ c.descriptor.overrides = names ∧
      NameHash.digest target names false = NameHash.digest target (ov.names w.heap target) false ∧
      (names = ov.names w.heap target ∨ ∃ r ∈ rs, r.isCached = true ∧ r.covered = names)
  /-- An instance is made of the class if it is that of the request, and is refused if it is that of an earlier one. -/
  instances : ∀ ov c w', (adapterClass id target ov).outcome w = (.ok c, w') →
    ((newAdapter id target ov).outcome w).1.map Instance.cls =
      if ov.names w.heap target = c.descriptor.overrides then .ok c
      else .error (.error (ScriptFault.overrideMismatch (ov.names w.heap target) c.name c.descriptor.overrides))

theorem Replied.effective (h : Replied id rs w) (hone : ∀ r ∈ rs, r.target = target) {r : Reply} (hr : r ∈ rs) :
    Descriptor.effective target r.covered = r.covered := by
  induction h with
  | new w c => cases hr
  | ask h t ov kind ih =>
    obtain ⟨ht, hrest⟩ := List.forall_mem_cons.1 hone
    rcases List.mem_cons.1 hr with rfl | hmem
    · obtain rfl : t = target := ht
      exact Descriptor.effective_names ..
    · exact ih hrest hmem
  | other h _ _ ih => exact ih hone hr

theorem Replied.of_mem_asked (h : Replied id rs w) (hone : ∀ r ∈ rs, r.target = target) {t : HostType}
    {names : List String} (hmem : (t, names) ∈ (target, ov.names w.heap target) :: asked rs) :
    t = target ∧ Descriptor.effective target names = names ∧
      (names = ov.names w.heap target ∨ ∃ r ∈ rs, r.isCached = true ∧ r.covered = names) := by
  rcases List.mem_cons.1 hmem with heq | hmem
  · cases heq
    exact ⟨rfl, Descriptor.effective_names .., .inl rfl⟩
  · obtain ⟨r, hr, hpair⟩ := List.mem_map.1 hmem
    obtain ⟨hr, hcached⟩ := List.mem_filter.1 hr
    cases hpair
    exact ⟨hone r hr, h.effective hone hr, .inr ⟨r, hr, hcached, rfl⟩⟩

theorem Replied.sharesByDigest (h : Replied id rs w) (hone : ∀ r ∈ rs, r.target = target) :
    SharesByDigest id target rs w := by
  obtain ⟨f, hf, hshelf, hkept⟩ := h.stocks hone
  have hname : ∀ r ∈ rs, r.className = Descriptor.nameFor target r.covered false := fun r hr => by
    rw [Reply.className, Descriptor.nameOf, hone r hr, h.effective hone hr]
  refine ⟨fun r hr r' hr' hcached hcached' c c' hgiven hgiven' => ?_, fun ov c w' hrun => ?_, fun ov c w' hrun => ?_⟩
  · have hc := hkept r hr hcached c hgiven
    have hc' := hkept r' hr' hcached' c' hgiven'
    rw [← Descriptor.nameFor_inj, ← hname r hr, ← hname r' hr', AdapterClass.sameType, beq_iff_eq]
    refine ⟨hshelf.distinct hc hc', fun heq => ?_⟩
    rw [heq, hc'] at hc
    cases hc
    rfl
  · obtain ⟨t, t', names, ht, -, ht', hnamed, hfor⟩ :=
      (adapterClass_spec target ov ⟨f, hf, h.sound hf⟩).2 c (congrArg Prod.fst hrun)
    obtain ⟨rfl, hown, -⟩ := h.of_mem_asked hone ht
    obtain ⟨rfl, heffective, hrequest⟩ := h.of_mem_asked hone ht'
    rw [Descriptor.nameOf, Descriptor.nameOf, hown, heffective, Descriptor.nameFor_inj] at hnamed
    exact ⟨names, hfor, (Descriptor.overrides_of_generate hfor.generated).trans heffective, hnamed, hrequest⟩
  · obtain ⟨f', -, hshelf', hshelved⟩ := hshelf.after_adapterClass hf ov fun d hk => h.own hone hf hk
    have hheap := (engineClosed_advances.moves_adapterClass id target ov w).heap
    rw [hrun] at hshelf' hshelved hheap
    obtain ⟨names, d, hg, hmade⟩ := hshelf'.made (hshelved.kept rfl)
    rw [newAdapter, Run.outcome_bind, hrun]
    dsimp only
    rw [Run.outcome_ensuring, ← hheap]
    by_cases heq : ov.names w'.heap target = c.descriptor.overrides
    · have hown : Descriptor.generate target (ov.names w'.heap target) false = .ok d := by
        rw [heq, hmade.descriptor, Descriptor.overrides_of_generate hg, Descriptor.generate_effective, hg]
      rw [hmade.newInstance hown, if_pos heq]
      rfl
    · rw [newInstance_refused hg hmade heq, if_neg heq]
      rfl

/-- The names of two descriptors of one target agree just where the hashes of their overrides and class levels end in
one state, so they tell the class level but not every override set. A factory that is only asked for one target takes
requests for each other just where their names agree. -/
theorem names_exact (target : HostType) :
    (∀ names names' classLevel classLevel' d d', Descriptor.generate target names classLevel = .ok d →
      Descriptor.generate target names' classLevel' = .ok d' → Descriptor.NameTells target d d') ∧
    ∀ id rs w, Replied id rs w → (∀ r ∈ rs, r.target = target) → SharesByDigest id target rs w := by
  constructor
  · intro names names' classLevel classLevel' d d' hd hd'
    exact Descriptor.nameTells hd hd'
  · intro id rs w h hone
    exact h.sharesByDigest hone

/-- A type with two methods whose names fold to one word. -/
def bus : HostType :=
  ((HostType.empty "host.api.Bus" .interface (.trusted "trusted")).withMethod
    ⟨"onMessageFrobgajACatMEd73", ⟨.object, []⟩, false, none⟩).withMethod
    ⟨"onMessageFrobgajBCatMEd73", ⟨.object, []⟩, false, none⟩

def coveringFirst : Overrides := .object ⟨⟨1, false⟩, []⟩

def coveringSecond : Overrides := .object ⟨⟨2, false⟩, []⟩

def posting : World :=
  ((new 0 0).outcome {
    heap := ⟨3, ⟨[(1, ⟨[("onMessageFrobgajACatMEd73", .function ⟨1, "g", false⟩)]⟩),
      (2, ⟨[("onMessageFrobgajBCatMEd73", .function ⟨1, "g", false⟩)]⟩)]⟩⟩
    contexts := ⟨[(0, { options := {}, global := default })]⟩ }).2

def posted : World := ((request 0 bus coveringFirst .cached).outcome posting).2

/-- Class levels of one override set are told apart, and the requests for the two objects share a class. -/
theorem names_exact_bus :
    (∃ d d', Descriptor.generate bus ["onMessageFrobgajACatMEd73"] false = .ok d ∧
      Descriptor.generate bus ["onMessageFrobgajACatMEd73"] true = .ok d' ∧ d.className ≠ d'.className) ∧
    let first := reply 0 bus coveringFirst posting .cached
    let second := reply 0 bus coveringSecond posted .cached
    (∃ w, Replied 0 [second, first] w) ∧
      ∃ c c', first.given = some c ∧ second.given = some c' ∧ c.sameType c' = true := by
  obtain ⟨hnames, hshares⟩ := names_exact bus
  refine ⟨?_, ?_⟩
  · have hsucceeds : (Descriptor.generate bus ["onMessageFrobgajACatMEd73"] false).toOption.isSome = true ∧
        (Descriptor.generate bus ["onMessageFrobgajACatMEd73"] true).toOption.isSome = true := by decide +kernel
    rcases hd : Descriptor.generate bus ["onMessageFrobgajACatMEd73"] false with e | d <;> rw [hd] at hsucceeds
    · cases hsucceeds.1
    rcases hd' : Descriptor.generate bus ["onMessageFrobgajACatMEd73"] true with e | d' <;> rw [hd'] at hsucceeds
    · cases hsucceeds.2
    refine ⟨d, d', rfl, rfl, fun heq => ?_⟩
    have hsame : d.overrides = d'.overrides := by
      rw [Descriptor.overrides_of_generate hd, Descriptor.overrides_of_generate hd']
    have hlevels := ((hnames _ _ _ _ d d' hd hd').levels hsame).1 heq
    rw [Descriptor.classLevel_of_generate hd, Descriptor.classLevel_of_generate hd'] at hlevels
    cases hlevels
  · intro first second
    have hreplied : Replied 0 [second, first] ((request 0 bus coveringSecond .cached).outcome posted).2 := by
      have hfirst : Replied 0 [first] posted := by
        rw [posted]
        exact .ask (.new _ 0) bus coveringFirst .cached
      exact hfirst.ask bus coveringSecond .cached
    have hone : ∀ r ∈ [second, first], r.target = bus := by
      intro r hr
      rcases List.mem_pair.1 hr with rfl | rfl <;> rfl
    have hgiven : first.given.isSome = true ∧ second.given.isSome = true := by decide +kernel
    obtain ⟨c, hc⟩ := Option.isSome_iff_exists.1 hgiven.1
    obtain ⟨c', hc'⟩ := Option.isSome_iff_exists.1 hgiven.2
    refine ⟨⟨_, hreplied⟩, c, c', hc, hc', ?_⟩
    refine ((hshares 0 _ _ hreplied hone).shared first (by simp) second (by simp) rfl rfl c c' hc hc').2 ?_
    have hadvances : Advances posting posted := by
      rw [posted, request]
      exact engineClosed_advances.moves_adapterClass 0 bus coveringFirst posting
    have hcovered : second.covered = coveringSecond.names posting.heap bus := by
      simp only [second, reply]
      rw [hadvances.heap]
    rw [hcovered]
    decide +kernel

/-- Descriptors of different override sets have one name, so the second object is served the class of the first, and no
instance. -/
theorem names_collide :
    (Descriptor.generate bus ["onMessageFrobgajACatMEd73"] false).toOption.map
        (fun d => (d.overrides, d.className)) =
      some (["onMessageFrobgajACatMEd73"], "scopelink.adapters.Bus$$Adapter$ecea29ec81f70517") ∧
    (Descriptor.generate bus ["onMessageFrobgajBCatMEd73"] false).toOption.map
        (fun d => (d.overrides, d.className)) =
      some (["onMessageFrobgajBCatMEd73"], "scopelink.adapters.Bus$$Adapter$ecea29ec81f70517") ∧
    coveringSecond.names posted.heap bus = ["onMessageFrobgajBCatMEd73"] ∧
    ((adapterClass 0 bus coveringSecond).outcome posted).1.toOption.map (fun c => c.descriptor.overrides) =
      some ["onMessageFrobgajACatMEd73"] ∧
    ((newAdapter 0 bus coveringSecond).outcome posted).1.toOption.isNone = true := by
  decide +kernel

end Factory
end ScriptHost
