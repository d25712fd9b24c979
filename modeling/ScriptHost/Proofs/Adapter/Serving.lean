import ScriptHost.Proofs.Adapter.Loading

/-!
# What adapter factories serve

A factory keeps descriptors by the name of the target and the names covered, and classes by their generated
name. An entry was made for some request of the factory's history (`Sound`), but not always for the request that
finds it: host types of one name share their descriptors, whatever their domains and methods are. A request is
served the class of its own target where the history holds no other request that it could be taken for
(`Apart`). Classes with implementations of their own are made anew for each request and are always those of
their target.
-/

namespace ScriptHost.Factory

open World

/-- What a factory was asked for: targets, with the names that the implementations covered. -/
abbrev Asked := List (HostType × List String)

/-! ## Entries of the caches -/

/-- Every entry was made for a request that the factory was asked. -/
structure Sound (asked : Asked) (f : Factory) : Prop where
  descriptors : ∀ {k : DescriptorKey} {d : Descriptor}, f.descriptors.get? k = some d →
    ∃ t, (t, k.overrides) ∈ asked ∧ t.name = k.target ∧ Descriptor.generate t k.overrides false = .ok d
  classes : ∀ {name : String} {c : AdapterClass}, f.classes.get? name = some c →
    ∃ t names, (t, names) ∈ asked ∧ Descriptor.nameOf t names false = name ∧ c.IsFor t names false

theorem Sound.new (c : ContextId) : Sound [] { context := c } := ⟨(nomatch ·), (nomatch ·)⟩

theorem Sound.mono {asked asked' : Asked} {f : Factory} (h : Sound asked f) (hs : asked ⊆ asked') :
    Sound asked' f := by
  refine ⟨fun hd => ?_, fun hc => ?_⟩
  · obtain ⟨t, ht, hrest⟩ := h.descriptors hd
    exact ⟨t, hs ht, hrest⟩
  · obtain ⟨t, names, ht, hrest⟩ := h.classes hc
    exact ⟨t, names, hs ht, hrest⟩

theorem Sound.putDescriptor {asked : Asked} {f : Factory} (h : Sound asked f) {t : HostType} {names : List String}
    {d : Descriptor} (ht : (t, names) ∈ asked) (hd : Descriptor.generate t names false = .ok d) :
    Sound asked { f with descriptors := f.descriptors.put ⟨t.name, names⟩ d } := by
  refine ⟨fun {k _} hk => ?_, h.classes⟩
  dsimp only at hk
  rw [Assoc.get?_put] at hk
  split at hk
  · next he =>
    subst he
    obtain rfl := Option.some.inj hk
    exact ⟨t, ht, rfl, hd⟩
  · exact h.descriptors hk

theorem Sound.putClass {asked : Asked} {f : Factory} (h : Sound asked f) {t : HostType} {names : List String}
    {c : AdapterClass} (ht : (t, names) ∈ asked) (hc : c.IsFor t names false) :
    Sound asked { f with classes := f.classes.put (Descriptor.nameOf t names false) c } := by
  refine ⟨h.descriptors, fun {name _} hn => ?_⟩
  dsimp only at hn
  rw [Assoc.get?_put] at hn
  split at hn
  · next he =>
    obtain rfl := Option.some.inj hn
    exact ⟨t, names, ht, he, hc⟩
  · exact h.classes hn

/-- The factory is there, and its entries were made for what it was asked. -/
def Serves (id : FactoryId) (asked : Asked) (w : World) : Prop :=
  ∃ f, w.factories.get? id = some f ∧ Sound asked f

section

variable {id : FactoryId} {asked : Asked} {w w' : World}

theorem Serves.mono {asked' : Asked} (h : Serves id asked w) (hs : asked ⊆ asked') : Serves id asked' w := by
  obtain ⟨f, hf, hsound⟩ := h
  exact ⟨f, hf, hsound.mono hs⟩

theorem Serves.same (h : Serves id asked w) (hw : w'.factories.get? id = w.factories.get? id) :
    Serves id asked w' := by
  rwa [Serves, hw]

theorem Serves.moves {α : Type} (h : Serves id asked w) {x : EngineM α} (hx : Run.Moves SameFactories x) :
    Serves id asked (x.outcome w).2 :=
  h.same (by rw [hx w])

theorem Serves.modify (h : Serves id asked w) {g : Factory → Factory} (hg : ∀ f, Sound asked f → Sound asked (g f)) :
    Serves id asked ((modifyFactory id g).outcome w).2 := by
  obtain ⟨f, hf, hsound⟩ := h
  refine ⟨g f, ?_, hg f hsound⟩
  show (w.factories.adjust id g).get? id = _
  rw [Assoc.get?_adjust, if_pos rfl, hf]
  rfl

/-! ## Steps of requests -/

/-- Run from this world, the computation leaves a factory that serves, and its results satisfy `P`. -/
def Yields {α : Type} (id : FactoryId) (asked : Asked) (w : World) (x : EngineM α) (P : α → Prop) : Prop :=
  Serves id asked (x.outcome w).2 ∧ ∀ a, (x.outcome w).1 = .ok a → P a

section

variable {α β : Type} {P : α → Prop}

theorem Yields.pure (h : Serves id asked w) {a : α} (ha : P a) : Yields id asked w (pure a) P := by
  refine ⟨h, fun a' h' => ?_⟩
  obtain rfl := Except.ok.inj h'
  exact ha

theorem Yields.bind {x : EngineM α} {f : α → EngineM β} {Q : β → Prop} (hx : Yields id asked w x P)
    (hf : ∀ a w', Serves id asked w' → P a → Yields id asked w' (f a) Q) : Yields id asked w (x >>= f) Q := by
  obtain ⟨hserves, hP⟩ := hx
  rw [Yields, Run.outcome_bind]
  rcases hrun : x.outcome w with ⟨r, w'⟩
  rw [hrun] at hserves hP
  cases r with
  | error e => exact ⟨hserves, fun b hb => nomatch hb⟩
  | ok a => exact hf a w' hserves (hP a rfl)

theorem Yields.moves (h : Serves id asked w) {x : EngineM α} (hx : Run.Moves SameFactories x)
    (hP : ∀ a, (x.outcome w).1 = .ok a → P a) : Yields id asked w x P := ⟨h.moves hx, hP⟩

theorem Yields.ofExcept (h : Serves id asked w) (x : Except EngineError α) :
    Yields id asked w (Run.ofExcept x) fun a => x = .ok a := by
  refine .moves h (Run.moves_ofExcept .refl x) fun a ha => ?_
  cases x with
  | ok a' => rw [Except.ok.inj ha]
  | error e => cases ha

end

theorem Yields.get? (h : Serves id asked w) : Yields id asked w (get? id) (Sound asked) := by
  refine ⟨h, fun f hf => ?_⟩
  obtain ⟨f', hf', hsound⟩ := h
  have hsame : (w.factories.get? id).getD default = f := Except.ok.inj hf
  rw [hf'] at hsame
  exact hsame ▸ hsound

theorem Yields.modify (h : Serves id asked w) {g : Factory → Factory} (hg : ∀ f, Sound asked f → Sound asked (g f)) :
    Yields id asked w (modifyFactory id g) fun _ => True := ⟨h.modify hg, fun _ _ => trivial⟩

theorem Yields.retain (h : Serves id asked w) (s : Sandbox) :
    Yields id asked w (modifyThe World fun w => w.retain s) fun _ => True :=
  .moves h (fun _ => rfl) fun _ _ => trivial

/-! ## Single requests -/

variable (target : HostType) (ov : Overrides)

theorem descriptor_spec (h : Serves id asked w) :
    Yields id ((target, ov.names w.heap target) :: asked) w (descriptor id target ov) fun d =>
      ∃ t, (t, ov.names w.heap target) ∈ (target, ov.names w.heap target) :: asked ∧ t.name = target.name ∧
        Descriptor.generate t (ov.names w.heap target) false = .ok d := by
  have hw := h.mono (List.subset_cons_self (target, ov.names w.heap target) asked)
  have hself : (target, ov.names w.heap target) ∈ (target, ov.names w.heap target) :: asked := List.mem_cons_self ..
  have hworld : Yields id _ w (MonadState.get : EngineM World) (· = w) :=
    .moves hw (Run.moves_get .refl) fun a ha => (Except.ok.inj ha).symm
  refine hworld.bind fun w₀ w₁ h₁ heq => ?_
  subst heq
  refine (Yields.get? h₁).bind fun f w₂ h₂ hf => ?_
  cases hd : f.descriptors.get? (keyFor w₀.heap target ov) with
  | some d => exact .pure h₂ (hf.descriptors hd)
  | none =>
    refine (Yields.ofExcept h₂ _).bind fun d w₃ h₃ hg => ?_
    refine (Yields.modify h₃ fun f' hf' => hf'.putDescriptor hself hg).bind fun _ w₄ h₄ _ => ?_
    exact .pure h₄ ⟨target, hself, rfl, hg⟩

theorem load_sameFactories (d : Descriptor) : Run.Moves SameFactories (load id target d) := by
  have hget : Run.Moves SameFactories (get? id) := fun w => rfl
  refine hget.bind .trans fun f => Run.Moves.bind (fun w => ?_) .trans fun _ => ?_
  · rfl
  · exact d.load_sameFactories _ _ _

/-- A loaded class is the one that its descriptor was generated for, whatever target it is loaded for. -/
theorem load_isFor {d : Descriptor} {t : HostType} {names : List String} {classLevel : Bool} {c : AdapterClass}
    (hg : Descriptor.generate t names classLevel = .ok d) (h : (load id target d).outcome w = (.ok c, w')) :
    c.IsFor t names classLevel := by
  obtain ⟨f, w₁, -, h₁⟩ := Run.outcome_bind_ok h
  obtain ⟨_, w₂, -, h₂⟩ := Run.outcome_bind_ok h₁
  exact .ofLoad hg h₂

/-- The class was made for a request whose generated name is that of a type of the target's name, for the same
names. -/
def MadeFor (asked : Asked) (target : HostType) (names : List String) (c : AdapterClass) : Prop :=
  ∃ t t' names', (t, names) ∈ asked ∧ t.name = target.name ∧ (t', names') ∈ asked ∧
    Descriptor.nameOf t' names' false = Descriptor.nameOf t names false ∧ c.IsFor t' names' false

theorem adapterClass_spec (h : Serves id asked w) :
    Yields id ((target, ov.names w.heap target) :: asked) w (adapterClass id target ov)
      (MadeFor ((target, ov.names w.heap target) :: asked) target (ov.names w.heap target)) := by
  refine (descriptor_spec target ov h).bind fun d w₁ h₁ hd => ?_
  obtain ⟨t, ht, hname, hg⟩ := hd
  obtain ⟨-, -, hclass, -⟩ := Descriptor.generate_ok hg
  refine (Yields.get? h₁).bind fun f w₂ h₂ hf => ?_
  cases hc : f.classes.get? d.className with
  | some c =>
    obtain ⟨t', names', ht', hnamed, hfor⟩ := hf.classes hc
    refine (Yields.retain h₂ c.sandbox).bind fun _ w₃ h₃ _ => ?_
    exact .pure h₃ ⟨t, t', names', ht, hname, ht', hnamed.trans hclass, hfor⟩
  | none =>
    have hload : Yields id _ w₂ (load id target d) fun c => c.IsFor t (ov.names w.heap target) false :=
      .moves h₂ (load_sameFactories target d) fun c hc => load_isFor target hg (Prod.ext hc rfl)
    refine hload.bind fun c w₃ h₃ hfor => ?_
    refine (Yields.modify h₃ fun f' hf' => ?_).bind fun _ w₄ h₄ _ => ?_
    · rw [hclass]
      exact hf'.putClass ht hfor
    · refine (Yields.retain h₄ c.sandbox).bind fun _ w₅ h₅ _ => ?_
      exact .pure h₅ ⟨t, t, _, ht, hname, ht, rfl, hfor⟩

theorem newInstance_sameFactories (c : AdapterClass) : Run.Moves SameFactories (c.newInstance ov) := by
  rw [AdapterClass.newInstance]
  split
  · exact Run.moves_fail .refl _
  · refine (Run.moves_get .refl).bind .trans fun w => ?_
    dsimp only
    split
    · exact Run.moves_fail .refl _
    · exact fun w => rfl

theorem newInstance_ok {c : AdapterClass} {i : Instance} (h : (c.newInstance ov).outcome w = (.ok i, w')) :
    i.cls = c ∧ i.overrides = ov := by
  rw [AdapterClass.newInstance] at h
  split at h
  · cases h
  · obtain ⟨w₁, w₂, -, h⟩ := Run.outcome_bind_ok h
    dsimp only at h
    split at h
    · cases h
    · cases h
      exact ⟨rfl, rfl⟩

theorem newAdapter_spec (h : Serves id asked w) :
    Yields id ((target, ov.names w.heap target) :: asked) w (newAdapter id target ov) fun i =>
      MadeFor ((target, ov.names w.heap target) :: asked) target (ov.names w.heap target) i.cls := by
  refine (adapterClass_spec target ov h).bind fun c w₁ h₁ hmade => ?_
  have hmoves := (newInstance_sameFactories ov c).ensuring .trans fun w => w.factories_releaseClass c
  refine .moves h₁ hmoves fun i hi => ?_
  rw [Run.outcome_ensuring] at hi
  rw [(newInstance_ok ov (Prod.ext hi rfl)).1]
  exact hmade

theorem extend_sameFactories : Run.Moves SameFactories (extend id target ov) := by
  refine (Run.moves_get .refl).bind .trans fun w => (Run.moves_ofExcept .refl _).bind .trans fun d => ?_
  exact (load_sameFactories target d).bind .trans fun c => Run.moves_pure .refl _

theorem extend_isFor {c : AdapterClass} (h : (extend id target ov).outcome w = (.ok c, w')) :
    c.IsFor target (ov.names w.heap target) true := by
  rw [extend, Run.outcome_bind, Run.outcome_get] at h
  obtain ⟨d, w₁, hd, h₁⟩ := Run.outcome_bind_ok h
  obtain ⟨c', w₂, hload, h₂⟩ := Run.outcome_bind_ok h₁
  cases hg : Descriptor.generate target (ov.names w.heap target) true with
  | error e =>
    rw [hg] at hd
    cases hd
  | ok d' =>
    rw [hg] at hd
    cases hd
    have hfor := load_isFor target hg hload
    cases h₂
    exact ⟨hfor.generated, hfor.target, hfor.domain, hfor.decoded, hfor.file⟩

end

/-! ## Histories -/

/-- The worlds of all histories of a factory, with the requests that went through its caches. Requests may fail,
and anything may happen between them that leaves the factory alone. -/
inductive Served (id : FactoryId) : Asked → World → Prop
  | new (w : World) (c : ContextId) : Served id [] ((new c id).outcome w).2
  | adapterClass {asked : Asked} {w : World} (h : Served id asked w) (target : HostType) (ov : Overrides) :
    Served id ((target, ov.names w.heap target) :: asked) ((adapterClass id target ov).outcome w).2
  | newAdapter {asked : Asked} {w : World} (h : Served id asked w) (target : HostType) (ov : Overrides) :
    Served id ((target, ov.names w.heap target) :: asked) ((newAdapter id target ov).outcome w).2
  | extend {asked : Asked} {w : World} (h : Served id asked w) (target : HostType) (ov : Overrides) :
    Served id asked ((extend id target ov).outcome w).2
  | other {asked : Asked} {w w' : World} (h : Served id asked w)
    (hw : w'.factories.get? id = w.factories.get? id) : Served id asked w'

theorem Served.serves {id : FactoryId} {asked : Asked} {w : World} (h : Served id asked w) : Serves id asked w := by
  induction h with
  | new w c => exact ⟨_, Assoc.get?_put_self .., .new c⟩
  | adapterClass h target ov ih => exact (adapterClass_spec target ov ih).1
  | newAdapter h target ov ih => exact (newAdapter_spec target ov ih).1
  | extend h target ov ih => exact ih.moves (extend_sameFactories target ov)
  | other h hw ih => exact ih.same hw

/-- No earlier request could be taken for this one: those for a type of the same name and the same names, and
those with the same generated name, were for the same target and names. -/
def Apart (asked : Asked) (target : HostType) (names : List String) : Prop :=
  ∀ t ns, (t, ns) ∈ asked → t.name = target.name ∧ ns = names ∨
    Descriptor.nameOf t ns false = Descriptor.nameOf target names false → t = target ∧ ns = names

theorem MadeFor.someone {asked : Asked} {target : HostType} {names : List String} {c : AdapterClass}
    (h : MadeFor asked target names c) : ∃ t ns, (t, ns) ∈ asked ∧ c.IsFor t ns false := by
  obtain ⟨-, t, ns, -, -, ht, -, hfor⟩ := h
  exact ⟨t, ns, ht, hfor⟩

theorem MadeFor.isFor {asked : Asked} {target : HostType} {names : List String} {c : AdapterClass}
    (h : MadeFor ((target, names) :: asked) target names c) (ha : Apart asked target names) :
    c.IsFor target names false := by
  obtain ⟨t, t', names', ht, hname, ht', hnamed, hfor⟩ := h
  have htarget : t = target := by
    rcases List.mem_cons.1 ht with heq | ht
    · exact congrArg Prod.fst heq
    · exact (ha t names ht (.inl ⟨hname, rfl⟩)).1
  subst htarget
  rcases List.mem_cons.1 ht' with heq | ht'
  · cases heq
    exact hfor
  · obtain ⟨rfl, rfl⟩ := ha t' names' ht' (.inr hnamed)
    exact hfor

/-- After any history of a factory, whatever request succeeds is served a class that was generated for some request
that the factory was asked; where no earlier request could be taken for this one, it is the class of this
request's own target and names, under the target's domain. A class with implementations of its own always
is. -/
theorem served_isFor {id : FactoryId} {asked : Asked} {w : World} (h : Served id asked w) (target : HostType)
    (ov : Overrides) :
    (∀ c w', (adapterClass id target ov).outcome w = (.ok c, w') →
      (∃ t names, (t, names) ∈ (target, ov.names w.heap target) :: asked ∧ c.IsFor t names false) ∧
        (Apart asked target (ov.names w.heap target) → c.IsFor target (ov.names w.heap target) false)) ∧
    (∀ i w', (newAdapter id target ov).outcome w = (.ok i, w') →
      (∃ t names, (t, names) ∈ (target, ov.names w.heap target) :: asked ∧ i.cls.IsFor t names false) ∧
        (Apart asked target (ov.names w.heap target) → i.cls.IsFor target (ov.names w.heap target) false)) ∧
    ∀ c w', (extend id target ov).outcome w = (.ok c, w') → c.IsFor target (ov.names w.heap target) true := by
  refine ⟨fun c w' hc => ?_, fun i w' hi => ?_, fun c w' hc => extend_isFor target ov hc⟩
  · have hmade := (adapterClass_spec target ov h.serves).2 c (congrArg Prod.fst hc)
    exact ⟨hmade.someone, hmade.isFor⟩
  · have hmade := (newAdapter_spec target ov h.serves).2 i (congrArg Prod.fst hi)
    exact ⟨hmade.someone, hmade.isFor⟩

def runnable (domain : Domain) : HostType :=
  (HostType.empty "host.api.Runnable" .interface domain).withMethod ⟨"run", ⟨.object, []⟩, false, none⟩

def trusted : HostType := runnable (.trusted "trusted")

def untrusted : HostType := runnable (.restricted "untrusted" ["scopelink.internal"])

def byFunction : Overrides := .function ⟨1, "g", false⟩

def started : World := ((new 0 0).outcome { contexts := ⟨[(0, { options := {}, global := default })]⟩ }).2

def servedTrusted : World := ((adapterClass 0 trusted byFunction).outcome started).2

theorem served_isFor_runnable :
    Served 0 [] started ∧ Apart [] trusted ["run"] ∧
    ((adapterClass 0 trusted byFunction).outcome started).1.toOption.isSome = true ∧
    (∀ c w', (adapterClass 0 trusted byFunction).outcome started = (.ok c, w') → c.IsFor trusted ["run"] false) ∧
    ∀ c w', (extend 0 untrusted byFunction).outcome started = (.ok c, w') → c.IsFor untrusted ["run"] true := by
  have hnames : byFunction.names started.heap trusted = ["run"] := by decide
  have hnames' : byFunction.names started.heap untrusted = ["run"] := by decide
  have hserved : Served 0 [] started := .new _ 0
  have hapart : Apart [] trusted ["run"] := fun t ns h => nomatch h
  obtain ⟨hclass, -, -⟩ := served_isFor hserved trusted byFunction
  obtain ⟨-, -, hextend⟩ := served_isFor hserved untrusted byFunction
  rw [hnames] at hclass
  rw [hnames'] at hextend
  exact ⟨hserved, hapart, by decide +kernel, fun c w' hc => (hclass c w' hc).2 hapart, hextend⟩

/-- After a request for the type in the trusted domain, a request for the type in the other domain is served the
class in the trusted one. -/
theorem served_foreign_domain :
    Served 0 [(trusted, byFunction.names started.heap trusted)] servedTrusted ∧
    ((adapterClass 0 untrusted byFunction).outcome servedTrusted).1.toOption.map AdapterClass.domain =
      some trusted.domain ∧
    trusted.domain ≠ untrusted.domain := by
  refine ⟨?_, by decide +kernel, by decide⟩
  rw [servedTrusted]
  exact .adapterClass (.new _ 0) trusted byFunction

end ScriptHost.Factory
