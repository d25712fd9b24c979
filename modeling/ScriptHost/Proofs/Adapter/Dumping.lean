import ScriptHost.Proofs.Adapter.Defining
import ScriptHost.Proofs.Adapter.Grants

/-!
# How often a class is dumped

A sandbox can be asked for symbols again and again, while its context learns of host types in between. It hands its class
to the dump whenever it tries to define it, and it tries until it succeeds. Over a history of requests (`Queried`) the
dump is called once for each attempt that failed, and once more if the class is defined (`Sandbox.dumped_per_attempt`);
the definition is made once, and all handles to the class are to that definition.
-/

namespace ScriptHost

open World

theorem World.definition?_retain (w : World) (t s : Sandbox) : (w.retain t).definition? s = w.definition? s := by
  rw [definition?, definition?, liveSandbox?, liveSandbox?, retain, Assoc.get?_adjust]
  split
  · cases w.sandboxes.get? s.id <;> rfl
  · rfl

theorem World.SameSandboxes.isSome_liveSandbox? {w w' : World} (h : SameSandboxes w w') (s : Sandbox) :
    (w'.liveSandbox? s).isSome = (w.liveSandbox? s).isSome := by
  have hsandbox := congrArg Option.isSome (h.sandbox s.id)
  rwa [sandbox?, sandbox?, Option.isSome_map, Option.isSome_map] at hsandbox

namespace Sandbox

instance (s : Sandbox) (w : World) (name : String) : Decidable (s.Awaits w name) :=
  inferInstanceAs (Decidable (_ ∧ _))

theorem notMem_held (s : Sandbox) : s ∉ s.parent.held := fun h => Nat.lt_irrefl _ (lineage_length_lt h)

/-! ## Requests -/

inductive Query where
  | load (name : String)
  | find (name : String)

namespace Query

def name : Query → String
  | .load name | .find name => name

def run (s : Sandbox) : Query → EngineM LoadedType
  | .load name => s.load name
  | .find name => LoadedType.adapter <$> s.find name

/-- Whether the request makes the sandbox try to define its class. -/
def attempts (s : Sandbox) (w : World) : Query → Bool
  | .load name =>
    match s.outside? (w.context s.context) name with
    | .ok none => decide (s.Awaits w name)
    | _ => false
  | .find name => decide (s.Awaits w name)

theorem run_cases (q : Query) (s : Sandbox) (w : World) :
    (q.attempts s w = false ∧ ((∃ f, (q.run s).outcome w = (.error f, w)) ∨
      ∃ t, (∀ c, t = .adapter c → c.sandbox ≠ s) ∧ (q.run s).outcome w = (.ok t, w.retainLoaded t))) ∨
    (q.attempts s w = decide (s.Awaits w q.name) ∧
      (q.run s).outcome w = (LoadedType.adapter <$> s.find q.name).outcome w) := by
  cases q with
  | find name => exact .inr ⟨rfl, rfl⟩
  | load name =>
    rw [attempts, run]
    rcases s.load_cases name w with ⟨e, hout, hrun⟩ | ⟨t, hout, hrun⟩ | ⟨hout, hrun⟩
    · rw [hout]
      exact .inl ⟨rfl, .inl ⟨_, hrun⟩⟩
    · rw [hout]
      refine .inl ⟨rfl, .inr ⟨t, fun c hc heq => ?_, hrun⟩⟩
      subst hc
      have hmem := outside_adapter hout
      rw [heq] at hmem
      exact s.notMem_held hmem
    · rw [hout]
      exact .inr ⟨rfl, hrun⟩

variable {q : Query} {s : Sandbox} {w : World}

theorem rests (h : q.attempts s w = false) :
    ((q.run s).outcome w).2.contexts = w.contexts ∧
      ((q.run s).outcome w).2.definition? s = w.definition? s ∧
      ∀ c, ((q.run s).outcome w).1 = .ok (.adapter c) → c.sandbox = s →
        ∃ d, w.definition? s = some d ∧ c = ⟨s, d.file, none⟩ := by
  rcases q.run_cases s w with ⟨-, ⟨f, hrun⟩ | ⟨t, ht, hrun⟩⟩ | ⟨hattempts, hrun⟩
  · rw [hrun]
    exact ⟨rfl, rfl, fun c hc => by cases hc⟩
  · rw [hrun]
    refine ⟨by cases t <;> rfl, ?_, fun c hc hs => absurd hs (ht c (Except.ok.inj hc))⟩
    cases t with
    | adapter c => exact definition?_retain w c.sandbox s
    | _ => rfl
  · rw [hattempts, decide_eq_false_iff_not] at h
    rw [hrun, Run.outcome_map, Sandbox.find, Run.outcome_bind]
    rcases s.ownClass_cases q.name w with ⟨-, ⟨f, hown⟩ | ⟨d, hd, hown⟩⟩ | ⟨hawaits, -⟩
    · rw [hown]
      exact ⟨rfl, rfl, fun c hc => by cases hc⟩
    · rw [hown]
      refine ⟨rfl, definition?_retain w s s, fun c hc _ => ⟨d, hd, ?_⟩⟩
      cases hc
      rfl
    · exact absurd hawaits h

/-- An attempt leaves the dump, and if it succeeds the definition, of which it gives a handle. -/
theorem attempt_cases (h : q.attempts s w = true) :
    w.definition? s = none ∧ ((∃ f, (q.run s).outcome w = (.error f, w.dumped s)) ∨
      ∃ file, (q.run s).outcome w =
        (.ok (.adapter ⟨s, file, none⟩), ((w.dumped s).setDefinition s { file }).retain s)) := by
  rcases q.run_cases s w with ⟨hattempts, -⟩ | ⟨hattempts, hrun⟩
  · rw [hattempts] at h
    cases h
  · rw [hattempts, decide_eq_true_iff] at h
    refine ⟨h.2, ?_⟩
    rw [hrun, Run.outcome_map, Sandbox.find, Run.outcome_bind]
    rcases s.ownClass_cases q.name w with ⟨hawaits, -⟩ | ⟨-, ⟨f, hown⟩ | ⟨file, -, -, -, hown⟩⟩
    · exact absurd h hawaits
    · exact .inl ⟨f, by rw [hown]; rfl⟩
    · exact .inr ⟨file, by rw [hown]; rfl⟩

theorem keeps_run (q : Query) (s : Sandbox) : Keeps (q.run s) := by
  cases q with
  | load name => exact s.keeps_load name
  | find name => exact (s.keeps_find name).map _

end Query

/-! ## Histories -/

/-- A request, with the world that it found. -/
structure Inquiry where
  query : Query
  world : World

namespace Inquiry

variable (s : Sandbox) (a : Inquiry)

def outcome : Except Fault LoadedType × World := (a.query.run s).outcome a.world

def attempts : Bool := a.query.attempts s a.world

def fails : Bool := a.attempts s && !(a.outcome s).1.isOk

/-- What the request handed to the dump of the sandbox's context. -/
def dumps : List (String × List UInt8) :=
  ((a.outcome s).2.context s.context).dumps.drop (a.world.context s.context).dumps.length

theorem dumps_after :
    ((a.outcome s).2.context s.context).dumps = (a.world.context s.context).dumps ++
        (if a.attempts s then [(s.descriptor.className, s.descriptor.bytes)] else []) ∧
      ∀ c, s.context ≠ c → (a.outcome s).2.context c = a.world.context c := by
  have hdumped : ∀ w : World, w.contexts = (a.world.dumped s).contexts →
      (w.context s.context).dumps =
          (a.world.context s.context).dumps ++ [(s.descriptor.className, s.descriptor.bytes)] ∧
        ∀ c, s.context ≠ c → w.context c = a.world.context c := by
    intro w hw
    have hcontext : ∀ c, w.context c = (a.world.dumped s).context c := fun c => by rw [World.context, hw, World.context]
    refine ⟨?_, fun c hc => ?_⟩
    · rw [hcontext, context_dumped, if_pos rfl]
      rfl
    · rw [hcontext, context_dumped, if_neg hc]
  by_cases h : a.attempts s = true
  · rw [if_pos h]
    rcases (Query.attempt_cases h).2 with ⟨f, hrun⟩ | ⟨file, hrun⟩ <;> rw [outcome, hrun] <;> exact hdumped _ rfl
  · rw [if_neg h, List.append_nil]
    have hcontexts := (Query.rests (eq_false_of_ne_true h)).1
    have hcontext : ∀ c, (a.outcome s).2.context c = a.world.context c := fun c => by
      rw [World.context, outcome, hcontexts, World.context]
    exact ⟨by rw [hcontext], fun c _ => hcontext c⟩

theorem dumps_eq : a.dumps s = if a.attempts s then [(s.descriptor.className, s.descriptor.bytes)] else [] := by
  rw [dumps, (a.dumps_after s).1, List.drop_left]

end Inquiry

/-- The worlds of all histories of a sandbox from when it was made, with the requests to it, the latest first. Between
them anything may happen that leaves the sandbox live and the class as it is defined. -/
inductive Queried (s : Sandbox) : List Inquiry → World → Prop
  | start {w : World} (hlive : (w.liveSandbox? s).isSome = true) (hd : w.definition? s = none) : Queried s [] w
  | ask {as : List Inquiry} {w : World} (h : Queried s as w) (q : Query) :
    Queried s (⟨q, w⟩ :: as) ((q.run s).outcome w).2
  | other {as : List Inquiry} {w w' : World} (h : Queried s as w) (hlive : (w'.liveSandbox? s).isSome = true)
    (hd : (w'.definition? s).map Definition.file = (w.definition? s).map Definition.file) : Queried s as w'

namespace Queried

variable {s : Sandbox} {as : List Inquiry} {w : World}

theorem live (h : Queried s as w) : (w.liveSandbox? s).isSome = true := by
  induction h with
  | start hlive _ => exact hlive
  | ask _ q ih => rw [(q.keeps_run s _).isSome_liveSandbox?, ih]
  | other _ hlive _ _ => exact hlive

theorem register (h : Queried s as w) (c : ContextId) (t : HostType) :
    Queried s as (w.setContext c { w.context c with classPath := (w.context c).classPath.put t.name t }) :=
  .other h h.live rfl

/-- The class is dumped for each attempt that fails, and for the one that succeeds. -/
theorem dumps_eq (h : Queried s as w) :
    as.flatMap (Inquiry.dumps s) = List.replicate (as.countP (Inquiry.fails s) +
      if (w.definition? s).isSome then 1 else 0) (s.descriptor.className, s.descriptor.bytes) := by
  induction h with
  | start _ hd =>
    rw [hd]
    rfl
  | @ask as w h q ih =>
    rw [List.flatMap_cons, ih, List.countP_cons, Inquiry.dumps_eq, Inquiry.fails, Inquiry.outcome, Inquiry.attempts]
    by_cases hattempts : q.attempts s w = true
    · -- nothing is defined yet: the attempt counts as failed, or its definition does
      obtain ⟨hd, ⟨f, hrun⟩ | ⟨file, hrun⟩⟩ := Query.attempt_cases hattempts
      · have hafter : (w.dumped s).definition? s = w.definition? s := rfl
        rw [hrun]
        simp [hattempts, hafter, hd, Except.isOk, Except.toBool, List.replicate_succ]
      · have hafter : (((w.dumped s).setDefinition s { file }).retain s).definition? s = some { file } := by
          rw [definition?_retain]
          exact definition?_setDefinition (w := w.dumped s) h.live { file }
        rw [hrun]
        simp [hattempts, hafter, hd, Except.isOk, Except.toBool, List.replicate_succ]
    · rw [(Query.rests (eq_false_of_ne_true hattempts)).2.1]
      simp [hattempts]
  | other _ _ hd ih =>
    have hsome := congrArg Option.isSome hd
    rw [Option.isSome_map, Option.isSome_map] at hsome
    rw [ih, hsome]

theorem handle (h : Queried s as w) {a : Inquiry} (ha : a ∈ as) {c : AdapterClass}
    (hc : (a.outcome s).1 = .ok (.adapter c)) (hs : c.sandbox = s) :
    ∃ d, w.definition? s = some d ∧ c = ⟨s, d.file, none⟩ := by
  induction h with
  | start _ _ => cases ha
  | @ask as w h q ih =>
    by_cases hattempts : q.attempts s w = true
    · obtain ⟨hd, ⟨f, hrun⟩ | ⟨file, hrun⟩⟩ := Query.attempt_cases hattempts
      · rcases List.mem_cons.1 ha with rfl | ha
        · rw [Inquiry.outcome, hrun] at hc
          cases hc
        · rw [hrun]
          exact ih ha
      · rcases List.mem_cons.1 ha with rfl | ha
        · rw [Inquiry.outcome, hrun] at hc
          cases hc
          rw [hrun]
          refine ⟨{ file }, ?_, rfl⟩
          rw [definition?_retain]
          exact definition?_setDefinition (w := w.dumped s) h.live { file }
        · -- no handle was given before
          obtain ⟨d, hd', -⟩ := ih ha
          rw [hd] at hd'
          cases hd'
    · obtain ⟨-, hdefinition, hgives⟩ := Query.rests (eq_false_of_ne_true hattempts)
      rw [hdefinition]
      rcases List.mem_cons.1 ha with rfl | ha
      · exact hgives c hc hs
      · exact ih ha
  | other _ _ hd ih =>
    obtain ⟨d, hd', rfl⟩ := ih ha
    rw [hd', Option.map_some] at hd
    obtain ⟨d', hd', hfile⟩ := Option.map_eq_some_iff.1 hd
    exact ⟨d', hd', by rw [hfile]⟩

end Queried

/-- A request hands the class to the dump of the sandbox's context once if it makes the sandbox try to define it, and
hands nothing to any dump otherwise. So over every history of requests the dump is called once for each attempt that
failed, and once more if the class is defined: once and no more if no attempt failed. All handles that were ever given
to the class are to the one definition. -/
theorem dumped_per_attempt {s : Sandbox} {as : List Inquiry} {w : World} (h : Queried s as w) :
    (∀ a ∈ as,
      ((a.outcome s).2.context s.context).dumps = (a.world.context s.context).dumps ++
        (if a.attempts s then [(s.descriptor.className, s.descriptor.bytes)] else []) ∧
      ∀ c, s.context ≠ c → (a.outcome s).2.context c = a.world.context c) ∧
    as.flatMap (Inquiry.dumps s) = List.replicate (as.countP (Inquiry.fails s) +
      if (w.definition? s).isSome then 1 else 0) (s.descriptor.className, s.descriptor.bytes) ∧
    ∀ a ∈ as, ∀ c, (a.outcome s).1 = .ok (.adapter c) → c.sandbox = s →
      ∃ d, w.definition? s = some d ∧ c = ⟨s, d.file, none⟩ :=
  ⟨fun a _ => a.dumps_after s, h.dumps_eq, fun _ ha _ hc hs => h.handle ha hc hs⟩

/-! ### A target that is registered late -/

def bare : World where
  thread := { frames := [[.createClassLoader]] }
  contexts := ⟨[(0, { options := {}, global := default })]⟩

/-- A sandbox in it for a class whose target is `Factory.trusted`. -/
def early : Sandbox :=
  bare.fresh 0 ((Descriptor.generate Factory.trusted ["run"] false).toOption.getD default) .engine (.trusted "trusted")

def beforeTarget : World := ((Sandbox.new 0 early.descriptor .engine (.trusted "trusted")).outcome bare).2

def askedEarly : Inquiry := ⟨.find early.descriptor.className, beforeTarget⟩

def askedLate : Inquiry where
  query := .find early.descriptor.className
  world :=
    let w := (askedEarly.outcome early).2
    w.setContext 0 { w.context 0 with classPath := (w.context 0).classPath.put Factory.trusted.name Factory.trusted }

theorem early_runs :
    (beforeTarget.liveSandbox? early).isSome = true ∧ (beforeTarget.definition? early).isNone = true ∧
      askedEarly.attempts early = true ∧ (askedLate.outcome early).1.isOk = true ∧
      ((askedLate.outcome early).2.definition? early).isSome = true ∧
      ([askedLate, askedEarly].flatMap (Inquiry.dumps early)).length = 2 := by
  decide +kernel

theorem queried_early : Queried early [askedLate, askedEarly] (askedLate.outcome early).2 := by
  obtain ⟨hlive, hnone, -⟩ := early_runs
  have hstart : Queried early [] beforeTarget := .start hlive (Option.isNone_iff_eq_none.1 hnone)
  have hearly : Queried early [askedEarly] (askedEarly.outcome early).2 := hstart.ask (.find early.descriptor.className)
  exact (hearly.register 0 Factory.trusted).ask (.find early.descriptor.className)

theorem dumped_per_attempt_early :
    (∃ c d, (askedLate.outcome early).1 = .ok (.adapter c) ∧ (askedLate.outcome early).2.definition? early = some d ∧
      c = ⟨early, d.file, none⟩) ∧
    (askedLate.world.context 0).dumps.length = 1 := by
  obtain ⟨-, -, hattempts, hsome, -⟩ := early_runs
  obtain ⟨hdumps, -, hhandles⟩ := dumped_per_attempt queried_early
  constructor
  · have hfind : (askedLate.outcome early).1 =
        ((early.find early.descriptor.className).outcome askedLate.world).1.map LoadedType.adapter := by
      rw [Inquiry.outcome, askedLate, Query.run, Run.outcome_map]
    have hgiven : ∃ c, (askedLate.outcome early).1 = .ok (.adapter c) ∧ c.sandbox = early := by
      rcases hrun : (early.find early.descriptor.className).outcome askedLate.world with ⟨f | c, w⟩
      · rw [hfind, hrun] at hsome
        cases hsome
      · obtain ⟨c', w', hown, hgive⟩ := Run.outcome_bind_ok hrun
        cases hgive
        exact ⟨c, by rw [hfind, hrun]; rfl, (ownClass_ok hown).1⟩
    obtain ⟨c, hc, hs⟩ := hgiven
    obtain ⟨d, hd, heq⟩ := hhandles askedLate (List.mem_cons_self ..) c hc hs
    exact ⟨c, d, hc, hd, heq⟩
  · have hfirst := (hdumps askedEarly (List.mem_cons_of_mem _ (List.mem_cons_self ..))).1
    have hcontext : early.context = 0 := rfl
    rw [if_pos hattempts, hcontext] at hfirst
    rw [askedLate, context_setContext, if_pos rfl, hfirst]
    rfl

/-- The class is dumped when it is asked for in vain, and again when its target is known and it is defined. -/
theorem dumped_twice :
    Queried early [askedLate, askedEarly] (askedLate.outcome early).2 ∧
    ((askedLate.outcome early).2.definition? early).isSome = true ∧
    ([askedLate, askedEarly].flatMap (Inquiry.dumps early)).length = 2 :=
  ⟨queried_early, early_runs.2.2.2.2⟩

end Sandbox
end ScriptHost
