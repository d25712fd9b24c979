import ScriptHost.Proofs.Adapter.Coverage
import ScriptHost.Proofs.Adapter.Serving
import ScriptHost.Proofs.Engine.Adapters

/-!
# What a call of an adapter comes to

Where a method goes is decided when the class is generated, for the names that the implementations cover then, and
a call finds it in the class that was read back from its bytes. As long as the implementations do not change, a
call finds the function or the body that its method is sent to (`Instance.Dispatches`), whether the instance came
from the caches of a factory or from a class with implementations of its own (`Factory.Obtained`).
-/

namespace ScriptHost

theorem AdapterClass.heap_bind (c : AdapterClass) (w : World) : (c.bind w).heap = w.heap := by
  rw [bind]
  cases w.definition? c.sandbox with
  | none => rfl
  | some d => cases hb : d.bound <;> simp only [hb] <;> rfl

theorem Descriptor.method?_classOf (target : HostType) (names : List String) (classLevel : Bool) (method : String) :
    (classOf target names classLevel).method? method =
      (target.method? method).map fun m => ⟨m.name, m.signature, dispatchOf (effective target names) m⟩ := by
  rw [ClassFile.method?, classOf, classFile, List.find?_map]
  rfl

/-- A call did not find the function or the body that its class sends it to. -/
def Fault.Missing : Fault → Prop
  | .error (.script (.noScript _ _)) => True
  | .error (.internal (.noSuperBody _ _)) => True
  | _ => False

theorem Run.Avoids.underGlobal {α : Type} {P : Fault → Prop} {x : EngineM α} (hx : Run.Avoids P x)
    (global : Option ObjRef) : Run.Avoids P (Engine.underGlobal global x) := fun _ => hx _

namespace Instance

variable {i : Instance} {target : HostType} {ov : Overrides} {w : World} {method : String} {args : List Val}

/-! ## Calls -/

/-- No body runs, whatever the bodies are: the computation is a type error and leaves the world as it was. -/
def Refuses (x : Bodies → EngineM Val) (cause : ScriptFault) (w : World) : Prop :=
  cause.kind = .typeError ∧ ∀ bodies, (x bodies).outcome w = (.error (.error cause), w)

/-- The answers to calls of an instance that implements a target, in a world. -/
structure Dispatches (i : Instance) (target : HostType) (ov : Overrides) (w : World) : Prop where
  /-- A method that the target does not have: nothing runs. -/
  unknown : ∀ {method}, target.method? method = none → ∀ args,
    Refuses (fun bodies => i.invoke bodies method args) (.noMethod target.name method) w
  /-- Too few or too many arguments: nothing runs. -/
  count : ∀ {method m}, target.method? method = some m → ∀ {args : List Val},
    args.length ≠ m.signature.params.length →
    Refuses (fun bodies => i.invoke bodies method args)
      (.argumentCount target.name method m.signature.params.length args.length) w
  /-- A method that the implementations cover: their function runs under the global of the instance. -/
  script : ∀ {method m}, target.method? method = some m → ∀ {args : List Val},
    args.length = m.signature.params.length → m.isFinal = false ∧ ov.covers w.heap m = true →
    ∃ f, ov.functionFor w.heap method = some f ∧
      ∀ bodies, (i.invoke bodies method args).outcome w =
        ((fun v => v.coerce m.signature.ret) <$> Engine.underGlobal i.global
          (f.call bodies ov.receiver (coerceAll args m.signature.params))).outcome (i.cls.bind w)
  host : ∀ {method m}, target.method? method = some m → ∀ {args : List Val},
    args.length = m.signature.params.length → ¬(m.isFinal = false ∧ ov.covers w.heap m = true) →
    ∀ {b}, m.body = some b →
      ∀ bodies, (i.invoke bodies method args).outcome w =
        ((fun v => v.coerce m.signature.ret) <$> bodies b .undefined (coerceAll args m.signature.params)).outcome w
  unsupported : ∀ {method m}, target.method? method = some m → ∀ {args : List Val},
    args.length = m.signature.params.length → ¬(m.isFinal = false ∧ ov.covers w.heap m = true) →
    m.body = none →
      ∀ bodies, (i.invoke bodies method args).outcome w =
        (.error (.error (.unsupported (target.name ++ "." ++ method))), w)

/-- The class of the instance was generated for the target and for what the implementations cover in a heap. -/
structure Implements (i : Instance) (target : HostType) (ov : Overrides) (h : Heap) : Prop where
  file : ∃ classLevel, i.cls.file = Descriptor.classOf target (ov.names h target) classLevel
  target : i.cls.target = target
  overrides : i.overrides = ov

section

variable {bodies : Bodies}

theorem invoke_unknown (h : i.cls.file.method? method = none) :
    i.invoke bodies method args = Run.fail (ScriptFault.noMethod i.cls.target.name method) := by
  rw [invoke, h]

variable {entry : MethodEntry} (h : i.cls.file.method? method = some entry)

include h

theorem invoke_count (hargs : args.length ≠ entry.signature.params.length) :
    i.invoke bodies method args =
      Run.fail (ScriptFault.argumentCount i.cls.target.name method entry.signature.params.length args.length) := by
  rw [invoke, h]
  exact if_pos hargs

theorem invoke_entry (hargs : args.length = entry.signature.params.length) :
    i.invoke bodies method args =
      match entry.dispatch with
      | .script => (fun v => v.coerce entry.signature.ret) <$>
          i.runScript bodies method (coerceAll args entry.signature.params)
      | .super => (fun v => v.coerce entry.signature.ret) <$>
          i.runSuper bodies method (coerceAll args entry.signature.params)
      | .unsupported => Run.fail (.unsupported (i.cls.target.name ++ "." ++ method)) := by
  rw [invoke, h]
  dsimp only
  rw [if_neg (not_not_intro hargs)]
  cases entry.dispatch with
  | script => exact bind_pure_comp _ _
  | super => exact bind_pure_comp _ _
  | unsupported => rfl

end

theorem outcome_runScript {bodies : Bodies} {f : FnRef} (hf : i.overrides.functionFor w.heap method = some f) :
    (i.runScript bodies method args).outcome w =
      (Engine.underGlobal i.global (f.call bodies i.overrides.receiver args)).outcome (i.cls.bind w) := by
  rw [runScript, AdapterClass.setter_eq, Run.outcome_bind]
  -- the function is looked up once the setter is bound, which leaves the objects alone
  show Run.outcome _ (i.cls.bind w) = _
  rw [Run.outcome_bind, Run.outcome_get]
  dsimp only
  rw [AdapterClass.heap_bind, hf]

theorem runSuper_eq {bodies : Bodies} {m : HostMethod} {b : BodyId} (hm : i.cls.target.method? method = some m)
    (hb : m.body = some b) : i.runSuper bodies method args = bodies b .undefined args := by
  rw [runSuper, hm, Option.bind_some, hb]

section

variable {h : Heap} (hi : i.Implements target ov h) (ht : target.Distinct) (hw : ov.Unchanged h w.heap)

include hi ht hw

/-- The class sends a method where the implementations, which have not changed, still want it to go. -/
theorem Implements.method? {m : HostMethod} (hm : target.method? method = some m) :
    i.cls.file.method? method = some ⟨m.name, m.signature,
      if m.isFinal = false ∧ ov.covers w.heap m = true then .script
      else if m.isAbstract then .unsupported else .super⟩ := by
  obtain ⟨classLevel, hfile⟩ := hi.file
  rw [hfile, Descriptor.method?_classOf, hm, Option.map_some,
    Descriptor.dispatchOf_names ht (HostType.method?_some hm).1, hw.covers]

theorem Implements.dispatches : i.Dispatches target ov w where
  unknown {method} hm args := by
    obtain ⟨classLevel, hfile⟩ := hi.file
    have hnone : i.cls.file.method? method = none := by
      rw [hfile, Descriptor.method?_classOf, hm, Option.map_none]
    refine ⟨rfl, fun bodies => ?_⟩
    dsimp only
    rw [invoke_unknown hnone, Run.outcome_fail, hi.target]
  count {method m} hm {args} hargs := by
    refine ⟨rfl, fun bodies => ?_⟩
    dsimp only
    rw [invoke_count (hi.method? ht hw hm) hargs, Run.outcome_fail, hi.target]
  script {method m} hm {args} hargs hgoes := by
    obtain ⟨f, hf⟩ := Overrides.exists_functionFor hgoes.2
    rw [(HostType.method?_some hm).2] at hf
    refine ⟨f, hf, fun bodies => ?_⟩
    rw [invoke_entry (hi.method? ht hw hm) hargs, if_pos hgoes]
    dsimp only
    rw [Run.outcome_map, Run.outcome_map, outcome_runScript (hi.overrides ▸ hf), hi.overrides]
  host {method m} hm {args} hargs hstays {b} hb bodies := by
    rw [invoke_entry (hi.method? ht hw hm) hargs, if_neg hstays, HostMethod.isAbstract, hb,
      runSuper_eq (hi.target ▸ hm) hb]
    rfl
  unsupported {method m} hm {args} hargs hstays hb bodies := by
    rw [invoke_entry (hi.method? ht hw hm) hargs, if_neg hstays, HostMethod.isAbstract, hb, hi.target]
    rfl

end

/-- If no body reports that a function or a body is missing, no call does. -/
theorem Dispatches.not_missing (hd : i.Dispatches target ov w) {bodies : Bodies}
    (hbodies : ∀ b this args, Run.Avoids Fault.Missing (bodies b this args)) {fault : Fault}
    (hfault : ((i.invoke bodies method args).outcome w).1 = .error fault) : ¬fault.Missing := by
  -- along the cases of `Dispatches`: the fault is a refusal, or that of the one body that ran
  cases hm : target.method? method with
  | none =>
    rw [(hd.unknown hm args).2 bodies] at hfault
    cases hfault
    exact id
  | some m =>
    by_cases hargs : args.length = m.signature.params.length
    · by_cases hgoes : m.isFinal = false ∧ ov.covers w.heap m = true
      · obtain ⟨f, -, hcall⟩ := hd.script hm hargs hgoes
        rw [hcall bodies] at hfault
        exact ((hbodies f.id ov.receiver _).underGlobal i.global).map _ _ fault hfault
      · cases hb : m.body with
        | some b =>
          rw [hd.host hm hargs hgoes hb bodies] at hfault
          exact (hbodies b .undefined _).map _ _ fault hfault
        | none =>
          rw [hd.unsupported hm hargs hgoes hb bodies] at hfault
          cases hfault
          exact id
    · rw [(hd.count hm hargs).2 bodies] at hfault
      cases hfault
      exact id

end Instance

namespace Factory

/-- Requests that can be told apart: those for types of one name are for one type, and those with one generated
name are the same. -/
structure Distinguished (asked : Asked) : Prop where
  targets : ∀ {t ns t' ns'}, (t, ns) ∈ asked → (t', ns') ∈ asked → t.name = t'.name → t = t'
  classes : ∀ {t ns t' ns'}, (t, ns) ∈ asked → (t', ns') ∈ asked →
    Descriptor.nameOf t ns false = Descriptor.nameOf t' ns' false → t = t' ∧ ns = ns'

theorem Distinguished.apart {asked : Asked} {target : HostType} {names : List String}
    (h : Distinguished ((target, names) :: asked)) : Apart asked target names := by
  rintro t ns ht (⟨hname, rfl⟩ | hname)
  · exact ⟨h.targets (List.mem_cons_of_mem _ ht) (List.mem_cons_self ..) hname, rfl⟩
  · exact h.classes (List.mem_cons_of_mem _ ht) (List.mem_cons_self ..) hname

theorem distinguished_single (target : HostType) (names : List String) : Distinguished [(target, names)] := by
  constructor
  · intro t ns t' ns' ht ht' _
    cases List.mem_singleton.1 ht
    cases List.mem_singleton.1 ht'
    rfl
  · intro t ns t' ns' ht ht' _
    cases List.mem_singleton.1 ht
    cases List.mem_singleton.1 ht'
    exact ⟨rfl, rfl⟩

/-- The instances of a target with these implementations that a factory gives, and the heap that it finds: one that
is requested after a history of requests that can be told apart, or one of a class with implementations of its
own, made at any time. -/
inductive Obtained (target : HostType) (ov : Overrides) : Heap → Instance → Prop
  | requested {id : FactoryId} {asked : Asked} {w w' : World} {i : Instance} (h : Served id asked w)
    (hd : Distinguished ((target, ov.names w.heap target) :: asked))
    (hi : (newAdapter id target ov).outcome w = (.ok i, w')) : Obtained target ov w.heap i
  | extended {id : FactoryId} {w w' : World} {c : AdapterClass} {w₁ w₂ : World} {i : Instance}
    (hc : (extend id target ov).outcome w = (.ok c, w')) (hi : c.instantiate.outcome w₁ = (.ok i, w₂)) :
    Obtained target ov w.heap i

section

variable {id : FactoryId} {target : HostType} {ov : Overrides} {w w' : World} {c : AdapterClass} {i : Instance}

theorem newAdapter_overrides (h : (newAdapter id target ov).outcome w = (.ok i, w')) : i.overrides = ov := by
  obtain ⟨c, w₁, -, hnew⟩ := Run.outcome_bind_ok h
  rw [Run.outcome_ensuring] at hnew
  have hinstance : ((c.newInstance ov).outcome w₁).1 = .ok i := congrArg Prod.fst hnew
  exact (newInstance_ok ov (Prod.ext hinstance rfl)).2

theorem extend_overrides (h : (extend id target ov).outcome w = (.ok c, w')) : c.overrides = some ov := by
  rw [extend, Run.outcome_bind, Run.outcome_get] at h
  obtain ⟨d, w₁, -, h₁⟩ := Run.outcome_bind_ok h
  obtain ⟨c', w₂, -, h₂⟩ := Run.outcome_bind_ok h₁
  cases h₂
  rfl

theorem instantiate_ok {ov : Overrides} (hc : c.overrides = some ov) (h : c.instantiate.outcome w = (.ok i, w')) :
    i.cls = c ∧ i.overrides = ov := by
  rw [AdapterClass.instantiate, hc] at h
  cases h
  exact ⟨rfl, rfl⟩

theorem Obtained.implements {h : Heap} (hi : Obtained target ov h i)
    (hfits : ∀ classLevel, (Descriptor.classOf target (ov.names h target) classLevel).Fits) :
    i.Implements target ov h := by
  cases hi with
  | requested hserved hd hi =>
    have hmade := (newAdapter_spec target ov hserved.serves).2 i (congrArg Prod.fst hi)
    have hfor := hmade.isFor hd.apart
    exact ⟨⟨false, hfor.file (hfits false)⟩, hfor.target, newAdapter_overrides hi⟩
  | extended hc hi =>
    obtain ⟨rfl, hov⟩ := instantiate_ok (extend_overrides hc) hi
    have hfor := extend_isFor target ov hc
    exact ⟨⟨true, hfor.file (hfits true)⟩, hfor.target, hov⟩

end

/-- As long as the implementations do not change, a call of an instance runs nothing but refuses if the target has no
such method or the count of arguments is another. Otherwise it runs one function or body, once: the function
that covers the method unless the method is final, else the body that the host gives it. Without either it is
unsupported. No call finds that what its class sends it to is missing. -/
theorem obtained_dispatches {target : HostType} {ov : Overrides} {h : Heap} {i : Instance} {w : World}
    (hi : Obtained target ov h i) (ht : target.Distinct)
    (hfits : ∀ classLevel, (Descriptor.classOf target (ov.names h target) classLevel).Fits)
    (hw : ov.Unchanged h w.heap) :
    i.Dispatches target ov w ∧
      ∀ bodies method args fault, (∀ b this args, Run.Avoids Fault.Missing (bodies b this args)) →
        ((i.invoke bodies method args).outcome w).1 = .error fault → ¬fault.Missing := by
  have hd := (hi.implements hfits).dispatches ht hw
  exact ⟨hd, fun bodies method args fault hbodies hfault => hd.not_missing hbodies hfault⟩

/-- A type with a final method, two abstract ones and one that may be overridden. -/
def counter : HostType :=
  ((((HostType.empty "host.util.Counter" .classType (.trusted "trusted")).withMethod
    ⟨"start", ⟨.int, []⟩, true, some 100⟩).withMethod
    ⟨"step", ⟨.int, [.int]⟩, false, none⟩).withMethod
    ⟨"reset", ⟨.object, []⟩, false, none⟩).withMethod
    ⟨"label", ⟨.object, []⟩, false, some 101⟩

def stepping : Overrides := .object ⟨⟨2, false⟩, [⟨1, false⟩]⟩

/-- A world with a new factory and the properties of the two objects. -/
def counting : World :=
  ((new 0 0).outcome {
    heap := ⟨3, ⟨[(1, ⟨[("step", .function ⟨1, "step", false⟩)]⟩), (2, ⟨[("start", .function ⟨2, "start", false⟩)]⟩)]⟩⟩
    contexts := ⟨[(0, { options := {}, global := default })]⟩ }).2

theorem obtained_dispatches_counter :
    counter.Distinct ∧ stepping.names counting.heap counter = ["step"] ∧
    ∃ i, Obtained counter stepping counting.heap i ∧
      ∀ w, w.heap = counting.heap → i.Dispatches counter stepping w := by
  have hdistinct : counter.Distinct :=
    ((((HostType.distinct_empty ..).withMethod _).withMethod _).withMethod _).withMethod _
  have hfits : ∀ classLevel, (Descriptor.classOf counter (stepping.names counting.heap counter) classLevel).Fits := by
    intro classLevel
    refine ⟨?_, ?_, ?_, ?_, ?_, ?_, ?_⟩
    all_goals
      revert classLevel
      decide +kernel
  have hserved : Served 0 [] counting := .new _ 0
  have hrequests := distinguished_single counter (stepping.names counting.heap counter)
  have hsucceeds : ((newAdapter 0 counter stepping).outcome counting).1.toOption.isSome = true := by decide +kernel
  rcases hrun : (newAdapter 0 counter stepping).outcome counting with ⟨r, w'⟩
  rw [hrun] at hsucceeds
  cases r with
  | error e => cases hsucceeds
  | ok i =>
    have hobtained := Obtained.requested hserved hrequests hrun
    refine ⟨hdistinct, by decide +kernel, i, hobtained, fun w hw => ?_⟩
    exact (obtained_dispatches hobtained hdistinct hfits fun o ho c hc name => by rw [hw]).1

end Factory

end ScriptHost
