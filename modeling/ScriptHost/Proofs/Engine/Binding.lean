import ScriptHost.Proofs.Adapter.ClassRequests
import ScriptHost.Proofs.Engine.Nesting

/-!
# When setters are bound

The privileged setter of a class is bound by the first call that goes to the script, through whatever handle and
instance, and never again. A run is followed through the worlds that its operations end in (`Code.moments`), those of the
bodies included; the last of them is how the run ends (`Code.ends_last`). At each of them a class has been bound once if a
call of the class has gone to the script, and not at all before (`Program.bound_once`).
-/

namespace ScriptHost

open Engine (onThread)

/-! ## Points of a run -/

/-- A point of a run: the world after an operation, and the call that the operation begins, if it is one. -/
structure Moment where
  call : Option (Instance × String × List Val) := none
  world : World

abbrev Traces := BodyId → Val → List Val → World → List Moment

namespace Code

/-- The moments of a run, in order. A call has one when all is done that comes before its body, and then those of the body.
What only looks, and what fails by itself, has none. -/
def moments (bodies : Bodies) (traces : Traces) {α : Type} : Code α → World → List Moment
  | .pure _, _ => []
  | .bind x k, w => x.moments bodies traces w ++
      match (x.run bodies).outcome w with
      | (.ok a, w') => (k a).moments bodies traces w'
      | (.error _, _) => []
  | .throw _, _ => []
  | .attempt x, w => x.moments bodies traces w
  | .act m _, w => [{ world := (m.outcome w).2 }]
  | .look _, _ => []
  | .privileged ps x, w => x.moments bodies traces (onThread (fun t => t.pushFrame ps) w)
  | .within c x, w => x.moments bodies traces (onThread (fun t => (t.enter c (w.context c).global).2) w)
  | .generate g, w => [{ world := (g.run.outcome w).2 }]
  | .create c, w => [{ world := (c.run.outcome w).2 }]
  | .invoke i method args, w =>
    { call := some (i, method, args), world := ((i.prepare method args).outcome w).2 } ::
      match (i.prepare method args).outcome w with
      | (.ok c, w') => traces c.body c.this c.args (onThread (i.bodyThread method) w')
      | (.error _, _) => []

end Code

def Program.moments (p : Program) : Nat → Traces
  | 0 => fun _ _ _ _ => []
  | depth + 1 => fun b this args w => (p b this args).moments (p.bodies depth) (p.moments depth) w

def Moment.last (w : World) (ms : List Moment) : World := (ms.getLast?.map Moment.world).getD w

theorem Moment.last_append (w : World) (ms ms' : List Moment) : last w (ms ++ ms') = last (last w ms) ms' := by
  cases h : ms'.getLast? with
  | none =>
    rw [List.getLast?_eq_none_iff.1 h, List.append_nil]
    rfl
  | some m => simp [last, List.getLast?_append, h]

theorem Moment.last_singleton (w : World) (m : Moment) : last w [m] = m.world := rfl

/-- The worlds differ in the thread at most. -/
def World.OffThread (w w' : World) : Prop := ∃ f, w' = onThread f w

namespace World.OffThread

theorem refl (w : World) : OffThread w w := ⟨id, rfl⟩

theorem trans {w₁ w₂ w₃ : World} (h : OffThread w₁ w₂) (h' : OffThread w₂ w₃) : OffThread w₁ w₃ := by
  obtain ⟨f, rfl⟩ := h
  obtain ⟨g, rfl⟩ := h'
  exact ⟨g ∘ f, rfl⟩

theorem onThread (f : Thread → Thread) (w : World) : OffThread w (onThread f w) := ⟨f, rfl⟩

theorem last {w w' : World} (h : OffThread w w') (ms : List Moment) : OffThread (Moment.last w ms) (Moment.last w' ms) := by
  rw [Moment.last, Moment.last]
  cases ms.getLast? with
  | none => exact h
  | some m => exact refl m.world

end World.OffThread

open World (OffThread)

theorem Instance.offThread_under (i : Instance) (method : String) {α : Type} (x : EngineM α) (w : World) :
    OffThread (x.outcome (onThread (i.bodyThread method) w)).2 ((i.under method x).outcome w).2 := by
  rw [under]
  by_cases hs : i.isScript method = true
  · have hthread : i.bodyThread method = fun t => { t with global := i.global } :=
      funext fun t => by rw [bodyThread, if_pos hs]
    rw [if_pos hs, hthread]
    exact .onThread (fun t => t.restore (.installed w.thread.global)) _
  · have hthread : i.bodyThread method = id := funext fun t => by rw [bodyThread, if_neg hs]; rfl
    rw [if_neg hs, hthread]
    exact .refl _

def Traces.Follow (traces : Traces) (bodies : Bodies) : Prop :=
  ∀ b this args w, OffThread (Moment.last w (traces b this args w)) ((bodies b this args).outcome w).2

/-- A run ends in the world of its last moment, but for the thread. -/
theorem Code.ends_last {bodies : Bodies} {traces : Traces} (h : traces.Follow bodies) {α : Type} (x : Code α) :
    ∀ w, OffThread (Moment.last w (x.moments bodies traces w)) ((x.run bodies).outcome w).2 := by
  induction x with
  | pure a => exact fun w => .refl w
  | bind x k ihx ihk =>
    intro w
    have hx := ihx w
    rw [moments, run, Moment.last_append, Run.outcome_bind]
    rcases hrun : (x.run bodies).outcome w with ⟨e | a, w'⟩ <;> rw [hrun] at hx
    · exact hx
    · exact (hx.last _).trans (ihk a w')
  | throw e => exact fun w => .refl w
  | attempt x ih => exact ih
  | act m hm => exact fun w => .refl _
  | look q =>
    intro w
    rw [run, q.outcome_run w]
    cases q.answer w.thread <;> exact .refl w
  | privileged ps x ih =>
    intro w
    have hinside := ih (onThread (fun t => t.pushFrame ps) w)
    refine (OffThread.trans ?_ hinside).trans (.onThread (fun t => t.truncate w.thread.frames.length) _)
    exact (OffThread.onThread (fun t => t.pushFrame ps) w).last _
  | within c x ih =>
    intro w
    have hinside := ih (onThread (fun t => (t.enter c (w.context c).global).2) w)
    refine (OffThread.trans ?_ hinside).trans
      (.onThread (fun t => t.restore (.entered w.thread.context w.thread.global)) _)
    exact (OffThread.onThread (fun t => (t.enter c (w.context c).global).2) w).last _
  | generate g => exact fun w => .refl _
  | create c => exact fun w => .refl _
  | invoke i method args =>
    intro w
    rw [moments, run, Instance.invoke_eq, Run.outcome_bind]
    rcases (i.prepare method args).outcome w with ⟨e | c, w'⟩
    · exact .refl w'
    · dsimp only
      rw [← List.singleton_append, Moment.last_append, Moment.last_singleton, bind_pure_comp, Run.outcome_map]
      have hbefore := (OffThread.onThread (i.bodyThread method) w').last
        (traces c.body c.this c.args (onThread (i.bodyThread method) w'))
      exact (hbefore.trans (h c.body c.this c.args _)).trans (i.offThread_under method _ w')

theorem Program.follow_moments (p : Program) (depth : Nat) : (p.moments depth).Follow (p.bodies depth) := by
  induction depth with
  | zero => exact fun _ _ _ w => .refl w
  | succ depth ih => exact fun b this args w => (p b this args).ends_last ih w

/-! ## Definitions stay -/

/-- No sandbox is numbered again, and a class that is defined stays as it is while its sandbox is there. -/
structure World.Settles (w w' : World) : Prop where
  next : w.nextSandbox ≤ w'.nextSandbox
  definitions : ∀ {id l'}, id < w.nextSandbox → w'.sandboxes.get? id = some l' →
    ∃ l, w.sandboxes.get? id = some l ∧ ∀ d, l.definition = some d → l'.definition = some d

namespace World.Settles

variable {w w' : World}

theorem same (hs : w'.sandboxes = w.sandboxes) (hn : w'.nextSandbox = w.nextSandbox) : Settles w w' :=
  ⟨Nat.le_of_eq hn.symm, fun {_ l'} _ hl => ⟨l', hs ▸ hl, fun _ => id⟩⟩

theorem adjusted (s : Sandbox) {g : LiveSandbox → LiveSandbox}
    (hg : ∀ l, w.sandboxes.get? s.id = some l → ∀ d, l.definition = some d → (g l).definition = some d) :
    Settles w { w with sandboxes := w.sandboxes.adjust s.id g } := by
  refine ⟨Nat.le_refl _, fun {id l'} _ hl => ?_⟩
  rw [Assoc.get?_adjust] at hl
  split at hl
  · next hid =>
    subst hid
    obtain ⟨l, hbefore, rfl⟩ := Option.map_eq_some_iff.1 hl
    exact ⟨l, hbefore, hg l hbefore⟩
  · exact ⟨l', hl, fun _ hd => hd⟩

end World.Settles

open World (Settles)

theorem World.engineClosed_settles : EngineClosed Settles where
  refl _ := .same rfl rfl
  trans {w₁ w₂ w₃} h h' := by
    refine ⟨Nat.le_trans h.next h'.next, fun hid hl => ?_⟩
    obtain ⟨l₂, hl₂, hkept₂⟩ := h'.definitions (Nat.lt_of_lt_of_le hid h.next) hl
    obtain ⟨l₁, hl₁, hkept₁⟩ := h.definitions hid hl₂
    exact ⟨l₁, hl₁, fun d hd => hkept₂ d (hkept₁ d hd)⟩
  thread _ _ := .same rfl rfl
  dump _ _ := .same rfl rfl
  define {w s} file hnone := by
    refine .adjusted s fun l hl d hd => ?_
    rw [definition?, liveSandbox?, hl, Option.bind_some, hd] at hnone
    cases hnone
  retain _ s := .adjusted s fun _ _ _ => id
  grant _ _ := .same rfl rfl
  add {w s} hs := by
    refine ⟨Nat.le_succ _, fun {id l'} hid hl => ?_⟩
    have hne : s.id ≠ id := hs ▸ Nat.ne_of_gt hid
    have hsame : (w.sandboxes.put s.id { sandbox := s, handles := 1 }).get? id = some l' := hl
    rw [Assoc.get?_put, if_neg hne] at hsame
    exact ⟨l', hsame, fun _ hd => hd⟩
  count w s l hl := by
    refine ⟨Nat.le_refl _, fun {id l'} _ hl' => ?_⟩
    rw [Assoc.get?_put] at hl'
    split at hl'
    · next hid =>
      subst hid
      obtain rfl := Option.some.inj hl'
      exact ⟨l, hl, fun _ hd => hd⟩
    · exact ⟨l', hl', fun _ hd => hd⟩
  forget w s := by
    refine ⟨Nat.le_refl _, fun {id l'} _ hl => ?_⟩
    have hsame : (w.sandboxes.erase s.id).get? id = some l' := hl
    rw [Assoc.get?_erase] at hsame
    split at hsame
    · cases hsame
    · exact ⟨l', hsame, fun _ hd => hd⟩
  factories _ _ := .same rfl rfl
  register _ _ _ := .same rfl rfl

/-- What a computation does besides adapters leaves definitions as they are. -/
def Code.Settled {α : Type} : Code α → Prop
  | .bind x k => x.Settled ∧ ∀ a, (k a).Settled
  | .attempt x => x.Settled
  | .act m _ => Run.Moves Settles m
  | .privileged _ x => x.Settled
  | .within _ x => x.Settled
  | .pure _ | .throw _ | .look _ | .generate _ | .create _ | .invoke _ _ _ => True

theorem Generation.settles_run (g : Generation) : Run.Moves Settles g.run := by
  cases g with
  | load d c parent domain => exact World.engineClosed_settles.moves_generate d c parent domain
  | cached id target ov => exact World.engineClosed_settles.moves_adapterClass id target ov
  | extended id target ov => exact World.engineClosed_settles.moves_extend id target ov

theorem Creation.settles_run (c : Creation) : Run.Moves Settles c.run := by
  cases c with
  | supplied cls ov => exact World.engineClosed_settles.moves_newInstance cls ov
  | classLevel cls => exact World.engineClosed_settles.moves_instantiate cls
  | adapter id target ov => exact World.engineClosed_settles.moves_newAdapter id target ov

theorem Body.settled_code {earlier : Program} (h : ∀ b this args, (earlier b this args).Settled) (this : Val)
    (args : List Val) (b : Body) : (b.code earlier this args).Settled := by
  induction b with
  | thisProperty name =>
    cases this with
    | object o => exact ⟨fun _ => .same rfl rfl, fun _ => trivial⟩
    | _ => exact trivial
  | setThis name =>
    cases this with
    | object o => exact ⟨fun _ => .same rfl rfl, fun _ => trivial⟩
    | _ => exact trivial
  | tally counter => exact fun _ => .same rfl rfl
  | global => exact ⟨trivial, fun _ => trivial⟩
  | elevated => exact ⟨trivial, fun _ => trivial⟩
  | granted p => exact ⟨trivial, fun _ => trivial⟩
  | call f => exact h f.id this args
  | ifFits ty yes no ihy ihn =>
    rw [code]
    split
    · exact ihy
    · exact ihn
  | _ => exact trivial

theorem BodyTable.settled_program (t : BodyTable) : ∀ k this args, (t.program k this args).Settled := by
  induction t with
  | nil => exact fun _ _ _ => trivial
  | cons e earlier ih =>
    intro k this args
    rw [program]
    split
    · exact e.2.settled_code ih this args
    · exact ih k this args

/-! ## Bound and not bound -/

/-- The call goes to the script: the class has the method, sends it there, and it takes that many arguments. -/
def Instance.adapts (i : Instance) (method : String) (args : List Val) : Bool :=
  (i.cls.file.method? method).any fun entry =>
    entry.dispatch == .script && args.length == entry.signature.params.length

/-- Before the body of a call, the setter of its class is bound if the call goes to the script. Nothing else changes. -/
theorem Instance.prepare_world (i : Instance) (method : String) (args : List Val) (w : World) :
    ((i.prepare method args).outcome w).2 = if i.adapts method args then i.cls.bind w else w := by
  cases hm : i.cls.file.method? method with
  | none => simp [prepare, adapts, hm]
  | some entry =>
    have hadapts : i.adapts method args =
        (entry.dispatch == .script && args.length == entry.signature.params.length) := by
      rw [adapts, hm]
      rfl
    rw [prepare, hm, hadapts]
    dsimp only
    by_cases hargs : args.length = entry.signature.params.length
    · rw [if_neg (not_not_intro hargs), beq_iff_eq.2 hargs, Bool.and_true]
      cases entry.dispatch with
      | script =>
        rw [AdapterClass.setter_eq, if_pos (show (Dispatch.script == Dispatch.script) = true from rfl)]
        dsimp only
        rw [Run.outcome_bind]
        show (Run.outcome _ (i.cls.bind w)).2 = _
        rw [Run.outcome_bind, Run.outcome_get]
        dsimp only
        cases i.overrides.functionFor (i.cls.bind w).heap method <;> rfl
      | super =>
        dsimp only
        cases (i.cls.target.method? method).bind HostMethod.body <;> rfl
      | unsupported => rfl
    · rw [if_pos hargs, beq_false_of_ne hargs, Bool.and_false]
      rfl

namespace AdapterClass

variable {c : AdapterClass} {b : Bool} {w w' : World}

/-- The class has been defined, and nothing has happened to it since. -/
structure Fresh (c : AdapterClass) (w : World) : Prop where
  number : c.sandbox.id < w.nextSandbox
  definition : w.definition? c.sandbox = some { file := c.file }

/-- While the class is there, its setter is bound or it is not, and it was bound once or never. -/
structure Bound (c : AdapterClass) (b : Bool) (w : World) : Prop where
  number : c.sandbox.id < w.nextSandbox
  state : ∀ l, w.sandboxes.get? c.sandbox.id = some l →
    ∃ d, l.definition = some d ∧ d.bound = b ∧ d.setups = b.toNat

theorem Fresh.bound (h : c.Fresh w) : c.Bound false w := by
  refine ⟨h.number, fun l hl => ⟨{ file := c.file }, ?_, rfl, rfl⟩⟩
  have hdefinition := h.definition
  rwa [World.definition?, World.liveSandbox?, hl, Option.bind_some] at hdefinition

theorem Bound.settles (h : c.Bound b w) (hw : Settles w w') : c.Bound b w' := by
  refine ⟨Nat.lt_of_lt_of_le h.number hw.next, fun l' hl' => ?_⟩
  obtain ⟨l, hl, hkept⟩ := hw.definitions h.number hl'
  obtain ⟨d, hd, hstate⟩ := h.state l hl
  exact ⟨d, hkept d hd, hstate⟩

theorem Bound.onThread (h : c.Bound b w) (f : Thread → Thread) : c.Bound b (onThread f w) := ⟨h.number, h.state⟩

theorem Bound.offThread (h : c.Bound b w) (hw : OffThread w w') : c.Bound b w' := by
  obtain ⟨f, rfl⟩ := hw
  exact h.onThread f

theorem Bound.setups (h : c.Bound b w) (hlive : (w.liveSandbox? c.sandbox).isSome = true) : c.setups w = b.toNat := by
  obtain ⟨l, hl⟩ := Option.isSome_iff_exists.1 hlive
  obtain ⟨d, hd, -, hsetups⟩ := h.state l hl
  rw [AdapterClass.setups, World.definition?, hl, Option.bind_some, hd]
  exact hsetups

/-- A class binds its own setter, through every handle, and no other. -/
theorem Bound.bind (h : c.Bound b w) (c' : AdapterClass) : c.Bound (b || c'.sameType c) (c'.bind w) := by
  by_cases hid : c'.sandbox.id = c.sandbox.id
  · rw [sameType, beq_iff_eq.2 hid, Bool.or_true]
    cases hl : w.sandboxes.get? c.sandbox.id with
    | none =>
      have hnone : w.definition? c'.sandbox = none := by
        rw [World.definition?, World.liveSandbox?, hid, hl]
        rfl
      rw [AdapterClass.bind, hnone]
      refine ⟨h.number, fun l hl' => ?_⟩
      rw [hl] at hl'
      cases hl'
    | some l =>
      obtain ⟨d, hd, hbound, hsetups⟩ := h.state l hl
      have hdefinition : w.definition? c'.sandbox = some d := by
        rw [World.definition?, World.liveSandbox?, hid, hl]
        exact hd
      rw [AdapterClass.bind, hdefinition]
      cases b with
      | true =>
        dsimp only
        rw [if_pos hbound]
        exact ⟨h.number, h.state⟩
      | false =>
        dsimp only
        rw [hbound, if_neg Bool.false_ne_true]
        refine ⟨h.number, fun l' hl' => ⟨{ d with bound := true, setups := d.setups + 1 }, ?_, rfl, ?_⟩⟩
        · rw [World.setDefinition, Assoc.get?_adjust, if_pos hid, hl] at hl'
          rw [← Option.some.inj hl']
        · rw [hsetups]
          rfl
  · rw [sameType, beq_false_of_ne hid, Bool.or_false, AdapterClass.bind]
    split
    · split
      · exact h
      · refine ⟨h.number, fun l hl => h.state l ?_⟩
        rwa [World.setDefinition, Assoc.get?_adjust, if_neg hid] at hl
    · exact h

end AdapterClass

/-! ## Along a run -/

/-- A call of the class begins that goes to the script. -/
def Moment.binds (c : AdapterClass) (m : Moment) : Bool :=
  m.call.any fun (i, method, args) => i.cls.sameType c && i.adapts method args

/-- From a time when the class was bound or not, it is bound from the first call on that goes to the script. -/
def Moment.Track (c : AdapterClass) : Bool → List Moment → Prop
  | _, [] => True
  | b, m :: ms => c.Bound (b || m.binds c) m.world ∧ Track c (b || m.binds c) ms

namespace Moment

variable {c : AdapterClass}

theorem Track.append {ms ms' : List Moment} : ∀ {b : Bool}, Track c b ms → Track c (b || ms.any (binds c)) ms' →
    Track c b (ms ++ ms') := by
  induction ms with
  | nil =>
    intro b _ h'
    rwa [List.any_nil, Bool.or_false] at h'
  | cons m ms ih =>
    intro b h h'
    rw [List.any_cons, ← Bool.or_assoc] at h'
    exact ⟨h.1, ih h.2 h'⟩

theorem Track.last {ms : List Moment} : ∀ {b : Bool} {w : World}, Track c b ms → c.Bound b w →
    c.Bound (b || ms.any (binds c)) (last w ms) := by
  induction ms with
  | nil =>
    intro b w _ hw
    rwa [List.any_nil, Bool.or_false]
  | cons m ms ih =>
    intro b w h _
    rw [List.any_cons, ← Bool.or_assoc, ← List.singleton_append, last_append]
    exact ih h.2 h.1

theorem Track.at {pre post : List Moment} {m : Moment} : ∀ {b : Bool}, Track c b (pre ++ m :: post) →
    c.Bound (b || (pre ++ [m]).any (binds c)) m.world := by
  induction pre with
  | nil =>
    intro b h
    rw [List.nil_append, List.any_cons, List.any_nil, Bool.or_false]
    exact h.1
  | cons m' pre ih =>
    intro b h
    rw [List.cons_append, List.any_cons, ← Bool.or_assoc]
    exact ih h.2

end Moment

open Moment (Track)

def Traces.Tracked (traces : Traces) (c : AdapterClass) : Prop :=
  ∀ body this args b w, c.Bound b w → Track c b (traces body this args w)

theorem Code.track {bodies : Bodies} {traces : Traces} {c : AdapterClass} (hf : traces.Follow bodies)
    (ht : traces.Tracked c) {α : Type} (x : Code α) :
    x.Settled → ∀ b w, c.Bound b w → Track c b (x.moments bodies traces w) := by
  have hone : ∀ {b : Bool} {w : World}, c.Bound b w → Track c b [{ world := w }] :=
    fun h => ⟨by rwa [Moment.binds, Option.any_none, Bool.or_false], trivial⟩
  induction x with
  | pure a => exact fun _ _ _ _ => trivial
  | bind x k ihx ihk =>
    intro ⟨hx, hk⟩ b w hw
    rw [moments]
    have htrack := ihx hx b w hw
    refine htrack.append ?_
    have hafter := (htrack.last hw).offThread (x.ends_last hf w)
    rcases hrun : (x.run bodies).outcome w with ⟨e | a, w'⟩ <;> rw [hrun] at hafter
    · trivial
    · exact ihk a (hk a) _ w' hafter
  | throw e => exact fun _ _ _ _ => trivial
  | attempt x ih => exact ih
  | act m hm => exact fun hm b w hw => hone (hw.settles (hm w))
  | look q => exact fun _ _ _ _ => trivial
  | privileged ps x ih => exact fun hx b w hw => ih hx b _ (hw.onThread _)
  | within c' x ih => exact fun hx b w hw => ih hx b _ (hw.onThread _)
  | generate g => exact fun _ b w hw => hone (hw.settles (g.settles_run w))
  | create c' => exact fun _ b w hw => hone (hw.settles (c'.settles_run w))
  | invoke i method args =>
    intro _ b w hw
    have hbefore : c.Bound (b || (i.cls.sameType c && i.adapts method args)) ((i.prepare method args).outcome w).2 := by
      rw [i.prepare_world]
      cases i.adapts method args with
      | true =>
        rw [Bool.and_true, if_pos rfl]
        exact hw.bind i.cls
      | false =>
        rw [Bool.and_false, Bool.or_false, if_neg Bool.false_ne_true]
        exact hw
    refine ⟨hbefore, ?_⟩
    rcases hrun : (i.prepare method args).outcome w with ⟨e | call, w'⟩ <;> rw [hrun] at hbefore
    · trivial
    · exact ht call.body call.this call.args _ _ (hbefore.onThread (i.bodyThread method))

namespace Program

theorem track_moments {p : Program} (hp : ∀ b this args, (p b this args).Settled) (c : AdapterClass) (depth : Nat) :
    (p.moments depth).Tracked c := by
  induction depth with
  | zero => exact fun _ _ _ _ _ _ => trivial
  | succ depth ih =>
    exact fun body this args b w hw => (p body this args).track (p.follow_moments depth) ih (hp body this args) b w hw

/-- From the time a class is defined, through every run of calls, whatever their instances, handles and arguments are,
however they fail and whatever they call: as long as there are handles to the class, its setter is not bound at any moment
before the first call of the class that goes to the script, and was bound once at that moment and at all after it. So it
is when the run has ended, which is in the world of its last moment but for the thread. -/
theorem bound_once (p : Program) (hp : ∀ b this args, (p b this args).Settled) (depth : Nat) {α : Type} (x : Code α)
    (hx : x.Settled) {c : AdapterClass} {w : World} (hc : c.Fresh w) :
    (∀ pre m post, x.moments (p.bodies depth) (p.moments depth) w = pre ++ m :: post →
      (m.world.liveSandbox? c.sandbox).isSome = true →
        c.setups m.world = if (pre ++ [m]).any (Moment.binds c) then 1 else 0) ∧
    ((((x.run (p.bodies depth)).outcome w).2.liveSandbox? c.sandbox).isSome = true →
      c.setups ((x.run (p.bodies depth)).outcome w).2 =
        if (x.moments (p.bodies depth) (p.moments depth) w).any (Moment.binds c) then 1 else 0) ∧
    ∃ f, ((x.run (p.bodies depth)).outcome w).2 =
      onThread f (Moment.last w (x.moments (p.bodies depth) (p.moments depth) w)) := by
  have htrack := x.track (p.follow_moments depth) (p.track_moments hp c depth) hx false w hc.bound
  have hend := x.ends_last (p.follow_moments depth) w
  have hcount : ∀ b : Bool, b.toNat = if b then 1 else 0 := by decide
  refine ⟨fun pre m post hmoments hlive => ?_, fun hlive => ?_, hend⟩
  · rw [hmoments] at htrack
    rw [htrack.at.setups hlive, Bool.false_or, hcount]
  · rw [((htrack.last hc.bound).offThread hend).setups hlive, Bool.false_or, hcount]

end Program

/-! ## Fresh classes -/

theorem Factory.extend_fresh {id : FactoryId} {f : Factory} {target : HostType} {ov : Overrides} {c : AdapterClass}
    {w w' : World} (hf : w.factories.get? id = some f) (h : (extend id target ov).outcome w = (.ok c, w')) :
    c.Fresh w' := by
  obtain ⟨d, c', hl, rfl⟩ := extend_loaded h
  obtain ⟨-, -, hnumber, hdefinition⟩ := load_made hf hl
  exact ⟨hnumber, hdefinition⟩

namespace Program

def calls (i : Instance) : Code Val :=
  .bind (.attempt (.invoke i "run" [.undefined])) fun _ => .bind (.invoke i "run" []) fun _ => .invoke i "run" []

/-- A class with implementations of its own, and the world that it is made in. -/
def extending : Except Fault AdapterClass × World :=
  (Factory.extend 0 Factory.untrusted Factory.byFunction).outcome Factory.started

def runner : Instance := ⟨extending.1.toOption.getD default, Factory.byFunction, none⟩

theorem calls_runner :
    extending.1.toOption.isSome = true ∧
      ((((calls runner).run ((BodyTable.program []).bodies 1)).outcome extending.2).2.liveSandbox?
        runner.cls.sandbox).isSome = true ∧
      ((calls runner).moments ((BodyTable.program []).bodies 1) ((BodyTable.program []).moments 1) extending.2).any
        (Moment.binds runner.cls) = true := by
  decide +kernel

theorem bound_once_runner :
    runner.cls.Fresh extending.2 ∧
      runner.cls.setups (((calls runner).run ((BodyTable.program []).bodies 1)).outcome extending.2).2 = 1 := by
  obtain ⟨hgiven, hlive, hbinds⟩ := calls_runner
  have hextend : (Factory.extend 0 Factory.untrusted Factory.byFunction).outcome Factory.started =
      (.ok runner.cls, extending.2) := by
    show extending = _
    rw [runner]
    rcases hrun : extending with ⟨e | c, w⟩
    · rw [hrun] at hgiven
      cases hgiven
    · rfl
  have hfresh := Factory.extend_fresh (f := { context := 0 }) rfl hextend
  have hsettled : (calls runner).Settled := ⟨trivial, fun _ => ⟨trivial, fun _ => trivial⟩⟩
  obtain ⟨-, hend, -⟩ := bound_once (BodyTable.program []) (BodyTable.settled_program []) 1 (calls runner) hsettled hfresh
  rw [hend hlive, if_pos hbinds]
  exact ⟨hfresh, rfl⟩

end Program
end ScriptHost
