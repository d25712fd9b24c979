import ScriptHost.Proofs.Adapter.Visibility

/-!
# What defining a class changes

A sandbox defines its class when it is asked for it and has not defined it yet. It hands the bytes to the dump of its
context first; decoding, the comparison with the descriptor and linking only look, so an attempt that fails leaves the
dump and nothing else. Asked for anything but its own class, a sandbox changes nothing but the handles it gives.
-/

namespace ScriptHost

open World

/-- The context whose dump has been handed the class of a sandbox. -/
def Sandbox.dumpedIn (s : Sandbox) (ctx : Context) : Context :=
  { ctx with dumps := ctx.dumps ++ [(s.descriptor.className, s.descriptor.bytes)] }

def World.dumped (w : World) (s : Sandbox) : World := w.setContext s.context (s.dumpedIn (w.context s.context))

theorem World.context_dumped (w : World) (s : Sandbox) (c : ContextId) :
    (w.dumped s).context c = if s.context = c then s.dumpedIn (w.context c) else w.context c := by
  rw [dumped, context_setContext]
  split
  · next hc => rw [hc]
  · rfl

theorem World.definition?_setDefinition {w : World} {s : Sandbox} (hs : (w.liveSandbox? s).isSome = true)
    (d : Definition) : (w.setDefinition s d).definition? s = some d := by
  obtain ⟨l, hl⟩ := Option.isSome_iff_exists.1 hs
  rw [liveSandbox?] at hl
  rw [definition?, liveSandbox?, setDefinition, Assoc.get?_adjust, if_pos rfl, hl]
  rfl

namespace Sandbox

variable {w : World} {s : Sandbox} {name : String}

theorem link_world (s : Sandbox) (cls : String) (symbols : List String) (w : World) :
    ((s.link cls symbols).outcome w).2 = w := by
  induction symbols with
  | nil => rfl
  | cons symbol rest ih =>
    rw [link]
    split
    · rfl
    · rw [Run.outcome_bind, outcome_searchOutside]
      rcases s.outside? (w.context s.context) symbol with e | _ | t
      · rfl
      · rfl
      · exact ih

theorem define_cases (s : Sandbox) (w : World) :
    (∃ f, s.define.outcome w = (.error f, w.dumped s)) ∨
      ∃ file, ClassFile.decode s.descriptor.bytes = .ok file ∧ file.name = s.descriptor.className ∧
        file.target = s.descriptor.target.name ∧
        s.define.outcome w = (.ok file, (w.dumped s).setDefinition s { file }) := by
  have hdump : s.dump.outcome w = (.ok (), w.dumped s) := rfl
  rw [define, Run.outcome_bind, hdump]
  dsimp only
  cases hdecode : ClassFile.decode s.descriptor.bytes with
  | error e => exact .inl ⟨_, rfl⟩
  | ok file =>
    dsimp only
    by_cases hname : file.name = s.descriptor.className
    · rw [if_neg (not_not_intro hname)]
      by_cases htarget : file.target = s.descriptor.target.name
      · rw [if_neg (not_not_intro htarget), Run.outcome_bind]
        have hlink := s.link_world s.descriptor.className file.refs (w.dumped s)
        rcases hrun : (s.link s.descriptor.className file.refs).outcome (w.dumped s) with ⟨r, w'⟩
        rw [hrun] at hlink
        obtain rfl := hlink
        cases r with
        | error f => exact .inl ⟨f, rfl⟩
        | ok _ => exact .inr ⟨file, rfl, hname, htarget, rfl⟩
      · rw [if_pos htarget]
        exact .inl ⟨_, rfl⟩
    · rw [if_pos hname]
      exact .inl ⟨_, rfl⟩

/-- The name is that of the sandbox's own class, which is not defined yet. -/
def Awaits (s : Sandbox) (w : World) (name : String) : Prop :=
  name = s.descriptor.className ∧ w.definition? s = none

/-- Asked for its own class, a sandbox gives what it has defined, or defines it now. -/
theorem ownClass_cases (s : Sandbox) (name : String) (w : World) :
    (¬s.Awaits w name ∧ ((∃ f, (s.ownClass name).outcome w = (.error f, w)) ∨
      ∃ d, w.definition? s = some d ∧ (s.ownClass name).outcome w = (.ok ⟨s, d.file, none⟩, w))) ∨
    (s.Awaits w name ∧ ((∃ f, (s.ownClass name).outcome w = (.error f, w.dumped s)) ∨
      ∃ file, ClassFile.decode s.descriptor.bytes = .ok file ∧ file.name = s.descriptor.className ∧
        file.target = s.descriptor.target.name ∧
        (s.ownClass name).outcome w = (.ok ⟨s, file, none⟩, (w.dumped s).setDefinition s { file }))) := by
  rw [ownClass]
  by_cases hname : name = s.descriptor.className
  · rw [if_neg (not_not_intro hname), Run.outcome_bind, Run.outcome_get]
    dsimp only
    cases hd : w.definition? s with
    | some d =>
      have hnot : ¬s.Awaits w name := fun h => by
        rw [h.2] at hd
        cases hd
      exact .inl ⟨hnot, .inr ⟨d, rfl, rfl⟩⟩
    | none =>
      dsimp only
      rw [Run.outcome_bind]
      refine .inr ⟨⟨hname, hd⟩, ?_⟩
      rcases s.define_cases w with ⟨f, hdefine⟩ | ⟨file, hdecode, hfile, htarget, hdefine⟩
      · exact .inl ⟨f, by rw [hdefine]⟩
      · exact .inr ⟨file, hdecode, hfile, htarget, by rw [hdefine]; rfl⟩
  · rw [if_pos hname]
    exact .inl ⟨fun h => hname h.1, .inl ⟨_, rfl⟩⟩

/-- What is found outside is given out; what is known to be nowhere outside is asked of the sandbox itself. -/
theorem load_cases (s : Sandbox) (name : String) (w : World) :
    (∃ e, s.outside? (w.context s.context) name = .error e ∧ (s.load name).outcome w = (.error (.error e), w)) ∨
    (∃ t, s.outside? (w.context s.context) name = .ok (some t) ∧
      (s.load name).outcome w = (.ok t, w.retainLoaded t)) ∨
    (s.outside? (w.context s.context) name = .ok none ∧
      (s.load name).outcome w = (LoadedType.adapter <$> s.find name).outcome w) := by
  rw [load, Run.outcome_bind, resolve, Run.outcome_bind, outcome_searchOutside]
  rcases s.outside? (w.context s.context) name with e | _ | t
  · exact .inl ⟨e, rfl, rfl⟩
  · refine .inr (.inr ⟨rfl, ?_⟩)
    dsimp only [Except.mapError]
    rw [Run.outcome_map, Run.outcome_map, find, Run.outcome_bind]
    rcases (s.ownClass name).outcome w with ⟨f | c, w'⟩ <;> rfl
  · exact .inr (.inl ⟨t, rfl, rfl⟩)

end Sandbox
end ScriptHost
