import Mathlib.Data.List.Sort
import ScriptHost.Proofs.Adapter.Coverage
import ScriptHost.Proofs.Adapter.Grammar
import ScriptHost.Proofs.Adapter.Loading
import ScriptHost.Proofs.Engine.Effects

/-!
# Classes and the implementations they take

An instance takes implementations that cover just the names its class was generated for. Names are kept in one order and
each once (`Ascending.ext`), so the names that implementations cover are the ones that a class is generated for
(`Descriptor.effective_names`). A class that was defined from written bytes is for instances if it was written so, however
long its texts are (`ClassFile.classLevel_of_written`). A class that is loaded comes from its descriptor and has the next
number (`Descriptor.load_made`), and takes the implementations that the descriptor was generated for
(`AdapterClass.MadeFrom.newInstance`).
-/

namespace ScriptHost

open World

/-! ## Names in order -/

/-- Each name stands before the next. -/
def Ascending (xs : List String) : Prop := xs.Pairwise fun a b => Text.before a b = true

theorem Ascending.insertName {x : String} {xs : List String} (h : Ascending xs) : Ascending (insertName x xs) := by
  induction xs with
  | nil => exact List.pairwise_singleton ..
  | cons y ys ih =>
    obtain ⟨hy, hys⟩ := List.pairwise_cons.1 h
    rw [ScriptHost.insertName]
    split
    · next hxy =>
      refine List.pairwise_cons.2 ⟨fun z hz => ?_, h⟩
      rcases List.mem_cons.1 hz with rfl | hz
      · exact hxy
      · exact Text.before_trans hxy (hy z hz)
    · split
      · next hyx =>
        refine List.pairwise_cons.2 ⟨fun z hz => ?_, ih hys⟩
        rcases mem_insertName.1 hz with rfl | hz
        · exact hyx
        · exact hy z hz
      · exact h

theorem ascending_sortNames (xs : List String) : Ascending (sortNames xs) := by
  induction xs with
  | nil => exact .nil
  | cons x xs ih => exact ih.insertName

theorem Ascending.ext {xs ys : List String} (hx : Ascending xs) (hy : Ascending ys) (h : ∀ x, x ∈ xs ↔ x ∈ ys) :
    xs = ys := by
  have : Std.Irrefl fun a b => Text.before a b = true := ⟨fun a ha => by simp [Text.before_irrefl] at ha⟩
  have : Std.Antisymm fun a b => Text.before a b = true :=
    ⟨fun a b hab hba => by simpa [Text.before_irrefl] using Text.before_trans hab hba⟩
  exact List.Pairwise.eq_of_mem_iff hx hy h

theorem Overrides.ascending_names (ov : Overrides) (h : Heap) (t : HostType) : Ascending (ov.names h t) :=
  ascending_sortNames _

namespace Descriptor

variable {target : HostType} {names : List String} {classLevel : Bool} {d : Descriptor}

theorem effective_names (target : HostType) (ov : Overrides) (h : Heap) :
    effective target (ov.names h target) = ov.names h target := by
  refine (ascending_sortNames _).ext (ov.ascending_names h target) fun name => ?_
  rw [← effective, mem_effective]
  refine and_iff_left_of_imp fun hname => ?_
  obtain ⟨m, hm, -, rfl⟩ := Overrides.mem_names.1 hname
  exact ⟨m, hm, rfl⟩

theorem overrides_of_generate (h : generate target names classLevel = .ok d) :
    d.overrides = effective target names := by
  simp only [generate] at h
  cases he : (classFile target (effective target names) classLevel).encode with
  | error e =>
    rw [he] at h
    cases h
  | ok bytes =>
    rw [he] at h
    cases h
    rfl

end Descriptor

/-! ## What is read of the head of a class -/

namespace ClassFile

theorem encode_head {c : ClassFile} {bytes : List UInt8} (h : c.encode = .ok bytes) :
    ∃ rest, bytes = headerBytes c.version 0 0 ++ (sectionBytes headTag (headPayload c) ++ rest) := by
  rw [encode] at h
  obtain ⟨refs, -, h⟩ := bind_eq_ok.1 h
  obtain ⟨methods, -, h⟩ := bind_eq_ok.1 h
  cases h
  exact ⟨sectionBytes refsTag refs ++ (sectionBytes methodsTag methods ++ annotationsSection c.annotations), by
    simp [headerBytes, List.append_assoc]⟩

/-- A class that is read under the names it was written under is class-level if it was written so. The texts need not
fit their length fields: where the head is cut short, other names are read. -/
theorem classLevel_of_written {c file : ClassFile} {bytes : List UInt8} (hb : c.encode = .ok bytes)
    (hd : decode bytes = .ok file) (hn : file.name = c.name) (ht : file.target = c.target) :
    file.classLevel = c.classLevel := by
  obtain ⟨rest, hbytes⟩ := encode_head hb
  obtain ⟨-, r, r', body, ss, hsentence, hrow, hspells⟩ := decode_iff.1 hd
  obtain ⟨payload, hpayload, hhead⟩ := hspells.head
  -- the first section is the head that was written
  have hbody : body = sectionBytes headTag (headPayload c) ++ rest :=
    (List.append_inj (hsentence.symm.trans hbytes) rfl).2
  cases hrow with
  | nil => cases hbody
  | @cons front tail s ss hs hss =>
    obtain ⟨htag, -, rfl⟩ := hs
    rw [sectionBytes, sectionBytes, List.append_assoc, List.append_assoc, List.append_assoc, List.append_assoc] at hbody
    obtain ⟨htag', hbody⟩ := List.append_inj hbody htag
    obtain ⟨-, hbody⟩ := List.append_inj hbody rfl
    have hfirst : s.payload = payload := by
      rw [payloads, List.filter_cons_of_pos (by simp [htag']), List.map_cons] at hpayload
      exact List.head_eq_of_cons_eq hpayload
    subst hfirst
    obtain ⟨hsame, -⟩ := List.append_inj hbody (head_length hhead hn ht)
    -- and so are its last two bytes
    obtain ⟨name, target, level, ⟨-, rfl⟩, ⟨-, rfl⟩, hlevel, hread⟩ := hhead
    dsimp only at hread hlevel
    rw [hsame, headPayload, hn, ht, List.append_assoc, List.append_cancel_left_eq, List.append_cancel_left_eq] at hread
    obtain ⟨-, hlast⟩ := List.cons_eq_cons.1 hread
    rw [hlevel, ← List.head_eq_of_cons_eq hlast]
    cases c.classLevel <;> rfl

end ClassFile

/-! ## Loaded classes -/

/-- The class was defined from the bytes of the descriptor. -/
structure AdapterClass.MadeFrom (c : AdapterClass) (d : Descriptor) : Prop where
  descriptor : c.descriptor = d
  decoded : ClassFile.decode d.bytes = .ok c.file
  name : c.file.name = d.className
  target : c.file.target = d.target.name

namespace AdapterClass.MadeFrom

variable {c : AdapterClass} {d : Descriptor} {target : HostType} {names : List String}

theorem classLevel {classLevel : Bool} (h : c.MadeFrom d)
    (hg : Descriptor.generate target names classLevel = .ok d) : c.isClassLevel = classLevel := by
  obtain ⟨hbytes, htarget, hname, -⟩ := Descriptor.generate_ok hg
  have hfile := ClassFile.classLevel_of_written hbytes h.decoded (h.name.trans hname)
    (h.target.trans (congrArg HostType.name htarget))
  exact hfile

theorem newInstance {ov : Overrides} {w : World} (h : c.MadeFrom d)
    (hg : Descriptor.generate target (ov.names w.heap target) false = .ok d) :
    (c.newInstance ov).outcome w = (.ok ⟨c, ov, w.thread.global⟩, w.retain c.sandbox) := by
  have htarget : c.target = target := by
    rw [AdapterClass.target, ← AdapterClass.descriptor, h.descriptor, (Descriptor.generate_ok hg).2.1]
  have hnames : ov.names w.heap c.target = c.descriptor.overrides := by
    rw [htarget, h.descriptor, Descriptor.overrides_of_generate hg, Descriptor.effective_names]
  rw [AdapterClass.newInstance, if_neg (by simp [h.classLevel hg]), Run.outcome_bind, Run.outcome_get]
  dsimp only
  rw [if_neg (not_not_intro hnames)]
  rfl

end AdapterClass.MadeFrom

/-- Objects are as they were, and no number of a sandbox is given out again. -/
structure World.Advances (w w' : World) : Prop where
  heap : w'.heap = w.heap
  next : w.nextSandbox ≤ w'.nextSandbox

theorem World.engineClosed_advances : EngineClosed Advances where
  refl _ := ⟨rfl, Nat.le_refl _⟩
  trans h h' := ⟨h'.heap.trans h.heap, Nat.le_trans h.next h'.next⟩
  thread _ _ := ⟨rfl, Nat.le_refl _⟩
  dump _ _ := ⟨rfl, Nat.le_refl _⟩
  define _ _ := ⟨rfl, Nat.le_refl _⟩
  retain _ _ := ⟨rfl, Nat.le_refl _⟩
  grant _ _ := ⟨rfl, Nat.le_refl _⟩
  add _ := ⟨rfl, Nat.le_succ _⟩
  count _ _ _ _ := ⟨rfl, Nat.le_refl _⟩
  forget _ _ := ⟨rfl, Nat.le_refl _⟩
  factories _ _ := ⟨rfl, Nat.le_refl _⟩
  register _ _ _ := ⟨rfl, Nat.le_refl _⟩

theorem World.release_shared {w : World} {s : Sandbox} {l : LiveSandbox} (hl : w.sandboxes.get? s.id = some l)
    (hshared : 1 < l.handles) :
    w.release s = { w with sandboxes := w.sandboxes.put s.id { l with handles := l.handles - 1 } } := by
  rw [release_eq, hl]
  exact if_neg (Nat.not_le.2 hshared)

theorem Descriptor.loadIn_ok {d : Descriptor} {s : Sandbox} {w w' : World} {cls : AdapterClass}
    (hparent : s.parent = .engine) (hlive : w.sandboxes.get? s.id = some { sandbox := s, handles := 1 })
    (h : (d.loadIn s).outcome w = (.ok cls, w')) :
    cls.sandbox = s ∧ ClassFile.decode s.descriptor.bytes = .ok cls.file ∧ cls.file.name = s.descriptor.className ∧
      cls.file.target = s.descriptor.target.name ∧ cls.overrides = none ∧ w'.definition? s = some { file := cls.file } := by
  rw [loadIn, Run.outcome_ensuring, Run.outcome_bind] at h
  obtain ⟨hresult, hworld⟩ := Prod.mk.inj h
  rcases s.load_cases d.className w with ⟨e, -, hload⟩ | ⟨t, hout, hload⟩ | ⟨-, hload⟩
  · rw [hload] at hresult
    cases hresult
  · rw [hload] at hresult
    -- what lies outside is no adapter class
    rcases Sandbox.outside_found hparent hout with rfl | ⟨t', rfl, -⟩ <;> cases hresult
  · rw [hload, Run.outcome_map, Sandbox.find, Run.outcome_bind] at hresult hworld
    have hnone : w.definition? s = none := by
      rw [definition?, liveSandbox?, hlive]
      rfl
    rcases s.ownClass_cases d.className w with
      ⟨-, ⟨f, hown⟩ | ⟨d', hd', -⟩⟩ | ⟨-, ⟨f, hown⟩ | ⟨file, hdecode, hname, htarget, hown⟩⟩
    · rw [hown] at hresult
      cases hresult
    · rw [hnone] at hd'
      cases hd'
    · rw [hown] at hresult
      cases hresult
    · rw [hown] at hresult hworld
      cases hresult
      refine ⟨rfl, hdecode, hname, htarget, rfl, ?_⟩
      subst hworld
      have hretained : (((w.dumped s).setDefinition s { file }).retain s).sandboxes.get? s.id =
          some { sandbox := s, handles := 2, definition := some { file } } := by
        have hdefined : ((w.dumped s).setDefinition s { file }).sandboxes.get? s.id =
            some { sandbox := s, handles := 1, definition := some { file } } := by
          rw [setDefinition, Assoc.get?_adjust, if_pos rfl]
          exact congrArg (Option.map _) hlive
        rw [retain, Assoc.get?_adjust, if_pos rfl, hdefined]
        rfl
      show ((((w.dumped s).setDefinition s { file }).retain s).release s).definition? s = _
      rw [release_shared hretained (Nat.lt_succ_self 1), definition?, liveSandbox?, Assoc.get?_put_self]
      rfl

/-- A class that is loaded under the engine's loader is that of its descriptor, in the next sandbox, where it is defined
and its setter not bound. -/
theorem Descriptor.load_made {d : Descriptor} {c : ContextId} {domain : Domain} {w w' : World} {cls : AdapterClass}
    (h : (d.load c .engine domain).outcome w = (.ok cls, w')) :
    cls.sandbox = w.fresh c d .engine domain ∧ cls.MadeFrom d ∧ cls.overrides = none ∧
      w'.definition? cls.sandbox = some { file := cls.file } ∧ cls.sandbox.id < w'.nextSandbox := by
  rw [load_eq, Run.outcome_bind] at h
  have hin : (d.loadIn (w.fresh c d .engine domain)).outcome ((w.granted c).add (w.fresh c d .engine domain)) =
      (.ok cls, w') := h
  obtain ⟨hs, hdecode, hname, htarget, hoverrides, hdefined⟩ :=
    loadIn_ok rfl (Assoc.get?_put_self ..) hin
  have hadvances : Advances ((w.granted c).add (w.fresh c d .engine domain)) w' := by
    have hmove := engineClosed_advances.moves_loadIn d (w.fresh c d .engine domain)
      ((w.granted c).add (w.fresh c d .engine domain))
    rwa [hin] at hmove
  refine ⟨hs, ⟨?_, hdecode, hname, htarget⟩, hoverrides, hs ▸ hdefined, ?_⟩
  · rw [AdapterClass.descriptor, hs]
    rfl
  · rw [hs]
    exact hadvances.next

end ScriptHost
