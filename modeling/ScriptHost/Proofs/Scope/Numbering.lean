import Mathlib.Logic.Function.Basic
import ScriptHost.Proofs.Scope.Emission

/-!
# The units that a row of requests makes

Asking for the units of a row of shapes makes one for each shape that is new (`newShapes`), under the next name of its
kind (`numbered`). So which shapes get a unit does not depend on the order of the row, and neither do the names that are
used up, only which shape gets which of them. That no two units of a builder have one shape, and that their names are
used up (`Numbered`), holds after any requests.
-/

namespace ScriptHost

def ClassBody.adding (c : ClassBody) (ms : List Method) : ClassBody := { c with methods := c.methods ++ ms }

theorem ClassBody.name_adding (c : ClassBody) (ms : List Method) : (c.adding ms).name = c.name := rfl

namespace ModuleBuilder

/-! ## New shapes -/

/-- The shapes of a row that are not known, each once, in the order in which they come. -/
def newShapes : List Shape → List Shape → List Shape
  | _, [] => []
  | known, s :: row => if s ∈ known then newShapes known row else s :: newShapes (known ++ [s]) row

section

variable {known row row' : List Shape}

theorem mem_newShapes {s : Shape} : s ∈ newShapes known row ↔ s ∈ row ∧ s ∉ known := by
  induction row generalizing known with
  | nil => simp [newShapes]
  | cons x row ih =>
    unfold newShapes
    split
    · next hx =>
      rw [ih, List.mem_cons]
      constructor
      · rintro ⟨hs, hn⟩
        exact ⟨.inr hs, hn⟩
      · rintro ⟨rfl | hs, hn⟩
        · exact absurd hx hn
        · exact ⟨hs, hn⟩
    · next hx =>
      rw [List.mem_cons, ih, List.mem_cons, List.mem_append, List.mem_singleton]
      constructor
      · rintro (rfl | ⟨hs, hn⟩)
        · exact ⟨.inl rfl, hx⟩
        · exact ⟨.inr hs, fun h => hn (.inl h)⟩
      · rintro ⟨hs, hn⟩
        by_cases he : s = x
        · exact .inl he
        · exact .inr ⟨hs.resolve_left he, fun h => h.elim hn he⟩

theorem nodup_newShapes : (newShapes known row).Nodup := by
  induction row generalizing known with
  | nil => exact List.nodup_nil
  | cons x row ih =>
    unfold newShapes
    split
    · exact ih
    · refine List.nodup_cons.2 ⟨fun h => ?_, ih⟩
      exact (mem_newShapes.1 h).2 (List.mem_append_right _ (List.mem_singleton_self x))

theorem newShapes_perm (h : row.Perm row') : (newShapes known row).Perm (newShapes known row') := by
  refine (List.perm_ext_iff_of_nodup nodup_newShapes nodup_newShapes).2 fun s => ?_
  rw [mem_newShapes, mem_newShapes, h.mem_iff]

theorem newShapes_append : newShapes known (row ++ row') =
    newShapes known row ++ newShapes (known ++ newShapes known row) row' := by
  induction row generalizing known with
  | nil => simp [newShapes]
  | cons x row ih =>
    rw [List.cons_append, newShapes, newShapes]
    split
    · exact ih
    · rw [ih, List.cons_append, List.append_assoc, List.singleton_append]

end

/-! ## Numbers -/

/-- Units for some shapes in a class, under the next names. -/
def numbered (next : Bool → Nat) (cls : String) : List Shape → List SharedUnit
  | [] => []
  | s :: ss =>
    ⟨s, cls, unitName s.isCall (next s.isCall)⟩ ::
      numbered (Function.update next s.isCall (next s.isCall + 1)) cls ss

section

variable {next : Bool → Nat} {cls : String} {ss ss' : List Shape}

theorem map_shape_numbered : (numbered next cls ss).map SharedUnit.shape = ss := by
  induction ss generalizing next with
  | nil => rfl
  | cons s ss ih => rw [numbered, List.map_cons, ih]

theorem cls_numbered {u : SharedUnit} (h : u ∈ numbered next cls ss) : u.cls = cls := by
  induction ss generalizing next with
  | nil => cases h
  | cons s ss ih =>
    rcases List.mem_cons.1 h with rfl | h
    · rfl
    · exact ih h

theorem name_numbered {u : SharedUnit} (h : u ∈ numbered next cls ss) :
    ∃ n, next u.shape.isCall ≤ n ∧ u.name = unitName u.shape.isCall n := by
  induction ss generalizing next with
  | nil => cases h
  | cons s ss ih =>
    rcases List.mem_cons.1 h with rfl | h
    · exact ⟨_, Nat.le_refl _, rfl⟩
    · obtain ⟨n, hn, hname⟩ := ih h
      refine ⟨n, ?_, hname⟩
      rw [Function.update_apply] at hn
      split at hn
      · next hkind =>
        rw [hkind]
        omega
      · exact hn

theorem nodup_names_numbered : ((numbered next cls ss).map SharedUnit.name).Nodup := by
  induction ss generalizing next with
  | nil => exact List.nodup_nil
  | cons s ss ih =>
    rw [numbered, List.map_cons]
    refine List.nodup_cons.2 ⟨fun h => ?_, ih⟩
    obtain ⟨u, hu, he⟩ := List.mem_map.1 h
    obtain ⟨n, hn, hname⟩ := name_numbered hu
    obtain ⟨hkind, rfl⟩ := unitName_inj (hname.symm.trans he)
    rw [hkind, Function.update_self] at hn
    omega

/-- The names that are used up do not depend on the order of the shapes. -/
theorem names_numbered_perm (h : ss.Perm ss') :
    ((numbered next cls ss).map SharedUnit.name).Perm ((numbered next cls ss').map SharedUnit.name) := by
  induction h generalizing next with
  | nil => exact .nil
  | cons s h ih => exact ih.cons _
  | swap s s' ss =>
    simp only [numbered, List.map_cons]
    by_cases hkind : s.isCall = s'.isCall
    · rw [hkind]
    · -- shapes of the two kinds do not move the number of each other
      rw [Function.update_of_ne hkind, Function.update_of_ne (Ne.symm hkind), Function.update_comm hkind]
      exact .swap _ _ _
  | trans h h' ih ih' => exact ih.trans ih'

theorem numbered_append : numbered next cls (ss ++ ss') =
    numbered next cls ss ++ numbered (fun isCall => next isCall + ss.countP (·.isCall == isCall)) cls ss' := by
  induction ss generalizing next with
  | nil => rfl
  | cons s ss ih =>
    rw [List.cons_append, numbered, numbered, ih, List.cons_append]
    congr 3
    funext isCall
    rw [Function.update_apply, List.countP_cons]
    by_cases hkind : isCall = s.isCall
    · subst hkind
      simp
      omega
    · simp [hkind, Ne.symm hkind]

end

/-! ## New units -/

/-- The builder with more units, and with more methods in the class at a place. -/
def extended (b : ModuleBuilder) (i : Nat) (us : List SharedUnit) (ms : List Method) : ModuleBuilder :=
  { b with
    units := b.units.modify i fun c => c.adding ms
    shared := b.shared ++ us
    nextGet := b.nextGet + UInt32.ofNat (us.countP (·.shape.isCall == false))
    nextCall := b.nextCall + UInt32.ofNat (us.countP (·.shape.isCall == true)) }

/-- The units that are made when those of a row of shapes are asked for in a class. -/
def newUnits (b : ModuleBuilder) (cls : String) (row : List Shape) : List SharedUnit :=
  numbered b.counter cls (newShapes (b.shared.map SharedUnit.shape) row)

variable {b : ModuleBuilder} {i : Nat} {c : ClassBody} {us us' : List SharedUnit} {ms ms' : List Method}

def RoomFor (b : ModuleBuilder) (us : List SharedUnit) : Prop :=
  ∀ isCall, b.counter isCall + us.countP (·.shape.isCall == isCall) < UInt32.size

theorem counter_extended (hroom : b.RoomFor us) (isCall : Bool) :
    (b.extended i us ms).counter isCall = b.counter isCall + us.countP (·.shape.isCall == isCall) := by
  have hlt := hroom isCall
  rw [← UInt32.toNat_ofNat_of_lt' hlt, UInt32.ofNat_add]
  cases isCall <;> simp [counter, extended]

theorem roomFor_nil : b.RoomFor [] := fun _ => UInt32.toNat_lt _

theorem roomFor_singleton {u : SharedUnit} : b.RoomFor [u] ↔ b.Room u.shape.isCall := by
  constructor
  · intro h
    have hlt := h u.shape.isCall
    rwa [List.countP_singleton, beq_self_eq_true, if_pos rfl] at hlt
  · intro h isCall
    rw [List.countP_singleton]
    split
    · next hkind =>
      rw [← eq_of_beq hkind]
      exact h
    · exact roomFor_nil isCall

theorem roomFor_append : b.RoomFor (us ++ us') ↔ b.RoomFor us ∧ (b.extended i us ms).RoomFor us' := by
  constructor
  · intro h
    have hus : b.RoomFor us := by
      intro isCall
      have hlt := h isCall
      rw [List.countP_append] at hlt
      omega
    refine ⟨hus, fun isCall => ?_⟩
    rw [counter_extended hus, Nat.add_assoc, ← List.countP_append]
    exact h isCall
  · rintro ⟨hus, hus'⟩ isCall
    have hlt := hus' isCall
    rwa [counter_extended hus, Nat.add_assoc, ← List.countP_append] at hlt

theorem RoomFor.perm (h : b.RoomFor us) (hperm : (us.map SharedUnit.shape).Perm (us'.map SharedUnit.shape)) :
    b.RoomFor us' := by
  intro isCall
  have hcount := hperm.countP_eq (·.isCall == isCall)
  rw [List.countP_map, List.countP_map] at hcount
  exact hcount ▸ h isCall

theorem getElem?_extended (hc : b.units[i]? = some c) :
    (b.extended i us ms).units[i]? = some (c.adding ms) := by
  unfold extended
  rw [List.getElem?_modify_eq, hc]
  rfl

theorem extended_nil : b.extended i [] [] = b := by
  have hsame : (fun c : ClassBody => c.adding []) = id := by
    funext c
    simp [ClassBody.adding]
  simp [extended, hsame]

theorem extended_extended :
    (b.extended i us ms).extended i us' ms' = b.extended i (us ++ us') (ms ++ ms') := by
  have hmodify : (ClassBody.adding · ms') ∘ (ClassBody.adding · ms) = (ClassBody.adding · (ms ++ ms')) := by
    funext c
    simp [ClassBody.adding]
  unfold extended
  simp only [List.modify_modify_eq, List.append_assoc, List.countP_append, UInt32.ofNat_add, UInt32.add_assoc, hmodify]

theorem modify_eq_set (hc : b.units[i]? = some c) (f : ClassBody → ClassBody) :
    b.units.modify i f = b.units.set i (f c) := by
  rw [List.modify_eq_set_getElem?, hc]
  rfl

theorem withMethod_eq (hc : b.units[i]? = some c) (m : Method) : b.withMethod i c m = b.extended i [] [m] := by
  unfold withMethod extended
  rw [modify_eq_set hc]
  simp [ClassBody.adding]

theorem withUnit_eq (hc : b.units[i]? = some c) (s : Shape) :
    b.withUnit i c s = b.extended i [b.nextUnit s c.name] [(b.nextUnit s c.name).method] := by
  unfold withUnit withMethod extended
  rw [modify_eq_set hc, units_counted]
  cases hkind : s.isCall <;> simp [counted, nextUnit, hkind, ClassBody.adding]

/-- Which shapes get a unit and which names are used up does not depend on the order of the row. -/
theorem newUnits_perm {row row' : List Shape} (h : row.Perm row') (b : ModuleBuilder) (cls : String) :
    ((b.newUnits cls row).map SharedUnit.shape).Perm ((b.newUnits cls row').map SharedUnit.shape) ∧
      ((b.newUnits cls row).map SharedUnit.name).Perm ((b.newUnits cls row').map SharedUnit.name) := by
  refine ⟨?_, names_numbered_perm (newShapes_perm h)⟩
  unfold newUnits
  rw [map_shape_numbered, map_shape_numbered]
  exact newShapes_perm h

theorem nodup_shapes_newUnits (b : ModuleBuilder) (cls : String) (row : List Shape) :
    ((b.newUnits cls row).map SharedUnit.shape).Nodup := by
  unfold newUnits
  rw [map_shape_numbered]
  exact nodup_newShapes

/-- Units that were made for shapes count for what is made later. -/
theorem newUnits_append {cls : String} {row row' : List Shape} (hroom : b.RoomFor (b.newUnits cls row)) :
    b.newUnits cls (row ++ row') =
      b.newUnits cls row ++ (b.extended i (b.newUnits cls row) ms).newUnits cls row' := by
  have hknown : ((b.extended i (b.newUnits cls row) ms).shared).map SharedUnit.shape =
      b.shared.map SharedUnit.shape ++ newShapes (b.shared.map SharedUnit.shape) row := by
    rw [extended, List.map_append, newUnits, map_shape_numbered]
  have hcounter : (b.extended i (b.newUnits cls row) ms).counter =
      fun isCall => b.counter isCall + (newShapes (b.shared.map SharedUnit.shape) row).countP (·.isCall == isCall) := by
    funext isCall
    have hshapes : (b.newUnits cls row).map SharedUnit.shape = newShapes (b.shared.map SharedUnit.shape) row :=
      map_shape_numbered
    rw [counter_extended hroom, ← hshapes, List.countP_map]
    rfl
  show numbered _ _ _ = _ ++ numbered _ _ _
  rw [hknown, hcounter, newShapes_append, numbered_append]
  rfl

theorem roomFor_newUnits_append {cls : String} {row row' : List Shape} :
    b.RoomFor (b.newUnits cls (row ++ row')) ↔ b.RoomFor (b.newUnits cls row) ∧
      (b.extended i (b.newUnits cls row) ms).RoomFor ((b.extended i (b.newUnits cls row) ms).newUnits cls row') := by
  constructor
  · intro h
    obtain ⟨us', hus'⟩ : ∃ us', b.newUnits cls (row ++ row') = b.newUnits cls row ++ us' := by
      unfold newUnits
      rw [newShapes_append, numbered_append]
      exact ⟨_, rfl⟩
    have hfirst : b.RoomFor (b.newUnits cls row) := by
      rw [hus'] at h
      exact (@roomFor_append b i _ us' ms).1 h |>.1
    rw [@newUnits_append b i ms cls row row' hfirst] at h
    exact roomFor_append.1 h
  · rintro ⟨hfirst, hrest⟩
    rw [@newUnits_append b i ms cls row row' hfirst]
    exact roomFor_append.2 ⟨hfirst, hrest⟩

theorem isSome_findShared_extended {cls : String} {row : List Shape} {s : Shape} (hs : s ∈ row) :
    ((b.extended i (b.newUnits cls row) ms).findShared s).isSome = true := by
  rw [Option.isSome_iff_ne_none, Ne, findShared_none, extended, List.map_append, newUnits, map_shape_numbered,
    List.mem_append, mem_newShapes]
  by_cases hknown : s ∈ b.shared.map SharedUnit.shape
  · simp [hknown]
  · simp [hknown, hs]

theorem findShared_extended {s : Shape} {u : SharedUnit} (h : b.findShared s = some u) :
    (b.extended i us ms).findShared s = some u := by
  unfold findShared extended
  rw [List.find?_append, show b.shared.find? (fun u => u.shape == s) = some u from h]
  rfl

/-! ## Numbered builders -/

def KeepsNumbers (b b' : ModuleBuilder) : Prop := Numbered b → Numbered b'

theorem KeepsNumbers.refl (b : ModuleBuilder) : KeepsNumbers b b := id

theorem KeepsNumbers.trans {a b c : ModuleBuilder} (h₁ : KeepsNumbers a b) (h₂ : KeepsNumbers b c) :
    KeepsNumbers a c := h₂ ∘ h₁

theorem Numbered.counted (hb : Numbered b) {isCall : Bool} (hroom : b.Room isCall) : Numbered (b.counted isCall) where
  shapes := by
    rw [shared_counted]
    exact hb.shapes
  names u hu := by
    rw [shared_counted] at hu
    obtain ⟨n, hn, hname⟩ := hb.names u hu
    exact ⟨n, Nat.lt_of_lt_of_le hn (counter_le_counted hroom _), hname⟩

theorem keepsNumbers_addMethod (i : Nat) (m : Method) : Run.Moves KeepsNumbers (addMethod i m) := by
  intro b hb
  rcases addMethod_cases i m b with ⟨f, hf⟩ | ⟨c, hc, hok⟩
  · rw [hf]
    exact hb
  · rw [hok]
    exact ⟨hb.shapes, hb.names⟩

theorem keepsNumbers_unit (i : Nat) : Run.Moves KeepsNumbers (unit i) := by
  intro b hb
  rw [(outcome_unit i b).1]
  exact hb

theorem makeUnit_cases (hc : b.units[i]? = some c) {s : Shape} (hroom : b.Room s.isCall) :
    (∃ f, (makeUnit i s c.name).outcome b = (.error f, b.counted s.isCall)) ∨
      (∀ m ∈ c.methods, m.name ≠ (b.nextUnit s c.name).name) ∧
        (makeUnit i s c.name).outcome b = (.ok (b.nextUnit s c.name), b.withUnit i c s) := by
  by_cases hnew : ∀ m ∈ c.methods, m.name ≠ (b.nextUnit s c.name).name
  · exact .inr ⟨hnew, makeUnit_fresh hc hroom hnew⟩
  · refine .inl ?_
    rw [makeUnit, Run.outcome_bind, outcome_freshName hroom]
    dsimp only
    rw [Run.outcome_bind]
    rcases addMethod_cases i (⟨s, c.name, unitName s.isCall (b.counter s.isCall)⟩ : SharedUnit).method
      (b.counted s.isCall) with ⟨f, hf⟩ | ⟨d, hd, hok⟩
    · rw [hf]
      exact ⟨f, rfl⟩
    · -- a method that was added has a new name
      obtain ⟨d', d'', hd', hadd, -⟩ := addMethod_ok hok
      obtain rfl : d' = c := Option.some.inj (hd'.symm.trans (getElem?_units_counted hc s.isCall))
      refine absurd (fun m hm he => (add_ok hadd).2 ?_) hnew
      exact List.mem_map.2 ⟨m, hm, he⟩

theorem keepsNumbers_sharedUnit (i : Nat) (s : Shape) : Run.Moves KeepsNumbers (sharedUnit i s) := by
  intro b hb
  have hu := outcome_unit i b
  rw [sharedUnit_eq, Run.outcome_bind]
  rcases hrun : (unit i).outcome b with ⟨r, b₁⟩
  rw [hrun] at hu
  obtain rfl : b₁ = b := hu.1
  cases r with
  | error f => exact hb
  | ok c =>
    dsimp only
    split
    · exact hb
    · rw [Run.outcome_bind, Run.outcome_get]
      dsimp only
      cases hf : b₁.findShared s with
      | some u => exact hb
      | none =>
        dsimp only
        split
        · exact hb
        · by_cases hroom : b₁.Room s.isCall
          · rcases makeUnit_cases ((hu.2 c).1 rfl) hroom with ⟨f, hfail⟩ | ⟨-, hmade⟩
            · rw [hfail]
              exact hb.counted hroom
            · rw [hmade]
              exact hb.withUnit i c hf hroom
          · rw [makeUnit_full hroom]
            exact hb

theorem keepsNumbers_lowerSite (i : Nat) (census : Census) (index : Nat) (s : Site) :
    Run.Moves KeepsNumbers (lowerSite i census index s) := by
  rw [lowerSite_eq]
  refine Run.Moves.bind ?_ .trans fun shared => (keepsNumbers_unit i).bind .trans fun c => ?_
  · refine (Run.moves_get .refl).bind .trans fun b => ?_
    split
    · exact (keepsNumbers_sharedUnit i s.shape).map some
    · exact Run.moves_pure .refl none
  · split
    · exact Run.moves_fail .refl _
    · exact (keepsNumbers_addMethod i _).bind .trans fun _ => Run.moves_pure .refl _

theorem keepsNumbers_lower (i : Nat) (sites : List Site) : Run.Moves KeepsNumbers (lower i sites) :=
  moves_lower .refl .trans fun census k s _ _ => keepsNumbers_lowerSite i census k s

theorem numbered_after (name : String) (t : Thresholds) (requests : List Request) :
    Numbered ((new name t).after requests) := by
  have hstep : ∀ (b : ModuleBuilder) (r : Request), KeepsNumbers b (r.apply b) := by
    intro b r
    cases r with
    | openClass cls => exact fun hb => ⟨hb.shapes, hb.names⟩
    | addMethod i m => exact keepsNumbers_addMethod i m b
    | sharedUnit i s => exact keepsNumbers_sharedUnit i s b
    | lower i sites => exact keepsNumbers_lower i sites b
  have hrun : ∀ (rs : List Request) (b : ModuleBuilder), KeepsNumbers b (b.after rs) := by
    intro rs
    induction rs with
    | nil => exact KeepsNumbers.refl
    | cons r rs ih => exact fun b => (hstep b r).trans (ih (r.apply b))
  exact hrun requests _ (canonical_new name t).toNumbered

end ModuleBuilder
end ScriptHost
