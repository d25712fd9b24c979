import ScriptHost.Adapter.NameHash

/-!
# What the class name hash keeps apart

Every step of the hash can be undone: the multiplier is odd, and the rotation at the end loses no bit. So two states
stay apart whatever is fed to both (`feedOverrides_inj`), and a text that is fed to one state is told by its word
(`feedText_word`). What is lost is lost in folding a text to one word (`bytesWord`), and in words of which a later one
makes up for an earlier. `digest` is the state that all of a class ends in, which its hash gives whole
(`adapterHash_inj`).
-/

namespace ScriptHost.NameHash

variable {h h' : State}

/-! ## Steps -/

theorem mul_multiplier_inj {x y : UInt64} (heq : x * 0xf1357aea2e62a9c5 = y * 0xf1357aea2e62a9c5) : x = y := by
  have hunit : (0xf1357aea2e62a9c5 : UInt64) * 0x781494a55daaed0d = 1 := by decide
  have hback := congrArg (· * (0x781494a55daaed0d : UInt64)) heq
  simpa only [UInt64.mul_assoc, hunit, UInt64.mul_one] using hback

theorem step_inj {word : UInt64} : step h word = step h' word ↔ h = h' := by
  refine ⟨fun heq => ?_, fun heq => by rw [heq]⟩
  exact (UInt64.add_left_inj word).1 (mul_multiplier_inj heq)

theorem step_word_inj {word word' : UInt64} : step h word = step h word' ↔ word = word' := by
  refine ⟨fun heq => ?_, fun heq => by rw [heq]⟩
  exact (UInt64.add_right_inj h).1 (mul_multiplier_inj heq)

theorem getLsbD_result (h : State) (i : Nat) : (result h).toBitVec.getLsbD i =
    ((decide (i < 64) && !decide (i < 26)) && h.toBitVec.getLsbD (i - 26) || h.toBitVec.getLsbD (38 + i)) := by
  simp [result, UInt64.toBitVec_or, UInt64.toBitVec_shiftLeft, UInt64.toBitVec_shiftRight]

theorem result_inj : result h = result h' ↔ h = h' := by
  refine ⟨fun heq => UInt64.toBitVec_inj.1 (BitVec.eq_of_getLsbD_eq fun i hi => ?_), fun heq => by rw [heq]⟩
  have hbits : ∀ j, (result h).toBitVec.getLsbD j = (result h').toBitVec.getLsbD j := fun j => by rw [heq]
  by_cases hlow : i < 38
  · -- the low bits went up by 26
    have hbit := hbits (i + 26)
    rw [getLsbD_result, getLsbD_result] at hbit
    have hout : ∀ s : State, s.toBitVec.getLsbD (38 + (i + 26)) = false := fun s =>
      BitVec.getLsbD_of_ge _ _ (by omega)
    simpa [hout, show i + 26 < 64 by omega, show ¬i + 26 < 26 by omega] using hbit
  · -- and the high ones came down by 38
    have hbit := hbits (i - 38)
    rw [getLsbD_result, getLsbD_result] at hbit
    simpa [show i - 38 < 26 by omega, show 38 + (i - 38) = i by omega] using hbit

/-! ## What is fed -/

theorem feedText_inj {s : String} : feedText h s = feedText h' s ↔ h = h' := by
  simp only [feedText, step_inj]

theorem feedText_word {s s' : String} :
    feedText h s = feedText h s' ↔ bytesWord (Text.toBytes s) = bytesWord (Text.toBytes s') := by
  simp only [feedText, step_inj, step_word_inj]

theorem feedNat_inj {n : Nat} : feedNat h n = feedNat h' n ↔ h = h' := step_inj

/-- A row that is fed after two states keeps them apart, where each of its items does. -/
theorem foldl_inj {α : Type} (feed : State → α → State) (hfeed : ∀ a h h', feed h a = feed h' a → h = h')
    (xs : List α) (heq : xs.foldl feed h = xs.foldl feed h') : h = h' := by
  induction xs generalizing h h' with
  | nil => exact heq
  | cons x xs ih => exact hfeed x h h' (ih heq)

theorem feedSignature_inj {s : Signature} (heq : feedSignature h s = feedSignature h' s) : h = h' := by
  have hparams := foldl_inj feedTy (fun _ _ _ => feedNat_inj.1) s.params heq
  exact feedNat_inj.1 (feedNat_inj.1 hparams)

variable {target : HostType}

theorem feedOverride_eq (target : HostType) (h : State) (name : String) : feedOverride target h name =
    ((target.method? name).map HostMethod.signature).elim (feedText h name) (feedSignature (feedText h name)) := by
  unfold feedOverride
  cases target.method? name <;> rfl

theorem feedOverride_inj {name : String} (heq : feedOverride target h name = feedOverride target h' name) : h = h' := by
  rw [feedOverride_eq, feedOverride_eq] at heq
  cases hm : (target.method? name).map HostMethod.signature <;> rw [hm] at heq
  · exact feedText_inj.1 heq
  · exact feedText_inj.1 (feedSignature_inj heq)

/-- Names that are fed last keep apart what came before them. -/
theorem feedOverrides_inj {names : List String} :
    names.foldl (feedOverride target) h = names.foldl (feedOverride target) h' ↔ h = h' :=
  ⟨foldl_inj (feedOverride target) (fun _ _ _ => feedOverride_inj) names, fun heq => by rw [heq]⟩

theorem feedOverride_word {a b : String}
    (hsame : (target.method? a).map HostMethod.signature = (target.method? b).map HostMethod.signature) :
    feedOverride target h a = feedOverride target h b ↔
      bytesWord (Text.toBytes a) = bytesWord (Text.toBytes b) := by
  rw [← feedText_word (h := h), feedOverride_eq, feedOverride_eq, hsame]
  cases (target.method? b).map HostMethod.signature with
  | none => exact Iff.rfl
  | some s => exact ⟨feedSignature_inj, fun heq => congrArg (feedSignature · s) heq⟩

/-! ## Whole classes -/

/-- The state after the target, the class level and the overrides of a class. -/
def digest (target : HostType) (overrides : List String) (classLevel : Bool) : State :=
  overrides.foldl (feedOverride target)
    (feedNat (feedNat (feedText 0 target.name) (kindNumber target.kind)) (if classLevel then 1 else 0))

variable {overrides overrides' p p' q : List String} {classLevel classLevel' : Bool}

theorem adapterHash_inj : adapterHash target overrides classLevel = adapterHash target overrides' classLevel' ↔
    digest target overrides classLevel = digest target overrides' classLevel' := result_inj

theorem digest_classLevel : digest target overrides classLevel = digest target overrides classLevel' ↔
    classLevel = classLevel' := by
  unfold digest
  rw [feedOverrides_inj]
  refine step_word_inj.trans ?_
  cases classLevel <;> cases classLevel' <;> decide

theorem digest_append : digest target (p ++ q) classLevel = digest target (p' ++ q) classLevel' ↔
    digest target p classLevel = digest target p' classLevel' := by
  unfold digest
  rw [List.foldl_append, List.foldl_append, feedOverrides_inj]

theorem digest_rename {a b : String}
    (hsame : (target.method? a).map HostMethod.signature = (target.method? b).map HostMethod.signature) :
    digest target (p ++ a :: q) classLevel = digest target (p ++ b :: q) classLevel ↔
      bytesWord (Text.toBytes a) = bytesWord (Text.toBytes b) := by
  rw [List.append_cons, List.append_cons p b q, digest_append]
  unfold digest
  rw [List.foldl_append, List.foldl_append]
  exact feedOverride_word hsame

end ScriptHost.NameHash
