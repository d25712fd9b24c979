import ScriptHost.Engine.Linker
import ScriptHost.Proofs.Binary64.Nearest

/-!
# What a held assumption keeps of an integer

A value that fits the assumed type is converted to it. Where the type is an integer type this keeps an integer. A
number has 53 significant bits, so a long that has more is rounded, though it counts as fitting and the assumption as
held (`held_exact_iff`).
-/

namespace ScriptHost

namespace Val

/-- The integer that a value of an integer kind is. -/
def integer? : Val → Option Int
  | .int a => some a.toInt
  | .long a => some a.toInt
  | _ => none

def Denotes : Val → Int → Prop
  | .int a, i => a.toInt = i
  | .long a, i => a.toInt = i
  | .number x, i => x.Denotes i
  | _, _ => False

instance : (v : Val) → (i : Int) → Decidable (v.Denotes i)
  | .int a, i => inferInstanceAs (Decidable (a.toInt = i))
  | .long a, i => inferInstanceAs (Decidable (a.toInt = i))
  | .number x, i => inferInstanceAs (Decidable (x.Denotes i))
  | .undefined, _ | .bool _, _ | .str _, _ | .object _, _ | .function _, _ => inferInstanceAs (Decidable False)

end Val

/-- What an integer becomes as a numeric type. -/
def Ty.rounded (ty : Ty) (i : Int) : Int := if ty = .number then Binary64.nearest i else i

namespace Val

variable {v w : Val} {i j : Int} {ty : Ty}

theorem natAbs_lt_of_integer? (hv : v.integer? = some i) : i.natAbs < 2 ^ 64 := by
  cases v with
  | int a =>
    cases hv
    have hlow := a.le_toInt
    have hhigh := a.toInt_lt
    omega
  | long a =>
    cases hv
    have hlow := a.le_toInt
    have hhigh := a.toInt_lt
    omega
  | _ => cases hv

theorem coerce_cases (hty : ty ∈ [Ty.int, .long, .number]) (hv : v.integer? = some i) (hfits : v.fits ty = true) :
    (ty = .int ∧ ∃ a, v.coerce ty = .int a ∧ a.toInt = i) ∨
    (ty = .long ∧ ∃ a, v.coerce ty = .long a ∧ a.toInt = i) ∨
    (ty = .number ∧ v.coerce ty = .number (.ofInt i)) := by
  cases v with
  | int a =>
    cases hv
    cases ty with
    | int => exact .inl ⟨rfl, a, rfl, rfl⟩
    | long => exact .inr (.inl ⟨rfl, a.toInt64, rfl, a.toInt_toInt64⟩)
    | number => exact .inr (.inr ⟨rfl, rfl⟩)
    | _ => simp at hty
  | long a =>
    cases hv
    cases ty with
    | long => exact .inr (.inl ⟨rfl, a, rfl, rfl⟩)
    | number => exact .inr (.inr ⟨rfl, rfl⟩)
    | int => cases hfits
    | _ => simp at hty
  | _ => cases hv

theorem denotes_coerce (hty : ty ∈ [Ty.int, .long, .number]) (hv : v.integer? = some i) (hfits : v.fits ty = true) :
    (v.coerce ty).Denotes (ty.rounded i) := by
  rcases coerce_cases hty hv hfits with ⟨rfl, a, ha, hi⟩ | ⟨rfl, a, ha, hi⟩ | ⟨rfl, ha⟩ <;> rw [ha]
  · exact hi
  · exact hi
  · exact Binary64.denotes_ofInt (natAbs_lt_of_integer? hv)

theorem rounded_eq_iff : ty.rounded i = i ↔ (ty = .number → Binary64.Representable i) := by
  unfold Ty.rounded
  split
  · next h => rw [Binary64.nearest_eq_iff, imp_iff_right h]
  · next h => exact iff_of_true rfl fun h' => absurd h' h

theorem Denotes.unique (hi : v.Denotes i) (hj : v.Denotes j) : i = j := by
  cases v with
  | int a => exact hi.symm.trans hj
  | long a => exact hi.symm.trans hj
  | number x => exact Binary64.Denotes.unique hi hj
  | _ => exact hi.elim

theorem same_coerce_iff (hty : ty ∈ [Ty.int, .long, .number]) (hv : v.integer? = some i) (hw : w.integer? = some j)
    (hvfits : v.fits ty = true) (hwfits : w.fits ty = true) :
    (v.coerce ty).same (w.coerce ty) = true ↔ ty.rounded i = ty.rounded j := by
  have hi := denotes_coerce hty hv hvfits
  have hj := denotes_coerce hty hw hwfits
  rcases coerce_cases hty hv hvfits with ⟨rfl, a, ha, -⟩ | ⟨rfl, a, ha, -⟩ | ⟨rfl, ha⟩ <;>
    rcases coerce_cases hty hw hwfits with ⟨h, b, hb, -⟩ | ⟨h, b, hb, -⟩ | ⟨h, hb⟩ <;>
      cases h <;> rw [ha] at hi ⊢ <;> rw [hb] at hj ⊢
  · rw [← hi, ← hj, same, beq_iff_eq, Int32.toInt_inj]
  · rw [← hi, ← hj, same, beq_iff_eq, Int64.toInt_inj]
  · exact Binary64.Denotes.eq_iff hi hj

end Val

/-- Under an assumption, an operation holds just the values that fit, converted to the type. -/
theorem Speculation.check_eq_held_iff {v u : Val} {ty : Ty} {flags : SiteFlags} (hflags : flags.isOptimistic = true) :
    Speculation.check v ty flags = .held u ↔ v.fits ty = true ∧ u = v.coerce ty := by
  rw [check, hflags, Bool.not_true, Bool.false_or]
  split
  · next h => simp [h, eq_comm]
  · next h => simp [h]

/-- Integers `v` and `w`, as an int or a long each, and a numeric type. An assumption of the type holds for those that
fit, with the value converted to the type. That value is the integer, if the type is an integer type, and otherwise the
nearest that has 53 significant bits. It is equal to the one that was read just where that has no more bits than these,
as up to `2 ^ 53`, and the values of two integers are equal just where they are rounded to one. -/
theorem held_exact_iff {v w : Val} {i j : Int} {ty : Ty} (hty : ty ∈ [Ty.int, .long, .number])
    (hv : v.integer? = some i) (hw : w.integer? = some j) :
    (∀ flags : SiteFlags, flags.isOptimistic = true → ∀ u,
      Speculation.check v ty flags = .held u ↔ v.fits ty = true ∧ u = v.coerce ty) ∧
    (v.fits ty = true → (v.coerce ty).Denotes (ty.rounded i) ∧
      ((v.coerce ty).Denotes i ↔ (ty = .number → Binary64.Representable i)) ∧
      (i.natAbs ≤ 2 ^ 53 → (v.coerce ty).Denotes i)) ∧
    (v.fits ty = true → w.fits ty = true →
      ((v.coerce ty).same (w.coerce ty) = true ↔ ty.rounded i = ty.rounded j)) := by
  refine ⟨fun flags hflags u => Speculation.check_eq_held_iff hflags, fun hfits => ?_, Val.same_coerce_iff hty hv hw⟩
  have hdenotes := Val.denotes_coerce hty hv hfits
  have hexact : (v.coerce ty).Denotes i ↔ (ty = .number → Binary64.Representable i) := by
    rw [← Val.rounded_eq_iff]
    exact ⟨fun hi => hdenotes.unique hi, fun h => h ▸ hdenotes⟩
  exact ⟨hdenotes, hexact, fun hi => hexact.2 fun _ => Binary64.representable_of_le hi⟩

/-- Two longs above `2 ^ 53`: the even one is kept, the odd one is rounded away from it. -/
theorem held_exact_iff_neighbours :
    Ty.number ∈ [Ty.int, .long, .number] ∧
    (Val.long 9007199254740994).integer? = some 9007199254740994 ∧
    (Val.long 9007199254740993).integer? = some 9007199254740993 ∧
    (Val.long 9007199254740994).fits .number = true ∧ (Val.long 9007199254740993).fits .number = true ∧
    ((Val.long 9007199254740994).coerce .number).Denotes 9007199254740994 ∧
    ((Val.long 9007199254740994).coerce .number).same ((Val.long 9007199254740993).coerce .number) = false := by
  have hrepresentable : Binary64.Representable 9007199254740994 := ⟨4503599627370497, 1, by decide, by decide⟩
  obtain ⟨-, hexact, hsame⟩ := @held_exact_iff (.long 9007199254740994) (.long 9007199254740993) 9007199254740994
    9007199254740993 .number (by decide) rfl rfl
  refine ⟨by decide, rfl, rfl, rfl, rfl, (hexact rfl).2.1.2 fun _ => hrepresentable, ?_⟩
  rw [Bool.eq_false_iff, Ne, hsame rfl rfl]
  decide +kernel

/-- The long `2 ^ 53 + 1` fits a number, and the assumption holds with `2 ^ 53`, which another long is too. -/
theorem held_inexact :
    (Val.long 9007199254740993).fits .number = true ∧
    Speculation.check (.long 9007199254740993) .number .optimistic = .held (.number ⟨0x4340000000000000⟩) ∧
    ¬(Val.number ⟨0x4340000000000000⟩).Denotes 9007199254740993 ∧
    (Val.number ⟨0x4340000000000000⟩).Denotes 9007199254740992 ∧
    (Val.long 9007199254740992).fits .number = true ∧
    ((Val.long 9007199254740993).coerce .number).same ((Val.long 9007199254740992).coerce .number) = true := by
  decide +kernel

end ScriptHost
