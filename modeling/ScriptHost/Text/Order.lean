/-!
# Order of texts

Texts are ordered by their code points, character by character, and a text stands before those that
continue it. Names are listed in this order wherever an order is promised.
-/

namespace ScriptHost.Text

def precedes : List Char → List Char → Bool
  | _, [] => false
  | [], _ :: _ => true
  | a :: as, b :: bs =>
    if a.toNat < b.toNat then true
    else if b.toNat < a.toNat then false
    else precedes as bs

theorem precedes_irrefl (as : List Char) : precedes as as = false := by
  induction as with
  | nil => rfl
  | cons a as ih => simp [precedes, ih]

theorem precedes_trans {as bs cs : List Char} (h₁ : precedes as bs = true) (h₂ : precedes bs cs = true) :
    precedes as cs = true := by
  induction bs generalizing as cs with
  | nil => cases as <;> simp [precedes] at h₁
  | cons b bs ih =>
    cases cs with
    | nil => simp [precedes] at h₂
    | cons c cs =>
      cases as with
      | nil => rfl
      | cons a as =>
        simp only [precedes] at h₁ h₂ ⊢
        split at h₁ <;> split at h₂
        · rw [if_pos (by omega)]
        · split at h₂
          · cases h₂
          · rw [if_pos (by omega)]
        · split at h₁
          · cases h₁
          · rw [if_pos (by omega)]
        · split at h₁
          · cases h₁
          · split at h₂
            · cases h₂
            · rw [if_neg (by omega), if_neg (by omega)]
              exact ih h₁ h₂

theorem eq_of_not_precedes {as bs : List Char} (h₁ : precedes as bs = false) (h₂ : precedes bs as = false) :
    as = bs := by
  induction as generalizing bs with
  | nil =>
    cases bs with
    | nil => rfl
    | cons b bs => simp [precedes] at h₁
  | cons a as ih =>
    cases bs with
    | nil => simp [precedes] at h₂
    | cons b bs =>
      by_cases hab : a.toNat < b.toNat
      · simp [precedes, hab] at h₁
      · by_cases hba : b.toNat < a.toNat
        · simp [precedes, hba] at h₂
        · simp only [precedes, hab, hba, if_false] at h₁ h₂
          have h : a = b := Char.toNat_inj.1 (by omega)
          rw [h, ih h₁ h₂]

/-- Whether a text stands before another. -/
def before (a b : String) : Bool := precedes a.toList b.toList

theorem before_irrefl (a : String) : before a a = false := precedes_irrefl a.toList

theorem before_trans {a b c : String} (h₁ : before a b = true) (h₂ : before b c = true) :
    before a c = true := precedes_trans h₁ h₂

theorem eq_of_not_before {a b : String} (h₁ : before a b = false) (h₂ : before b a = false) : a = b :=
  String.toList_inj.1 (eq_of_not_precedes h₁ h₂)

/-- Texts in ascending order; equal ones are kept. -/
def sort (xs : List String) : List String := xs.mergeSort fun a b => !before b a

/-- Whether a row of names stands before another, name by name. -/
def rowBefore : List String → List String → Bool
  | _, [] => false
  | [], _ :: _ => true
  | a :: as, b :: bs => if a = b then rowBefore as bs else before a b

end ScriptHost.Text
