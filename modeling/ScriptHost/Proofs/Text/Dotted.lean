import ScriptHost.Proofs.Text.Numbered
import ScriptHost.Text.Dotted

/-!
# Packages of dotted names

A name that is put together from a package, a dot and a text without dots has that package. Simple names and
hexadecimal numbers are such texts.
-/

namespace ScriptHost.Text

theorem splitLastDot_eq_none {cs : List Char} : splitLastDot cs = none ↔ '.' ∉ cs := by
  induction cs with
  | nil => simp [splitLastDot]
  | cons c cs ih =>
    rw [splitLastDot, List.mem_cons, not_or, ← ih]
    cases splitLastDot cs with
    | some p => simp
    | none => simp [eq_comm]

theorem splitLastDot_append (before : List Char) {after : List Char} (h : '.' ∉ after) :
    splitLastDot (before ++ '.' :: after) = some (before, after) := by
  induction before with
  | nil =>
    rw [List.nil_append, splitLastDot, splitLastDot_eq_none.2 h]
    rfl
  | cons c cs ih => rw [List.cons_append, splitLastDot, ih]

theorem dot_notMem_after {cs before after : List Char} (h : splitLastDot cs = some (before, after)) :
    '.' ∉ after := by
  induction cs generalizing before with
  | nil => cases h
  | cons c cs ih =>
    rw [splitLastDot] at h
    cases hs : splitLastDot cs with
    | some p =>
      rw [hs] at h
      cases h
      exact ih hs
    | none =>
      rw [hs] at h
      dsimp only at h
      split at h
      · cases h
        exact splitLastDot_eq_none.1 hs
      · cases h

theorem packageOf_append (package : String) {rest : String} (h : '.' ∉ rest.toList) :
    packageOf (package ++ "." ++ rest) = package := by
  have hlist : (package ++ "." ++ rest).toList = package.toList ++ '.' :: rest.toList := by
    simp [String.toList_append]
  rw [packageOf, hlist, splitLastDot_append _ h]
  exact String.ofList_toList

theorem dot_notMem_simpleName (name : String) : '.' ∉ (simpleName name).toList := by
  rw [simpleName]
  cases hs : splitLastDot name.toList with
  | some p =>
    rw [String.toList_ofList]
    exact dot_notMem_after hs
  | none => exact splitLastDot_eq_none.1 hs

theorem dot_ne_digitChar {n : Nat} (h : n < 16) : '.' ≠ n.digitChar := by
  revert n
  decide

theorem dot_notMem_toDigits (n : Nat) : '.' ∉ Nat.toDigits 16 n := by
  intro h
  obtain ⟨d, hd, hdot⟩ := exists_of_mem_toDigits h
  exact dot_ne_digitChar hd hdot

theorem dot_notMem_hexPadded (width n : Nat) : '.' ∉ (hexPadded width n).toList := by
  rw [hexPadded, String.toList_ofList, List.mem_append, not_or]
  exact ⟨fun h => absurd (List.eq_of_mem_replicate h) (by decide), dot_notMem_toDigits n⟩

end ScriptHost.Text
