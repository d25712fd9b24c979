import ScriptHost.Text.Quoted

/-!
# Numbered names

A name that ends in a number tells the number, in decimal (`append_toString_inj`) or padded hexadecimal
(`hexPadded_inj`), and begins as it would without one.
-/

namespace ScriptHost.Text

theorem append_toString_inj {p : String} {n k : Nat} (h : p ++ toString n = p ++ toString k) : n = k := by
  have hdigits : Nat.toDigits 10 n = Nat.toDigits 10 k := by
    have hlist := congrArg String.toList h
    rw [String.toList_append, String.toList_append] at hlist
    have htail := List.append_cancel_left hlist
    rwa [Nat.toString_eq_ofList_toDigits, Nat.toString_eq_ofList_toDigits, String.toList_ofList,
      String.toList_ofList] at htail
  rw [← Nat.ofDigitChars_ten_toDigits (n := n), hdigits, Nat.ofDigitChars_ten_toDigits]

theorem getElem?_append {p q : String} {i : Nat} {c : Char} (h : p.toList[i]? = some c) :
    (p ++ q).toList[i]? = some c := by
  rw [String.toList_append, List.getElem?_append_left (List.getElem?_eq_some_iff.1 h).1, h]

/-! ## Hexadecimal -/

def hexValue (c : Char) : Nat := if c.toNat < 58 then c.toNat - 48 else c.toNat - 87

/-- The number that a row of hexadecimal digits stands for, after some more. -/
def hexNumber (n : Nat) (cs : List Char) : Nat := cs.foldl (fun n c => 16 * n + hexValue c) n

theorem hexValue_digitChar : ∀ d < 16, hexValue (Nat.digitChar d) = d := by decide

theorem hexNumber_toDigits (n : Nat) : hexNumber 0 (Nat.toDigits 16 n) = n := by
  induction n using Nat.strongRecOn with
  | ind n ih =>
    by_cases hn : n < 16
    · rw [Nat.toDigits_of_lt_base hn]
      show 16 * 0 + hexValue (Nat.digitChar n) = n
      rw [hexValue_digitChar n hn, Nat.mul_zero, Nat.zero_add]
    · have hlast : n % 16 < 16 := Nat.mod_lt n (by decide)
      rw [Nat.toDigits_of_base_le (by decide) (by omega), hexNumber, List.foldl_append]
      show 16 * hexNumber 0 (Nat.toDigits 16 (n / 16)) + hexValue (Nat.digitChar (n % 16)) = n
      rw [ih (n / 16) (by omega), hexValue_digitChar _ hlast]
      omega

theorem exists_of_mem_toDigits {c : Char} {n : Nat} (h : c ∈ Nat.toDigits 16 n) : ∃ d < 16, c = Nat.digitChar d := by
  induction n using Nat.strongRecOn with
  | ind n ih =>
    by_cases hn : n < 16
    · rw [Nat.toDigits_of_lt_base hn, List.mem_singleton] at h
      exact ⟨n, hn, h⟩
    · rw [Nat.toDigits_of_base_le (by decide) (Nat.le_of_not_lt hn), List.mem_append, List.mem_singleton] at h
      rcases h with h | h
      · exact ih (n / 16) (by omega) h
      · exact ⟨n % 16, Nat.mod_lt n (by decide), h⟩

theorem hexNumber_zeros (k : Nat) : hexNumber 0 (List.replicate k '0') = 0 := by
  induction k with
  | zero => rfl
  | succ k ih => exact ih

theorem hexPadded_inj {width n k : Nat} (h : hexPadded width n = hexPadded width k) : n = k := by
  have hread : ∀ m, hexNumber 0 (hexPadded width m).toList = m := by
    intro m
    unfold hexPadded
    rw [String.toList_ofList, hexNumber, List.foldl_append]
    show hexNumber (hexNumber 0 (List.replicate _ '0')) (Nat.toDigits 16 m) = m
    rw [hexNumber_zeros, hexNumber_toDigits]
  rw [← hread n, h, hread k]

end ScriptHost.Text
