import Mathlib.Tactic.SplitIfs
import ScriptHost.Json.Text
import ScriptHost.Proofs.Text.Bytes

/-!
# Reading written JSON strings

A character is written as itself, as a short escape, or as a unit of four hexadecimal digits. Bytes that
stand inside the quotes are read as other bytes (`Reads`) wherever they stand, so a written text is read
character by character (`reads_escape`), and comes back as itself, whatever follows its closing quote
(`readText_body`).
-/

namespace ScriptHost.Json

open Text

/-! ## Forms of a character -/

/-- The bytes, inside the quotes, stand for `out`. -/
def Reads (bs out : List UInt8) : Prop :=
  ∃ ps, (∀ r, scan (bs ++ r) = (scan r).map fun (qs, t) => (ps ++ qs, t)) ∧
    ∀ qs, join (ps ++ qs) = (join qs).map (out ++ ·)

theorem Reads.nil : Reads [] [] := by
  refine ⟨[], fun r => ?_, fun qs => ?_⟩
  · simp
  · simp

theorem Reads.append {bs bs' out out' : List UInt8} (h : Reads bs out) (h' : Reads bs' out') :
    Reads (bs ++ bs') (out ++ out') := by
  obtain ⟨ps, hscan, hjoin⟩ := h
  obtain ⟨ps', hscan', hjoin'⟩ := h'
  refine ⟨ps ++ ps', fun r => ?_, fun qs => ?_⟩
  · rw [List.append_assoc, hscan, hscan', Option.map_map]
    simp [Function.comp_def]
  · rw [List.append_assoc, hjoin, hjoin', Option.map_map]
    simp [Function.comp_def]

theorem plain_byte {b : UInt8} (hc : 0x20 ≤ b.toNat) (hq : b.toNat ≠ 0x22) (hb : b.toNat ≠ 0x5c) :
    b ≠ 0x22 ∧ b ≠ 0x5c ∧ ¬b < 0x20 := by
  refine ⟨?_, ?_, ?_⟩
  · rintro rfl
    exact hq rfl
  · rintro rfl
    exact hb rfl
  · rw [UInt8.lt_iff_toNat_lt]
    exact Nat.not_lt.2 hc

theorem Reads.byte {b : UInt8} (hq : b ≠ 0x22) (hb : b ≠ 0x5c) (hc : ¬b < 0x20) : Reads [b] [b] := by
  refine ⟨[.byte b], fun r => ?_, fun qs => rfl⟩
  rw [List.singleton_append, scan.eq_def]
  simp only [if_neg hq, if_neg hc, if_pos hb]
  rfl

theorem Reads.bytes {bs : List UInt8} (h : ∀ b ∈ bs, b ≠ 0x22 ∧ b ≠ 0x5c ∧ ¬b < 0x20) : Reads bs bs := by
  induction bs with
  | nil => exact Reads.nil
  | cons b bs ih =>
    obtain ⟨hq, hb, hc⟩ := h b (List.mem_cons_self ..)
    exact (Reads.byte hq hb hc).append (ih fun b' hb' => h b' (List.mem_cons_of_mem _ hb'))

theorem Reads.short {e b : UInt8} (he : e ≠ 0x75) (h : shortEscape? e = some b) : Reads [0x5c, e] [b] := by
  refine ⟨[.byte b], fun r => ?_, fun qs => rfl⟩
  show scan (0x5c :: e :: r) = _
  rw [scan.eq_def]
  simp [he, h]

theorem Reads.unit {h₁ h₂ h₃ h₄ : UInt8} {n : Nat} (h : hexUnit? h₁ h₂ h₃ h₄ = some n) (hn : n < 0xd800) :
    Reads [0x5c, 0x75, h₁, h₂, h₃, h₄] (String.utf8EncodeChar (Char.ofNat n)) := by
  refine ⟨[.unit n], fun r => ?_, fun qs => ?_⟩
  · show scan (0x5c :: 0x75 :: h₁ :: h₂ :: h₃ :: h₄ :: r) = _
    rw [scan.eq_def]
    simp [h]
  · have hhigh : isHighSurrogate n = false := by simp [isHighSurrogate]; omega
    have hlow : isLowSurrogate n = false := by simp [isLowSurrogate]; omega
    rw [List.singleton_append, join.eq_def]
    simp [hhigh, hlow]

/-! ## Written texts -/

def hexByte (n : Nat) : UInt8 := if n < 10 then UInt8.ofNat (0x30 + n) else UInt8.ofNat (0x57 + n)

theorem toBytes_hexPadded : ∀ n < 0x20,
    toBytes (hexPadded 4 n) = [0x30, 0x30, hexByte (n / 16), hexByte (n % 16)] ∧
      hexUnit? 0x30 0x30 (hexByte (n / 16)) (hexByte (n % 16)) = some n := by
  decide

theorem reads_control {c : Char} (hc : c.toNat < 0x20) :
    Reads (toBytes ("\\u" ++ hexPadded 4 c.toNat)) (String.utf8EncodeChar c) := by
  obtain ⟨hbytes, hunit⟩ := toBytes_hexPadded c.toNat hc
  have hu : toBytes "\\u" = [0x5c, 0x75] := by decide
  have hread := Reads.unit hunit (by omega)
  rw [toBytes_append, hu, hbytes]
  rwa [Char.ofNat_toNat] at hread

theorem reads_plain {c : Char} (hq : c ≠ '"') (hb : c ≠ '\\') (hc : ¬c.toNat < 0x20) :
    Reads (toBytes c.toString) (String.utf8EncodeChar c) := by
  have hbytes : toBytes c.toString = String.utf8EncodeChar c := by
    rw [toBytes_eq_flatMap]
    simp
  rw [hbytes]
  refine Reads.bytes fun b hmem => ?_
  by_cases hlt : c.toNat < 0x80
  · rw [utf8EncodeChar_of_lt hlt] at hmem
    obtain rfl := List.mem_singleton.1 hmem
    have hval : (UInt8.ofNat c.toNat).toNat = c.toNat :=
      UInt8.toNat_ofNat_of_lt' (Nat.lt_trans hlt (by decide))
    refine plain_byte (by omega) ?_ ?_
    · rw [hval]
      exact fun h => hq (Char.toNat_inj.1 h)
    · rw [hval]
      exact fun h => hb (Char.toNat_inj.1 h)
  · have hle := le_of_mem_utf8EncodeChar (Nat.le_of_not_lt hlt) hmem
    exact plain_byte (by omega) (by omega) (by omega)

theorem reads_escape (c : Char) : Reads (toBytes (escape c)) (String.utf8EncodeChar c) := by
  rw [escape]
  split_ifs with hq hb h₁ h₂ h₃ h₄ h₅ hc
  iterate 7
    · subst c
      exact Reads.short (by decide) (by decide)
  · exact reads_control hc
  · exact reads_plain hq hb hc

/-- Bytes between the quotes of a written text. -/
def body (cs : List Char) : List UInt8 := cs.flatMap fun c => toBytes (escape c)

theorem toBytes_write (s : String) : toBytes (write s) = 0x22 :: (body s.toList ++ [0x22]) := by
  have hquote : toBytes "\"" = [0x22] := by decide
  rw [write, toBytes_append, toBytes_append, toBytes_join, hquote, List.flatMap_map]
  rfl

theorem reads_body (cs : List Char) : Reads (body cs) (cs.flatMap String.utf8EncodeChar) := by
  induction cs with
  | nil => exact Reads.nil
  | cons c cs ih => exact (reads_escape c).append ih

/-- A written text reads back, from behind its opening quote. -/
theorem readText_body (s : String) (r : List UInt8) : readText (body s.toList ++ 0x22 :: r) = some (s, r) := by
  obtain ⟨ps, hscan, hjoin⟩ := reads_body s.toList
  have hend : scan (0x22 :: r) = some ([], r) := by rw [scan.eq_def]; simp
  have hall := hjoin []
  rw [readText, hscan, hend]
  simp only [join, Option.map_some, List.append_nil] at hall ⊢
  simp [hall, ← toBytes_eq_flatMap]

end ScriptHost.Json
