import ScriptHost.Text.Bytes

/-!
# Bytes of texts, character by character

The bytes of a text are those of its characters, one after another. A character below `0x80` is one byte
of its own number; the bytes of any other are all above that. No character begins with the bytes of another, so
a text begins with the bytes of another just where it begins with its characters (`toBytes_prefix_iff`).
-/

namespace ScriptHost.Text

theorem toBytes_eq_flatMap (s : String) : toBytes s = s.toList.flatMap String.utf8EncodeChar := by
  rw [toBytes, ← String.utf8Encode_toList]
  simp [List.utf8Encode]

@[simp] theorem toBytes_append (s t : String) : toBytes (s ++ t) = toBytes s ++ toBytes t := by
  rw [toBytes_eq_flatMap, toBytes_eq_flatMap, toBytes_eq_flatMap, String.toList_append, List.flatMap_append]

theorem toBytes_join (ss : List String) : toBytes (String.join ss) = ss.flatMap toBytes := by
  induction ss with
  | nil => rfl
  | cons s ss ih => rw [String.join_cons, toBytes_append, ih, List.flatMap_cons]

theorem utf8EncodeChar_of_lt {c : Char} (hc : c.toNat < 0x80) :
    String.utf8EncodeChar c = [UInt8.ofNat c.toNat] := by
  have hv : c.val.toNat ≤ 0x7f := Nat.le_of_lt_succ hc
  simp only [String.utf8EncodeChar, if_pos hv]
  rfl

theorem le_toNat_ofNat {n k : Nat} (hk : 0x80 ≤ k) (h : n + k < 0x100) : 0x80 ≤ (UInt8.ofNat (n + k)).toNat := by
  rw [UInt8.toNat_ofNat_of_lt' h]
  omega

theorem le_of_mem_utf8EncodeChar {c : Char} (hc : 0x80 ≤ c.toNat) {b : UInt8}
    (hb : b ∈ String.utf8EncodeChar c) : 0x80 ≤ b.toNat := by
  have hv : ¬c.val.toNat ≤ 0x7f := Nat.not_le.2 hc
  simp only [String.utf8EncodeChar, if_neg hv] at hb
  split at hb
  · simp only [List.mem_cons, List.not_mem_nil, or_false] at hb
    rcases hb with rfl | rfl
    all_goals exact le_toNat_ofNat (by decide) (by omega)
  · split at hb
    · simp only [List.mem_cons, List.not_mem_nil, or_false] at hb
      rcases hb with rfl | rfl | rfl
      all_goals exact le_toNat_ofNat (by decide) (by omega)
    · simp only [List.mem_cons, List.not_mem_nil, or_false] at hb
      rcases hb with rfl | rfl | rfl | rfl
      all_goals exact le_toNat_ofNat (by decide) (by omega)

/-! ## Texts that begin with others -/

theorem utf8EncodeChar_append_inj {a b : Char} {as bs : List UInt8}
    (h : String.utf8EncodeChar a ++ as = String.utf8EncodeChar b ++ bs) : a = b ∧ as = bs := by
  have hdecode : ∀ (c : Char) (rest : List UInt8),
      (String.utf8EncodeChar c ++ rest).toByteArray.utf8DecodeChar? 0 = some c := by
    intro c rest
    rw [List.toByteArray_append, ByteArray.utf8DecodeChar?_utf8EncodeChar_append]
  have hab : some a = some b := by rw [← hdecode a as, h, hdecode b bs]
  obtain rfl := Option.some.inj hab
  exact ⟨rfl, List.append_cancel_left h⟩

theorem flatMap_utf8EncodeChar_prefix {cs ds : List Char} :
    cs.flatMap String.utf8EncodeChar <+: ds.flatMap String.utf8EncodeChar ↔ cs <+: ds := by
  constructor
  · intro h
    induction cs generalizing ds with
    | nil => exact List.nil_prefix
    | cons c cs ih =>
      obtain ⟨rest, hrest⟩ := h
      rw [List.flatMap_cons, List.append_assoc] at hrest
      cases ds with
      | nil => exact absurd (List.append_eq_nil_iff.1 hrest).1 String.utf8EncodeChar_ne_nil
      | cons d ds =>
        rw [List.flatMap_cons] at hrest
        obtain ⟨rfl, htail⟩ := utf8EncodeChar_append_inj hrest
        exact List.cons_prefix_cons.2 ⟨rfl, ih ⟨rest, htail⟩⟩
  · rintro ⟨rest, rfl⟩
    rw [List.flatMap_append]
    exact List.prefix_append ..

theorem toBytes_prefix_iff {s t : String} : toBytes s <+: toBytes t ↔ s.toList <+: t.toList := by
  rw [toBytes_eq_flatMap, toBytes_eq_flatMap, flatMap_utf8EncodeChar_prefix]

end ScriptHost.Text
