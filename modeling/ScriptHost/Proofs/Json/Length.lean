import ScriptHost.Json.Value
import ScriptHost.Proofs.Json.Text

/-!
# Lengths of read texts

A text takes no more bytes where it is written than where it was read: each byte is escaped as briefly as it can be
(`scan_length`, `bodyLength_le_of_join`), so what is read of a string and written again fits where the string stood
(`readText_length`). Values that are skipped end further on (`skip_length`). And where no member of an object adds more
to a state than its own bytes, the whole object does not (`readObject_length`).
-/

namespace ScriptHost.Json

open Text

/-! ## Characters -/

/-- How many bytes a byte of a text takes inside the quotes. -/
def writtenLength (b : UInt8) : Nat :=
  if b = 0x22 ∨ b = 0x5c ∨ b = 8 ∨ b = 9 ∨ b = 10 ∨ b = 12 ∨ b = 13 then 2 else if b < 0x20 then 6 else 1

def bodyLength : List UInt8 → Nat
  | [] => 0
  | b :: bs => writtenLength b + bodyLength bs

theorem bodyLength_append (bs bs' : List UInt8) : bodyLength (bs ++ bs') = bodyLength bs + bodyLength bs' := by
  induction bs with
  | nil => simp [bodyLength]
  | cons b bs ih => rw [List.cons_append, bodyLength, bodyLength, ih, Nat.add_assoc]

theorem writtenLength_self {b : UInt8} (hq : b ≠ 0x22) (hb : b ≠ 0x5c) (hc : ¬b < 0x20) : writtenLength b = 1 := by
  have hcontrol : ∀ k : UInt8, k < 0x20 → b ≠ k := by
    rintro k hk rfl
    exact hc hk
  rw [writtenLength, if_neg, if_neg hc]
  simp [hq, hb, hcontrol]

theorem writtenLength_le (b : UInt8) : writtenLength b ≤ 6 := by
  rw [writtenLength]
  split
  · omega
  · split <;> omega

theorem bodyLength_high {bs : List UInt8} (h : ∀ b ∈ bs, 0x80 ≤ b.toNat) : bodyLength bs = bs.length := by
  induction bs with
  | nil => rfl
  | cons b bs ih =>
    obtain ⟨hq, hb, hc⟩ : b ≠ 0x22 ∧ b ≠ 0x5c ∧ ¬b < 0x20 := by
      have hhigh := h b (List.mem_cons_self ..)
      exact plain_byte (by omega) (by omega) (by omega)
    rw [bodyLength, writtenLength_self hq hb hc, ih fun b' hb' => h b' (List.mem_cons_of_mem _ hb'),
      List.length_cons, Nat.add_comm]

theorem bodyLength_char_le (c : Char) : bodyLength (String.utf8EncodeChar c) ≤ 6 := by
  by_cases hc : c.toNat < 0x80
  · rw [utf8EncodeChar_of_lt hc]
    exact writtenLength_le _
  · rw [bodyLength_high fun b => le_of_mem_utf8EncodeChar (Nat.le_of_not_lt hc), String.length_utf8EncodeChar]
    exact Nat.le_trans (Char.utf8Size_le_four c) (by decide)

theorem length_escape_ascii : ∀ n < 0x80,
    (toBytes (escape (Char.ofNat n))).length = writtenLength (UInt8.ofNat n) := by
  decide +kernel

theorem escape_high {c : Char} (hc : 0x80 ≤ c.toNat) : escape c = c.toString := by
  have hne : ∀ d : Char, d.toNat < 0x80 → c ≠ d := by
    rintro d hd rfl
    omega
  have hcontrol : ¬c.toNat < 0x20 := by omega
  rw [escape, if_neg (hne _ (by decide)), if_neg (hne _ (by decide)), if_neg (hne _ (by decide)),
    if_neg (hne _ (by decide)), if_neg (hne _ (by decide)), if_neg (hne _ (by decide)), if_neg (hne _ (by decide)),
    if_neg hcontrol]

theorem length_escape (c : Char) : (toBytes (escape c)).length = bodyLength (String.utf8EncodeChar c) := by
  by_cases hc : c.toNat < 0x80
  · have hascii := length_escape_ascii c.toNat hc
    rw [Char.ofNat_toNat] at hascii
    rw [utf8EncodeChar_of_lt hc, hascii]
    simp [bodyLength]
  · have hhigh := Nat.le_of_not_lt hc
    rw [escape_high hhigh, toBytes_eq_flatMap, bodyLength_high fun b => le_of_mem_utf8EncodeChar hhigh]
    simp

theorem length_body (s : String) : (body s.toList).length = bodyLength (toBytes s) := by
  rw [toBytes_eq_flatMap, body]
  induction s.toList with
  | nil => rfl
  | cons c cs ih => rw [List.flatMap_cons, List.flatMap_cons, List.length_append, bodyLength_append, ih, length_escape]

theorem length_write (s : String) : (toBytes (write s)).length = (body s.toList).length + 2 := by
  simp [toBytes_write]

/-! ## Strings -/

/-- How many bytes are read for some pieces, at least. -/
def piecesLength : List Piece → Nat
  | [] => 0
  | .byte b :: ps => writtenLength b + piecesLength ps
  | .unit _ :: ps => 6 + piecesLength ps

theorem writtenLength_of_shortEscape? {e b : UInt8} (h : shortEscape? e = some b) : writtenLength b ≤ 2 := by
  rw [shortEscape?] at h
  split_ifs at h with hself
  · cases h
    rcases hself with rfl | rfl | rfl <;> decide
  all_goals
    cases h
    decide

/-- Pieces stand for no more than was read for them. -/
theorem scan_length {bs : List UInt8} {ps : List Piece} {rest : List UInt8} (h : scan bs = some (ps, rest)) :
    piecesLength ps + 1 + rest.length ≤ bs.length := by
  fun_induction scan bs generalizing ps rest with
  | case1 | case3 | case5 | case8 => cases h
  | case2 r =>
    cases h
    simp [piecesLength, Nat.add_comm]
  | case4 b r hq hc hb ih =>
    obtain ⟨⟨qs, t⟩, hscan, hpair⟩ := Option.map_eq_some_iff.1 h
    cases hpair
    have hrest := ih hscan
    have hself := writtenLength_self hq hb hc
    simp only [piecesLength, List.length_cons]
    omega
  | case6 b hq hc hb e r he ih =>
    obtain ⟨b', hshort, hmap⟩ := Option.bind_eq_some_iff.1 h
    obtain ⟨⟨qs, t⟩, hscan, hpair⟩ := Option.map_eq_some_iff.1 hmap
    cases hpair
    have hrest := ih hscan
    have htwo := writtenLength_of_shortEscape? hshort
    simp only [piecesLength, List.length_cons]
    omega
  | case7 b hq hc hb e he h₁ h₂ h₃ h₄ r ih =>
    obtain ⟨n, -, hmap⟩ := Option.bind_eq_some_iff.1 h
    obtain ⟨⟨qs, t⟩, hscan, hpair⟩ := Option.map_eq_some_iff.1 hmap
    cases hpair
    have hrest := ih hscan
    simp only [piecesLength, List.length_cons]
    omega

theorem bodyLength_le_of_join {ps : List Piece} {out : List UInt8} (h : join ps = some out) :
    bodyLength out ≤ piecesLength ps := by
  fun_induction join ps generalizing out with
  | case1 =>
    cases h
    exact Nat.le_refl 0
  | case2 b ps ih =>
    obtain ⟨bs, hjoin, rfl⟩ := Option.map_eq_some_iff.1 h
    have hrest := ih hjoin
    simp only [bodyLength, piecesLength]
    omega
  | case3 n hn m ps hm ih =>
    obtain ⟨bs, hjoin, rfl⟩ := Option.map_eq_some_iff.1 h
    have hrest := ih hjoin
    have hpair := bodyLength_char_le (Char.ofNat (0x10000 + (n - 0xd800) * 0x400 + (m - 0xdc00)))
    simp only [bodyLength_append, piecesLength]
    omega
  | case4 | case5 | case6 => cases h
  | case7 n ps hn hn' ih =>
    obtain ⟨bs, hjoin, rfl⟩ := Option.map_eq_some_iff.1 h
    have hrest := ih hjoin
    have hunit := bodyLength_char_le (Char.ofNat n)
    simp only [bodyLength_append, piecesLength]
    omega

theorem readText_length {bs rest : List UInt8} {s : String} (h : readText bs = some (s, rest)) :
    (toBytes (write s)).length + rest.length ≤ bs.length + 1 := by
  obtain ⟨⟨ps, t⟩, hscan, h⟩ := Option.bind_eq_some_iff.1 h
  obtain ⟨out, hjoin, h⟩ := Option.bind_eq_some_iff.1 h
  obtain ⟨s', hs, h⟩ := Option.bind_eq_some_iff.1 h
  cases h
  have hread := scan_length hscan
  have hstands := bodyLength_le_of_join hjoin
  rw [length_write, length_body, toBytes_of_ofBytes? hs]
  omega

/-! ## Values that are skipped -/

theorem skipBlank_length (bs : List UInt8) : (skipBlank bs).length ≤ bs.length :=
  (List.dropWhile_suffix isBlankByte).length_le

theorem exists_of_skipBlank {α : Type} {bs : List UInt8} {f : UInt8 → List UInt8 → Option α} {x : α}
    (h : (match skipBlank bs with | [] => none | b :: r => f b r) = some x) :
    ∃ b r, r.length < bs.length ∧ f b r = some x := by
  have hle := skipBlank_length bs
  split at h
  · cases h
  · next b r hb =>
    rw [hb] at hle
    exact ⟨b, r, hle, h⟩

theorem skipDigits_length {bs r : List UInt8} (h : skipDigits bs = some r) : r.length ≤ bs.length := by
  cases bs with
  | nil => cases h
  | cons b t =>
    rw [skipDigits] at h
    split at h
    · cases h
      exact Nat.le_succ_of_le (List.dropWhile_suffix isDigitByte).length_le
    · cases h

theorem skipExponent_length {bs r : List UInt8} (h : skipExponent bs = some r) : r.length ≤ bs.length := by
  rcases bs with _ | ⟨e, _ | ⟨s, t⟩⟩
  · cases h
    exact Nat.le_refl 0
  · rw [skipExponent] at h
    split at h
    · cases h
    · cases h
      exact Nat.le_refl _
  · rw [skipExponent] at h
    split_ifs at h
    · have hdigits := skipDigits_length h
      simp only [List.length_cons]
      omega
    · exact Nat.le_succ_of_le (skipDigits_length h)
    · cases h
      exact Nat.le_refl _

def skipInteger : List UInt8 → Option (List UInt8)
  | [] => none
  | b :: r =>
    if b = 0x30 then
      match r with
      | d :: _ => if isDigitByte d then none else some r
      | [] => some r
    else skipDigits (b :: r)

/-- What is left of a number behind these. -/
def skipFraction : List UInt8 → Option (List UInt8)
  | [] => some []
  | p :: r => if p = 0x2e then (skipDigits r).bind skipExponent else skipExponent (p :: r)

theorem bind_skipFraction (o : Option (List UInt8)) :
    o.bind skipFraction = o.bind fun rest => match rest with
      | p :: r => if p = 0x2e then (skipDigits r).bind skipExponent else skipExponent rest
      | [] => some [] := by
  congr 1
  funext rest
  cases rest <;> rfl

theorem skipUnsigned_eq (bs : List UInt8) : skipUnsigned bs = (skipInteger bs).bind skipFraction := by
  rw [bind_skipFraction]
  rcases bs with _ | ⟨b, _ | ⟨d, t⟩⟩
  · rfl
  all_goals
    rw [skipUnsigned.eq_def, skipInteger]
    dsimp only
    split_ifs <;> rfl

theorem skipInteger_length {bs r : List UInt8} (h : skipInteger bs = some r) : r.length ≤ bs.length := by
  rcases bs with _ | ⟨b, _ | ⟨d, t⟩⟩
  · cases h
  · rw [skipInteger] at h
    split at h
    · cases h
      exact Nat.le_succ _
    · exact skipDigits_length h
  · rw [skipInteger] at h
    split_ifs at h
    · cases h
      exact Nat.le_succ _
    · exact skipDigits_length h

theorem skipFraction_length {bs r : List UInt8} (h : skipFraction bs = some r) : r.length ≤ bs.length := by
  cases bs with
  | nil =>
    cases h
    exact Nat.le_refl 0
  | cons p t =>
    rw [skipFraction] at h
    split at h
    · obtain ⟨t', ht', h⟩ := Option.bind_eq_some_iff.1 h
      exact Nat.le_succ_of_le (Nat.le_trans (skipExponent_length h) (skipDigits_length ht'))
    · exact skipExponent_length h

theorem skipUnsigned_length {bs r : List UInt8} (h : skipUnsigned bs = some r) : r.length ≤ bs.length := by
  rw [skipUnsigned_eq] at h
  obtain ⟨t, ht, h⟩ := Option.bind_eq_some_iff.1 h
  exact Nat.le_trans (skipFraction_length h) (skipInteger_length ht)

theorem expect_length {word bs r : List UInt8} (h : expect word bs = some r) :
    r.length + word.length = bs.length := by
  rw [expect] at h
  split at h
  · next hword =>
    cases h
    have hle := (List.isPrefixOf_iff_prefix.1 hword).length_le
    rw [List.length_drop]
    omega
  · cases h

theorem skip_length (n : Nat) :
    (∀ bs r, skipValue n bs = some r → r.length ≤ bs.length) ∧
      (∀ bs r, skipItems n bs = some r → r.length ≤ bs.length) ∧
      ∀ bs r, skipMembers n bs = some r → r.length ≤ bs.length := by
  induction n with
  | zero =>
    refine ⟨fun bs r h => ?_, fun bs r h => ?_, fun bs r h => ?_⟩
    · rw [skipValue] at h
      cases h
    · rw [skipItems] at h
      cases h
    · rw [skipMembers] at h
      cases h
  | succ n ih =>
    obtain ⟨hvalue, hitems, hmembers⟩ := ih
    refine ⟨fun bs r h => ?_, fun bs r h => ?_, fun bs r h => ?_⟩
    · rw [skipValue] at h
      obtain ⟨b, t, hlt, h⟩ := exists_of_skipBlank h
      split_ifs at h
      · have hword := expect_length h
        omega
      · have hword := expect_length h
        omega
      · have hword := expect_length h
        omega
      · obtain ⟨⟨ps, t'⟩, hscan, rfl⟩ := Option.map_eq_some_iff.1 h
        have hstring := scan_length hscan
        dsimp only
        omega
      · have hnumber := skipUnsigned_length h
        omega
      · obtain ⟨c, t', hlt', h⟩ := exists_of_skipBlank h
        split at h
        · cases h
          omega
        · have hrest := hitems _ _ h
          rw [List.length_cons] at hrest
          omega
      · obtain ⟨c, t', hlt', h⟩ := exists_of_skipBlank h
        split at h
        · cases h
          omega
        · have hrest := hmembers _ _ h
          rw [List.length_cons] at hrest
          omega
      · have hnumber := skipUnsigned_length h
        rw [List.length_cons] at hnumber
        omega
    · rw [skipItems] at h
      split at h
      · cases h
      · next t ht =>
        have hitem := hvalue _ _ ht
        obtain ⟨c, t', hlt, h⟩ := exists_of_skipBlank h
        split_ifs at h
        · have hrest := hitems _ _ h
          omega
        · cases h
          omega
    · rw [skipMembers] at h
      obtain ⟨q, t, hlt, h⟩ := exists_of_skipBlank h
      split_ifs at h
      split at h
      · cases h
      · next ps t₁ hscan =>
        have hname := scan_length hscan
        obtain ⟨c, t₂, hlt₂, h⟩ := exists_of_skipBlank h
        split_ifs at h
        split at h
        · cases h
        · next t₃ ht₃ =>
          have hmember := hvalue _ _ ht₃
          obtain ⟨c, t₄, hlt₄, h⟩ := exists_of_skipBlank h
          split_ifs at h
          · have hrest := hmembers _ _ h
            omega
          · cases h
            omega

/-! ## Members -/

section

variable {σ : Type} {step : σ → String → List UInt8 → Option (σ × List UInt8)} (size : σ → Nat)

/-- If a member adds no more to the size of a state than its bytes, its colon and the byte behind it, then members
from the next one on add no more than theirs. -/
theorem readMembers_length (hstep : ∀ s name bs s' r, step s name bs = some (s', r) →
      size s' + r.length ≤ size s + (toBytes (write name)).length + 2 + bs.length)
    {n : Nat} {s s' : σ} {bs r : List UInt8} (h : readMembers step n s bs = some (s', r)) :
    size s' + r.length ≤ size s + bs.length := by
  induction n generalizing s bs with
  | zero => cases h
  | succ n ih =>
    rw [readMembers] at h
    obtain ⟨q, t, hlt, h⟩ := exists_of_skipBlank h
    split_ifs at h
    obtain ⟨⟨name, t₁⟩, hname, h⟩ := Option.bind_eq_some_iff.1 h
    have htext := readText_length hname
    obtain ⟨c, t₂, hlt₂, h⟩ := exists_of_skipBlank h
    split_ifs at h
    obtain ⟨⟨s₁, t₃⟩, hmember, h⟩ := Option.bind_eq_some_iff.1 h
    have hadds := hstep _ _ _ _ _ hmember
    have hblank := skipBlank_length t₂
    obtain ⟨c, t₄, hlt₄, h⟩ := exists_of_skipBlank h
    split_ifs at h
    · have hrest := ih h
      omega
    · cases h
      omega

theorem readObject_length (hstep : ∀ s name bs s' r, step s name bs = some (s', r) →
      size s' + r.length ≤ size s + (toBytes (write name)).length + 2 + bs.length)
    {s s' : σ} {bs r : List UInt8} (h : readObject step s bs = some (s', r)) :
    size s' + r.length ≤ size s + bs.length := by
  rw [readObject] at h
  obtain ⟨c, t, hlt, h⟩ := exists_of_skipBlank h
  split at h
  · cases h
    omega
  · have hmembers := readMembers_length size hstep h
    rw [List.length_cons] at hmembers
    omega

end

end ScriptHost.Json
