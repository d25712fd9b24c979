import ScriptHost.Proofs.Adapter.AnnotationText
import ScriptHost.Proofs.Json.Length

/-!
# Lengths of annotations

Annotations that were read take at most 32 bytes more where they are written (`length_write_le`): the names of the two
members and what stands around them. All else was read in no fewer bytes, as each pair of tags stands for bytes of its
own, and a pair takes the place of an earlier one of its name.
-/

namespace ScriptHost.Annotations

open Json Text

/-! ## Tags -/

def pairsLength : List (String × String) → Nat
  | [] => 0
  | p :: ps => (toBytes (Json.write p.1)).length + (toBytes (Json.write p.2)).length + 2 + pairsLength ps

theorem pairsLength_empty : pairsLength Tags.empty.pairs = 0 := rfl

theorem pairsLength_insertPair_le (k v : String) (ps : List (String × String)) : pairsLength (insertPair k v ps) ≤
    pairsLength ps + (toBytes (Json.write k)).length + (toBytes (Json.write v)).length + 2 := by
  induction ps with
  | nil =>
    simp only [insertPair, pairsLength]
    omega
  | cons q ps ih =>
    obtain ⟨k', v'⟩ := q
    rw [insertPair]
    split_ifs
    all_goals
      simp only [pairsLength]
      omega

theorem length_tagBytes (p : String × String) (ps : List (String × String)) :
    (tagBytes (p :: ps)).length + 1 = pairsLength (p :: ps) := by
  induction ps generalizing p with
  | nil =>
    rw [tagBytes_singleton, nameBytes_eq]
    simp only [List.length_append, List.length_cons, List.length_nil, pairsLength]
    omega
  | cons q ps ih =>
    have hrest := ih q
    rw [tagBytes_cons_cons, pairsLength, nameBytes_eq]
    simp only [List.length_append, List.length_cons, List.length_nil]
    omega

theorem length_writeTags_le (ps : List (String × String)) :
    (toBytes (writeTags ps)).length ≤ pairsLength ps + 2 := by
  have hopen : toBytes "\x7b" = [0x7b] := by decide
  have hclose : toBytes "\x7d" = [0x7d] := by decide
  have hbytes : toBytes (writeTags ps) = 0x7b :: (tagBytes ps ++ [0x7d]) := by
    simp [writeTags, tagBytes, hopen, hclose]
  rw [hbytes, List.length_cons, List.length_append]
  cases ps with
  | nil => decide
  | cons p ps =>
    have hpairs := length_tagBytes p ps
    simp only [List.length_cons, List.length_nil]
    omega

theorem readText_length {bs r : List UInt8} {s : String} (h : readText bs = some (s, r)) :
    (toBytes (Json.write s)).length + r.length ≤ bs.length := by
  cases bs with
  | nil => cases h
  | cons q t =>
    rw [readText] at h
    split at h
    · have htext := Json.readText_length h
      rw [List.length_cons]
      omega
    · cases h

theorem readTag_length {t t' : Tags} {name : String} {bs r : List UInt8} (h : readTag t name bs = some (t', r)) :
    pairsLength t'.pairs + r.length ≤
      pairsLength t.pairs + (toBytes (Json.write name)).length + 2 + bs.length := by
  obtain ⟨⟨v, r'⟩, htext, hpair⟩ := Option.map_eq_some_iff.1 h
  cases hpair
  have hvalue := readText_length htext
  have hinsert := pairsLength_insertPair_le name v t.pairs
  show pairsLength (insertPair name v t.pairs) + _ ≤ _
  omega

theorem readTags_length {bs r : List UInt8} {t : Tags} (h : readTags bs = some (t, r)) :
    pairsLength t.pairs + r.length + 1 ≤ bs.length := by
  cases bs with
  | nil => cases h
  | cons b bs =>
    rw [readTags] at h
    split at h
    · have hobject := readObject_length (fun t : Tags => pairsLength t.pairs)
        (fun t name bs t' r hread => readTag_length hread) h
      have hempty := pairsLength_empty
      rw [List.length_cons]
      omega
    · cases h

/-! ## Members -/

theorem readDomain_length {bs r : List UInt8} {d : Option String} (h : readDomain bs = some (d, r)) :
    (domainBytes d).length + r.length ≤ bs.length := by
  cases bs with
  | nil => cases h
  | cons n t =>
    rw [readDomain] at h
    split at h
    · obtain ⟨r', hword, hpair⟩ := Option.map_eq_some_iff.1 h
      cases hpair
      have hnull := expect_length hword
      simp only [domainBytes, ull, List.length_cons, List.length_nil] at hnull ⊢
      omega
    · obtain ⟨⟨s, r'⟩, htext, hpair⟩ := Option.map_eq_some_iff.1 h
      cases hpair
      exact readText_length htext

def Members.size (m : Members) : Nat :=
  (m.domain.elim 0 fun d => (domainBytes d).length) + m.tags.elim 0 fun t => pairsLength t.pairs

theorem readMember_length {m m' : Members} {name : String} {bs r : List UInt8}
    (h : readMember m name bs = some (m', r)) :
    m'.size + r.length ≤ m.size + (toBytes (Json.write name)).length + 2 + bs.length := by
  rw [readMember] at h
  split at h
  · split at h
    · cases h
    · next hdomain =>
      obtain ⟨⟨d, r'⟩, hread, hpair⟩ := Option.map_eq_some_iff.1 h
      cases hpair
      have hlen := readDomain_length hread
      rw [Bool.not_eq_true, Option.isSome_eq_false_iff, Option.isNone_iff_eq_none] at hdomain
      simp only [Members.size, hdomain, Option.elim_some, Option.elim_none]
      omega
  · split at h
    · split at h
      · cases h
      · next htags =>
        obtain ⟨⟨t, r'⟩, hread, hpair⟩ := Option.map_eq_some_iff.1 h
        cases hpair
        have hlen := readTags_length hread
        rw [Bool.not_eq_true, Option.isSome_eq_false_iff, Option.isNone_iff_eq_none] at htags
        simp only [Members.size, htags, Option.elim_some, Option.elim_none]
        omega
    · obtain ⟨r', hskip, hpair⟩ := Option.map_eq_some_iff.1 h
      cases hpair
      have hlen := (skip_length _).1 _ _ hskip
      omega

/-! ## Annotations -/

/-- How many bytes annotations take but for names and braces. -/
def size (a : Annotations) : Nat := (domainBytes a.targetDomain).length + pairsLength a.tags.pairs

theorem size_ofMembers_le (m : Members) : (ofMembers m).size ≤ m.size + 4 := by
  obtain ⟨domain, tags⟩ := m
  have hnone : (domainBytes none).length = 4 := rfl
  have hempty := pairsLength_empty
  cases domain <;> cases tags
  all_goals
    simp only [size, ofMembers, Members.size, Option.getD_none, Option.getD_some, Option.elim_none, Option.elim_some]
    omega

theorem readRow_length {bs r : List UInt8} {a : Annotations} (h : readRow bs = some (a, r)) : a.size ≤ bs.length := by
  rw [readRow] at h
  obtain ⟨⟨d, t⟩, hdomain, h⟩ := Option.bind_eq_some_iff.1 h
  have hlen := readDomain_length hdomain
  have hblank := skipBlank_length bs
  obtain ⟨c, t', hlt, h⟩ := exists_of_skipBlank h
  split_ifs at h
  · cases h
    have hempty := pairsLength_empty
    simp only [size]
    omega
  · obtain ⟨⟨tags, t₂⟩, htags, h⟩ := Option.bind_eq_some_iff.1 h
    have hpairs := readTags_length htags
    have hblank' := skipBlank_length t'
    obtain ⟨c, t₃, hlt', h⟩ := exists_of_skipBlank h
    split_ifs at h
    cases h
    simp only [size]
    omega

theorem size_of_read? {bs : List UInt8} {a : Annotations} (h : read? bs = some a) : a.size ≤ bs.length + 4 := by
  rw [read?] at h
  obtain ⟨b, t, hlt, h⟩ := exists_of_skipBlank h
  split_ifs at h
  · obtain ⟨⟨a', rest⟩, hread, h⟩ := Option.bind_eq_some_iff.1 h
    obtain ⟨⟨m, r⟩, hobject, hpair⟩ := Option.map_eq_some_iff.1 hread
    dsimp only at h
    split at h
    · cases h
      cases hpair
      have hmembers := readObject_length Members.size (fun m name bs m' r hread => readMember_length hread) hobject
      have hmissing := size_ofMembers_le m
      have hnone : Members.size {} = 0 := rfl
      omega
    · cases h
  · obtain ⟨⟨a', rest⟩, hread, h⟩ := Option.bind_eq_some_iff.1 h
    dsimp only at h
    split at h
    · cases h
      have hrow := readRow_length hread
      omega
    · cases h
  · cases h

theorem length_write_le_size (a : Annotations) : (toBytes a.write).length ≤ a.size + 28 := by
  have hdomain : (nameBytes "target_domain").length = 16 := by decide +kernel
  have htags : (nameBytes "tags").length = 7 := by decide +kernel
  have hpairs := length_writeTags_le a.tags.pairs
  simp only [toBytes_annotations, size, List.length_cons, List.length_append, hdomain, htags, List.length_nil]
  omega

/-- What was read takes at most 32 bytes more where it is written. -/
theorem length_write_le {bs : List UInt8} {a : Annotations} (h : read? bs = some a) :
    (toBytes a.write).length ≤ bs.length + 32 := by
  have hread := size_of_read? h
  have hwritten := length_write_le_size a
  omega

end ScriptHost.Annotations
