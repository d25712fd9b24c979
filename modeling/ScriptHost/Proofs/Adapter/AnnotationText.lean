import ScriptHost.Adapter.ClassFile.AnnotationText
import ScriptHost.Proofs.Json.Text

/-!
# Reading written annotations

Written annotations are an object of two members, and tags are an object of their own. Reading takes the
members one by one (`readMembers_more`, `readMembers_last`). Tags are inserted in the ascending order in
which they were written, so each goes to the end and the tags come back as they were (`Tags.pairs_foldl_insert`).
-/

namespace ScriptHost

open Text

/-! ## Objects -/

namespace Json

theorem skipBlank_cons {b : UInt8} (hb : isBlankByte b = false) (r : List UInt8) : skipBlank (b :: r) = b :: r := by
  rw [skipBlank, List.dropWhile_cons_of_neg (by simp [hb])]

/-- A written text and a colon, as they stand before the value of a member. -/
def nameBytes (name : String) : List UInt8 := 0x22 :: (body name.toList ++ [0x22, 0x3a])

theorem nameBytes_eq (name : String) : nameBytes name = toBytes (write name) ++ [0x3a] := by
  simp [nameBytes, toBytes_write]

theorem length_nameBytes (name : String) : 3 ≤ (nameBytes name).length := by
  simp [nameBytes]

section

variable {σ : Type} {step : σ → String → List UInt8 → Option (σ × List UInt8)} {s s' : σ} {name : String}
  {value r : List UInt8}

theorem readMembers_name (n : Nat) {c : UInt8} (hc : isBlankByte c = false)
    (h : step s name (skipBlank value) = some (s', c :: r)) :
    readMembers step (n + 1) s (nameBytes name ++ value) =
      if c = 0x2c then readMembers step n s' r else if c = 0x7d then some (s', r) else none := by
  have hname : nameBytes name ++ value = 0x22 :: (body name.toList ++ 0x22 :: 0x3a :: value) := by
    simp [nameBytes]
  rw [hname, readMembers, skipBlank_cons (by decide)]
  simp only [ne_eq, not_true_eq_false, if_false, readText_body, Option.bind_eq_bind, Option.bind_some]
  rw [skipBlank_cons (by decide)]
  simp only [not_true_eq_false, if_false, h, Option.bind_some]
  rw [skipBlank_cons hc]

theorem readObject_name : readObject step s (nameBytes name ++ value) =
    readMembers step (nameBytes name ++ value).length s (nameBytes name ++ value) := by
  rw [readObject, nameBytes, List.cons_append, skipBlank_cons (by decide)]
  exact if_neg (by decide)

theorem readMembers_more (n : Nat) (h : step s name (skipBlank value) = some (s', 0x2c :: r)) :
    readMembers step (n + 1) s (nameBytes name ++ value) = readMembers step n s' r := by
  rw [readMembers_name n (by decide) h, if_pos rfl]

theorem readMembers_last (n : Nat) (h : step s name (skipBlank value) = some (s', 0x7d :: r)) :
    readMembers step (n + 1) s (nameBytes name ++ value) = some (s', r) := by
  rw [readMembers_name n (by decide) h, if_neg (by decide), if_pos rfl]

end

end Json

/-! ## Tags -/

theorem before_asymm {a b : String} (h : before a b = true) : before b a = false := by
  cases h' : before b a with
  | false => rfl
  | true =>
    have hself := before_trans h h'
    rw [before_irrefl] at hself
    cases hself

theorem insertPair_last {k v : String} {ps : List (String × String)} (h : ∀ p ∈ ps, before p.1 k = true) :
    insertPair k v ps = ps ++ [(k, v)] := by
  induction ps with
  | nil => rfl
  | cons p ps ih =>
    obtain ⟨k', v'⟩ := p
    have hlt : before k' k = true := h (k', v') (List.mem_cons_self ..)
    rw [insertPair, before_asymm hlt, if_neg (by simp), if_pos hlt,
      ih fun p hp => h p (List.mem_cons_of_mem _ hp)]
    rfl

theorem Tags.ext {t t' : Tags} (h : t.pairs = t'.pairs) : t = t' := by
  cases t
  cases t'
  cases h
  rfl

theorem Tags.pairs_foldl_insert (ps : List (String × String)) (t : Tags) (h : KeysAscend (t.pairs ++ ps)) :
    (ps.foldl (fun t p => t.insert p.1 p.2) t).pairs = t.pairs ++ ps := by
  induction ps generalizing t with
  | nil => simp
  | cons p ps ih =>
    have hlast : (t.insert p.1 p.2).pairs = t.pairs ++ [p] :=
      insertPair_last fun q hq => (List.pairwise_append.1 h).2.2 q hq p (List.mem_cons_self ..)
    have happend : (t.insert p.1 p.2).pairs ++ ps = t.pairs ++ p :: ps := by
      rw [hlast, List.append_assoc, List.singleton_append]
    rw [List.foldl_cons, ih (t.insert p.1 p.2) (by rw [happend]; exact h), happend]

theorem Tags.ofList_pairs (t : Tags) : Tags.ofList t.pairs = t :=
  Tags.ext (pairs_foldl_insert t.pairs .empty t.ascend)

namespace Annotations

open Json

theorem readText_write (s : String) (r : List UInt8) : readText (toBytes (Json.write s) ++ r) = some (s, r) := by
  have hbytes : toBytes (Json.write s) ++ r = 0x22 :: (body s.toList ++ 0x22 :: r) := by
    simp [toBytes_write]
  rw [hbytes, readText, if_pos rfl, readText_body]

theorem skipBlank_write (s : String) (r : List UInt8) :
    skipBlank (toBytes (Json.write s) ++ r) = toBytes (Json.write s) ++ r := by
  rw [toBytes_write, List.cons_append, skipBlank_cons (by decide)]

def tagBytes (ps : List (String × String)) : List UInt8 :=
  toBytes (",".intercalate (ps.map fun p => Json.write p.1 ++ ":" ++ Json.write p.2))

theorem tagBytes_singleton (p : String × String) :
    tagBytes [p] = nameBytes p.1 ++ toBytes (Json.write p.2) := by
  have hcolon : toBytes ":" = [0x3a] := by decide
  simp [tagBytes, nameBytes_eq, hcolon]

theorem tagBytes_cons_cons (p q : String × String) (ps : List (String × String)) :
    tagBytes (p :: q :: ps) = nameBytes p.1 ++ toBytes (Json.write p.2) ++ 0x2c :: tagBytes (q :: ps) := by
  have hcolon : toBytes ":" = [0x3a] := by decide
  have hcomma : toBytes "," = [0x2c] := by decide
  simp [tagBytes, nameBytes_eq, hcolon, hcomma]

theorem readMembers_tagBytes (ps : List (String × String)) (p : String × String) (t : Tags) (r : List UInt8)
    {n : Nat} (hn : ps.length < n) :
    readMembers readTag n t (tagBytes (p :: ps) ++ 0x7d :: r) =
      some ((p :: ps).foldl (fun t p => t.insert p.1 p.2) t, r) := by
  -- on what follows the first member, as only the last one is closed by a brace
  induction ps generalizing p t n with
  | nil =>
    obtain ⟨n, rfl⟩ : ∃ k, n = k + 1 := ⟨n - 1, by omega⟩
    rw [tagBytes_singleton, List.append_assoc]
    refine readMembers_last n ?_
    rw [skipBlank_write, readTag, readText_write]
    rfl
  | cons q ps ih =>
    obtain ⟨n, rfl⟩ : ∃ k, n = k + 1 := ⟨n - 1, by omega⟩
    have hstep : readTag t p.1 (skipBlank (toBytes (Json.write p.2) ++ 0x2c :: (tagBytes (q :: ps) ++ 0x7d :: r))) =
        some (t.insert p.1 p.2, 0x2c :: (tagBytes (q :: ps) ++ 0x7d :: r)) := by
      rw [skipBlank_write, readTag, readText_write]
      rfl
    rw [tagBytes_cons_cons, List.append_assoc, List.append_assoc, List.cons_append, readMembers_more n hstep,
      ih q (t.insert p.1 p.2) (Nat.lt_of_succ_lt_succ hn)]
    rfl

theorem length_le_tagBytes (p : String × String) (ps : List (String × String)) :
    ps.length < (tagBytes (p :: ps)).length := by
  induction ps generalizing p with
  | nil => simp [tagBytes_singleton, nameBytes]
  | cons q ps ih =>
    have h := ih q
    rw [tagBytes_cons_cons, List.length_append, List.length_cons, List.length_cons]
    omega

theorem readTags_write (t : Tags) (r : List UInt8) :
    readTags (toBytes (writeTags t.pairs) ++ r) = some (t, r) := by
  have hopen : toBytes "\x7b" = [0x7b] := by decide
  have hclose : toBytes "\x7d" = [0x7d] := by decide
  have hbytes : toBytes (writeTags t.pairs) ++ r = 0x7b :: (tagBytes t.pairs ++ 0x7d :: r) := by
    simp [writeTags, tagBytes, hopen, hclose]
  have hall : ((t.pairs).foldl (fun t p => t.insert p.1 p.2) Tags.empty) = t := t.ofList_pairs
  rw [hbytes, readTags, if_pos rfl]
  cases hp : t.pairs with
  | nil =>
    rw [hp] at hall
    show readObject readTag .empty (0x7d :: r) = _
    rw [readObject, skipBlank_cons (by decide)]
    simp [← hall]
  | cons p ps =>
    rw [hp] at hall
    obtain ⟨value, hvalue⟩ : ∃ value, tagBytes (p :: ps) = nameBytes p.1 ++ value := by
      cases ps with
      | nil => exact ⟨_, tagBytes_singleton p⟩
      | cons q qs => exact ⟨_, by rw [tagBytes_cons_cons, List.append_assoc]⟩
    have hlen := length_le_tagBytes p ps
    have hread := readMembers_tagBytes ps p .empty r (n := (tagBytes (p :: ps) ++ 0x7d :: r).length)
      (by rw [List.length_append]; omega)
    rw [hall, hvalue, List.append_assoc] at hread
    rw [hvalue, List.append_assoc, readObject_name, hread]

/-! ## Annotations -/

def domainBytes : Option String → List UInt8
  | none => [0x6e, 0x75, 0x6c, 0x6c]
  | some d => toBytes (Json.write d)

theorem readDomain_write (d : Option String) (r : List UInt8) :
    readDomain (skipBlank (domainBytes d ++ r)) = some (d, r) := by
  cases d with
  | none => rfl
  | some d =>
    rw [domainBytes, skipBlank_write]
    have hbytes : ∃ bs, toBytes (Json.write d) ++ r = 0x22 :: bs := ⟨_, by rw [toBytes_write, List.cons_append]⟩
    have hread := readText_write d r
    obtain ⟨bs, hbs⟩ := hbytes
    rw [hbs] at hread
    rw [hbs, readDomain, if_neg (by decide), hread]
    rfl

theorem toBytes_annotations (a : Annotations) :
    toBytes a.write = 0x7b :: (nameBytes "target_domain" ++ (domainBytes a.targetDomain ++
      0x2c :: (nameBytes "tags" ++ (toBytes (writeTags a.tags.pairs) ++ [0x7d])))) := by
  have hfirst : toBytes "\x7b\"target_domain\":" = 0x7b :: nameBytes "target_domain" := by
    decide +kernel
  have hsecond : toBytes ",\"tags\":" = 0x2c :: nameBytes "tags" := by decide +kernel
  have hclose : toBytes "\x7d" = [0x7d] := by decide
  have hnull : toBytes "null" = domainBytes none := by decide
  obtain ⟨domain, tags⟩ := a
  unfold Annotations.write
  rw [Text.toBytes_append, Text.toBytes_append, Text.toBytes_append, Text.toBytes_append, hfirst, hsecond,
    hclose]
  cases domain with
  | none => simp [hnull]
  | some d => simp [domainBytes]

theorem readMember_domain (d : Option String) (r : List UInt8) :
    readMember {} "target_domain" (skipBlank (domainBytes d ++ r)) = some ({ domain := some d }, r) := by
  rw [readMember, if_pos rfl, readDomain_write]
  rfl

theorem readMember_tags (d : Option String) (t : Tags) (r : List UInt8) :
    readMember { domain := some d } "tags" (skipBlank (toBytes (writeTags t.pairs) ++ r)) =
      some ({ domain := some d, tags := some t }, r) := by
  have hskip : skipBlank (toBytes (writeTags t.pairs) ++ r) = toBytes (writeTags t.pairs) ++ r := by
    have hopen : toBytes "\x7b" = [0x7b] := by decide
    rw [writeTags, toBytes_append, toBytes_append, hopen, List.append_assoc, List.append_assoc,
      List.singleton_append, skipBlank_cons (by decide)]
  rw [readMember, if_neg (by decide), if_pos rfl, hskip, readTags_write]
  rfl

theorem read?_write (a : Annotations) : read? (toBytes a.write) = some a := by
  have hmembers : ∀ n, readMembers readMember (n + 1 + 1) {} (nameBytes "target_domain" ++
      (domainBytes a.targetDomain ++ 0x2c :: (nameBytes "tags" ++
        (toBytes (writeTags a.tags.pairs) ++ [0x7d])))) =
      some ({ domain := some a.targetDomain, tags := some a.tags }, []) := by
    intro n
    rw [readMembers_more (n + 1) (readMember_domain ..)]
    exact readMembers_last n (readMember_tags ..)
  have hobject : ∀ bs, readObject readMember {} (nameBytes "target_domain" ++ bs) =
      readMembers readMember (((nameBytes "target_domain").length + bs.length - 2) + 1 + 1) {}
        (nameBytes "target_domain" ++ bs) := by
    intro bs
    have hlen := length_nameBytes "target_domain"
    rw [readObject_name, List.length_append]
    congr 1
    omega
  rw [read?, toBytes_annotations, skipBlank_cons (by decide)]
  simp only [if_true, hobject, hmembers]
  simp [ofMembers, skipBlank]

end Annotations
end ScriptHost
