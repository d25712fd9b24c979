import ScriptHost.Proofs.Adapter.Grammar

/-!
# Classes that are cut short

A written class does not say how long it is as a whole. Still, what is left of it after a cut is no class, but for one
place. The front of a row of sections is cut into the first of these sections, or not at all (`Row.first`), and a class
needs its methods, which stand last but for the annotations. So the only front that is read is the one that ends where
annotations begin, and it is the written form of the class without them (`truncation_detected`).
-/

namespace ScriptHost.ClassFile

open Text

/-! ## Fronts of rows -/

theorem sectionBytes_ne_nil {tag payload : List UInt8} (h : tag.length = 4) : sectionBytes tag payload ≠ [] := by
  intro hnil
  have hlen := congrArg List.length hnil
  simp [sectionBytes, h] at hlen

/-- If bytes at the front of a row of sections are a row themselves, they are its first sections. -/
theorem Row.first {front rest : List UInt8} {ss ts : List Section} (h : Row IsSection front ss)
    (ht : Row IsSection (front ++ rest) ts) : ∃ us, ts = ss ++ us ∧ Row IsSection rest us := by
  induction h generalizing ts with
  | nil => exact ⟨ts, rfl, ht⟩
  | @cons b bs s ss hs hss ih =>
    rw [List.append_assoc] at ht
    generalize hbytes : b ++ (bs ++ rest) = bytes at ht
    cases ht with
    | nil =>
      obtain ⟨htag, -, rfl⟩ := hs
      exact absurd (List.append_eq_nil_iff.1 hbytes).1 (sectionBytes_ne_nil htag)
    | @cons b' bs' s' ts hs' hts =>
      -- one section is cut off these bytes
      have hcut := parses_section.takes hs (bs ++ rest)
      rw [hbytes, parses_section.takes hs' bs'] at hcut
      obtain ⟨rfl, rfl⟩ := Prod.mk.inj (Except.ok.inj hcut)
      obtain ⟨us, rfl, hus⟩ := ih hts
      exact ⟨us, rfl, hus⟩

theorem Row.ofSections {ss : List Section} (h : ∀ s ∈ ss, s.tag.length = 4 ∧ s.payload.length < 0x100000000) :
    Row IsSection (ss.flatMap fun s => sectionBytes s.tag s.payload) ss :=
  (cutSections_eq_iff _ ss).1 (cutSections_flatMap (length_le_flatMap ss) h)

/-! ## Fronts of classes -/

def withoutAnnotations (c : ClassFile) : ClassFile := { c with annotations := none }

theorem sections_withoutAnnotations (c : ClassFile) : c.withoutAnnotations.sections =
    [⟨headTag, headPayload c⟩, ⟨refsTag, refsRow c.refs⟩, ⟨methodsTag, methodsRow c.methods⟩] := rfl

/-- Methods stand last among the sections that a class needs, so some sections short of them spell no class. -/
theorem first_of_spells {c c' : ClassFile} {ss us : List Section} (hall : c.sections = ss ++ us)
    (hspells : Spells ss c') : ∃ more, ss = c.withoutAnnotations.sections ++ more := by
  obtain ⟨p, hp, -⟩ := hspells.methods
  rcases ss with _ | ⟨s₁, _ | ⟨s₂, _ | ⟨s₃, more⟩⟩⟩
  · cases hp
  · cases (List.cons.inj hall).1
    cases hp
  · cases (List.cons.inj hall).1
    cases (List.cons.inj (List.cons.inj hall).2).1
    cases hp
  · cases (List.cons.inj hall).1
    cases (List.cons.inj (List.cons.inj hall).2).1
    cases (List.cons.inj (List.cons.inj (List.cons.inj hall).2).2).1
    exact ⟨more, rfl⟩

theorem sections_eq (c : ClassFile) : c.sections = c.withoutAnnotations.sections ++
    ((c.annotations.filter fun a => !a.isEmpty).map fun a => ⟨annotationsTag, toBytes a.write⟩).toList := rfl

theorem sections_of_annotations {c : ClassFile} {a : Annotations} (ha : c.annotations = some a)
    (hfull : a.isEmpty = false) :
    c.sections = c.withoutAnnotations.sections ++ [⟨annotationsTag, toBytes a.write⟩] := by
  rw [sections_eq, ha]
  simp [Option.filter, hfull]

theorem sections_cases (c : ClassFile) : c.sections = c.withoutAnnotations.sections ∨
    ∃ a, c.annotations = some a ∧ a.isEmpty = false := by
  cases ha : c.annotations with
  | none => exact .inl (by rw [sections_eq, ha]; exact List.append_nil _)
  | some a =>
    cases hfull : a.isEmpty with
    | true => exact .inl (by rw [sections_eq, ha]; simp [Option.filter, hfull])
    | false => exact .inr ⟨a, rfl, hfull⟩

theorem Fits.withoutAnnotations {c : ClassFile} (h : Fits c) : Fits c.withoutAnnotations := by
  refine ⟨h.version, h.name, h.target, h.refs, h.methods, h.params, fun s hs => h.payloads s ?_⟩
  rw [sections_eq]
  exact List.mem_append_left _ hs

theorem encode_of_annotations {c : ClassFile} (h : Fits c) {a : Annotations} (ha : c.annotations = some a)
    (hfull : a.isEmpty = false) :
    ∃ front, encode c.withoutAnnotations = .ok front ∧
      encode c = .ok (front ++ sectionBytes annotationsTag (toBytes a.write)) := by
  refine ⟨_, encode_ok h.withoutAnnotations, ?_⟩
  rw [encode_ok h, sections_of_annotations ha hfull, List.flatMap_append, List.flatMap_singleton]
  simp only [List.append_assoc]
  rfl

/-- What is left of a written class ends where its annotations begin. -/
def EndsAtAnnotations (c : ClassFile) (front bytes : List UInt8) : Prop :=
  ∃ a, c.annotations = some a ∧ a.isEmpty = false ∧ bytes = front ++ sectionBytes annotationsTag (toBytes a.write)

/-- A front that is read has all sections but the annotations. -/
theorem endsAtAnnotations_of_decode {c c' : ClassFile} (h : Fits c) {front rest bytes : List UInt8}
    (hb : encode c = .ok bytes) (hcut : front ++ rest = bytes) (hrest : rest ≠ []) (hread : decode front = .ok c') :
    EndsAtAnnotations c front bytes := by
  rw [encode_ok h] at hb
  obtain ⟨-, r, r', body, ss, rfl, hrow, hspells⟩ := decode_iff.1 hread
  have hbytes : headerBytes c'.version r r' ++ (body ++ rest) =
      headerBytes c.version 0 0 ++ c.sections.flatMap fun s => sectionBytes s.tag s.payload := by
    rw [← List.append_assoc, hcut, ← Except.ok.inj hb]
    simp [headerBytes]
  have hall : Row IsSection (body ++ rest) c.sections := by
    rw [(headerBytes_inj hbytes).2]
    exact .ofSections fun s hs => ⟨tag_length s hs, h.payloads s hs⟩
  obtain ⟨us, hsections, hus⟩ := hrow.first hall
  have hne : us ≠ [] := by
    rintro rfl
    exact hrest hus.flatMap.1
  obtain ⟨more, rfl⟩ := first_of_spells hsections hspells
  rw [List.append_assoc] at hsections
  rcases sections_cases c with hc | ⟨a, ha, hfull⟩
  · -- nothing is left over where there are no annotations
    rw [hc, List.self_eq_append_right] at hsections
    exact absurd (List.append_eq_nil_iff.1 hsections).2 hne
  · rw [sections_of_annotations ha hfull, List.append_cancel_left_eq] at hsections
    refine ⟨a, ha, hfull, ?_⟩
    rcases List.singleton_eq_append_iff.1 hsections with ⟨-, rfl⟩ | ⟨-, rfl⟩
    · rw [← hcut, hus.flatMap.1]
      simp
    · exact absurd rfl hne

/-- A written class that is cut off anywhere cannot be read, but for the one place where its annotations begin: what
is left there is the class without them. -/
theorem truncation_detected {c : ClassFile} (h : Fits c) : ∃ bytes, encode c = .ok bytes ∧
    (∀ front, front <+: bytes → front ≠ bytes →
      (EndsAtAnnotations c front bytes → decode front = .ok { c with annotations := none }) ∧
        (¬EndsAtAnnotations c front bytes → ∃ e, decode front = .error e)) ∧
    ((∃ a, c.annotations = some a ∧ a.isEmpty = false) →
      ∃! front, front <+: bytes ∧ front ≠ bytes ∧ EndsAtAnnotations c front bytes) := by
  refine ⟨_, encode_ok h, fun front hfront hne => ⟨fun hend => ?_, fun hno => ?_⟩, fun ⟨a, ha, hfull⟩ => ?_⟩
  · obtain ⟨a, ha, hfull, hbytes⟩ := hend
    obtain ⟨front', hfront', hb⟩ := encode_of_annotations h ha hfull
    rw [encode_ok h, hbytes] at hb
    obtain rfl := List.append_cancel_right (Except.ok.inj hb)
    exact decode_written h.withoutAnnotations hfront'
  · obtain ⟨rest, hcut⟩ := hfront
    have hrest : rest ≠ [] := by
      rintro rfl
      exact hne (by rw [← hcut, List.append_nil])
    cases hread : decode front with
    | error e => exact ⟨e, rfl⟩
    | ok c' => exact absurd (endsAtAnnotations_of_decode h (encode_ok h) hcut hrest hread) hno
  · obtain ⟨front, -, hb⟩ := encode_of_annotations h ha hfull
    rw [encode_ok h] at hb
    have hbytes := Except.ok.inj hb
    refine ⟨front, ⟨⟨_, hbytes.symm⟩, fun hsame => ?_, a, ha, hfull, hbytes⟩, ?_⟩
    · rw [← hsame, List.self_eq_append_right] at hbytes
      exact absurd hbytes (sectionBytes_ne_nil rfl)
    · rintro other ⟨-, -, a', ha', -, hother⟩
      cases ha.symm.trans ha'
      exact List.append_cancel_right (hother.symm.trans hbytes)

theorem length_of_endsAtAnnotations {c : ClassFile} {front bytes : List UInt8} (h : EndsAtAnnotations c front bytes) :
    front.length + 8 ≤ bytes.length := by
  obtain ⟨a, -, -, rfl⟩ := h
  simp [sectionBytes, annotationsTag, bytes32]

/-- A class that lacks its last byte, and one that lacks its annotations. -/
theorem truncation_detected_greeter : Fits greeter ∧ ∃ bytes, encode greeter = .ok bytes ∧
    (∃ e, decode bytes.dropLast = .error e) ∧
    ∃ front, front <+: bytes ∧ front ≠ bytes ∧ decode front = .ok { greeter with annotations := none } := by
  have hfits : Fits greeter := by decide +kernel
  obtain ⟨bytes, hb, hfronts, hone⟩ := truncation_detected hfits
  obtain ⟨front, ⟨hfront, hne, hend⟩, -⟩ := hone ⟨_, rfl, by decide⟩
  have hlong := length_of_endsAtAnnotations hend
  have hlast : bytes.dropLast.length + 1 = bytes.length := by
    rw [List.length_dropLast]
    omega
  refine ⟨hfits, bytes, hb, ?_, front, hfront, hne, (hfronts front hfront hne).1 hend⟩
  refine (hfronts bytes.dropLast bytes.dropLast_prefix fun hsame => ?_).2 fun hearly => ?_
  · rw [hsame] at hlast
    omega
  · have hearlier := length_of_endsAtAnnotations hearly
    omega

end ScriptHost.ClassFile
