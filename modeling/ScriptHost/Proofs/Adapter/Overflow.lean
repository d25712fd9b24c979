import ScriptHost.Proofs.Adapter.Rewriting

/-!
# Lengths that do not fit

Counts are checked before they are written, the lengths of texts and payloads are not. So a class is refused just where
a count does not fit its field (`CountOverflows`). Where a length does not (`LengthOverflows`), its field holds what is
left of it modulo the width (`bytes32_mod`): the class is written, but nothing reads it back
(`refused_iff_countOverflows`). A class of short texts can be that long by its methods alone
(`long_payload_written`).
-/

namespace ScriptHost.ClassFile

open Text

/-! ## What does not fit -/

def texts (c : ClassFile) : List String := c.name :: c.target :: (c.refs ++ c.methods.map MethodEntry.name)

/-- There are more references, methods or parameters of a method than their fields can say. -/
def CountOverflows (c : ClassFile) : Prop :=
  (0x100000000 ≤ c.refs.length ∨ 0x100000000 ≤ c.methods.length) ∨ ∃ m ∈ c.methods, 65535 < m.signature.params.length

/-- A text or the payload of a section has more bytes than its field can say. -/
def LengthOverflows (c : ClassFile) : Prop :=
  (∃ s ∈ c.texts, 0x100000000 ≤ (toBytes s).length) ∨ ∃ s ∈ c.sections, 0x100000000 ≤ s.payload.length

/-- Some length of the class does not fit its field. -/
def Overflows (c : ClassFile) : Prop := c.CountOverflows ∨ c.LengthOverflows

section

variable {c : ClassFile}

theorem not_countOverflows : ¬c.CountOverflows ↔ (c.refs.length < 0x100000000 ∧ c.methods.length < 0x100000000) ∧
    ∀ m ∈ c.methods, m.signature.params.length ≤ 65535 := by
  simp only [CountOverflows, not_or, not_exists, not_and, Nat.not_le, Nat.not_lt]

theorem not_lengthOverflows : ¬c.LengthOverflows ↔ (∀ s ∈ c.texts, (toBytes s).length < 0x100000000) ∧
    ∀ s ∈ c.sections, s.payload.length < 0x100000000 := by
  simp only [LengthOverflows, not_or, not_exists, not_and, Nat.not_le]

theorem forall_mem_texts {P : String → Prop} : (∀ s ∈ c.texts, P s) ↔
    P c.name ∧ P c.target ∧ (∀ r ∈ c.refs, P r) ∧ ∀ m ∈ c.methods, P m.name := by
  simp [texts, or_imp, forall_and]

theorem fits_iff : Fits c ↔ c.version ≤ currentVersion ∧ ¬c.Overflows := by
  rw [Overflows, not_or, not_countOverflows, not_lengthOverflows, forall_mem_texts]
  constructor
  · intro h
    exact ⟨h.version, ⟨⟨h.refs.1, h.methods.1⟩, h.params⟩, ⟨h.name, h.target, h.refs.2, h.methods.2⟩, h.payloads⟩
  · rintro ⟨hv, ⟨⟨hrefs, hmethods⟩, hparams⟩, ⟨hname, htarget, hsymbols, hnames⟩, hpayloads⟩
    exact ⟨hv, hname, htarget, ⟨hrefs, hsymbols⟩, ⟨hmethods, hnames⟩, hparams, hpayloads⟩

end

/-! ## What is refused -/

theorem countBytes_error {n : Nat} (h : 0x100000000 ≤ n) : countBytes n = .error .sectionTooLarge :=
  if_neg (Nat.not_lt.2 h)

theorem methodsBytes_error {ms : List MethodEntry} (h : ∃ m ∈ ms, 65535 < m.signature.params.length) :
    methodsBytes ms = .error .tooManyParameters := by
  induction ms with
  | nil =>
    obtain ⟨m, hm, -⟩ := h
    cases hm
  | cons m ms ih =>
    rw [methodsBytes, methodBytes]
    by_cases hfirst : 65535 < m.signature.params.length
    · rw [if_neg (by omega)]
      rfl
    · obtain ⟨m', hm', hlong⟩ := h
      rcases List.mem_cons.1 hm' with rfl | hm'
      · exact absurd hlong hfirst
      · rw [if_pos (by omega), ih ⟨m', hm', hlong⟩]
        rfl

theorem encode_sectionTooLarge {c : ClassFile} (h : 0x100000000 ≤ c.refs.length ∨ 0x100000000 ≤ c.methods.length) :
    encode c = .error .sectionTooLarge := by
  rw [encode]
  by_cases hr : 0x100000000 ≤ c.refs.length
  · rw [refsPayload, countBytes_error hr]
    rfl
  · rw [refsPayload_ok (Nat.not_le.1 hr), methodsPayload, countBytes_error (h.resolve_left hr)]
    rfl

theorem encode_tooManyParameters {c : ClassFile} (hr : c.refs.length < 0x100000000)
    (hm : c.methods.length < 0x100000000) (hp : ∃ m ∈ c.methods, 65535 < m.signature.params.length) :
    encode c = .error .tooManyParameters := by
  rw [encode, refsPayload_ok hr, methodsPayload, countBytes, if_pos hm, methodsBytes_error hp]
  rfl

theorem encode_counted {c : ClassFile} (h : ¬c.CountOverflows) :
    encode c = .ok (headerBytes c.version 0 0 ++ c.sections.flatMap fun s => sectionBytes s.tag s.payload) := by
  obtain ⟨⟨hr, hm⟩, hp⟩ := not_countOverflows.1 h
  rw [encode_of_counts hr hm hp]
  simp [headerBytes]

theorem error_iff_countOverflows (c : ClassFile) : (∃ e, encode c = .error e) ↔ c.CountOverflows := by
  constructor
  · rintro ⟨e, he⟩
    by_contra hno
    rw [encode_counted hno] at he
    cases he
  · intro h
    by_cases hlists : 0x100000000 ≤ c.refs.length ∨ 0x100000000 ≤ c.methods.length
    · exact ⟨_, encode_sectionTooLarge hlists⟩
    · obtain ⟨hr, hm⟩ := not_or.1 hlists
      exact ⟨_, encode_tooManyParameters (Nat.not_le.1 hr) (Nat.not_le.1 hm) (h.resolve_left hlists)⟩

/-! ## What is written all the same -/

theorem ofNat_eq_of_mod {m n : Nat} (h : m % 256 = n % 256) : UInt8.ofNat m = UInt8.ofNat n := by
  apply UInt8.toNat.inj
  rw [UInt8.toNat_ofNat', UInt8.toNat_ofNat']
  exact h

/-- A length field holds the length modulo its width. -/
theorem bytes32_mod (n : Nat) : bytes32 (n % 0x100000000) = bytes32 n := by
  rw [bytes32, bytes32, ofNat_eq_of_mod (by omega : n % 0x100000000 % 256 = n % 256),
    ofNat_eq_of_mod (by omega : n % 0x100000000 / 256 % 256 = n / 256 % 256),
    ofNat_eq_of_mod (by omega : n % 0x100000000 / 65536 % 256 = n / 65536 % 256),
    ofNat_eq_of_mod (by omega : n % 0x100000000 / 16777216 % 256 = n / 16777216 % 256)]

theorem sectionBytes_cut (tag payload : List UInt8) : sectionBytes tag payload =
    sectionBytes tag (payload.take (payload.length % 0x100000000)) ++
      payload.drop (payload.length % 0x100000000) := by
  have hlen : (payload.take (payload.length % 0x100000000)).length = payload.length % 0x100000000 := by
    rw [List.length_take, Nat.min_eq_left (Nat.mod_le _ _)]
  rw [sectionBytes, sectionBytes, hlen, bytes32_mod, List.append_assoc, List.append_assoc, List.append_assoc,
    List.take_append_drop]

/-- The first section of these bytes has only the front of the payload. -/
theorem cutSection_sectionBytes {tag : List UInt8} (ht : tag.length = 4) (payload : List UInt8) :
    cutSection (sectionBytes tag payload) =
      .ok (⟨tag, payload.take (payload.length % 0x100000000)⟩, payload.drop (payload.length % 0x100000000)) := by
  have hlen : (payload.take (payload.length % 0x100000000)).length < 0x100000000 := by
    rw [List.length_take, Nat.min_eq_left (Nat.mod_le _ _)]
    exact Nat.mod_lt _ (by decide)
  rw [sectionBytes_cut]
  exact takes_section (s := ⟨tag, _⟩) ht hlen _

/-- Annotations are too short to be read from the front that is left of ones that do not fit. -/
theorem length_of_spells {ss us : List Section} {c : ClassFile} {a : Annotations} (ha : c.annotations = some a)
    (hspells : Spells ss c) (hss : ss = c.withoutAnnotations.sections ++ us)
    (hrow : Row IsSection (sectionBytes annotationsTag (toBytes a.write)) us) :
    (toBytes a.write).length < 0x100000000 := by
  have hcut := cutSection_sectionBytes (rfl : annotationsTag.length = 4) (toBytes a.write)
  generalize hbytes : sectionBytes annotationsTag (toBytes a.write) = bytes at hrow hcut
  cases hrow with
  | nil => exact absurd hbytes (sectionBytes_ne_nil rfl)
  | @cons b bs s us hs hus =>
    rw [parses_section.takes hs] at hcut
    obtain ⟨rfl, -⟩ := Prod.mk.inj (Except.ok.inj hcut)
    have hpayloads : payloads annotationsTag ss =
        (toBytes a.write).take ((toBytes a.write).length % 0x100000000) :: payloads annotationsTag us := by
      rw [hss]
      rfl
    rcases hspells.annotations with ⟨-, hnone⟩ | ⟨p, a', hp, hread, hsome⟩
    · cases hnone.symm.trans ha
    · cases hsome.symm.trans ha
      rw [hpayloads] at hp
      obtain ⟨rfl, -⟩ := List.cons.inj hp
      have hwrite := Annotations.length_write_le hread
      rw [List.length_take, Nat.min_eq_left (Nat.mod_le _ _)] at hwrite
      omega

theorem fits_of_decode_encode {c : ClassFile} {bytes : List UInt8} (hb : encode c = .ok bytes)
    (hd : decode bytes = .ok c.withoutEmptyAnnotations) : Fits c := by
  have hno : ¬c.CountOverflows := by
    rw [← error_iff_countOverflows]
    rintro ⟨e, he⟩
    cases he.symm.trans hb
  rw [encode_counted hno] at hb
  obtain ⟨hv, r, r', body, ss, hsentence, hrow, hspells⟩ := decode_iff.1 hd
  obtain ⟨-, rfl⟩ := headerBytes_inj ((Except.ok.inj hb).trans hsentence)
  have hneeded : Fits c.withoutAnnotations := hspells.fits hv fun s hs => (hrow.flatMap.2 s hs).2
  refine hneeded.ofWithoutAnnotations fun a ha hfull => ?_
  rw [sections_of_annotations ha hfull, List.flatMap_append, List.flatMap_singleton] at hrow
  have hfirst : Row IsSection (c.withoutAnnotations.sections.flatMap fun s => sectionBytes s.tag s.payload)
      c.withoutAnnotations.sections := .ofSections fun s hs => ⟨tag_length s hs, hneeded.payloads s hs⟩
  obtain ⟨us, hss, hus⟩ := hfirst.first hrow
  have hkept : c.withoutEmptyAnnotations.annotations = some a := by
    simp [withoutEmptyAnnotations, ha, Option.filter, hfull]
  exact length_of_spells hkept hspells hss hus

/-- A class is refused just where a count does not fit its field. So of classes whose texts and payloads fit, just those
are refused of which some length does not fit. All others are written, and what is written is read back just where
their texts and payloads fit. -/
theorem refused_iff_countOverflows (c : ClassFile) :
    ((∃ e, encode c = .error e) ↔ c.CountOverflows) ∧
    (¬c.LengthOverflows → ((∃ e, encode c = .error e) ↔ c.Overflows)) ∧
    ∀ bytes, encode c = .ok bytes → c.version ≤ currentVersion →
      (decode bytes = .ok c.withoutEmptyAnnotations ↔ ¬c.LengthOverflows) := by
  refine ⟨error_iff_countOverflows c, fun hlengths => ?_, fun bytes hb hv => ⟨fun hd hlong => ?_, fun hlengths => ?_⟩⟩
  · rw [error_iff_countOverflows, Overflows, or_iff_left hlengths]
  · exact (fits_iff.1 (fits_of_decode_encode hb hd)).2 (.inr hlong)
  · refine decode_written (fits_iff.2 ⟨hv, ?_⟩) hb
    rintro (hcounts | hlong)
    · obtain ⟨e, he⟩ := (error_iff_countOverflows c).2 hcounts
      cases he.symm.trans hb
    · exact hlengths hlong

/-- A class whose lengths all fit is written and read back. -/
theorem refused_iff_countOverflows_greeter : ¬greeter.LengthOverflows ∧ (¬∃ e, encode greeter = .error e) ∧
    ∃ bytes, encode greeter = .ok bytes ∧ decode bytes = .ok greeter := by
  have hfits : Fits greeter := by decide +kernel
  obtain ⟨hcounts, hlengths⟩ := not_or.1 (fits_iff.1 hfits).2
  obtain ⟨hrefused, -, hread⟩ := refused_iff_countOverflows greeter
  have hwritten := encode_ok hfits
  exact ⟨hlengths, fun h => hcounts (hrefused.1 h), _, hwritten, (hread _ hwritten hfits.version).2 hlengths⟩

/-! ## A payload that does not fit -/

def wide (methods params : Nat) : ClassFile where
  version := 1
  name := ""
  target := ""
  kind := .classType
  classLevel := false
  refs := []
  methods := List.replicate methods ⟨"", ⟨.int, List.replicate params .int⟩, .super⟩
  annotations := none

theorem length_methodsRow_wide (n k : Nat) : (methodsRow (wide n k).methods).length = 4 + n * (k + 8) := by
  have hempty : toBytes "" = [] := by decide
  have hrow : (methodRow ⟨"", ⟨.int, List.replicate k .int⟩, .super⟩).length = k + 8 := by
    simp [methodRow, textBytes, bytes32, bytes16, hempty]
  simp only [methodsRow, wide, List.length_append, List.flatMap_replicate]
  simp [bytes32, hrow]

theorem not_countOverflows_wide {n k : Nat} (hn : n < 0x100000000) (hk : k ≤ 65535) : ¬(wide n k).CountOverflows := by
  refine not_countOverflows.2 ⟨⟨by simp [wide], ?_⟩, fun m hm => ?_⟩
  · rwa [wide, List.length_replicate]
  · rwa [List.eq_of_mem_replicate hm, List.length_replicate]

/-- No count of this class is too large, but its methods take more than `2 ^ 32` bytes. It is written all the same. -/
theorem long_payload_written :
    ¬((∃ e, encode (wide 65530 65535) = .error e) ↔ (wide 65530 65535).Overflows) := by
  rw [error_iff_countOverflows]
  intro hiff
  refine not_countOverflows_wide (by decide) (by decide) (hiff.2 (.inr (.inr ?_)))
  refine ⟨⟨methodsTag, methodsRow (wide 65530 65535).methods⟩, by simp [sections], ?_⟩
  dsimp only
  rw [length_methodsRow_wide]
  decide

end ScriptHost.ClassFile
