import ScriptHost.Proofs.Adapter.AnnotationLength
import ScriptHost.Proofs.Adapter.Truncation

/-!
# Writing what was read

Many bytes are read as one class: sections in any order, unknown ones among them, reserved bytes, any byte for a class
that is class-level, annotations in any spelling. All that is read of them can be written, because it takes no more
bytes than it was read from but for the few of the annotations (`fits_of_decode`). What is written is one form for all
of them, and it is read and written again unchanged (`rewriting_normalises`).
-/

namespace ScriptHost.ClassFile

open Text

/-! ## Rows in their written form -/

section

variable {α : Type} {G : Grammar α} {row : List UInt8} {xs : List α}

theorem Row.eq_flatMap {write : α → List UInt8} (hw : ∀ bs x, G bs x → bs = write x) (h : Row G row xs) :
    row = xs.flatMap write := by
  induction h with
  | nil => rfl
  | @cons b bs x xs hx hxs ih => rw [List.flatMap_cons, ← hw b x hx, ← ih]

theorem Row.forall {P : α → Prop} (hP : ∀ bs x, G bs x → P x) (h : Row G row xs) : ∀ x ∈ xs, P x := by
  induction h with
  | nil => exact fun x hx => nomatch hx
  | cons hx hxs ih => exact List.forall_mem_cons.2 ⟨hP _ _ hx, ih⟩

end

theorem eq_refsRow {payload : List UInt8} {refs : List String} (h : Counted IsText payload refs) :
    payload = refsRow refs := by
  obtain ⟨-, row, hrow, rfl⟩ := h
  rw [refsRow, ← hrow.eq_flatMap fun bs s hs => hs.2]

theorem IsMethod.eq_methodRow {bs : List UInt8} {m : MethodEntry} (h : IsMethod bs m) : bs = methodRow m := by
  obtain ⟨name, params, ⟨-, rfl⟩, -, hparams, rfl⟩ := h
  have hmap : params = m.signature.params.map Ty.tag := by
    rw [List.map_eq_flatMap]
    exact hparams.eq_flatMap fun bs t ht => ht
  simp [methodRow, hmap]

theorem eq_methodsRow {payload : List UInt8} {ms : List MethodEntry} (h : Counted IsMethod payload ms) :
    payload = methodsRow ms := by
  obtain ⟨-, row, hrow, rfl⟩ := h
  rw [methodsRow, ← hrow.eq_flatMap fun bs m hm => hm.eq_methodRow]

/-! ## Read classes -/

theorem Row.payload_lt {body : List UInt8} {ss : List Section} (h : Row IsSection body ss) :
    ∀ s ∈ ss, s.payload.length < body.length := by
  induction h with
  | nil => exact fun s hs => nomatch hs
  | @cons b bs s ss hs hss ih =>
    have hfirst : s.payload.length < b.length := by
      rw [hs.2.2, sectionBytes, List.length_append, List.length_append, hs.1]
      omega
    rw [List.length_append]
    refine List.forall_mem_cons.2 ⟨by omega, fun s' hs' => ?_⟩
    have hlater := ih s' hs'
    omega

theorem exists_of_payloads {tag payload : List UInt8} {ss : List Section} (h : payloads tag ss = [payload]) :
    ∃ s ∈ ss, s.payload = payload := by
  have hmem : payload ∈ payloads tag ss := by
    rw [h]
    exact List.mem_singleton_self _
  obtain ⟨s, hs, hpayload⟩ := List.mem_map.1 hmem
  exact ⟨s, (List.mem_filter.1 hs).1, hpayload⟩

theorem refs_fit {payload : List UInt8} {refs : List String} (h : Counted IsText payload refs) :
    refs.length < 0x100000000 ∧ ∀ r ∈ refs, (toBytes r).length < 0x100000000 := by
  obtain ⟨hcount, row, hrow, -⟩ := h
  exact ⟨hcount, hrow.forall fun bs s hs => hs.1⟩

theorem methods_fit {payload : List UInt8} {ms : List MethodEntry} (h : Counted IsMethod payload ms) :
    (ms.length < 0x100000000 ∧ ∀ m ∈ ms, (toBytes m.name).length < 0x100000000) ∧
      ∀ m ∈ ms, m.signature.params.length ≤ 65535 := by
  obtain ⟨hcount, row, hrow, -⟩ := h
  refine ⟨⟨hcount, hrow.forall fun bs m hm => ?_⟩, hrow.forall fun bs m hm => ?_⟩
  · obtain ⟨name, params, hname, -⟩ := hm
    exact hname.1
  · obtain ⟨name, params, -, hparams, -⟩ := hm
    exact Nat.le_of_lt_succ hparams

section

variable {ss : List Section} {c : ClassFile}

/-- The sections that a class needs have payloads among those that spell it, but for references that are missing. -/
theorem Spells.payload_le (h : Spells ss c) {n : Nat} (hfour : 4 ≤ n) (hn : ∀ s ∈ ss, s.payload.length ≤ n) :
    ∀ s ∈ c.withoutAnnotations.sections, s.payload.length ≤ n := by
  have hshort : ∀ tag payload, payloads tag ss = [payload] → payload.length ≤ n := by
    intro tag payload hp
    obtain ⟨s, hs, rfl⟩ := exists_of_payloads hp
    exact hn s hs
  intro s hs
  rw [sections_withoutAnnotations] at hs
  simp only [List.mem_cons, List.not_mem_nil, or_false] at hs
  rcases hs with rfl | rfl | rfl
  · obtain ⟨p, hp, hhead⟩ := h.head
    exact head_length (c := c) hhead rfl rfl ▸ hshort _ _ hp
  · rcases h.refs with ⟨-, hnil⟩ | ⟨p, hp, hrefs⟩
    · rw [hnil]
      exact hfour
    · exact eq_refsRow hrefs ▸ hshort _ _ hp
  · obtain ⟨p, hp, hmethods⟩ := h.methods
    exact eq_methodsRow hmethods ▸ hshort _ _ hp

/-- What sections spell fits its length fields if they do, but for annotations. -/
theorem Spells.fits (h : Spells ss c) (hv : c.version ≤ currentVersion)
    (hn : ∀ s ∈ ss, s.payload.length < 0x100000000) : Fits c.withoutAnnotations := by
  obtain ⟨head, -, name, target, level, hname, htarget, -⟩ := h.head
  obtain ⟨methods, -, hmethods⟩ := h.methods
  obtain ⟨hms, hparams⟩ := methods_fit hmethods
  have hrefs : c.refs.length < 0x100000000 ∧ ∀ r ∈ c.refs, (toBytes r).length < 0x100000000 := by
    rcases h.refs with ⟨-, hnil⟩ | ⟨p, -, hcounted⟩
    · rw [hnil]
      exact ⟨by decide, by simp⟩
    · exact refs_fit hcounted
  refine ⟨hv, hname.1, htarget.1, hrefs, hms, hparams, fun s hs => ?_⟩
  exact Nat.lt_succ_of_le (h.payload_le (by decide) (fun s' hs' => Nat.le_of_lt_succ (hn s' hs')) s hs)

end

theorem Fits.ofWithoutAnnotations {c : ClassFile} (h : Fits c.withoutAnnotations)
    (ha : ∀ a, c.annotations = some a → a.isEmpty = false → (toBytes a.write).length < 0x100000000) : Fits c := by
  refine ⟨h.version, h.name, h.target, h.refs, h.methods, h.params, fun s hs => ?_⟩
  rcases sections_cases c with hc | ⟨a, hsome, hfull⟩
  · exact h.payloads s (hc ▸ hs)
  · rw [sections_of_annotations hsome hfull] at hs
    rcases List.mem_append.1 hs with hs | hs
    · exact h.payloads s hs
    · obtain rfl := List.mem_singleton.1 hs
      exact ha a hsome hfull

theorem fits_of_decode {bs : List UInt8} {c : ClassFile} (hlen : bs.length < 0x80000000) (h : decode bs = .ok c) :
    Fits c := by
  obtain ⟨hversion, r, r', body, ss, rfl, hrow, hspells⟩ := decode_iff.1 h
  have hshort : ∀ s ∈ ss, s.payload.length < 0x80000000 := by
    intro s hs
    have hlt := hrow.payload_lt s hs
    rw [List.length_append] at hlen
    omega
  refine (hspells.fits hversion fun s hs => Nat.lt_trans (hshort s hs) (by decide)).ofWithoutAnnotations ?_
  intro a ha _
  rcases hspells.annotations with ⟨-, hnone⟩ | ⟨p, a', hp, hread, hsome⟩
  · cases hnone.symm.trans ha
  · cases hsome.symm.trans ha
    obtain ⟨s, hs, rfl⟩ := exists_of_payloads hp
    have hwrite := Annotations.length_write_le hread
    have hp := hshort s hs
    omega

/-! ## Written classes -/

theorem encode_withoutEmptyAnnotations (c : ClassFile) : encode c.withoutEmptyAnnotations = encode c := by
  have hsame : annotationsSection (c.annotations.filter fun a => !a.isEmpty) = annotationsSection c.annotations := by
    cases c.annotations with
    | none => rfl
    | some a => cases ha : a.isEmpty <;> simp [annotationsSection, Option.filter, ha]
  rw [encode, encode]
  simp only [withoutEmptyAnnotations, headPayload, hsame]
  rfl

/-- A class that was read, from whatever spelling, can be written. The written form is read as that class without
annotations that say nothing, and writing what is read of it gives the same bytes. Other bytes have this
written form just where they are read alike. -/
theorem rewriting_normalises {bs : List UInt8} {c : ClassFile} (hlen : bs.length < 0x80000000)
    (h : decode bs = .ok c) : ∃ bytes, encode c = .ok bytes ∧
      decode bytes = .ok { c with annotations := c.annotations.filter fun a => !a.isEmpty } ∧
      (∀ c', decode bytes = .ok c' → encode c' = .ok bytes) ∧
      ∀ bs' c', bs'.length < 0x80000000 → decode bs' = .ok c' →
        (encode c' = .ok bytes ↔ c'.withoutEmptyAnnotations = c.withoutEmptyAnnotations) := by
  obtain ⟨bytes, hencode, hdecode⟩ := decode_encode (fits_of_decode hlen h)
  refine ⟨bytes, hencode, hdecode, fun c' hc' => ?_, fun bs' c' hlen' h' => ⟨fun hsame => ?_, fun hsame => ?_⟩⟩
  · rw [hdecode] at hc'
    rw [← Except.ok.inj hc', encode_withoutEmptyAnnotations, hencode]
  · have hother := decode_written (fits_of_decode hlen' h') hsame
    rw [hdecode] at hother
    exact (Except.ok.inj hother).symm
  · rw [← encode_withoutEmptyAnnotations, hsame, encode_withoutEmptyAnnotations, hencode]

/-- A class whose methods stand first, whose level is not one, and whose annotations are an array that names a tag
twice. It links against nothing, and there is a section that the format does not know. -/
def untidyBytes : List UInt8 :=
  headerBytes 1 0x2a 0xff ++ sectionBytes methodsTag (methodsRow [⟨"run", ⟨.object, [.long]⟩, .script⟩]) ++
    sectionBytes [0x58, 0x58, 0x58, 0x58] [1, 2, 3] ++
    sectionBytes annotationsTag (toBytes " [ null , \x7b \"b\" : \"1\", \"a\\u0009\":\"2\",\"b\":\"3\" \x7d ] ") ++
    sectionBytes headTag (textBytes "app.Job" ++ textBytes "host.Job" ++ [1, 7])

def untidy : ClassFile where
  version := 1
  name := "app.Job"
  target := "host.Job"
  kind := .classType
  classLevel := true
  refs := []
  methods := [⟨"run", ⟨.object, [.long]⟩, .script⟩]
  annotations := some ⟨none, .ofList [("a\t", "2"), ("b", "3")]⟩

theorem rewriting_normalises_untidy : untidyBytes.length < 0x80000000 ∧ decode untidyBytes = .ok untidy ∧
    ∃ bytes, encode untidy = .ok bytes ∧ bytes ≠ untidyBytes ∧ decode bytes = .ok untidy := by
  have hlen : untidyBytes.length < 0x80000000 := by decide +kernel
  have hread : decode untidyBytes = .ok untidy := by decide +kernel
  obtain ⟨bytes, hencode, hdecode, -, -⟩ := rewriting_normalises hlen hread
  refine ⟨hlen, hread, bytes, hencode, ?_, hdecode⟩
  rintro rfl
  exact absurd hencode (by decide +kernel)

end ScriptHost.ClassFile
