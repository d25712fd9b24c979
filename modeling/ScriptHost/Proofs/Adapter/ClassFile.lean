import ScriptHost.Adapter.ClassFile.Reader
import ScriptHost.Proofs.Adapter.AnnotationText

/-!
# Reading written adapter classes

Each reader takes back what its writer wrote and leaves what follows (`Takes`). The readers of records and
sections are put together as the writers are, so the fact is proved once for each part, and a class comes
back from its bytes (`decode_encode`) with its annotations, unless they are empty and were left out.
-/

namespace ScriptHost.ClassFile

open Text

/-! ## Readers and what they take -/

/-- The reader takes exactly these bytes, to which it gives the value, whatever follows. -/
def Takes {α : Type} (read : Reader α) (bs : List UInt8) (x : α) : Prop :=
  ∀ rest, read (bs ++ rest) = .ok (x, rest)

theorem isShort_append (bs rest : List UInt8) : isShort (bs ++ rest) bs.length = false := by
  cases h : isShort (bs ++ rest) bs.length with
  | false => rfl
  | true =>
    have hlt := (isShort_iff _ _).1 h
    rw [List.length_append] at hlt
    omega

theorem takes_u8 (b : UInt8) : Takes readU8 [b] b := fun _ => rfl

theorem takes_u16 {n : Nat} (hn : n < 0x10000) : Takes readU16 (bytes16 n) n := by
  intro rest
  show Except.ok ((UInt8.ofNat n).toNat + 256 * (UInt8.ofNat (n / 256)).toNat, rest) = _
  rw [UInt8.toNat_ofNat', UInt8.toNat_ofNat']
  congr 2
  omega

theorem takes_u32 {n : Nat} (hn : n < 0x100000000) : Takes readU32 (bytes32 n) n := by
  intro rest
  show Except.ok ((UInt8.ofNat n).toNat + 256 * (UInt8.ofNat (n / 256)).toNat +
    65536 * (UInt8.ofNat (n / 65536)).toNat + 16777216 * (UInt8.ofNat (n / 16777216)).toNat, rest) = _
  simp only [UInt8.toNat_ofNat']
  congr 2
  omega

theorem takes_string {s : String} (hs : (toBytes s).length < 0x100000000) :
    Takes readString (textBytes s) s := by
  intro rest
  rw [readString, textBytes, List.append_assoc, takes_u32 hs]
  simp only [bind, Except.bind, isShort_append]
  simp

theorem takes_type (t : Ty) : Takes readType [t.tag] t := by
  intro rest
  rw [readType, takes_u8]
  simp only [bind, Except.bind, Ty.ofTag?_tag]

theorem takes_kind (k : TypeKind) : Takes readKind [kindByte k] k := by
  cases k <;> exact fun _ => rfl

theorem takes_dispatch (d : Dispatch) : Takes readDispatch [dispatchByte d] d := by
  cases d <;> exact fun _ => rfl

theorem takes_many {α : Type} {read : Reader α} {write : α → List UInt8} {xs : List α}
    (h : ∀ x ∈ xs, Takes read (write x) x) : Takes (readMany read xs.length) (xs.flatMap write) xs := by
  induction xs with
  | nil => exact fun _ => rfl
  | cons x xs ih =>
    intro rest
    have hx := h x (List.mem_cons_self ..) (xs.flatMap write ++ rest)
    have hxs := ih (fun y hy => h y (List.mem_cons_of_mem _ hy)) rest
    rw [List.flatMap_cons, List.append_assoc, List.length_cons, readMany, hx]
    simp only [bind, Except.bind, hxs]
    rfl

/-! ## Payloads -/

theorem takes_head (c : ClassFile) (hn : (toBytes c.name).length < 0x100000000)
    (ht : (toBytes c.target).length < 0x100000000) :
    Takes readHead (headPayload c) ⟨c.name, c.target, c.kind, c.classLevel⟩ := by
  intro rest
  have hpayload : headPayload c ++ rest = textBytes c.name ++ (textBytes c.target ++ ([kindByte c.kind] ++
      ([if c.classLevel then 1 else 0] ++ rest))) := by
    simp [headPayload]
  rw [hpayload, readHead, takes_string hn]
  simp only [bind, Except.bind, takes_string ht _, takes_kind c.kind _, takes_u8 _ _]
  cases c.classLevel <;> rfl

theorem takes_params (ts : List Ty) : Takes (readMany readType ts.length) (ts.map Ty.tag) ts := by
  have hmany : Takes (readMany readType ts.length) (ts.flatMap fun t => [t.tag]) ts :=
    takes_many fun t _ => takes_type t
  rwa [← List.map_eq_flatMap] at hmany

/-- The references of a class in their written form. -/
def refsRow (refs : List String) : List UInt8 := bytes32 refs.length ++ refs.flatMap textBytes

theorem takes_refs {refs : List String} (hn : refs.length < 0x100000000)
    (hr : ∀ r ∈ refs, (toBytes r).length < 0x100000000) : Takes readRefs (refsRow refs) refs := by
  intro rest
  rw [refsRow, List.append_assoc, readRefs, takes_u32 hn]
  exact takes_many (fun r hmem => takes_string (hr r hmem)) rest

def methodRow (m : MethodEntry) : List UInt8 :=
  textBytes m.name ++ [m.signature.ret.tag] ++ bytes16 m.signature.params.length ++
    m.signature.params.map Ty.tag ++ [dispatchByte m.dispatch]

theorem takes_method {m : MethodEntry} (hn : (toBytes m.name).length < 0x100000000)
    (hp : m.signature.params.length < 0x10000) : Takes readMethod (methodRow m) m := by
  intro rest
  have hrow : methodRow m ++ rest = textBytes m.name ++ ([m.signature.ret.tag] ++
      (bytes16 m.signature.params.length ++ (m.signature.params.map Ty.tag ++
        ([dispatchByte m.dispatch] ++ rest)))) := by
    simp [methodRow]
  rw [hrow, readMethod, takes_string hn]
  simp only [bind, Except.bind, takes_type _ _, takes_u16 hp _, takes_params _ _, takes_dispatch _ _]
  rfl

def methodsRow (ms : List MethodEntry) : List UInt8 := bytes32 ms.length ++ ms.flatMap methodRow

theorem takes_methods {ms : List MethodEntry} (hn : ms.length < 0x100000000)
    (hm : ∀ m ∈ ms, (toBytes m.name).length < 0x100000000 ∧ m.signature.params.length < 0x10000) :
    Takes readMethods (methodsRow ms) ms := by
  intro rest
  rw [methodsRow, List.append_assoc, readMethods, takes_u32 hn]
  exact takes_many (fun m hmem => takes_method (hm m hmem).1 (hm m hmem).2) rest

theorem whole_takes {α : Type} {read : Reader α} {bs : List UInt8} {x : α} (h : Takes read bs x) (part : Part) :
    whole part read bs = .ok x := by
  have hread := h []
  rw [List.append_nil] at hread
  rw [whole, hread]
  rfl

/-! ## Sections -/

theorem takes_section {s : Section} (ht : s.tag.length = 4) (hp : s.payload.length < 0x100000000) :
    Takes cutSection (sectionBytes s.tag s.payload) s := by
  intro rest
  have hbytes : sectionBytes s.tag s.payload ++ rest =
      s.tag ++ (bytes32 s.payload.length ++ (s.payload ++ rest)) := by
    simp [sectionBytes]
  have hshort := isShort_append s.tag (bytes32 s.payload.length ++ (s.payload ++ rest))
  have hdrop : (s.tag ++ (bytes32 s.payload.length ++ (s.payload ++ rest))).drop s.tag.length = _ := List.drop_left
  have htake : (s.tag ++ (bytes32 s.payload.length ++ (s.payload ++ rest))).take s.tag.length = _ := List.take_left
  rw [ht] at hshort hdrop htake
  rw [hbytes, cutSection, hshort, if_neg (by simp), hdrop, htake, takes_u32 hp]
  simp only [bind, Except.bind, isShort_append]
  simp

theorem cutSections_succ {bs rest : List UInt8} {s : Section} (hcut : cutSection bs = .ok (s, rest))
    (hne : bs ≠ []) (n : Nat) :
    cutSections (n + 1) bs = (s :: (cutSections n rest).1, (cutSections n rest).2) := by
  cases bs with
  | nil => exact absurd rfl hne
  | cons b bs => simp only [cutSections, hcut]

theorem cutSections_flatMap {ss : List Section} {n : Nat} (hn : ss.length ≤ n)
    (h : ∀ s ∈ ss, s.tag.length = 4 ∧ s.payload.length < 0x100000000) :
    cutSections n (ss.flatMap fun s => sectionBytes s.tag s.payload) = (ss, none) := by
  induction ss generalizing n with
  | nil => cases n <;> rfl
  | cons s ss ih =>
    obtain ⟨n, rfl⟩ : ∃ k, n = k + 1 := ⟨n - 1, by rw [List.length_cons] at hn; omega⟩
    obtain ⟨ht, hp⟩ := h s (List.mem_cons_self ..)
    have hcut := takes_section ht hp (ss.flatMap fun s => sectionBytes s.tag s.payload)
    have hne : sectionBytes s.tag s.payload ++ (ss.flatMap fun s => sectionBytes s.tag s.payload) ≠ [] := by
      intro hnil
      have hlen := congrArg List.length hnil
      rw [sectionBytes, List.length_append, List.length_append, List.length_append, ht] at hlen
      simp at hlen
    rw [List.flatMap_cons, cutSections_succ hcut hne,
      ih (Nat.le_of_succ_le_succ hn) fun s' hs' => h s' (List.mem_cons_of_mem _ hs')]

/-! ## Classes -/

def sections (c : ClassFile) : List Section :=
  [⟨headTag, headPayload c⟩, ⟨refsTag, refsRow c.refs⟩, ⟨methodsTag, methodsRow c.methods⟩] ++
    ((c.annotations.filter fun a => !a.isEmpty).map fun a => ⟨annotationsTag, toBytes a.write⟩).toList

/-- The class has a version that can be read, and its texts, lists and sections fit their length fields. -/
structure Fits (c : ClassFile) : Prop where
  version : c.version ≤ currentVersion
  name : (toBytes c.name).length < 0x100000000
  target : (toBytes c.target).length < 0x100000000
  refs : c.refs.length < 0x100000000 ∧ ∀ r ∈ c.refs, (toBytes r).length < 0x100000000
  methods : c.methods.length < 0x100000000 ∧ ∀ m ∈ c.methods, (toBytes m.name).length < 0x100000000
  params : ∀ m ∈ c.methods, m.signature.params.length ≤ 65535
  payloads : ∀ s ∈ c.sections, s.payload.length < 0x100000000

instance (c : ClassFile) : Decidable (Fits c) :=
  decidable_of_iff
    (c.version ≤ currentVersion ∧ (toBytes c.name).length < 0x100000000 ∧ (toBytes c.target).length < 0x100000000 ∧
      (c.refs.length < 0x100000000 ∧ ∀ r ∈ c.refs, (toBytes r).length < 0x100000000) ∧
      (c.methods.length < 0x100000000 ∧ ∀ m ∈ c.methods, (toBytes m.name).length < 0x100000000) ∧
      (∀ m ∈ c.methods, m.signature.params.length ≤ 65535) ∧ ∀ s ∈ c.sections, s.payload.length < 0x100000000)
    ⟨fun ⟨hv, hn, ht, hr, hm, hp, hs⟩ => ⟨hv, hn, ht, hr, hm, hp, hs⟩,
      fun h => ⟨h.version, h.name, h.target, h.refs, h.methods, h.params, h.payloads⟩⟩

theorem refsPayload_ok {refs : List String} (hn : refs.length < 0x100000000) :
    refsPayload refs = .ok (refsRow refs) := by
  rw [refsPayload, countBytes, if_pos hn]
  rfl

theorem methodsBytes_ok {ms : List MethodEntry} (hp : ∀ m ∈ ms, m.signature.params.length ≤ 65535) :
    methodsBytes ms = .ok (ms.flatMap methodRow) := by
  induction ms with
  | nil => rfl
  | cons m ms ih =>
    have hm : m.signature.params.length < 0x10000 := Nat.lt_succ_of_le (hp m (List.mem_cons_self ..))
    rw [methodsBytes, methodBytes, if_pos hm, ih fun m' hm' => hp m' (List.mem_cons_of_mem _ hm')]
    rfl

theorem methodsPayload_ok {ms : List MethodEntry} (hn : ms.length < 0x100000000)
    (hp : ∀ m ∈ ms, m.signature.params.length ≤ 65535) : methodsPayload ms = .ok (methodsRow ms) := by
  rw [methodsPayload, countBytes, if_pos hn, methodsBytes_ok hp]
  rfl

theorem annotationsSection_eq (c : ClassFile) : annotationsSection c.annotations =
    ((c.annotations.filter fun a => !a.isEmpty).map fun a => (⟨annotationsTag, toBytes a.write⟩ : Section)).toList.flatMap
      fun s => sectionBytes s.tag s.payload := by
  cases c.annotations with
  | none => rfl
  | some a => cases ha : a.isEmpty <;> simp [annotationsSection, ha, Option.filter]

/-- Where the counts fit their fields, what is written is a header and the sections. -/
theorem encode_of_counts {c : ClassFile} (hr : c.refs.length < 0x100000000) (hm : c.methods.length < 0x100000000)
    (hp : ∀ m ∈ c.methods, m.signature.params.length ≤ 65535) :
    encode c = .ok (magic ++ (bytes16 c.version.toNat ++ ([0, 0] ++
      c.sections.flatMap fun s => sectionBytes s.tag s.payload))) := by
  rw [encode, refsPayload_ok hr, methodsPayload_ok hm hp, annotationsSection_eq]
  simp only [bind, Except.bind, sections, List.flatMap_append, List.flatMap_cons, List.flatMap_nil,
    List.append_assoc, List.append_nil]
  rfl

theorem encode_ok {c : ClassFile} (h : Fits c) :
    encode c = .ok (magic ++ (bytes16 c.version.toNat ++ ([0, 0] ++
      c.sections.flatMap fun s => sectionBytes s.tag s.payload))) :=
  encode_of_counts h.refs.1 h.methods.1 h.params

theorem tag_length {c : ClassFile} : ∀ s ∈ c.sections, s.tag.length = 4 := by
  intro s hs
  rcases List.mem_append.1 hs with hs | hs
  · simp only [List.mem_cons, List.not_mem_nil, or_false] at hs
    rcases hs with rfl | rfl | rfl <;> rfl
  · obtain ⟨a, -, rfl⟩ := Option.map_eq_some_iff.1 (Option.mem_toList.1 hs)
    rfl

theorem readHeader_written {v : UInt16} (hv : v ≤ currentVersion) (rest : List UInt8) :
    readHeader (magic ++ (bytes16 v.toNat ++ ([0, 0] ++ rest))) = .ok (v, rest) := by
  have hlen : ¬(magic ++ (bytes16 v.toNat ++ ([0, 0] ++ rest))).length < 8 := by
    simp [magic, bytes16]
  have htake : (magic ++ (bytes16 v.toNat ++ ([0, 0] ++ rest))).take 4 = magic := rfl
  have hdrop : (magic ++ (bytes16 v.toNat ++ ([0, 0] ++ rest))).drop 4 = bytes16 v.toNat ++ ([0, 0] ++ rest) := rfl
  have hversion : ¬currentVersion.toNat < v.toNat := Nat.not_lt.2 (UInt16.le_iff_toNat_le.1 hv)
  rw [readHeader, if_neg hlen, htake, if_neg (by simp), hdrop, takes_u16 v.toNat_lt]
  simp only [bind, Except.bind, if_neg hversion, UInt16.ofNat_toNat]
  rfl

theorem add_head {c : ClassFile} (h : Fits c) : Parts.add {} ⟨headTag, headPayload c⟩ =
    .ok { head := some ⟨c.name, c.target, c.kind, c.classLevel⟩ } := by
  rw [Parts.add, if_pos rfl, if_neg (by simp), whole_takes (takes_head c h.name h.target)]
  rfl

theorem add_refs {c : ClassFile} (h : Fits c) {p : Parts} (hp : p.refs = none) :
    p.add ⟨refsTag, refsRow c.refs⟩ = .ok { p with refs := some c.refs } := by
  have hhead : refsTag ≠ headTag := by decide
  rw [Parts.add, if_neg hhead, if_pos rfl, if_neg (by simp [hp]), whole_takes (takes_refs h.refs.1 h.refs.2)]
  rfl

theorem add_methods {c : ClassFile} (h : Fits c) {p : Parts} (hp : p.methods = none) :
    p.add ⟨methodsTag, methodsRow c.methods⟩ = .ok { p with methods := some c.methods } := by
  have hhead : methodsTag ≠ headTag := by decide
  have hrefs : methodsTag ≠ refsTag := by decide
  have htakes := takes_methods h.methods.1 fun m hm => ⟨h.methods.2 m hm, Nat.lt_succ_of_le (h.params m hm)⟩
  rw [Parts.add, if_neg hhead, if_neg hrefs, if_pos rfl, if_neg (by simp [hp]), whole_takes htakes]
  rfl

theorem add_annotations (a : Annotations) {p : Parts} (hp : p.annotations = none) :
    p.add ⟨annotationsTag, toBytes a.write⟩ = .ok { p with annotations := some a } := by
  have hhead : annotationsTag ≠ headTag := by decide
  have hrefs : annotationsTag ≠ refsTag := by decide
  have hmethods : annotationsTag ≠ methodsTag := by decide
  rw [Parts.add, if_neg hhead, if_neg hrefs, if_neg hmethods, if_pos rfl, if_neg (by simp [hp]),
    Annotations.read?_write]

theorem foldlM_add {c : ClassFile} (h : Fits c) :
    c.sections.foldlM Parts.add {} =
      .ok ⟨some ⟨c.name, c.target, c.kind, c.classLevel⟩, some c.refs, some c.methods,
        c.annotations.filter fun a => !a.isEmpty⟩ := by
  rw [sections, List.foldlM_append, List.foldlM_cons, add_head h]
  show (List.foldlM Parts.add _ _ >>= _) = _
  rw [List.foldlM_cons, add_refs h rfl]
  show (List.foldlM Parts.add _ _ >>= _) = _
  rw [List.foldlM_cons, add_methods h rfl]
  show List.foldlM Parts.add _ _ = _
  cases c.annotations.filter fun a => !a.isEmpty with
  | none => rfl
  | some a =>
    show List.foldlM Parts.add _ [_] = _
    rw [List.foldlM_cons, add_annotations a rfl]
    rfl

theorem length_le_flatMap (ss : List Section) :
    ss.length ≤ (ss.flatMap fun s => sectionBytes s.tag s.payload).length := by
  induction ss with
  | nil => exact Nat.le_refl 0
  | cons s ss ih =>
    rw [List.flatMap_cons, List.length_append, sectionBytes, List.length_append, List.length_append]
    simp only [List.length_cons, bytes32]
    omega

def withoutEmptyAnnotations (c : ClassFile) : ClassFile :=
  { c with annotations := c.annotations.filter fun a => !a.isEmpty }

theorem decode_written {c : ClassFile} (h : Fits c) {bytes : List UInt8} (hb : encode c = .ok bytes) :
    decode bytes = .ok c.withoutEmptyAnnotations := by
  rw [encode_ok h] at hb
  obtain rfl := Except.ok.inj hb
  have hcut := cutSections_flatMap (length_le_flatMap c.sections) fun s hs => ⟨tag_length s hs, h.payloads s hs⟩
  rw [decode, readHeader_written h.version]
  simp only [bind, Except.bind, hcut, foldlM_add h]
  rfl

/-- A class is read back from its written form, without annotations if they were empty. -/
theorem decode_encode {c : ClassFile} (h : Fits c) :
    ∃ bytes, encode c = .ok bytes ∧ decode bytes = .ok c.withoutEmptyAnnotations :=
  ⟨_, encode_ok h, decode_written h (encode_ok h)⟩

/-- A class with characters of every length in bytes, among them ones that are escaped in annotations. -/
def greeter : ClassFile where
  version := 1
  name := "app.Grüßer"
  target := "host.Greeter"
  kind := .interface
  classLevel := true
  refs := ["scopelink.runtime.Val", "app.挨拶"]
  methods := [⟨"greet", ⟨.object, [.long, .object]⟩, .script⟩, ⟨"close", ⟨.boolean, []⟩, .super⟩]
  annotations := some ⟨some "host \"a\"", .ofList [("line", "1\n"), ("sign", "😀\x01")]⟩

theorem decode_encode_greeter : Fits greeter ∧ ∃ bytes, encode greeter = .ok bytes ∧ decode bytes = .ok greeter := by
  have hfits : Fits greeter := by
    refine ⟨?_, ?_, ?_, ?_, ?_, ?_, ?_⟩
    all_goals decide +kernel
  exact ⟨hfits, decode_encode hfits⟩

end ScriptHost.ClassFile
