import Mathlib.Data.List.Induction
import ScriptHost.Proofs.Adapter.ClassFile

/-!
# The grammar of adapter classes

Which bytes stand for which class, said without a reader: a sentence of the format is the magic word, the
version, two bytes of any kind, and complete sections up to the end. Among the sections one is `HEAD`, one is
`MTHD`, at most one is `REFS` and at most one `META`; whatever else there is, and in which order, does not matter
(`Spells`). Each reader accepts just the sentences of its part (`Parses`), and what is accepted is read to its
value, so a class is read from its sentences and from nothing else (`decode_iff`).
-/

namespace ScriptHost.ClassFile

open Text

/-! ## Sentences -/

abbrev Grammar (α : Type) := List UInt8 → α → Prop

def IsText : Grammar String := fun bs s => (toBytes s).length < 0x100000000 ∧ bs = textBytes s

/-- Records one after another. -/
inductive Row {α : Type} (G : Grammar α) : Grammar (List α)
  | nil : Row G [] []
  | cons {b bs : List UInt8} {x : α} {xs : List α} (hx : G b x) (hxs : Row G bs xs) : Row G (b ++ bs) (x :: xs)

/-- A count of four bytes, and as many records. -/
def Counted {α : Type} (G : Grammar α) : Grammar (List α) := fun bs xs =>
  xs.length < 0x100000000 ∧ ∃ row, Row G row xs ∧ bs = bytes32 xs.length ++ row

/-- Two names, the byte of a kind, and a byte that is zero just where the class is not class-level. -/
def IsHead : Grammar Head := fun bs h =>
  ∃ name target level, IsText name h.name ∧ IsText target h.target ∧ h.classLevel = (level != 0) ∧
    bs = name ++ (target ++ [kindByte h.kind, level])

def IsType : Grammar Ty := fun bs t => bs = [t.tag]

/-- A name, the result type, the parameter types after their number in two bytes, and the byte of a dispatch. -/
def IsMethod : Grammar MethodEntry := fun bs m =>
  ∃ name params, IsText name m.name ∧ m.signature.params.length < 0x10000 ∧ Row IsType params m.signature.params ∧
    bs = name ++ (m.signature.ret.tag ::
      (bytes16 m.signature.params.length ++ (params ++ [dispatchByte m.dispatch])))

/-- A tag of four bytes, the length of the payload, and the payload. -/
def IsSection : Grammar Section := fun bs s =>
  s.tag.length = 4 ∧ s.payload.length < 0x100000000 ∧ bs = sectionBytes s.tag s.payload

def payloads (tag : List UInt8) (ss : List Section) : List (List UInt8) :=
  (ss.filter fun s => s.tag = tag).map Section.payload

/-- The known sections, wherever they stand, spell the class out. -/
structure Spells (ss : List Section) (c : ClassFile) : Prop where
  head : ∃ p, payloads headTag ss = [p] ∧ IsHead p ⟨c.name, c.target, c.kind, c.classLevel⟩
  refs : payloads refsTag ss = [] ∧ c.refs = [] ∨ ∃ p, payloads refsTag ss = [p] ∧ Counted IsText p c.refs
  methods : ∃ p, payloads methodsTag ss = [p] ∧ Counted IsMethod p c.methods
  annotations : payloads annotationsTag ss = [] ∧ c.annotations = none ∨
    ∃ p a, payloads annotationsTag ss = [p] ∧ Annotations.read? p = some a ∧ c.annotations = some a

def headerBytes (version : UInt16) (r r' : UInt8) : List UInt8 := magic ++ (bytes16 version.toNat ++ [r, r'])

/-- The bytes are a sentence of the format for the class. -/
def Sentence : Grammar ClassFile := fun bs c =>
  c.version ≤ currentVersion ∧ ∃ r r' body ss, bs = headerBytes c.version r r' ++ body ∧ Row IsSection body ss ∧
    Spells ss c

/-! ## Readers and their sentences -/

/-- What the reader takes from the front is a sentence, and it takes every sentence whatever follows. -/
def Parses {α : Type} (read : Reader α) (G : Grammar α) : Prop :=
  ∀ bs x rest, read bs = .ok (x, rest) ↔ ∃ front, G front x ∧ bs = front ++ rest

theorem bind_eq_ok {ε α β : Type} {x : Except ε α} {f : α → Except ε β} {b : β} :
    x >>= f = .ok b ↔ ∃ a, x = .ok a ∧ f a = .ok b := by
  cases x with
  | error e =>
    constructor
    · intro h
      cases h
    · rintro ⟨a, ha, -⟩
      cases ha
  | ok a =>
    constructor
    · exact fun h => ⟨a, rfl, h⟩
    · rintro ⟨a', ha, h⟩
      cases ha
      exact h

section

variable {α : Type} {read : Reader α} {G : Grammar α}

theorem Parses.ofTakes (htakes : ∀ bs x, G bs x → Takes read bs x)
    (hfront : ∀ bs x rest, read bs = .ok (x, rest) → ∃ front, G front x ∧ bs = front ++ rest) : Parses read G := by
  intro bs x rest
  refine ⟨hfront bs x rest, ?_⟩
  rintro ⟨front, hg, rfl⟩
  exact htakes front x hg rest

theorem Parses.takes (h : Parses read G) {bs : List UInt8} {x : α} (hg : G bs x) : Takes read bs x :=
  fun rest => (h (bs ++ rest) x rest).2 ⟨bs, hg, rfl⟩

theorem Parses.of_bind {β : Type} (h : Parses read G) {f : α × List UInt8 → Except DecodeError β}
    {bs : List UInt8} {y : β} (hr : read bs >>= f = .ok y) :
    ∃ x front rest, G front x ∧ bs = front ++ rest ∧ f (x, rest) = .ok y := by
  obtain ⟨⟨x, rest⟩, hx, hf⟩ := bind_eq_ok.1 hr
  obtain ⟨front, hg, hbs⟩ := (h bs x rest).1 hx
  exact ⟨x, front, rest, hg, hbs, hf⟩

end

theorem parses_u8 : Parses readU8 fun bs b => bs = [b] := by
  refine .ofTakes (fun bs b h => h ▸ takes_u8 b) fun bs b rest h => ?_
  cases bs with
  | nil => cases h
  | cons b' bs =>
    cases h
    exact ⟨[b], rfl, rfl⟩

theorem bytes16_toNat (a b : UInt8) : bytes16 (a.toNat + 256 * b.toNat) = [a, b] := by
  have ha := a.toNat_lt
  have hb := b.toNat_lt
  rw [bytes16]
  congr 2
  · apply UInt8.toNat.inj
    rw [UInt8.toNat_ofNat']
    omega
  · apply UInt8.toNat.inj
    rw [UInt8.toNat_ofNat']
    omega

theorem bytes32_toNat (a b c d : UInt8) :
    bytes32 (a.toNat + 256 * b.toNat + 65536 * c.toNat + 16777216 * d.toNat) = [a, b, c, d] := by
  have ha := a.toNat_lt
  have hb := b.toNat_lt
  have hc := c.toNat_lt
  have hd := d.toNat_lt
  rw [bytes32]
  congr 4
  all_goals
    apply UInt8.toNat.inj
    rw [UInt8.toNat_ofNat']
    omega

theorem parses_u16 : Parses readU16 fun bs n => n < 0x10000 ∧ bs = bytes16 n := by
  refine .ofTakes (fun bs n h => h.2 ▸ takes_u16 h.1) fun bs n rest h => ?_
  match bs with
  | [] | [_] => cases h
  | a :: b :: bs =>
    cases h
    have ha := a.toNat_lt
    have hb := b.toNat_lt
    exact ⟨[a, b], ⟨by omega, (bytes16_toNat a b).symm⟩, rfl⟩

theorem parses_u32 : Parses readU32 fun bs n => n < 0x100000000 ∧ bs = bytes32 n := by
  refine .ofTakes (fun bs n h => h.2 ▸ takes_u32 h.1) fun bs n rest h => ?_
  match bs with
  | [] | [_] | [_, _] | [_, _, _] => cases h
  | a :: b :: c :: d :: bs =>
    cases h
    have ha := a.toNat_lt
    have hb := b.toNat_lt
    have hc := c.toNat_lt
    have hd := d.toNat_lt
    exact ⟨[a, b, c, d], ⟨by omega, (bytes32_toNat a b c d).symm⟩, rfl⟩

theorem parses_text : Parses readString IsText := by
  refine .ofTakes (fun bs s h => h.2 ▸ takes_string h.1) fun bs s rest hr => ?_
  rw [readString] at hr
  obtain ⟨n, front, tail, ⟨hlt, rfl⟩, rfl, h⟩ := parses_u32.of_bind hr
  dsimp only at h
  split at h
  · cases h
  · next hshort =>
    split at h
    · next s' hs =>
      cases h
      have hlen : n ≤ tail.length := Nat.not_lt.1 fun hlt => hshort ((isShort_iff tail n).2 hlt)
      have hbytes : toBytes s = tail.take n := toBytes_of_ofBytes? hs
      have hcount : (toBytes s).length = n := by rw [hbytes, List.length_take, Nat.min_eq_left hlen]
      refine ⟨textBytes s, ⟨hcount ▸ hlt, rfl⟩, ?_⟩
      rw [textBytes, hcount, hbytes, List.append_assoc, List.take_append_drop]
    · cases h

theorem parses_type : Parses readType IsType := by
  refine .ofTakes (fun bs t h => h ▸ takes_type t) fun bs t rest hr => ?_
  rw [readType] at hr
  obtain ⟨b, front, tail, rfl, rfl, h⟩ := parses_u8.of_bind hr
  dsimp only at h
  split at h
  · next t' ht =>
    cases h
    have htag : t.tag = b := by simpa using List.find?_some ht
    exact ⟨[b], by rw [IsType, htag], rfl⟩
  · cases h

theorem parses_kind : Parses readKind fun bs k => bs = [kindByte k] := by
  refine .ofTakes (fun bs k h => h ▸ takes_kind k) fun bs k rest hr => ?_
  rw [readKind] at hr
  obtain ⟨b, front, tail, rfl, rfl, h⟩ := parses_u8.of_bind hr
  dsimp only at h
  split at h
  · next h0 => cases h; exact ⟨[b], by rw [h0]; rfl, rfl⟩
  · split at h
    · next h1 => cases h; exact ⟨[b], by rw [h1]; rfl, rfl⟩
    · cases h

theorem parses_dispatch : Parses readDispatch fun bs d => bs = [dispatchByte d] := by
  refine .ofTakes (fun bs d h => h ▸ takes_dispatch d) fun bs d rest hr => ?_
  rw [readDispatch] at hr
  obtain ⟨b, front, tail, rfl, rfl, h⟩ := parses_u8.of_bind hr
  dsimp only at h
  split at h
  · next h0 => cases h; exact ⟨[b], by rw [h0]; rfl, rfl⟩
  · split at h
    · next h1 => cases h; exact ⟨[b], by rw [h1]; rfl, rfl⟩
    · split at h
      · next h2 => cases h; exact ⟨[b], by rw [h2]; rfl, rfl⟩
      · cases h

/-! ## Payloads -/

theorem Row.takes {α : Type} {read : Reader α} {G : Grammar α} (h : Parses read G) {bs : List UInt8} {xs : List α}
    (hrow : Row G bs xs) : Takes (readMany read xs.length) bs xs := by
  induction hrow with
  | nil => exact fun _ => rfl
  | @cons b bs x xs hx hxs ih =>
    intro rest
    rw [List.append_assoc, List.length_cons, readMany, h.takes hx]
    simp only [bind, Except.bind, ih rest]
    rfl

theorem Row.ofReadMany {α β : Type} {read : Reader α} {G : Grammar α} (h : Parses read G)
    {f : List α × List UInt8 → Except DecodeError β} {y : β} :
    ∀ (n : Nat) {bs : List UInt8}, readMany read n bs >>= f = .ok y →
      ∃ xs row rest, (xs.length = n ∧ Row G row xs) ∧ bs = row ++ rest ∧ f (xs, rest) = .ok y
  | 0, bs, hr => ⟨[], [], bs, ⟨rfl, .nil⟩, rfl, hr⟩
  | n + 1, bs, hr => by
    rw [readMany, bind_assoc] at hr
    obtain ⟨x, front, tail, hg, rfl, hx⟩ := h.of_bind hr
    dsimp only at hx
    rw [bind_assoc] at hx
    obtain ⟨xs, row, rest, ⟨rfl, hrow⟩, rfl, hxs⟩ := Row.ofReadMany h n hx
    exact ⟨x :: xs, front ++ row, rest, ⟨rfl, .cons hg hrow⟩, (List.append_assoc ..).symm, hxs⟩

theorem parses_counted {α : Type} {read : Reader α} {G : Grammar α} (h : Parses read G) :
    Parses (fun bs => do let (count, bs) ← readU32 bs; readMany read count bs) (Counted G) := by
  refine .ofTakes ?_ fun bs xs rest hr => ?_
  · rintro bs xs ⟨hlen, row, hrow, rfl⟩ rest
    dsimp only
    rw [List.append_assoc, takes_u32 hlen]
    exact hrow.takes h rest
  · obtain ⟨n, front, tail, ⟨hlt, rfl⟩, rfl, hn⟩ := parses_u32.of_bind hr
    dsimp only at hn
    rw [← bind_pure (readMany read n tail)] at hn
    obtain ⟨ys, row, rest', ⟨rfl, hrow⟩, rfl, hy⟩ := Row.ofReadMany h n hn
    cases hy
    exact ⟨_, ⟨hlt, row, hrow, rfl⟩, (List.append_assoc ..).symm⟩

theorem parses_refs : Parses readRefs (Counted IsText) := parses_counted parses_text

theorem parses_head : Parses readHead IsHead := by
  refine .ofTakes ?_ fun bs h rest hr => ?_
  · rintro bs ⟨name, target, kind, classLevel⟩ ⟨n, t, level, hn, ht, rfl, rfl⟩ rest
    have hbytes : n ++ (t ++ [kindByte kind, level]) ++ rest = n ++ (t ++ ([kindByte kind] ++ ([level] ++ rest))) := by
      simp
    rw [hbytes, readHead, parses_text.takes hn]
    simp only [bind, Except.bind, parses_text.takes ht _, takes_kind kind _, takes_u8 _ _]
    rfl
  · rw [readHead] at hr
    obtain ⟨name, n, b₁, hn, rfl, h₁⟩ := parses_text.of_bind hr
    obtain ⟨target, t, b₂, ht, rfl, h₂⟩ := parses_text.of_bind h₁
    obtain ⟨kind, k, b₃, rfl, rfl, h₃⟩ := parses_kind.of_bind h₂
    obtain ⟨level, l, b₄, rfl, rfl, h₄⟩ := parses_u8.of_bind h₃
    cases h₄
    exact ⟨_, ⟨n, t, level, hn, ht, rfl, rfl⟩, by simp⟩

theorem head_length {c : ClassFile} {h : Head} {payload : List UInt8} (hp : IsHead payload h) (hn : h.name = c.name)
    (ht : h.target = c.target) : payload.length = (headPayload c).length := by
  obtain ⟨name, target, level, ⟨-, rfl⟩, ⟨-, rfl⟩, -, rfl⟩ := hp
  simp [headPayload, hn, ht]

theorem parses_method : Parses readMethod IsMethod := by
  refine .ofTakes ?_ fun bs m rest hr => ?_
  · rintro bs ⟨name, ⟨ret, params⟩, dispatch⟩ ⟨n, ps, hn, hlen, hps, rfl⟩ rest
    have hbytes : n ++ (ret.tag :: (bytes16 params.length ++ (ps ++ [dispatchByte dispatch]))) ++ rest =
        n ++ ([ret.tag] ++ (bytes16 params.length ++ (ps ++ ([dispatchByte dispatch] ++ rest)))) := by
      simp
    rw [hbytes, readMethod, parses_text.takes hn]
    simp only [bind, Except.bind, takes_type _ _, takes_u16 hlen _, hps.takes parses_type _, takes_dispatch _ _]
    rfl
  · rw [readMethod] at hr
    obtain ⟨name, n, b₁, hn, rfl, h₁⟩ := parses_text.of_bind hr
    obtain ⟨ret, r, b₂, rfl, rfl, h₂⟩ := parses_type.of_bind h₁
    obtain ⟨arity, a, b₃, ⟨hlt, rfl⟩, rfl, h₃⟩ := parses_u16.of_bind h₂
    obtain ⟨params, ps, b₄, ⟨rfl, hps⟩, rfl, h₄⟩ := Row.ofReadMany parses_type arity h₃
    obtain ⟨dispatch, d, b₅, rfl, rfl, h₅⟩ := parses_dispatch.of_bind h₄
    cases h₅
    exact ⟨_, ⟨n, ps, hn, hlt, hps, rfl⟩, by simp⟩

theorem parses_methods : Parses readMethods (Counted IsMethod) := parses_counted parses_method

theorem whole_eq_ok_iff {α : Type} {read : Reader α} {G : Grammar α} (h : Parses read G) (part : Part)
    {payload : List UInt8} {x : α} : whole part read payload = .ok x ↔ G payload x := by
  constructor
  · intro hr
    rw [whole] at hr
    obtain ⟨y, front, rest, hg, rfl, hy⟩ := h.of_bind hr
    dsimp only at hy
    split at hy
    · next hnil =>
      cases hy
      rwa [List.isEmpty_iff.1 hnil, List.append_nil]
    · cases hy
  · exact fun hg => whole_takes (h.takes hg) part

/-! ## Sections -/

theorem parses_section : Parses cutSection IsSection := by
  refine .ofTakes ?_ fun bs s rest hr => ?_
  · rintro bs s ⟨ht, hp, rfl⟩
    exact takes_section ht hp
  · rw [cutSection] at hr
    split at hr
    · cases hr
    · next hshort =>
      have htag : (bs.take 4).length = 4 := by
        rw [isShort_iff, Nat.not_lt] at hshort
        rw [List.length_take, Nat.min_eq_left hshort]
      obtain ⟨n, front, tail, ⟨hlt, rfl⟩, hdrop, h⟩ := parses_u32.of_bind hr
      dsimp only at h
      split at h
      · cases h
      · next hshort' =>
        cases h
        have hlen : (tail.take n).length = n := by
          rw [isShort_iff, Nat.not_lt] at hshort'
          rw [List.length_take, Nat.min_eq_left hshort']
        refine ⟨_, ⟨htag, hlen.symm ▸ hlt, rfl⟩, ?_⟩
        rw [sectionBytes, hlen, List.append_assoc, List.append_assoc, List.take_append_drop, ← hdrop,
          List.take_append_drop]

theorem Row.flatMap {bs : List UInt8} {ss : List Section} (h : Row IsSection bs ss) :
    bs = ss.flatMap (fun s => sectionBytes s.tag s.payload) ∧
      ∀ s ∈ ss, s.tag.length = 4 ∧ s.payload.length < 0x100000000 := by
  induction h with
  | nil => exact ⟨rfl, fun s hs => nomatch hs⟩
  | cons hx hxs ih =>
    obtain ⟨ht, hp, rfl⟩ := hx
    exact ⟨by rw [List.flatMap_cons, ← ih.1], List.forall_mem_cons.2 ⟨⟨ht, hp⟩, ih.2⟩⟩

theorem cutSection_lt {bs rest : List UInt8} {s : Section} (h : cutSection bs = .ok (s, rest)) :
    rest.length < bs.length := by
  obtain ⟨front, hs, hbs⟩ := (parses_section _ _ _).1 h
  have hlen := congrArg List.length hbs
  rw [hs.2.2, sectionBytes, List.length_append, List.length_append, List.length_append, hs.1] at hlen
  omega

theorem Row.ofCutSections {n : Nat} {bs : List UInt8} (hn : bs.length ≤ n) (h : (cutSections n bs).2 = none) :
    Row IsSection bs (cutSections n bs).1 := by
  induction n generalizing bs with
  | zero =>
    rw [List.length_eq_zero_iff.1 (Nat.le_zero.1 hn)]
    exact .nil
  | succ n ih =>
    cases bs with
    | nil => exact .nil
    | cons b bs =>
      cases hcut : cutSection (b :: bs) with
      | error e =>
        simp only [cutSections, hcut] at h
        cases h
      | ok r =>
        obtain ⟨s, rest⟩ := r
        have hstep := cutSections_succ hcut (List.cons_ne_nil b bs) n
        rw [hstep] at h ⊢
        have hlt := cutSection_lt hcut
        obtain ⟨front, hs, hbs⟩ := (parses_section _ _ _).1 hcut
        rw [hbs]
        exact .cons hs (ih (by omega) h)

/-- The bytes are cut into sections without a fault just where they are a row of them. -/
theorem cutSections_eq_iff (bs : List UInt8) (ss : List Section) :
    cutSections bs.length bs = (ss, none) ↔ Row IsSection bs ss := by
  constructor
  · intro h
    have hrow := Row.ofCutSections (Nat.le_refl _) (congrArg Prod.snd h)
    rwa [h] at hrow
  · intro h
    obtain ⟨rfl, hall⟩ := h.flatMap
    exact cutSections_flatMap (length_le_flatMap ss) hall

theorem payloads_append (tag : List UInt8) (ss : List Section) (s : Section) :
    payloads tag (ss ++ [s]) = payloads tag ss ++ if s.tag = tag then [s.payload] else [] := by
  rw [payloads, payloads, List.filter_append, List.map_append]
  by_cases h : s.tag = tag <;> simp [h]

/-- What is known of a part of which these payloads were read. -/
def Slot {α : Type} (G : Grammar α) (ps : List (List UInt8)) (o : Option α) : Prop :=
  ps = [] ∧ o = none ∨ ∃ p x, ps = [p] ∧ G p x ∧ o = some x

/-- What one more section changes of a part: under the part's tag it must be the first, and a sentence. -/
def Fills {α : Type} (G : Grammar α) (tag : List UInt8) (s : Section) (o o' : Option α) : Prop :=
  if s.tag = tag then o = none ∧ ∃ x, G s.payload x ∧ o' = some x else o' = o

theorem slot_append {α : Type} {G : Grammar α} {tag : List UInt8} {ss : List Section} {s : Section} {o' : Option α} :
    Slot G (payloads tag (ss ++ [s])) o' ↔ ∃ o, Slot G (payloads tag ss) o ∧ Fills G tag s o o' := by
  rw [payloads_append, Slot]
  by_cases h : s.tag = tag
  · simp only [Fills, if_pos h]
    constructor
    · rintro (⟨hnil, -⟩ | ⟨p, x, hp, hx, rfl⟩)
      · simp at hnil
      · obtain ⟨hnil, rfl⟩ : payloads tag ss = [] ∧ s.payload = p := by
          simpa [List.append_eq_singleton_iff] using hp
        exact ⟨none, .inl ⟨hnil, rfl⟩, rfl, x, hx, rfl⟩
    · rintro ⟨o, hslot, rfl, x, hx, rfl⟩
      rcases hslot with ⟨hnil, -⟩ | ⟨p, y, -, -, hy⟩
      · exact .inr ⟨s.payload, x, by rw [hnil]; rfl, hx, rfl⟩
      · cases hy
  · simp only [Fills, if_neg h, List.append_nil]
    exact ⟨fun hslot => ⟨o', hslot, rfl⟩, fun ⟨o, hslot, ho⟩ => ho ▸ hslot⟩

def IsAnnotations : Grammar Annotations := fun bs a => Annotations.read? bs = some a

/-- Each part of what is known, after one more section. -/
def Adds (s : Section) (p p' : Parts) : Prop :=
  Fills IsHead headTag s p.head p'.head ∧ Fills (Counted IsText) refsTag s p.refs p'.refs ∧
    Fills (Counted IsMethod) methodsTag s p.methods p'.methods ∧
    Fills IsAnnotations annotationsTag s p.annotations p'.annotations

theorem fill_eq_ok_iff {α : Type} {o : Option α} {part : Part} {x : Except DecodeError α} {put : α → Parts}
    {p' : Parts} :
    (if o.isSome then .error (.duplicate part) else do return put (← x)) = Except.ok p' ↔
      o = none ∧ ∃ a, x = .ok a ∧ p' = put a := by
  cases o with
  | some a => simp
  | none =>
    rw [if_neg (by simp), bind_eq_ok, and_iff_right rfl]
    exact exists_congr fun a => and_congr_right fun _ => ⟨fun h => (Except.ok.inj h).symm, fun h => h ▸ rfl⟩

theorem add_eq_ok_iff {p p' : Parts} {s : Section} : p.add s = .ok p' ↔ Adds s p p' := by
  obtain ⟨tag, payload⟩ := s
  obtain ⟨head, refs, methods, annotations⟩ := p
  obtain ⟨head', refs', methods', annotations'⟩ := p'
  rw [Parts.add, Adds]
  by_cases hhead : tag = headTag
  · subst hhead
    rw [if_pos rfl, fill_eq_ok_iff]
    simp only [Fills, whole_eq_ok_iff parses_head, Parts.mk.injEq]
    grind [headTag, refsTag, methodsTag, annotationsTag]
  · by_cases hrefs : tag = refsTag
    · subst hrefs
      rw [if_neg hhead, if_pos rfl, fill_eq_ok_iff]
      simp only [Fills, whole_eq_ok_iff parses_refs, Parts.mk.injEq]
      grind [headTag, refsTag, methodsTag, annotationsTag]
    · by_cases hmethods : tag = methodsTag
      · subst hmethods
        rw [if_neg hhead, if_neg hrefs, if_pos rfl, fill_eq_ok_iff]
        simp only [Fills, whole_eq_ok_iff parses_methods, Parts.mk.injEq]
        grind [headTag, refsTag, methodsTag, annotationsTag]
      · rw [if_neg hhead, if_neg hrefs, if_neg hmethods]
        by_cases hannotations : tag = annotationsTag
        · subst hannotations
          rw [if_pos rfl]
          cases hread : Annotations.read? payload <;> cases annotations <;>
            grind [Fills, IsAnnotations, headTag, refsTag, methodsTag, annotationsTag]
        · rw [if_neg hannotations]
          grind [Fills]

theorem foldlM_add_eq_ok_iff {ss : List Section} {p : Parts} :
    ss.foldlM Parts.add {} = .ok p ↔
      Slot IsHead (payloads headTag ss) p.head ∧ Slot (Counted IsText) (payloads refsTag ss) p.refs ∧
        Slot (Counted IsMethod) (payloads methodsTag ss) p.methods ∧
        Slot IsAnnotations (payloads annotationsTag ss) p.annotations := by
  -- the last section is added to what the sections before it are read into
  induction ss using List.reverseRecOn generalizing p with
  | nil =>
    obtain ⟨head, refs, methods, annotations⟩ := p
    show Except.ok _ = Except.ok _ ↔ _
    simp [Slot, payloads, eq_comm]
  | append_singleton ss s ih =>
    rw [List.foldlM_append, bind_eq_ok]
    simp only [slot_append, List.foldlM_cons, List.foldlM_nil, bind_pure, ih, add_eq_ok_iff, Adds]
    constructor
    · rintro ⟨q, ⟨h₁, h₂, h₃, h₄⟩, f₁, f₂, f₃, f₄⟩
      exact ⟨⟨_, h₁, f₁⟩, ⟨_, h₂, f₂⟩, ⟨_, h₃, f₃⟩, ⟨_, h₄, f₄⟩⟩
    · rintro ⟨⟨o₁, h₁, f₁⟩, ⟨o₂, h₂, f₂⟩, ⟨o₃, h₃, f₃⟩, ⟨o₄, h₄, f₄⟩⟩
      exact ⟨⟨o₁, o₂, o₃, o₄⟩, ⟨h₁, h₂, h₃, h₄⟩, f₁, f₂, f₃, f₄⟩

/-! ## Classes -/

theorem readHeader_eq_ok_iff {bs body : List UInt8} {v : UInt16} :
    readHeader bs = .ok (v, body) ↔ v ≤ currentVersion ∧ ∃ r r', bs = headerBytes v r r' ++ body := by
  constructor
  · intro h
    rw [readHeader] at h
    split at h
    · cases h
    · next hlen =>
      split at h
      · cases h
      · next hmagic =>
        rw [ne_eq, Decidable.not_not] at hmagic
        obtain ⟨n, front, tail, ⟨hlt, rfl⟩, hdrop, h⟩ := parses_u16.of_bind h
        dsimp only at h
        split at h
        · cases h
        · next hversion =>
          cases h
          have hn : (UInt16.ofNat n).toNat = n := UInt16.toNat_ofNat_of_lt' hlt
          refine ⟨UInt16.le_iff_toNat_le.2 (hn.symm ▸ Nat.not_lt.1 hversion), ?_⟩
          have hshort := congrArg List.length hdrop
          rw [List.length_drop] at hshort
          rcases tail with _ | ⟨r, _ | ⟨r', tail⟩⟩
          · simp [bytes16] at hshort
            omega
          · simp [bytes16] at hshort
            omega
          · refine ⟨r, r', ?_⟩
            calc bs = bs.take 4 ++ bs.drop 4 := (List.take_append_drop 4 bs).symm
              _ = magic ++ (bytes16 n ++ (r :: r' :: tail)) := by rw [hmagic, hdrop]
              _ = headerBytes (UInt16.ofNat n) r r' ++ tail := by simp [headerBytes, hn]
  · rintro ⟨hv, r, r', rfl⟩
    have hbytes : headerBytes v r r' ++ body = magic ++ (bytes16 v.toNat ++ (r :: r' :: body)) := by
      simp [headerBytes]
    have hlen : ¬(magic ++ (bytes16 v.toNat ++ (r :: r' :: body))).length < 8 := by
      simp [magic, bytes16]
    have htake : (magic ++ (bytes16 v.toNat ++ (r :: r' :: body))).take 4 = magic := rfl
    have hdrop : (magic ++ (bytes16 v.toNat ++ (r :: r' :: body))).drop 4 = bytes16 v.toNat ++ (r :: r' :: body) := rfl
    have hversion : ¬currentVersion.toNat < v.toNat := Nat.not_lt.2 (UInt16.le_iff_toNat_le.1 hv)
    rw [hbytes, readHeader, if_neg hlen, htake, if_neg (by simp), hdrop, takes_u16 v.toNat_lt]
    simp only [bind, Except.bind, if_neg hversion, UInt16.ofNat_toNat]
    rfl

theorem toClass_eq_ok_iff {v : UInt16} {p : Parts} {c : ClassFile} :
    p.toClass v = .ok c ↔ c.version = v ∧ p.head = some ⟨c.name, c.target, c.kind, c.classLevel⟩ ∧
      p.refs.getD [] = c.refs ∧ p.methods = some c.methods ∧ p.annotations = c.annotations := by
  obtain ⟨head, refs, methods, annotations⟩ := p
  obtain ⟨version, name, target, kind, classLevel, refs', methods', annotations'⟩ := c
  cases head with
  | none => simp [Parts.toClass]
  | some h =>
    obtain ⟨name', target', kind', classLevel'⟩ := h
    cases methods with
    | none => simp [Parts.toClass]
    | some ms => grind [Parts.toClass]

theorem slot_some {α : Type} {G : Grammar α} {ps : List (List UInt8)} {x : α} :
    Slot G ps (some x) ↔ ∃ p, ps = [p] ∧ G p x := by
  constructor
  · rintro (⟨-, h⟩ | ⟨p, y, hp, hy, h⟩)
    · cases h
    · cases h
      exact ⟨p, hp, hy⟩
  · rintro ⟨p, hp, hx⟩
    exact .inr ⟨p, x, hp, hx, rfl⟩

theorem slot_refs {ps : List (List UInt8)} {refs : List String} :
    (∃ o, Slot (Counted IsText) ps o ∧ o.getD [] = refs) ↔
      ps = [] ∧ refs = [] ∨ ∃ p, ps = [p] ∧ Counted IsText p refs := by
  constructor
  · rintro ⟨o, ⟨hnil, rfl⟩ | ⟨p, x, hp, hx, rfl⟩, rfl⟩
    · exact .inl ⟨hnil, rfl⟩
    · exact .inr ⟨p, hp, hx⟩
  · rintro (⟨hnil, rfl⟩ | ⟨p, hp, hx⟩)
    · exact ⟨none, .inl ⟨hnil, rfl⟩, rfl⟩
    · exact ⟨some refs, .inr ⟨p, refs, hp, hx, rfl⟩, rfl⟩

theorem spells_iff {v : UInt16} {ss : List Section} {c : ClassFile} :
    (∃ p, ss.foldlM Parts.add {} = .ok p ∧ p.toClass v = .ok c) ↔ c.version = v ∧ Spells ss c := by
  simp only [foldlM_add_eq_ok_iff, toClass_eq_ok_iff]
  constructor
  · rintro ⟨p, ⟨hhead, hrefs, hmethods, hannotations⟩, hv, h₁, h₂, h₃, h₄⟩
    rw [h₁] at hhead
    rw [h₃] at hmethods
    rw [h₄] at hannotations
    exact ⟨hv, slot_some.1 hhead, slot_refs.1 ⟨p.refs, hrefs, h₂⟩, slot_some.1 hmethods, hannotations⟩
  · rintro ⟨hv, hhead, hrefs, hmethods, hannotations⟩
    obtain ⟨refs, hrefs, hgetD⟩ := slot_refs.2 hrefs
    exact ⟨⟨some ⟨c.name, c.target, c.kind, c.classLevel⟩, refs, some c.methods, c.annotations⟩,
      ⟨slot_some.2 hhead, hrefs, slot_some.2 hmethods, hannotations⟩, hv, rfl, hgetD, rfl, rfl⟩

theorem decode_iff {bs : List UInt8} {c : ClassFile} : decode bs = .ok c ↔ Sentence bs c := by
  rw [decode, bind_eq_ok, Sentence]
  constructor
  · rintro ⟨⟨v, body⟩, hheader, h⟩
    obtain ⟨hv, r, r', rfl⟩ := readHeader_eq_ok_iff.1 hheader
    dsimp only at h
    rcases hss : cutSections body.length body with ⟨ss, fault⟩
    rw [hss, bind_eq_ok] at h
    cases fault with
    | some e =>
      obtain ⟨parts, -, h⟩ := h
      cases h
    | none =>
      obtain ⟨rfl, hspells⟩ := spells_iff.1 h
      exact ⟨hv, r, r', body, ss, rfl, (cutSections_eq_iff body ss).1 hss, hspells⟩
  · rintro ⟨hv, r, r', body, ss, rfl, hrow, hspells⟩
    refine ⟨(c.version, body), readHeader_eq_ok_iff.2 ⟨hv, r, r', rfl⟩, ?_⟩
    dsimp only
    rw [(cutSections_eq_iff body ss).2 hrow]
    exact bind_eq_ok.2 (spells_iff.2 ⟨rfl, hspells⟩)

/-! ## What does not matter -/

/-- The section is one that the format knows. -/
def Section.IsKnown (s : Section) : Prop := s.tag ∈ [headTag, refsTag, methodsTag, annotationsTag]

instance (s : Section) : Decidable s.IsKnown := inferInstanceAs (Decidable (_ ∈ _))

theorem payloads_filter_known {tag : List UInt8} (h : tag ∈ [headTag, refsTag, methodsTag, annotationsTag])
    (ss : List Section) : payloads tag (ss.filter fun s => s.IsKnown) = payloads tag ss := by
  rw [payloads, payloads, List.filter_filter]
  congr 1
  refine List.filter_congr fun s _ => ?_
  by_cases hs : s.tag = tag
  · simp [hs, Section.IsKnown, h]
  · simp [hs]

/-- The class that sections spell depends on the known ones, and not on their order. -/
theorem Spells.perm {ss ss' : List Section} {c : ClassFile} (h : Spells ss c)
    (hp : (ss.filter fun s => s.IsKnown).Perm (ss'.filter fun s => s.IsKnown)) : Spells ss' c := by
  have hpayloads : ∀ tag ∈ [headTag, refsTag, methodsTag, annotationsTag],
      (payloads tag ss).Perm (payloads tag ss') := fun tag htag => by
    rw [← payloads_filter_known htag ss, ← payloads_filter_known htag ss']
    exact (hp.filter _).map _
  have hone : ∀ tag ∈ [headTag, refsTag, methodsTag, annotationsTag], ∀ p,
      payloads tag ss = [p] → payloads tag ss' = [p] := fun tag htag p hs =>
    (List.singleton_perm.1 (hs ▸ hpayloads tag htag)).symm
  have hnone : ∀ tag ∈ [headTag, refsTag, methodsTag, annotationsTag],
      payloads tag ss = [] → payloads tag ss' = [] := fun tag htag hs =>
    List.nil_perm.1 (hs ▸ hpayloads tag htag)
  obtain ⟨p, hp₁, hhead⟩ := h.head
  obtain ⟨q, hq, hmethods⟩ := h.methods
  refine ⟨⟨p, hone _ (by simp) p hp₁, hhead⟩, ?_, ⟨q, hone _ (by simp) q hq, hmethods⟩, ?_⟩
  · rcases h.refs with ⟨hnil, hrefs⟩ | ⟨r, hr, hrefs⟩
    · exact .inl ⟨hnone _ (by simp) hnil, hrefs⟩
    · exact .inr ⟨r, hone _ (by simp) r hr, hrefs⟩
  · rcases h.annotations with ⟨hnil, ha⟩ | ⟨r, a, hr, hread, ha⟩
    · exact .inl ⟨hnone _ (by simp) hnil, ha⟩
    · exact .inr ⟨r, a, hone _ (by simp) r hr, hread, ha⟩

theorem headerBytes_inj {v w : UInt16} {r r' q q' : UInt8} {body body' : List UInt8}
    (h : headerBytes v r r' ++ body = headerBytes w q q' ++ body') : v = w ∧ body = body' := by
  simp only [headerBytes, List.append_assoc, List.append_cancel_left_eq] at h
  have hread := takes_u16 v.toNat_lt ([r, r'] ++ body)
  rw [h, takes_u16 w.toNat_lt] at hread
  obtain ⟨hversion, hrest⟩ := Prod.mk.inj (Except.ok.inj hread)
  refine ⟨(UInt16.toNat.inj hversion).symm, ?_⟩
  exact (List.cons.inj (List.cons.inj hrest).2).2.symm

/-- Of a header and sections, the version and the known sections decide what is read. -/
theorem decode_sections_iff {v : UInt16} {r r' : UInt8} {body : List UInt8} {ss : List Section} {c : ClassFile}
    (h : Row IsSection body ss) :
    decode (headerBytes v r r' ++ body) = .ok c ↔ v ≤ currentVersion ∧ c.version = v ∧ Spells ss c := by
  rw [decode_iff]
  constructor
  · rintro ⟨hv, q, q', body', ss', hbytes, hrow, hspells⟩
    obtain ⟨hversion, rfl⟩ := headerBytes_inj hbytes
    have hss : (ss, none) = (ss', none) :=
      ((cutSections_eq_iff body ss).2 h).symm.trans ((cutSections_eq_iff body ss').2 hrow)
    obtain rfl := congrArg Prod.fst hss
    exact ⟨hversion ▸ hv, hversion.symm, hspells⟩
  · rintro ⟨hv, rfl, hspells⟩
    exact ⟨hv, r, r', body, ss, rfl, h, hspells⟩

end ScriptHost.ClassFile
