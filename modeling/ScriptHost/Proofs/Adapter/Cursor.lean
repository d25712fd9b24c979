import ScriptHost.Proofs.Adapter.Grammar

/-!
# Reading at a place

A class can be read with an index that moves over its bytes, without taking them apart. Here every byte and
every range of bytes is asked for by index, and an index out of range ends the reading without any answer
(`none`), which is no fault of the bytes. Reading at a place follows reading from the front step by step
(`Tracks`), so that it answers for all bytes, and as `decode` does (`decode_eq`).
-/

namespace ScriptHost.ClassFile.Cursor

/-- Reading at a place of the bytes: what is read, and the place after it. -/
def Reading (α : Type) : Type := List UInt8 → Nat → Option (Except DecodeError (α × Nat))

namespace Reading

variable {α β : Type}

def at' (x : Reading α) (bs : List UInt8) (i : Nat) : Option (Except DecodeError (α × Nat)) := x bs i

def bind (x : Reading α) (f : α → Reading β) : Reading β := fun bs i =>
  match x.at' bs i with
  | some (.ok (a, j)) => (f a).at' bs j
  | some (.error e) => some (.error e)
  | none => none

instance : Monad Reading where
  pure a := fun _ i => some (.ok (a, i))
  bind := bind

def fail (e : DecodeError) : Reading α := fun _ _ => some (.error e)

theorem bind_ok {x : Reading α} {f : α → Reading β} {bs : List UInt8} {i j : Nat} {a : α}
    (h : x.at' bs i = some (.ok (a, j))) : (x >>= f).at' bs i = (f a).at' bs j := by
  have hbind : (x >>= f).at' bs i = x.bind f bs i := rfl
  rw [hbind, bind, h]

theorem bind_error {x : Reading α} {f : α → Reading β} {bs : List UInt8} {i : Nat} {e : DecodeError}
    (h : x.at' bs i = some (.error e)) : (x >>= f).at' bs i = some (.error e) := by
  have hbind : (x >>= f).at' bs i = x.bind f bs i := rfl
  rw [hbind, bind, h]

def found (o : Option α) (e : DecodeError) : Reading α :=
  match o with
  | some a => pure a
  | none => fail e

def lift (x : Option (Except DecodeError α)) : Reading α := fun _ i => x.map fun r => r.map fun a => (a, i)

def atEnd : Reading Bool := fun bs i => some (.ok (decide (bs.length ≤ i), i))

def outOfRange : Reading α := fun _ _ => none

end Reading

/-! ## Numbers and texts -/

def slice? (bs : List UInt8) (i j : Nat) : Option (List UInt8) :=
  if i ≤ j ∧ j ≤ bs.length then some ((bs.take j).drop i) else none

def readU8 : Reading UInt8 := fun bs i =>
  if bs.length ≤ i then some (.error (.unexpectedEnd .u8)) else bs[i]?.map fun b => .ok (b, i + 1)

def readBytes (n : Nat) (missing : DecodeError) : Reading (List UInt8) := fun bs i =>
  if bs.length < i + n then some (.error missing) else (slice? bs i (i + n)).map fun s => .ok (s, i + n)

def readU16 : Reading Nat := do
  match ← readBytes 2 (.unexpectedEnd .u16) with
  | [a, b] => return a.toNat + 256 * b.toNat
  | _ => .outOfRange

def readU32 : Reading Nat := do
  match ← readBytes 4 (.unexpectedEnd .u32) with
  | [a, b, c, d] => return a.toNat + 256 * b.toNat + 65536 * c.toNat + 16777216 * d.toNat
  | _ => .outOfRange

def readString : Reading String := do
  let len ← readU32
  let bytes ← readBytes len (.unexpectedEnd .string)
  .found (Text.ofBytes? bytes) .invalidText

def readType : Reading Ty := do
  let b ← readU8
  .found (Ty.ofTag? b) (.typeTag b)

def readKind : Reading TypeKind := do
  let b ← readU8
  if b = 0 then return .interface
  else if b = 1 then return .classType
  else .fail (.kindTag b)

def readDispatch : Reading Dispatch := do
  let b ← readU8
  if b = 0 then return .script
  else if b = 1 then return .super
  else if b = 2 then return .unsupported
  else .fail (.dispatchTag b)

def readMany {α : Type} (read : Reading α) : Nat → Reading (List α)
  | 0 => return []
  | n + 1 => do
    let x ← read
    let xs ← readMany read n
    return x :: xs

/-! ## Payloads -/

def readHead : Reading Head := do
  let name ← readString
  let target ← readString
  let kind ← readKind
  let level ← readU8
  return ⟨name, target, kind, level != 0⟩

def readRefs : Reading (List String) := do
  let count ← readU32
  readMany readString count

def readMethod : Reading MethodEntry := do
  let name ← readString
  let ret ← readType
  let arity ← readU16
  let params ← readMany readType arity
  let dispatch ← readDispatch
  return ⟨name, ⟨ret, params⟩, dispatch⟩

def readMethods : Reading (List MethodEntry) := do
  let count ← readU32
  readMany readMethod count

def whole {α : Type} (part : Part) (read : Reading α) (payload : List UInt8) : Option (Except DecodeError α) :=
  (read.at' payload 0).map fun r => do
    let (x, i) ← r
    if i = payload.length then .ok x else .error (.trailing part)

/-! ## Sections -/

def readSection : Reading Section := do
  let tag ← readBytes 4 (.unexpectedEnd .sectionTag)
  let len ← readU32
  let payload ← readBytes len .overrun
  return ⟨tag, payload⟩

def fill {α : Type} (part : Part) (known : Option α) (x : Option (Except DecodeError α)) (put : α → Parts) :
    Option (Except DecodeError Parts) :=
  if known.isSome then some (.error (.duplicate part)) else x.map fun r => put <$> r

def add (p : Parts) (s : Section) : Option (Except DecodeError Parts) :=
  if s.tag = headTag then fill .head p.head (whole .head readHead s.payload) fun h => { p with head := some h }
  else if s.tag = refsTag then fill .refs p.refs (whole .refs readRefs s.payload) fun rs => { p with refs := some rs }
  else if s.tag = methodsTag then
    fill .methods p.methods (whole .methods readMethods s.payload) fun ms => { p with methods := some ms }
  else if s.tag = annotationsTag then
    fill .annotations p.annotations (some (match Annotations.read? s.payload with
      | some a => .ok a
      | none => .error .annotations)) fun a => { p with annotations := some a }
  else some (.ok p)

/-- The sections up to the end, each read before the next is looked at. The number of bytes that are left bounds
how many there are. -/
def readSections : Nat → Parts → Reading Parts
  | 0, p => do if ← .atEnd then return p else .outOfRange
  | n + 1, p => do
    if ← .atEnd then return p
    else
      let s ← readSection
      readSections n (← .lift (add p s))

/-- What follows the magic word, with at most as many sections as given. -/
def readBody (n : Nat) : Reading ClassFile := do
  let version ← readU16
  let _ ← readU16
  if currentVersion.toNat < version then .fail (.version version)
  else
    let p ← readSections n {}
    .lift (some (p.toClass (UInt16.ofNat version)))

def decode (bs : List UInt8) : Option (Except DecodeError ClassFile) :=
  if bs.length < 8 then some (.error .tooSmall)
  else do
    if (← slice? bs 0 4) ≠ magic then some (.error .badMagic)
    else ((readBody (bs.length - 8)).at' bs 4).map fun r => r.map Prod.fst

/-! ## Both readings agree -/

/-- From every place, what is read is what the reader takes from the bytes that are left, and the place after it
is where the reader stops. -/
def Tracks {α : Type} (x : Reading α) (read : Reader α) : Prop :=
  ∀ bs i, i ≤ bs.length →
    (∃ e, read (bs.drop i) = .error e ∧ x.at' bs i = some (.error e)) ∨
      ∃ a j, j ≤ bs.length ∧ read (bs.drop i) = .ok (a, bs.drop j) ∧ x.at' bs i = some (.ok (a, j))

section

variable {α β : Type}

theorem tracks_pure (a : α) : Tracks (pure a) fun bs => .ok (a, bs) :=
  fun _ i hi => .inr ⟨a, i, hi, rfl, rfl⟩

theorem tracks_fail (e : DecodeError) : Tracks (.fail e : Reading α) fun _ => .error e :=
  fun _ _ _ => .inl ⟨e, rfl, rfl⟩

theorem Tracks.bind {x : Reading α} {read : Reader α} {f : α → Reading β} {g : α → Reader β} (hx : Tracks x read)
    (hf : ∀ a, Tracks (f a) (g a)) : Tracks (x >>= f) fun bs => read bs >>= fun r => g r.1 r.2 := by
  intro bs i hi
  dsimp only
  rcases hx bs i hi with ⟨e, hr, hx⟩ | ⟨a, j, hj, hr, hx⟩
  · rw [hr, Reading.bind_error hx]
    exact .inl ⟨e, rfl, rfl⟩
  · rw [hr, Reading.bind_ok hx]
    exact hf a bs j hj

end

theorem slice?_eq_some {bs : List UInt8} {i n : Nat} (h : i + n ≤ bs.length) :
    slice? bs i (i + n) = some ((bs.drop i).take n) := by
  rw [slice?, if_pos ⟨Nat.le_add_right i n, h⟩, List.drop_take, Nat.add_sub_cancel_left]

theorem tracks_u8 : Tracks readU8 ClassFile.readU8 := by
  intro bs i hi
  rw [Reading.at', readU8]
  by_cases h : bs.length ≤ i
  · rw [if_pos h, List.drop_of_length_le h]
    exact .inl ⟨_, rfl, rfl⟩
  · have hlt := Nat.not_le.1 h
    rw [if_neg h, List.drop_eq_getElem_cons hlt, List.getElem?_eq_getElem hlt]
    exact .inr ⟨bs[i], i + 1, hlt, rfl, rfl⟩

def takeBytes (n : Nat) (missing : DecodeError) : Reader (List UInt8) := fun bs =>
  if isShort bs n then .error missing else .ok (bs.take n, bs.drop n)

theorem tracks_bytes (n : Nat) (missing : DecodeError) : Tracks (readBytes n missing) (takeBytes n missing) := by
  intro bs i hi
  have hshort : isShort (bs.drop i) n = true ↔ bs.length < i + n := by
    rw [isShort_iff, List.length_drop]
    omega
  rw [Reading.at', readBytes, takeBytes]
  by_cases h : bs.length < i + n
  · rw [if_pos h, if_pos (hshort.2 h)]
    exact .inl ⟨_, rfl, rfl⟩
  · rw [if_neg h, if_neg (mt hshort.1 h), slice?_eq_some (Nat.not_lt.1 h), List.drop_drop]
    exact .inr ⟨_, i + n, Nat.not_lt.1 h, rfl, rfl⟩

theorem tracks_u16 : Tracks readU16 ClassFile.readU16 := by
  intro bs i hi
  have hbytes := tracks_bytes 2 (.unexpectedEnd .u16) bs i hi
  rw [readU16]
  match hd : bs.drop i, hbytes with
  | [], .inl ⟨_, hr, hx⟩ | [_], .inl ⟨_, hr, hx⟩ =>
    cases hr
    rw [Reading.bind_error hx]
    exact .inl ⟨_, rfl, rfl⟩
  | a :: b :: rest, .inr ⟨_, j, hj, hr, hx⟩ =>
    obtain ⟨rfl, hrest⟩ := Prod.mk.inj (Except.ok.inj hr)
    rw [Reading.bind_ok hx]
    exact .inr ⟨_, j, hj, by rw [← hrest]; rfl, rfl⟩

theorem tracks_u32 : Tracks readU32 ClassFile.readU32 := by
  intro bs i hi
  have hbytes := tracks_bytes 4 (.unexpectedEnd .u32) bs i hi
  rw [readU32]
  match hd : bs.drop i, hbytes with
  | [], .inl ⟨_, hr, hx⟩ | [_], .inl ⟨_, hr, hx⟩ | [_, _], .inl ⟨_, hr, hx⟩ | [_, _, _], .inl ⟨_, hr, hx⟩ =>
    cases hr
    rw [Reading.bind_error hx]
    exact .inl ⟨_, rfl, rfl⟩
  | a :: b :: c :: d :: rest, .inr ⟨_, j, hj, hr, hx⟩ =>
    obtain ⟨rfl, hrest⟩ := Prod.mk.inj (Except.ok.inj hr)
    rw [Reading.bind_ok hx]
    exact .inr ⟨_, j, hj, by rw [← hrest]; rfl, rfl⟩

theorem tracks_found {α : Type} (o : Option α) (e : DecodeError) :
    Tracks (.found o e) fun bs => match o with | some a => .ok (a, bs) | none => .error e := by
  cases o with
  | some a => exact tracks_pure a
  | none => exact tracks_fail e

theorem Tracks.congr {α : Type} {x : Reading α} {read read' : Reader α} (h : Tracks x read)
    (heq : ∀ bs, read' bs = read bs) : Tracks x read' := by
  intro bs i hi
  rw [heq]
  exact h bs i hi

theorem tracks_string : Tracks readString ClassFile.readString := by
  have hread := tracks_u32.bind fun len =>
    (tracks_bytes len (.unexpectedEnd .string)).bind fun s => tracks_found (Text.ofBytes? s) .invalidText
  refine hread.congr fun bs => ?_
  rw [ClassFile.readString]
  congr 1
  funext r
  obtain ⟨len, rest⟩ := r
  dsimp only [takeBytes]
  by_cases h : isShort rest len = true
  · rw [if_pos h, if_pos h]
    rfl
  · rw [if_neg h, if_neg h]
    simp only [bind, Except.bind]
    cases Text.ofBytes? (rest.take len) <;> rfl

theorem tracks_type : Tracks readType ClassFile.readType := by
  have hread := tracks_u8.bind fun b => tracks_found (Ty.ofTag? b) (.typeTag b)
  refine hread.congr fun bs => ?_
  rw [ClassFile.readType]
  congr 1
  funext r
  obtain ⟨b, rest⟩ := r
  dsimp only
  cases Ty.ofTag? b <;> rfl

theorem tracks_ite {α : Type} {p : Prop} [Decidable p] {x y : Reading α} {read read' : Reader α}
    (hx : Tracks x read) (hy : Tracks y read') :
    Tracks (if p then x else y) fun bs => if p then read bs else read' bs := by
  by_cases h : p
  · simp only [if_pos h]
    exact hx
  · simp only [if_neg h]
    exact hy

theorem tracks_kind : Tracks readKind ClassFile.readKind :=
  tracks_u8.bind fun b => tracks_ite (tracks_pure _) (tracks_ite (tracks_pure _) (tracks_fail (.kindTag b)))

theorem tracks_dispatch : Tracks readDispatch ClassFile.readDispatch :=
  tracks_u8.bind fun b => tracks_ite (tracks_pure _) (tracks_ite (tracks_pure _)
    (tracks_ite (tracks_pure _) (tracks_fail (.dispatchTag b))))

theorem tracks_many {α : Type} {x : Reading α} {read : Reader α} (h : Tracks x read) :
    ∀ n, Tracks (readMany x n) (ClassFile.readMany read n)
  | 0 => tracks_pure []
  | n + 1 => h.bind fun a => (tracks_many h n).bind fun as => tracks_pure (a :: as)

theorem tracks_head : Tracks readHead ClassFile.readHead :=
  tracks_string.bind fun name => tracks_string.bind fun target => tracks_kind.bind fun kind =>
    tracks_u8.bind fun level => tracks_pure (Head.mk name target kind (level != 0))

theorem tracks_refs : Tracks readRefs ClassFile.readRefs :=
  tracks_u32.bind fun count => tracks_many tracks_string count

theorem tracks_method : Tracks readMethod ClassFile.readMethod :=
  tracks_string.bind fun name => tracks_type.bind fun ret => tracks_u16.bind fun arity =>
    (tracks_many tracks_type arity).bind fun params => tracks_dispatch.bind fun dispatch =>
      tracks_pure (MethodEntry.mk name ⟨ret, params⟩ dispatch)

theorem tracks_methods : Tracks readMethods ClassFile.readMethods :=
  tracks_u32.bind fun count => tracks_many tracks_method count

theorem whole_eq {α : Type} {x : Reading α} {read : Reader α} (h : Tracks x read) (part : Part)
    (payload : List UInt8) : whole part x payload = some (ClassFile.whole part read payload) := by
  rw [whole, ClassFile.whole]
  rcases h payload 0 (Nat.zero_le _) with ⟨e, hr, hx⟩ | ⟨a, j, hj, hr, hx⟩
  · rw [List.drop_zero] at hr
    rw [hr, hx]
    rfl
  · rw [List.drop_zero] at hr
    rw [hr, hx]
    have hend : (payload.drop j).isEmpty = true ↔ j = payload.length := by
      rw [List.isEmpty_iff, List.drop_eq_nil_iff]
      omega
    by_cases hj : j = payload.length
    · simp [bind, Except.bind, hj]
    · simp [bind, Except.bind, hj]
      omega

theorem tracks_section : Tracks readSection cutSection := by
  have hread := (tracks_bytes 4 (.unexpectedEnd .sectionTag)).bind fun tag => tracks_u32.bind fun len =>
    (tracks_bytes len .overrun).bind fun payload => tracks_pure (Section.mk tag payload)
  refine hread.congr fun bs => ?_
  rw [cutSection, takeBytes]
  split
  · rfl
  · show (ClassFile.readU32 (bs.drop 4) >>= _) = ClassFile.readU32 (bs.drop 4) >>= _
    congr 1
    funext r
    obtain ⟨len, rest⟩ := r
    dsimp only [takeBytes]
    by_cases h : isShort rest len = true
    · rw [if_pos h, if_pos h]
      rfl
    · rw [if_neg h, if_neg h]
      rfl

theorem add_eq (p : Parts) (s : Section) : add p s = some (p.add s) := by
  rw [add, Parts.add, whole_eq tracks_head, whole_eq tracks_refs, whole_eq tracks_methods]
  simp only [fill]
  split
  · split <;> rfl
  · split
    · split <;> rfl
    · split
      · split <;> rfl
      · split
        · split
          · rfl
          · cases Annotations.read? s.payload <;> rfl
        · rfl

/-- The sections that are cut off, added one by one until a fault. -/
def addSections (n : Nat) (p : Parts) (body : List UInt8) : Except DecodeError Parts := do
  let (sections, fault) := cutSections n body
  let parts ← sections.foldlM Parts.add p
  match fault with
  | some e => .error e
  | none => .ok parts

theorem decode_of_readHeader {bs body : List UInt8} {version : UInt16} (h : readHeader bs = .ok (version, body)) :
    ClassFile.decode bs = addSections body.length {} body >>= fun parts => parts.toClass version := by
  rw [ClassFile.decode, h, addSections]
  simp only [bind, Except.bind]
  cases (cutSections body.length body).1.foldlM Parts.add {} with
  | error e => rfl
  | ok parts => cases (cutSections body.length body).2 <;> rfl

theorem cutSections_fault {bs : List UInt8} {e : DecodeError} (hcut : cutSection bs = .error e) (hne : bs ≠ [])
    (n : Nat) : cutSections (n + 1) bs = ([], some e) := by
  cases bs with
  | nil => exact absurd rfl hne
  | cons b bs => simp only [cutSections, hcut]

theorem atEnd_at (bs : List UInt8) (i : Nat) :
    Reading.atEnd.at' bs i = some (.ok (decide (bs.length ≤ i), i)) := rfl

theorem readSections_eq (bs : List UInt8) (n : Nat) (p : Parts) {i : Nat} (hi : i ≤ bs.length)
    (hn : bs.length - i ≤ n) :
    (readSections n p).at' bs i = some ((addSections n p (bs.drop i)).map fun q => (q, bs.length)) := by
  induction n generalizing p i with
  | zero =>
    obtain rfl : i = bs.length := by omega
    rw [readSections, Reading.bind_ok (atEnd_at bs _), decide_eq_true (Nat.le_refl _), if_pos rfl]
    rfl
  | succ n ih =>
    rw [readSections, Reading.bind_ok (atEnd_at bs i)]
    by_cases hend : bs.length ≤ i
    · obtain rfl : i = bs.length := by omega
      rw [decide_eq_true hend, if_pos rfl, List.drop_length]
      rfl
    · have hne : bs.drop i ≠ [] := mt List.drop_eq_nil_iff.1 hend
      rw [decide_eq_false hend, if_neg Bool.false_ne_true, addSections]
      rcases tracks_section bs i hi with ⟨e, hr, hx⟩ | ⟨s, j, hj, hr, hx⟩
      · rw [Reading.bind_error hx, cutSections_fault hr hne]
        rfl
      · have hprogress := cutSection_lt hr
        rw [List.length_drop, List.length_drop] at hprogress
        have hlift : (Reading.lift (add p s)).at' bs j = some ((p.add s).map fun q => (q, j)) := by
          rw [add_eq]
          rfl
        rw [Reading.bind_ok hx, cutSections_succ hr hne]
        simp only [List.foldlM_cons]
        cases hadd : p.add s with
        | error e =>
          rw [hadd] at hlift
          rw [Reading.bind_error hlift]
          rfl
        | ok q =>
          rw [hadd] at hlift
          rw [Reading.bind_ok hlift, ih q hj (by omega)]
          rfl

theorem readU16_at (bs : List UInt8) (i : Nat) (h : i + 2 ≤ bs.length) :
    ∃ n, ClassFile.readU16 (bs.drop i) = .ok (n, bs.drop (i + 2)) ∧ readU16.at' bs i = some (.ok (n, i + 2)) := by
  have hlen : (bs.drop i).length = bs.length - i := List.length_drop
  rcases tracks_u16 bs i (by omega) with ⟨e, hr, -⟩ | ⟨n, j, hj, hr, hx⟩
  · match hd : bs.drop i, hr with
    | [], _ | [_], _ =>
      rw [hd] at hlen
      simp at hlen
      omega
  · obtain ⟨front, ⟨-, rfl⟩, hbs⟩ := (parses_u16 _ _ _).1 hr
    have hj' := congrArg List.length hbs
    rw [hlen, List.length_append, List.length_drop] at hj'
    simp only [bytes16, List.length_cons, List.length_nil] at hj'
    obtain rfl : j = i + 2 := by omega
    exact ⟨n, hr, hx⟩

/-- Reading at a place answers for all bytes, and as reading from the front does: no index is out of range. -/
theorem decode_eq (bs : List UInt8) : decode bs = some (ClassFile.decode bs) := by
  have hfault : ∀ e, readHeader bs = .error e → ClassFile.decode bs = .error e := fun e h => by
    rw [ClassFile.decode, h]
    rfl
  rw [decode]
  by_cases hshort : bs.length < 8
  · rw [if_pos hshort, hfault .tooSmall (if_pos hshort)]
  · have hslice : slice? bs 0 4 = some (bs.take 4) := by
      have h := slice?_eq_some (show 0 + 4 ≤ bs.length by omega)
      rwa [List.drop_zero] at h
    rw [if_neg hshort, hslice, Option.bind_eq_bind, Option.bind_some]
    by_cases hmagic : bs.take 4 = magic
    · obtain ⟨version, hversion, hversion'⟩ := readU16_at bs 4 (by omega)
      obtain ⟨_, -, hreserved⟩ := readU16_at bs 6 (by omega)
      have hheader : readHeader bs =
          if currentVersion.toNat < version then .error (.version version)
          else .ok (UInt16.ofNat version, bs.drop 8) := by
        rw [readHeader, if_neg hshort, if_neg (not_not_intro hmagic), hversion]
        simp only [bind, Except.bind, List.drop_drop]
      rw [if_neg (not_not_intro hmagic), readBody, Reading.bind_ok hversion', Reading.bind_ok hreserved]
      by_cases hold : currentVersion.toNat < version
      · rw [if_pos hold] at hheader ⊢
        rw [hfault _ hheader]
        rfl
      · have hsections := readSections_eq bs (bs.length - 8) {} (show 8 ≤ bs.length by omega) (Nat.le_refl _)
        rw [if_neg hold] at hheader ⊢
        rw [decode_of_readHeader hheader, List.length_drop]
        cases hadd : addSections (bs.length - 8) {} (bs.drop 8) with
        | error e =>
          rw [hadd] at hsections
          rw [Reading.bind_error hsections]
          rfl
        | ok p =>
          rw [hadd] at hsections
          rw [Reading.bind_ok hsections]
          show some _ = some (p.toClass (UInt16.ofNat version))
          cases p.toClass (UInt16.ofNat version) <;> rfl
    · have hheader : readHeader bs = .error .badMagic := by
        rw [readHeader, if_neg hshort, if_pos hmagic]
      rw [if_pos hmagic, hfault _ hheader]

end ScriptHost.ClassFile.Cursor

namespace ScriptHost.ClassFile

theorem refs_of_sections {bs body : List UInt8} {v : UInt16} {r r' : UInt8} {ss : List Section} {c : ClassFile}
    (hbs : bs = headerBytes v r r' ++ body) (hrow : Row IsSection body ss) (h : decode bs = .ok c)
    (hnone : payloads refsTag ss = []) : c.refs = [] := by
  rw [hbs, decode_sections_iff hrow] at h
  rcases h.2.2.refs with ⟨-, hrefs⟩ | ⟨p, hp, -⟩
  · exact hrefs
  · rw [hnone] at hp
    cases hp

/-- A class is read from the sentences of the format for it and from nothing else. The version and the known
sections decide which class it is: not their order, nor what is reserved, nor unknown sections; where `REFS` is
missing there are no references. And reading at a place never has an index out of range, for any bytes. -/
theorem decode_grammar (bs : List UInt8) :
    (∀ c, decode bs = .ok c ↔ Sentence bs c) ∧
      (∀ v r r' body ss c, bs = headerBytes v r r' ++ body → Row IsSection body ss → decode bs = .ok c →
        (payloads refsTag ss = [] → c.refs = []) ∧
          ∀ q q' body' ss', Row IsSection body' ss' →
            (ss.filter fun s => s.IsKnown).Perm (ss'.filter fun s => s.IsKnown) →
            decode (headerBytes v q q' ++ body') = .ok c) ∧
      Cursor.decode bs = some (decode bs) := by
  refine ⟨fun c => decode_iff, ?_, Cursor.decode_eq bs⟩
  intro v r r' body ss c hbs hrow h
  refine ⟨refs_of_sections hbs hrow h, fun q q' body' ss' hrow' hperm => ?_⟩
  rw [hbs, decode_sections_iff hrow] at h
  obtain ⟨hv, hversion, hspells⟩ := h
  exact (decode_sections_iff hrow').2 ⟨hv, hversion, hspells.perm hperm⟩

def closer : ClassFile where
  version := 1
  name := "app.Closer"
  target := "host.Closer"
  kind := .interface
  classLevel := true
  refs := []
  methods := [⟨"close", ⟨.boolean, []⟩, .super⟩]
  annotations := some ⟨some "host", .ofList []⟩

def closerHead : Section := ⟨headTag, textBytes "app.Closer" ++ textBytes "host.Closer" ++ [0, 7]⟩

def closerMethods : Section :=
  ⟨methodsTag, [1, 0, 0, 0] ++ textBytes "close" ++ [Ty.boolean.tag, 0, 0, 1]⟩

def closerAnnotations : Section :=
  ⟨annotationsTag, Text.toBytes "\x7b\"target_domain\": \"host\"\x7d"⟩

/-- The same class in two orders, once with sections that are not known. -/
theorem decode_grammar_closer :
    let ss := [closerHead, closerMethods, closerAnnotations]
    let ss' := [⟨[1, 2, 3, 4], [5]⟩, closerAnnotations, closerMethods, ⟨[1, 2, 3, 4], []⟩, closerHead]
    let body := ss.flatMap fun s => sectionBytes s.tag s.payload
    let body' := ss'.flatMap fun s => sectionBytes s.tag s.payload
    Row IsSection body ss ∧ Row IsSection body' ss' ∧ Sentence (headerBytes 1 0 0 ++ body) closer ∧
      closer.refs = [] ∧ decode (headerBytes 1 8 9 ++ body') = .ok closer := by
  intro ss ss' body body'
  have hrow : Row IsSection body ss := (cutSections_eq_iff body ss).1 (by decide +kernel)
  have hrow' : Row IsSection body' ss' := (cutSections_eq_iff body' ss').1 (by decide +kernel)
  have hread : decode (headerBytes 1 0 0 ++ body) = .ok closer := by decide +kernel
  obtain ⟨hiff, hsections, -⟩ := decode_grammar (headerBytes 1 0 0 ++ body)
  obtain ⟨hrefs, hsame⟩ := hsections 1 0 0 body ss closer rfl hrow hread
  exact ⟨hrow, hrow', (hiff closer).1 hread, hrefs (by decide), hsame 8 9 body' ss' hrow' (by decide +kernel)⟩

end ScriptHost.ClassFile
