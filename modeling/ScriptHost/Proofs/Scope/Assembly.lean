import ScriptHost.Proofs.Code.Slots

/-!
# Assembling generated methods

The methods of shared units and of sites, put together step by step: instructions are emitted into a draft, labels
are made, bound and resolved, flags are packed, and local slots and operands are counted in words of sixteen bits,
with every step checked. Where the parameters take no more slots than they may, no step of a unit fails, and what
comes out is its method (`SharedUnit.assemble_ok`). A site is then assembled to its method, or fails with the fault of
a depth or of a program point that cannot be encoded (`Site.assemble_eq`).
-/

namespace ScriptHost

/-! ## Checked steps -/

/-- Operands of the call of a shape, as they are written into the instruction; none for a read. -/
def Shape.operandWord (s : Shape) : Except Fault UInt16 :=
  match s.access with
  | .read _ => .ok 0
  | .call .. => do
    let n ← asInternal s.callOperands
    if n < UInt16.size then .ok (UInt16.ofNat n)
    else .error (.error (.internal (.raised ("too many arguments for scope call " ++ s.symbol.name))))

theorem Shape.fits_of_callOperands {s : Shape} {operands : Nat} (h : s.callOperands = .ok operands) : s.Fits := by
  by_contra hover
  rw [callOperands, if_pos (Nat.lt_of_not_le hover)] at h
  cases h

/-- A read has no parameters beyond the leading ones of its unit. -/
theorem Shape.fits_of_operands {s : Shape} (h : ∃ n, (if s.isCall then s.callOperands else .ok 0) = .ok n) :
    s.Fits := by
  obtain ⟨n, hn⟩ := h
  by_cases hcall : s.isCall = true
  · rw [if_pos hcall] at hn
    exact fits_of_callOperands hn
  · have hnone : s.params = [] := by
      unfold params
      unfold isCall at hcall
      split
      · rfl
      · next ha => simp [ha] at hcall
    rw [Fits, hnone]
    decide

theorem Shape.Fits.unitSignature_le {s : Shape} (hs : s.Fits) : s.unitSignature.paramSlots ≤ maxParamSlots := by
  have hcount : s.unitSignature.paramSlots = fixedSlots + slotCount s.params := by
    simp only [Signature.paramSlots, unitSignature, slotCount, Ty.slots, fixedSlots]
    omega
  rw [hcount]
  exact hs

theorem Shape.Fits.siteSignature_le {s : Shape} (hs : s.Fits) : s.siteSignature.paramSlots ≤ maxParamSlots := by
  have hcount : s.siteSignature.paramSlots = 1 + slotCount s.params := by
    simp only [Signature.paramSlots, siteSignature, slotCount, Ty.slots]
  rw [hcount]
  unfold Fits fixedSlots at hs
  omega

theorem Shape.Fits.paramSlots_unitSignature {s : Shape} (hs : s.Fits) : s.unitSignature.paramSlots < UInt16.size :=
  Nat.lt_of_le_of_lt hs.unitSignature_le (by decide)

theorem Shape.Fits.paramSlots_siteSignature {s : Shape} (hs : s.Fits) : s.siteSignature.paramSlots < UInt16.size :=
  Nat.lt_of_le_of_lt hs.siteSignature_le (by decide)

theorem length_le_slotCount (params : List Ty) : params.length ≤ slotCount params := by
  induction params with
  | nil => exact Nat.le_refl 0
  | cons ty tys ih =>
    have hpos := ty.slots_pos
    rw [List.length_cons, slotCount]
    omega

theorem Shape.operandWord_ok {s : Shape} (hs : s.Fits) :
    ∃ w, s.operandWord = .ok w ∧ (s.isCall = true → w.toNat = 2 + s.params.length) := by
  have hlength := length_le_slotCount s.params
  have hlt : 2 + s.params.length < UInt16.size := by
    unfold Shape.Fits fixedSlots maxParamSlots at hs
    rw [show UInt16.size = 65536 from rfl]
    omega
  have hoperands : s.callOperands = .ok (2 + s.params.length) := if_neg (Nat.not_lt.2 hs)
  unfold operandWord isCall
  cases s.access with
  | read ty => exact ⟨0, rfl, nofun⟩
  | call result params =>
    refine ⟨UInt16.ofNat (2 + s.params.length), ?_, fun _ => UInt16.toNat_ofNat_of_lt' hlt⟩
    rw [hoperands]
    exact if_pos hlt

/-- Flags of the operation at a site of its own: the program point is checked, and packed by a step that insists on
it. -/
def Site.packedFlags (s : Site) : Except Fault SiteFlags :=
  if s.shape.optimistic then
    if SiteFlags.validPoint s.point then (s.shape.flags ||| .optimistic).withPoint! s.point
    else .error (.error (.internal (.pointRange s.point)))
  else .ok s.shape.flags

theorem Site.packedFlags_eq (s : Site) : s.packedFlags = asInternal (s.shape.siteFlags s.point) := by
  unfold packedFlags Shape.siteFlags SiteFlags.withPoint! SiteFlags.withPoint?
  split
  · split <;> rfl
  · rfl

/-! ## Drafts -/

namespace Draft

def emitAll (d : Draft) (is : List Insn) : Draft := is.foldl emit d

theorem emitAll_eq (d : Draft) (is : List Insn) : d.emitAll is = { d with code := d.code ++ is } := by
  induction is generalizing d with
  | nil => simp [emitAll]
  | cons i is ih =>
    rw [emitAll, List.foldl_cons]
    exact (ih (d.emit i)).trans (by simp [emit])

theorem emitAll_append (d : Draft) (is js : List Insn) : d.emitAll (is ++ js) = (d.emitAll is).emitAll js :=
  List.foldl_append

def loadAll (d : Draft) (slot : UInt16) : List Ty → Except Fault Draft
  | [] => .ok d
  | ty :: tys => do
    let next ← countOn slot ty.slots
    (d.emit (.load ty slot.toNat)).loadAll next tys

theorem loadAll_ok {d : Draft} {slot : UInt16} {params : List Ty}
    (h : slot.toNat + slotCount params < UInt16.size) :
    d.loadAll slot params = .ok (d.emitAll (loadParams slot.toNat params)) := by
  induction params generalizing d slot with
  | nil => rfl
  | cons ty tys ih =>
    rw [slotCount, ← Nat.add_assoc] at h
    have hcount := @UInt16.toNat_ofNat_of_lt' (slot.toNat + ty.slots) (by omega)
    rw [← hcount] at h
    rw [loadAll, countOn_iff.2 hcount]
    refine (ih h).trans ?_
    rw [hcount]
    rfl

/-- The method of a begun draft whose catch regions are resolved. -/
def toMethod (d : Draft) (handlers : List Handler) : Method where
  cls := d.cls
  name := d.name
  signature := d.signature
  isStatic := d.isStatic
  code := d.code
  handlers := handlers

theorem finish_begun {d : Draft} {handlers : List Handler} (hbegun : d.begun = true)
    (hslots : d.signature.paramSlots < UInt16.size) (hregions : d.regions.mapM d.handler = .ok handlers) :
    d.finish = .ok (d.toMethod handlers) := by
  obtain ⟨-, w, hw, -⟩ := Signature.counted hslots
  rw [finish, hbegun, hregions, hw]
  rfl

theorem finish_plain {d : Draft} (hbegun : d.begun = true) (hslots : d.signature.paramSlots < UInt16.size)
    (hregions : d.regions = []) : d.finish = .ok (d.toMethod []) := by
  refine finish_begun hbegun hslots ?_
  rw [hregions]
  rfl

theorem finish_region {d : Draft} {r : Region} {h : Handler} (hbegun : d.begun = true)
    (hslots : d.signature.paramSlots < UInt16.size) (hregions : d.regions = [r])
    (hstart : d.bound.lookup r.start.id = some h.start) (hstop : d.bound.lookup r.stop.id = some h.stop)
    (htarget : d.bound.lookup r.target.id = some h.target) (horder : h.start ≤ h.stop) :
    d.finish = .ok (d.toMethod [h]) := by
  have hhandler : d.handler r = .ok h := by
    rw [handler, place, hstart, place, hstop, place, htarget]
    exact if_neg (Nat.not_lt.2 horder)
  refine finish_begun hbegun hslots ?_
  rw [hregions, List.mapM_cons, hhandler]
  rfl

end Draft

/-! ## Operations -/

def Shape.assembleAccess (s : Shape) (operands : UInt16) (flags : SiteFlags) (start : UInt16) (d : Draft) :
    Except Fault Draft :=
  match s.access with
  | .read ty => .ok (d.emit (.dynGet ty s.symbol.name flags))
  | .call result params => do
    let d := d.emitAll [.dynGet .object s.symbol.name s.flags, .convert .object, .undefined]
    let d ← d.loadAll start params
    return d.emit (.dynCall result operands.toNat flags s.symbol.name)

theorem Shape.assembleAccess_ok {s : Shape} (hs : s.Fits) {operands : UInt16}
    (hcount : s.isCall = true → operands.toNat = 2 + s.params.length) (flags : SiteFlags) {start : UInt16}
    (hstart : start.toNat ≤ fixedSlots) (d : Draft) :
    s.assembleAccess operands flags start d = .ok (d.emitAll (s.accessCode flags start.toNat)) := by
  have hslots : start.toNat + slotCount s.params < UInt16.size := by
    unfold Shape.Fits maxParamSlots at hs
    rw [show UInt16.size = 65536 from rfl]
    omega
  unfold assembleAccess accessCode
  unfold isCall params at hcount
  unfold params at hslots
  cases ha : s.access with
  | read ty => rfl
  | call result params =>
    rw [ha] at hcount hslots
    dsimp only at hcount hslots ⊢
    show (Draft.loadAll _ start params >>= fun d => _) = _
    rw [Draft.loadAll_ok hslots, hcount rfl]
    rw [Draft.emitAll_append, Draft.emitAll_append]
    rfl

/-! ## Units -/

/-- Assemble the method of a shared unit. Under an assumption the operation stands between two labels, and its
failures go on at a third. -/
def SharedUnit.assemble (u : SharedUnit) : Except Fault Method := do
  let d ← (Draft.start u.cls u.name u.signature true).begin
  let operands ← u.shape.operandWord
  let d := d.emitAll SharedUnit.walk
  if u.shape.isCall && !u.shape.valueType.isObject then .error (.panic "callables are loaded as objects")
  else if u.shape.optimistic then
    let (first, d) := d.newLabel "begin_try"
    let (last, d) := d.newLabel "end_try"
    let (target, d) := d.newLabel "catch_label"
    let d := (← d.bind first).addRegion ⟨first, last, target⟩
    let d ← u.shape.assembleAccess operands u.shape.unitFlags 3 d
    let d := (← d.bind last).emit (.ret u.shape.returnType)
    let d := (← d.bind target).emitAll SharedUnit.recovery
    d.finish
  else
    let d ← u.shape.assembleAccess operands u.shape.unitFlags 3 d
    (d.emit (.ret u.shape.returnType)).finish

theorem Shape.valueType_call {s : Shape} (h : s.isCall = true) : s.valueType.isObject = true := by
  unfold isCall at h
  unfold valueType
  cases ha : s.access with
  | read ty =>
    rw [ha] at h
    cases h
  | call result params => rfl

theorem SharedUnit.assemble_ok {u : SharedUnit} (hs : u.shape.Fits) : u.assemble = .ok u.method := by
  have hcallable : (u.shape.isCall && !u.shape.valueType.isObject) = false := by
    cases hc : u.shape.isCall with
    | false => rfl
    | true => rw [Shape.valueType_call hc]; rfl
  obtain ⟨operands, hoperands, hcount⟩ := Shape.operandWord_ok hs
  have haccess (d : Draft) : u.shape.assembleAccess operands u.shape.unitFlags 3 d = .ok (d.emitAll u.operation) :=
    @Shape.assembleAccess_ok _ hs operands hcount u.shape.unitFlags 3 (Nat.le_refl 3) d
  have hslots : u.signature.paramSlots < UInt16.size := hs.paramSlots_unitSignature
  unfold assemble method
  simp only [hcallable, hoperands, haccess, Draft.emitAll_eq, Draft.begin, Draft.start, bind, Except.bind]
  cases ho : u.shape.optimistic with
  | false =>
    simp only [Bool.false_eq_true, ↓reduceIte]
    refine (Draft.finish_plain rfl hslots rfl).trans ?_
    simp [Draft.toMethod, Draft.emit]
  | true =>
    let handler : Handler :=
      ⟨walk.length, walk.length + u.operation.length, walk.length + u.operation.length + 1⟩
    have horder : handler.start ≤ handler.stop := Nat.le_add_right _ _
    -- the three labels are new, so each can be bound
    simp only [Bool.false_eq_true, ↓reduceIte, Draft.bind, Draft.newLabel, List.length_nil, List.nil_append,
      List.length_cons, Nat.zero_add, List.cons_append, Nat.reduceAdd, List.lookup_nil, Option.isSome_none,
      Draft.addRegion, List.lookup_singleton, Nat.reduceBEq, List.length_append, Draft.emit, List.append_assoc,
      List.lookup_isSome_iff, List.mem_cons, List.not_mem_nil, or_false, beq_iff_eq, exists_eq_or_imp, Nat.succ_ne_self,
      exists_eq_left, reduceCtorEq, or_self]
    refine (@Draft.finish_region _ ⟨⟨0, "begin_try"⟩, ⟨1, "end_try"⟩, ⟨2, "catch_label"⟩⟩ handler rfl hslots rfl rfl
      rfl rfl horder).trans ?_
    simp [Draft.toMethod, handler]

/-! ## Sites -/

/-- Assemble the method of a site under a class and a name, with or without a shared unit. The checks of validation are
made again. -/
def Site.assemble (s : Site) (cls name : String) (shared : Option SharedUnit) : Except Fault Method := do
  let d ← (Draft.start cls name s.signature true).begin
  match shared with
  | some u =>
    let depth ← asInternal s.depth.encode
    let d ← (d.emitAll [.load .object 0, .pushInt depth, .pushInt s.point]).loadAll 1 s.shape.params
    (d.emitAll [u.invocation, .ret s.shape.returnType]).finish
  | none =>
    let operands ← s.shape.operandWord
    let depth ← asInternal s.depth.encode
    let flags ← s.packedFlags
    let d ← s.shape.assembleAccess operands flags 1 (d.emitAll [.load .object 0, .pushInt depth, .climb])
    (d.emit (.ret s.shape.returnType)).finish

/-- Where the parameters fit, a site is assembled to its method, or fails where its method does. -/
theorem Site.assemble_eq {s : Site} (hs : s.shape.Fits) (cls name : String) (shared : Option SharedUnit) :
    s.assemble cls name shared = asInternal (s.method cls name shared) := by
  have hslots : s.signature.paramSlots < UInt16.size := hs.paramSlots_siteSignature
  unfold assemble method
  simp only [Draft.begin, Draft.start, Draft.emitAll_eq, packedFlags_eq, bind, Except.bind]
  cases shared with
  | some u =>
    have hloads (d : Draft) : d.loadAll 1 s.shape.params = .ok (d.emitAll (loadParams 1 s.shape.params)) :=
      @Draft.loadAll_ok d 1 s.shape.params hslots
    unfold sharedCode
    cases s.depth.encode with
    | error e => rfl
    | ok depth =>
      simp only [asInternal_ok, hloads, Draft.emitAll_eq, Bool.false_eq_true, ↓reduceIte]
      refine (Draft.finish_plain rfl hslots rfl).trans ?_
      simp [Draft.toMethod, bind, Except.bind, pure, Except.pure]
  | none =>
    obtain ⟨operands, hoperands, hcount⟩ := Shape.operandWord_ok hs
    unfold inlineCode
    rw [hoperands]
    cases s.depth.encode with
    | error e => rfl
    | ok depth =>
      cases s.shape.siteFlags s.point with
      | error e => rfl
      | ok flags =>
        have haccess (d : Draft) :
            s.shape.assembleAccess operands flags 1 d = .ok (d.emitAll (s.shape.accessCode flags 1)) :=
          @Shape.assembleAccess_ok _ hs operands hcount flags 1 (by decide) d
        simp only [asInternal_ok, haccess, Draft.emitAll_eq, Bool.false_eq_true, ↓reduceIte]
        refine (Draft.finish_plain rfl hslots rfl).trans ?_
        simp [Draft.toMethod, Draft.emit, bind, Except.bind, pure, Except.pure]

end ScriptHost
