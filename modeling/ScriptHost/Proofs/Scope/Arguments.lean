import ScriptHost.Proofs.Code.Answers
import ScriptHost.Proofs.Code.Slots
import ScriptHost.Proofs.Scope.Sharing
import ScriptHost.Proofs.Scope.Termination

/-!
# Arguments of calls

Slots are counted in four places: where a frame is entered, where a shared unit loads its arguments, where a site loads
those that it passes to a shared unit, and where a site loads those of a call of its own. The counts start at different
slots and walk over the same parameters. They come to the same slots (`SharedUnit.passes`, `Site.passes`): what is loaded
is what was put there, and an argument that is given to a unit or to a site gets to the callee as it is and in its place,
whether it goes through one frame or two. In generated methods all counts fit their words
(`ModuleBuilder.counted_methods`). What a linker is asked to call is told by one that writes it down
(`Linker.noting`) and changes nothing else.
-/

namespace ScriptHost

open Machine

variable {σ : Type}

/-! ## Slots of a frame -/

/-- How the parameters of a signature lie in the slots of a frame, and where the frame keeps its arguments. -/
structure Signature.LaidOut (s : Signature) : Prop where
  increasing : s.paramOffsets.Pairwise (· < ·)
  disjoint : s.places.Pairwise fun p q => (occupied p).Disjoint (occupied q)
  covers : ∀ slot, (∃ p ∈ s.places, slot ∈ occupied p) ↔ slot < s.paramSlots
  /-- Counting the offsets in words does not overflow. -/
  offsets : ∃ ws, offsetWords 0 s.params = .ok ws ∧ ws.map UInt16.toNat = s.paramOffsets
  /-- Neither does counting all slots. -/
  total : ∃ w, slotBehind 0 s.params = .ok w ∧ w.toNat = s.paramSlots
  /-- The locals are a row of cells into which the arguments were written. -/
  stored : ∀ args, args.length = s.params.length → ∀ slot,
    ((cells s.paramSlots (locals s.paramOffsets args))[slot]?).join = (locals s.paramOffsets args).lookup slot
  found : ∀ args, args.length = s.params.length →
    s.paramOffsets.map (fun slot => (locals s.paramOffsets args).lookup slot) = args.map some

theorem Signature.laidOut {s : Signature} (hs : s.paramSlots ≤ maxParamSlots) : s.LaidOut where
  increasing := pairwise_slotOffsets 0 s.params
  disjoint := disjoint_slotPlaces 0 s.params
  covers slot := by
    rw [places, exists_mem_occupied, Nat.zero_add]
    exact and_iff_right (Nat.zero_le slot)
  offsets := (counted (Nat.lt_of_le_of_lt hs (by decide))).offsets
  total := (counted (Nat.lt_of_le_of_lt hs (by decide))).total
  stored _ hn slot := join_cells_locals hn slot
  found _ hn := map_lookup_locals hn

/-- No generated method has more slots than a word of sixteen bits counts. -/
theorem ModuleBuilder.counted_methods {name : String} {t : Thresholds} {requests : List Request}
    (hr : ∀ r ∈ requests, r.Generates) :
    ∀ m ∈ ((new name t).after requests).finish.methods, m.signature.Counted := by
  refine forall_methods_finish (fun u hu => Signature.counted hu.paramSlots_unitSignature) ?_ hr
  intro s cls name shared m hs hm
  rw [(method_ok hm).2.2]
  exact Signature.counted hs.paramSlots_siteSignature

/-! ## What a linker is asked to call -/

/-- A call that a linker is asked for. -/
structure CallRequest where
  callee : Val
  this : Val
  args : List Val
deriving DecidableEq, Inhabited

/-- The same linker, writing down the calls that it is asked for. -/
def Linker.noting (l : Linker σ) : Linker (σ × List CallRequest) where
  get receiver name ty flags := Run.of fun (s, log) =>
    let (r, s') := (l.get receiver name ty flags).outcome s
    (r, (s', log))
  call callee this args ret flags name := Run.of fun (s, log) =>
    let (r, s') := (l.call callee this args ret flags name).outcome s
    (r, (s', log ++ [⟨callee, this, args⟩]))

theorem Linker.projects_noting (l : Linker σ) : Linker.Projects Prod.fst l.noting l where
  get _ _ _ _ _ := rfl
  call _ _ _ _ _ _ _ := rfl

/-- The calls that are asked for after the callee was read: one, with the arguments, if there is a callee. -/
def handedOver (args : List Val) : Except Fault Val → List CallRequest
  | .ok callee => [⟨callee, .undefined, args⟩]
  | .error _ => []

def Shape.readCallee (s : Shape) (l : Linker σ) (target : ObjRef) : Run σ Val :=
  settle (l.get (.object target) s.symbol.name .object s.flags) s.flags "get" s.symbol.name

/-- Whatever linker the method runs under, it has the variable called with the arguments that stand behind `front`, as
they are and in their order: once if the variable can be read, and not at all otherwise. Writing this down changes
neither the result nor the state. -/
def Delivers (code : Module) (m : Method) (front : List Val) (s : Shape) (scope : Val) (depth : Int32) : Prop :=
  ∀ {σ : Type} (l : Linker σ) (st : σ) (args : List Val), args.length = s.params.length →
    (execute code l.noting m (front ++ args)).outcome (st, []) =
      (((execute code l m (front ++ args)).outcome st).1, ((execute code l m (front ++ args)).outcome st).2,
        handedOver args ((targetOf scope depth >>= s.readCallee l).outcome st).1)

/-! ## Accesses -/

theorem outcome_readCallee_noting (s : Shape) (l : Linker σ) (target : ObjRef) (st : σ) (log : List CallRequest) :
    (s.readCallee l.noting target).outcome (st, log) =
      (((s.readCallee l target).outcome st).1, ((s.readCallee l target).outcome st).2, log) := by
  rw [Shape.readCallee, Shape.readCallee, outcome_settle, outcome_settle]
  rfl

theorem log_perform {s : Shape} (hs : s.isCall = true) (l : Linker σ) (flags : SiteFlags) (target : ObjRef)
    (args : List Val) (st : σ) :
    ((s.perform l.noting flags target args).outcome (st, [])).2.2 =
      handedOver args ((s.readCallee l target).outcome st).1 := by
  unfold Shape.isCall at hs
  unfold Shape.perform
  cases ha : s.access with
  | read ty =>
    rw [ha] at hs
    cases hs
  | call ret params =>
    show ((s.readCallee l.noting target >>= fun callee => _).outcome (st, [])).2.2 = _
    rw [Run.outcome_bind, outcome_readCallee_noting]
    rcases (s.readCallee l target).outcome st with ⟨r, st'⟩
    cases r with
    | ok callee =>
      dsimp only
      rw [outcome_settle]
      rfl
    | error f => rfl

theorem log_performShared {s : Shape} (hs : s.isCall = true) (l : Linker σ) (pp : Int32) (target : ObjRef)
    (args : List Val) (st : σ) :
    ((s.performShared l.noting pp target args).outcome (st, [])).2.2 =
      handedOver args ((s.readCallee l target).outcome st).1 := by
  unfold Shape.performShared
  split
  · rw [outcome_restamp]
    exact log_perform hs l _ target args st
  · exact log_perform hs l _ target args st

theorem targetOf_eq_ofExcept (scope : Val) (depth : Int32) :
    ∃ r : Except EngineError ObjRef, ∀ σ : Type, (targetOf scope depth : Run σ ObjRef) = Run.ofExcept r := by
  cases scope with
  | object o => exact ⟨climb o depth, fun _ => rfl⟩
  | _ => exact ⟨.error (InternalFault.scopeOperand _), fun _ => rfl⟩

theorem log_targetOf {s : Shape} {l : Linker σ} {args : List Val} {st : σ}
    {k : ObjRef → Run (σ × List CallRequest) Val}
    (hk : ∀ o, ((k o).outcome (st, [])).2.2 = handedOver args ((s.readCallee l o).outcome st).1) (scope : Val)
    (depth : Int32) :
    ((targetOf scope depth >>= k).outcome (st, [])).2.2 =
      handedOver args ((targetOf scope depth >>= s.readCallee l).outcome st).1 := by
  obtain ⟨r, hr⟩ := targetOf_eq_ofExcept scope depth
  rw [hr, hr]
  cases r with
  | ok o => exact hk o
  | error e => rfl

/-- A method delivers its arguments if running it is an access that does. -/
theorem delivers_of_run {code : Module} {m : Method} {front : List Val} {s : Shape} {scope : Val} {depth : Int32}
    (access : ∀ {σ : Type}, Linker σ → List Val → ObjRef → Run σ Val)
    (hrun : ∀ {σ : Type} (l : Linker σ) (args : List Val), args.length = s.params.length →
      execute code l m (front ++ args) = targetOf scope depth >>= access l args)
    (hlog : ∀ {σ : Type} (l : Linker σ) (args : List Val) (target : ObjRef) (st : σ),
      ((access l.noting args target).outcome (st, [])).2.2 = handedOver args ((s.readCallee l target).outcome st).1) :
    Delivers code m front s scope depth := by
  intro σ l st args hn
  have hsame : (execute code l m (front ++ args)).outcome st = _ :=
    projects_run l.projects_noting maxDepth m (front ++ args) (st, [])
  have hcalls : ((execute code l.noting m (front ++ args)).outcome (st, [])).2.2 =
      handedOver args ((targetOf scope depth >>= s.readCallee l).outcome st).1 := by
    rw [hrun l.noting args hn]
    exact log_targetOf (fun target => hlog l args target st) scope depth
  rw [← hcalls, hsame]
  rfl

/-! ## Shared units -/

/-- The method of a shared unit of calls is what assembling it gives. It loads scope and depth, and then its arguments,
from the slots in which its frame keeps them, and the program point only to attribute a failure to it. The arguments are
delivered. -/
structure SharedUnit.Passes (u : SharedUnit) : Prop where
  assembled : u.assemble = .ok u.method
  laidOut : u.method.signature.LaidOut
  loads : u.method.loads = u.method.signature.places.take 2 ++ u.method.signature.places.drop 3 ++
    if u.shape.optimistic then [(.int, 2)] else []
  below : ∀ p ∈ u.method.loads, p.2 < u.method.maxLocals
  delivers : ∀ (code : Module) (scope : Val) (depth pp : Int32),
    Delivers code u.method [scope, .int depth, .int pp] u.shape scope depth

namespace SharedUnit

variable {u : SharedUnit}

theorem places_signature (u : SharedUnit) : u.method.signature.places =
    (.object, 0) :: (.int, 1) :: (.int, 2) :: slotPlaces fixedSlots u.shape.params := rfl

theorem loads_method (hs : u.shape.isCall = true) :
    u.method.loads = u.method.signature.places.take 2 ++ u.method.signature.places.drop 3 ++
      if u.shape.optimistic then [(.int, 2)] else [] := by
  have hoperation : u.operation.filterMap Insn.load? = slotPlaces fixedSlots u.shape.params :=
    Shape.filterMap_accessCode hs _ _
  rw [places_signature]
  simp only [Method.loads, method, List.filterMap_append, hoperation]
  cases u.shape.optimistic <;> simp [walk, recovery, List.filterMap_cons, Insn.load?]

theorem load_mem_places (hs : u.shape.isCall = true) {p : Ty × Nat} (hp : p ∈ u.method.loads) :
    p ∈ u.method.signature.places := by
  rw [loads_method hs] at hp
  rcases List.mem_append.1 hp with hp | hp
  · rcases List.mem_append.1 hp with hp | hp
    · exact List.mem_of_mem_take hp
    · exact List.mem_of_mem_drop hp
  · split at hp
    · obtain rfl := List.mem_singleton.1 hp
      rw [places_signature]
      simp
    · cases hp

theorem passes (hs : u.shape.isCall = true) (hfits : u.shape.Fits) : u.Passes where
  assembled := assemble_ok hfits
  laidOut := Signature.laidOut hfits.unitSignature_le
  loads := loads_method hs
  below _ hp := Signature.place_lt (load_mem_places hs hp)
  delivers _ scope depth pp := by
    refine delivers_of_run (fun l args target => u.shape.performShared l pp target args) ?_
      fun l args target st => log_performShared hs l pp target args st
    intro _ l args hn
    exact run_unit u scope depth pp hn 255

end SharedUnit

/-! ## Sites -/

/-- The method of a site of calls is what assembling it gives. It loads its parameters, one after the other, from the
slots in which its frame keeps them. The arguments are delivered, in a frame of the site or through a second one of its
shared unit, which is entered with them. -/
structure Site.Passes (s : Site) (shared : Option SharedUnit) (m : Method) : Prop where
  assembled : s.assemble m.cls m.name shared = .ok m
  signature : m.signature = s.signature
  laidOut : m.signature.LaidOut
  loads : m.loads = m.signature.places
  below : ∀ p ∈ m.loads, p.2 < m.maxLocals
  delivers : ∃ depth, s.depth.encode = .ok depth ∧
    ∀ code : Module, (∀ u, shared = some u → code.method? u.cls u.name = some u.method) → ∀ scope : Val,
      Delivers code m [scope] s.shape scope depth ∧
      ∀ u, shared = some u → ∀ {σ : Type} (l : Linker σ) (args : List Val), args.length = s.shape.params.length →
        execute code l m (scope :: args) =
          run code l (maxDepth - 1) u.method (scope :: .int depth :: .int s.point :: args)

namespace Site

variable {s : Site} {cls name : String} {m : Method}

theorem exists_method {s : Site} (hs : s.validate = .ok ()) (cls name : String) (shared : Option SharedUnit) :
    ∃ m, s.method cls name shared = .ok m := by
  obtain ⟨hpoint, depth, hdepth⟩ := validate_ok hs
  cases shared with
  | none => exact ⟨_, by rw [method, inlineCode, hdepth, siteFlags_ok hpoint]; rfl⟩
  | some u => exact ⟨_, by rw [method, sharedCode, hdepth]; rfl⟩

theorem loads_method (hs : s.shape.isCall = true) {shared : Option SharedUnit}
    (hm : s.method cls name shared = .ok m) : m.loads = m.signature.places := by
  have hplaces : s.signature.places = (.object, 0) :: slotPlaces 1 s.shape.params := rfl
  cases shared with
  | none =>
    obtain ⟨depth, flags, hdepth, hflags⟩ := inline_ok hm
    rw [method_inline hm hdepth hflags]
    have hcode := Shape.filterMap_accessCode hs flags 1
    simp [Method.loads, List.filterMap_cons, Insn.load?, hcode, hplaces]
  | some u =>
    obtain ⟨depth, hdepth⟩ := sharing_ok hm
    rw [method_sharing hm hdepth]
    simp [Method.loads, List.filterMap_cons, Insn.load?, filterMap_loadParams, hplaces, SharedUnit.invocation]

theorem delivers_inline (hs : s.shape.isCall = true) (hm : s.method cls name none = .ok m) {depth : Int32}
    (hdepth : s.depth.encode = .ok depth) (code : Module) (scope : Val) :
    Delivers code m [scope] s.shape scope depth := by
  obtain ⟨-, flags, -, hflags⟩ := inline_ok hm
  refine delivers_of_run (fun l args target => s.shape.perform l flags target args) ?_
    fun l args target st => log_perform hs l flags target args st
  intro _ l args hn
  exact run_inline hm hdepth hflags scope hn 255

theorem delivers_sharing (hs : s.shape.isCall = true) {u : SharedUnit} (hm : s.method cls name (some u) = .ok m)
    (hshape : u.shape = s.shape) {depth : Int32} (hdepth : s.depth.encode = .ok depth) {code : Module}
    (hu : code.method? u.cls u.name = some u.method) (scope : Val) : Delivers code m [scope] s.shape scope depth := by
  refine delivers_of_run (fun l args target => s.shape.performShared l s.point target args) ?_
    fun l args target st => log_performShared hs l s.point target args st
  intro _ l args hn
  exact run_sharing hm hdepth hu hshape scope hn 254

theorem execute_sharing {u : SharedUnit} (hm : s.method cls name (some u) = .ok m) (hshape : u.shape = s.shape)
    {depth : Int32} (hdepth : s.depth.encode = .ok depth) {code : Module}
    (hu : code.method? u.cls u.name = some u.method) (scope : Val) (l : Linker σ) {args : List Val}
    (hn : args.length = s.shape.params.length) :
    execute code l m (scope :: args) =
      run code l (maxDepth - 1) u.method (scope :: .int depth :: .int s.point :: args) := by
  have hsite : execute code l m (scope :: args) = _ := run_sharing hm hdepth hu hshape scope hn 254
  have hunit : run code l (maxDepth - 1) u.method (scope :: .int depth :: .int s.point :: args) = _ :=
    run_unit u scope depth s.point (hshape ▸ hn) 254
  rw [hsite, hunit, hshape]

theorem passes (hs : s.shape.isCall = true) (hfits : s.shape.Fits) {shared : Option SharedUnit}
    (hshape : ∀ u, shared = some u → u.shape = s.shape) (hm : s.method cls name shared = .ok m) :
    s.Passes shared m := by
  obtain ⟨hcls, hname, hsig⟩ := ModuleBuilder.method_ok hm
  have hloads := loads_method hs hm
  have hlaid : m.signature.LaidOut := hsig ▸ Signature.laidOut hfits.siteSignature_le
  refine ⟨?_, hsig, hlaid, hloads, fun p hp => Signature.place_lt (hloads ▸ hp), ?_⟩
  · rw [hcls, hname, assemble_eq hfits, hm, asInternal_ok]
  · cases shared with
    | none =>
      obtain ⟨depth, -, hdepth, -⟩ := inline_ok hm
      exact ⟨depth, hdepth, fun code _ scope => ⟨delivers_inline hs hm hdepth code scope, nofun⟩⟩
    | some u =>
      obtain ⟨depth, hdepth⟩ := sharing_ok hm
      refine ⟨depth, hdepth, fun code hu scope => ⟨?_, ?_⟩⟩
      · exact delivers_sharing hs hm (hshape u rfl) hdepth (hu u rfl) scope
      · rintro u ⟨⟩ σ l args hn
        exact execute_sharing hm (hshape u rfl) hdepth (hu u rfl) scope l hn

end Site

/-! ## All counts -/

/-- The counts of slots agree. The parameters of a signature that take at most 255 slots lie in them in order and one
behind the other, and a frame keeps each argument where its parameter starts. A shared unit of calls whose parameters
fit, and a site that uses it or does without, load their arguments from there, and the call gets them unchanged and in
order, through one frame or two. -/
theorem arguments_arrive :
    (∀ s : Signature, s.paramSlots ≤ maxParamSlots → s.LaidOut) ∧
    ∀ (s : Shape) (operands : Nat), s.isCall = true → s.callOperands = .ok operands →
      (∀ u : SharedUnit, u.shape = s → u.Passes) ∧
      ∀ (site : Site) (shared : Option SharedUnit) (cls name : String), site.shape = s →
        (∀ u, shared = some u → u.shape = s) →
        (site.validate = .ok () → ∃ m, site.method cls name shared = .ok m) ∧
        ∀ m, site.method cls name shared = .ok m → site.Passes shared m := by
  refine ⟨fun s hs => Signature.laidOut hs, fun s operands hcall hoperands => ?_⟩
  have hfits : s.Fits := Shape.fits_of_callOperands hoperands
  refine ⟨?_, ?_⟩
  · rintro u rfl
    exact SharedUnit.passes hcall hfits
  · rintro site shared cls name rfl hshape
    exact ⟨fun hs => Site.exists_method hs cls name shared, fun m hm => Site.passes hcall hfits hshape hm⟩

/-- An optimistic call whose arguments take one slot or two. -/
def mixedCall : Shape := ⟨⟨"f", .known 0⟩, .call .int [.number, .object, .long, .int], .scope, true⟩

def mixedUnit : SharedUnit := ⟨mixedCall, "Script", ":scopeCall$0"⟩

def mixedSite : Site := ⟨mixedCall, .known 2, 7⟩

/-- A module with the shared unit of the call and nothing else. -/
def mixedModule : Module := ⟨"m", ⟨[("Script", ⟨"Script", [mixedUnit.method]⟩)]⟩⟩

def innerScope : ObjRef := ⟨⟨1, true⟩, [⟨2, true⟩, ⟨3, true⟩]⟩

def mixedArgs : List Val := [.number ⟨0x3FF8000000000000⟩, .str "b", .long 5, .int 7]

/-- A linker under which every read and every call gives nothing. -/
def undefinedLinker : Linker Unit where
  get _ _ _ _ := pure (.held .undefined)
  call _ _ _ _ _ _ := pure (.held .undefined)

theorem arguments_arrive_mixedCall :
    mixedUnit.signature.paramSlots ≤ maxParamSlots ∧ mixedUnit.signature.paramOffsets = [0, 1, 2, 3, 5, 6, 8] ∧
    mixedUnit.signature.LaidOut ∧
    mixedCall.isCall = true ∧ mixedCall.callOperands = .ok 6 ∧
    mixedUnit.method.loads = [(.object, 0), (.int, 1), (.number, 3), (.object, 5), (.long, 6), (.int, 8), (.int, 2)] ∧
    mixedSite.validate = .ok () ∧
    ∀ shared ∈ [some mixedUnit, none], ∃ m, mixedSite.method "Script" "site$0" shared = .ok m ∧
      m.loads = [(.object, 0), (.number, 1), (.object, 3), (.long, 4), (.int, 6)] ∧
      ((execute mixedModule undefinedLinker.noting m
        (.object innerScope :: mixedArgs)).outcome ((), [])).2.2 =
        [⟨.undefined, .undefined, mixedArgs⟩] := by
  obtain ⟨hlaid, hcalls⟩ := arguments_arrive
  have hslots : mixedUnit.signature.paramSlots ≤ maxParamSlots := by decide
  have hvalid : mixedSite.validate = .ok () := rfl
  obtain ⟨hunits, hsites⟩ := hcalls mixedCall 6 rfl rfl
  refine ⟨hslots, rfl, hlaid _ hslots, rfl, rfl, (hunits mixedUnit rfl).loads, hvalid, fun shared hshared => ?_⟩
  have hshape : ∀ u, shared = some u → u = mixedUnit := by
    rintro u rfl
    simpa using hshared
  obtain ⟨hexists, hpasses⟩ :=
    hsites mixedSite shared "Script" "site$0" rfl fun u hu => by rw [hshape u hu]; rfl
  obtain ⟨m, hm⟩ := hexists hvalid
  obtain ⟨-, hsig, -, hloads, -, depth, hdepth, hdelivers⟩ := hpasses m hm
  cases hdepth
  have hcode : ∀ u, shared = some u → mixedModule.method? u.cls u.name = some u.method := by
    intro u hu
    rw [hshape u hu]
    rfl
  refine ⟨m, hm, ?_, ?_⟩
  · rw [hloads, hsig]
    rfl
  · have hlog := (hdelivers mixedModule hcode (.object innerScope)).1 undefinedLinker () mixedArgs rfl
    rw [List.cons_append, List.nil_append] at hlog
    rw [hlog]
    rfl

end ScriptHost
