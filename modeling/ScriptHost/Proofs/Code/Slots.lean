import Mathlib.Data.List.Nodup
import ScriptHost.Proofs.Code.Frame

/-!
# Slots of parameters

The parameters of a method lie one behind the other, each over as many slots as its type takes: their slots, one
parameter after the other, are all the slots from the first one to the last (`flatMap_occupied`). So no two parameters
meet (`disjoint_slotPlaces`), and a frame that writes its arguments into a row of cells, one for each slot, finds every
one of them where its parameter starts (`join_cells_locals`, `map_lookup_locals`). What a method reads is told by its
loads (`Method.loads`); those of a call are at the places of its arguments (`Shape.filterMap_accessCode`). Counted in
words of sixteen bits, slots come out the same in every method that was finished (`Draft.counted_finish`).
-/

namespace ScriptHost

/-! ## Places -/

/-- Each parameter with the slot at which it starts, if the first one starts at `start`. -/
def slotPlaces (start : Nat) (params : List Ty) : List (Ty × Nat) := params.zip (slotOffsets start params)

def occupied (place : Ty × Nat) : List Nat := List.range' place.2 place.1.slots

def Signature.places (s : Signature) : List (Ty × Nat) := slotPlaces 0 s.params

theorem slotPlaces_cons (start : Nat) (t : Ty) (ts : List Ty) :
    slotPlaces start (t :: ts) = (t, start) :: slotPlaces (start + t.slots) ts := rfl

theorem mem_occupied {place : Ty × Nat} {slot : Nat} :
    slot ∈ occupied place ↔ place.2 ≤ slot ∧ slot < place.2 + place.1.slots := List.mem_range'_1

theorem flatMap_occupied (start : Nat) (params : List Ty) :
    (slotPlaces start params).flatMap occupied = List.range' start (slotCount params) := by
  induction params generalizing start with
  | nil => rfl
  | cons t ts ih => rw [slotPlaces_cons, List.flatMap_cons, ih, occupied, slotCount, List.range'_append_1]

theorem exists_mem_occupied {start : Nat} {params : List Ty} {slot : Nat} :
    (∃ p ∈ slotPlaces start params, slot ∈ occupied p) ↔ start ≤ slot ∧ slot < start + slotCount params := by
  rw [← List.mem_flatMap, flatMap_occupied, List.mem_range'_1]

theorem disjoint_slotPlaces (start : Nat) (params : List Ty) :
    (slotPlaces start params).Pairwise fun p q => (occupied p).Disjoint (occupied q) := by
  have hnodup : ((slotPlaces start params).flatMap occupied).Nodup := by
    rw [flatMap_occupied]
    exact List.nodup_range'
  exact (List.nodup_flatMap.1 hnodup).2

theorem slotPlaces_bounds {start : Nat} {params : List Ty} {p : Ty × Nat} (hp : p ∈ slotPlaces start params) :
    start ≤ p.2 ∧ p.2 < start + slotCount params := by
  have hpos := p.1.slots_pos
  exact exists_mem_occupied.1 ⟨p, hp, mem_occupied.2 (by omega)⟩

theorem Signature.place_lt {s : Signature} {p : Ty × Nat} (hp : p ∈ s.places) : p.2 < s.paramSlots := by
  have hlt := (slotPlaces_bounds hp).2
  rwa [Nat.zero_add] at hlt

theorem map_snd_slotPlaces (start : Nat) (params : List Ty) :
    (slotPlaces start params).map Prod.snd = slotOffsets start params :=
  List.map_snd_zip (Nat.le_of_eq (Machine.length_slotOffsets start params))

theorem slotOffsets_bounds {start slot : Nat} {params : List Ty} (h : slot ∈ slotOffsets start params) :
    start ≤ slot ∧ slot < start + slotCount params := by
  rw [← map_snd_slotPlaces] at h
  obtain ⟨p, hp, rfl⟩ := List.mem_map.1 h
  exact slotPlaces_bounds hp

theorem pairwise_slotOffsets (start : Nat) (params : List Ty) : (slotOffsets start params).Pairwise (· < ·) := by
  induction params generalizing start with
  | nil => exact .nil
  | cons t ts ih =>
    refine .cons (fun slot hslot => ?_) (ih _)
    have hle := (slotOffsets_bounds hslot).1
    have hpos := t.slots_pos
    omega

/-! ## Counts in words -/

theorem countOn_iff {slot next : UInt16} {n : Nat} : countOn slot n = .ok next ↔ next.toNat = slot.toNat + n := by
  have hlt := next.toNat_lt
  unfold countOn
  split
  · next hfits =>
    have hword := UInt16.toNat_ofNat_of_lt' hfits
    rw [Except.ok.injEq, ← UInt16.toNat_inj, hword]
    exact eq_comm
  · next hover =>
    have hsize : UInt16.size = 2 ^ 16 := rfl
    constructor
    · nofun
    · omega

theorem slotBehind_iff {slot next : UInt16} {params : List Ty} :
    slotBehind slot params = .ok next ↔ next.toNat = slot.toNat + slotCount params := by
  induction params generalizing slot with
  | nil =>
    show Except.ok slot = Except.ok next ↔ _
    rw [Except.ok.injEq, ← UInt16.toNat_inj]
    exact eq_comm
  | cons ty tys ih =>
    have hlt := next.toNat_lt
    rw [slotBehind, List.foldlM_cons, slotCount, ← Nat.add_assoc]
    cases hc : countOn slot ty.slots with
    | ok mid =>
      rw [← countOn_iff.1 hc]
      exact ih
    | error f =>
      constructor
      · nofun
      · intro h
        have hsize : UInt16.size = 2 ^ 16 := rfl
        have hword := @UInt16.toNat_ofNat_of_lt' (slot.toNat + ty.slots) (by omega)
        rw [countOn_iff.2 hword] at hc
        cases hc

theorem slotBehind_ok {slot : UInt16} {params : List Ty} (h : slot.toNat + slotCount params < UInt16.size) :
    ∃ next, slotBehind slot params = .ok next ∧ next.toNat = slot.toNat + slotCount params :=
  ⟨UInt16.ofNat _, slotBehind_iff.2 (UInt16.toNat_ofNat_of_lt' h), UInt16.toNat_ofNat_of_lt' h⟩

theorem offsetWords_ok {slot : UInt16} {params : List Ty} (h : slot.toNat + slotCount params < UInt16.size) :
    ∃ ws, offsetWords slot params = .ok ws ∧ ws.map UInt16.toNat = slotOffsets slot.toNat params := by
  induction params generalizing slot with
  | nil => exact ⟨[], rfl, rfl⟩
  | cons ty tys ih =>
    rw [slotCount, ← Nat.add_assoc] at h
    have hcount := @UInt16.toNat_ofNat_of_lt' (slot.toNat + ty.slots) (by omega)
    rw [← hcount] at h
    obtain ⟨ws, hws, hoffsets⟩ := ih h
    refine ⟨slot :: ws, ?_, ?_⟩
    · rw [offsetWords, countOn_iff.2 hcount]
      show (offsetWords _ tys >>= fun rest => _) = _
      rw [hws]
      rfl
    · rw [List.map_cons, hoffsets, hcount]
      rfl

/-- The slots of a signature are counted in words from the first one on. -/
structure Signature.Counted (s : Signature) : Prop where
  offsets : ∃ ws, offsetWords 0 s.params = .ok ws ∧ ws.map UInt16.toNat = s.paramOffsets
  total : ∃ w, slotBehind 0 s.params = .ok w ∧ w.toNat = s.paramSlots

theorem Signature.counted {s : Signature} (h : s.paramSlots < UInt16.size) : s.Counted := by
  have hslots : (0 : UInt16).toNat + slotCount s.params < UInt16.size := by
    rw [show (0 : UInt16).toNat = 0 from rfl, Nat.zero_add]
    exact h
  obtain ⟨w, hw, hcount⟩ := slotBehind_ok hslots
  exact ⟨offsetWords_ok hslots, w, hw, hcount.trans (Nat.zero_add _)⟩

/-- The frames of a method that was finished have their slots counted in words. -/
theorem Draft.counted_finish {d : Draft} {m : Method} (h : d.finish = .ok m) : m.signature.Counted := by
  unfold finish at h
  split at h
  · cases h
  · cases hh : asInternal (d.regions.mapM d.handler) with
    | error f =>
      rw [hh] at h
      cases h
    | ok handlers =>
      rw [hh] at h
      cases hs : slotBehind 0 d.signature.params with
      | error f =>
        rw [hs] at h
        cases h
      | ok w =>
        rw [hs] at h
        cases h
        refine Signature.counted ?_
        have hcount := slotBehind_iff.1 hs
        rw [show (0 : UInt16).toNat = 0 from rfl, Nat.zero_add] at hcount
        show slotCount d.signature.params < _
        rw [← hcount]
        exact w.toNat_lt

/-! ## Rows of cells -/

namespace Machine

/-- The cells of a frame, one for each of its slots, after values were written into them one by one. -/
def cells (slots : Nat) (written : List (Nat × Val)) : List (Option Val) :=
  written.foldl (fun row e => row.set e.1 (some e.2)) (List.replicate slots none)

theorem lookup_eq_none {written : List (Nat × Val)} {slot : Nat} (h : slot ∉ written.map Prod.fst) :
    written.lookup slot = none := by
  rw [List.lookup_eq_none_iff]
  intro e he
  rw [bne_iff_ne]
  rintro rfl
  exact h (List.mem_map_of_mem he)

theorem join_foldl_set {written : List (Nat × Val)} (hd : (written.map Prod.fst).Nodup) {row : List (Option Val)}
    (hin : ∀ e ∈ written, e.1 < row.length) (slot : Nat) :
    ((written.foldl (fun row e => row.set e.1 (some e.2)) row)[slot]?).join =
      (written.lookup slot).or (row[slot]?).join := by
  -- on the values written; a later one goes to another cell, so it does not replace what was written before
  induction written generalizing row with
  | nil => rfl
  | cons e es ih =>
    obtain ⟨k, v⟩ := e
    rw [List.map_cons, List.nodup_cons] at hd
    have hlt : k < row.length := hin (k, v) (List.mem_cons_self ..)
    have hrest : ∀ e ∈ es, e.1 < (row.set k (some v)).length := by
      intro e he
      rw [List.length_set]
      exact hin e (List.mem_cons_of_mem _ he)
    rw [List.foldl_cons, ih hd.2 hrest, List.lookup_cons]
    by_cases hk : slot = k
    · subst hk
      rw [lookup_eq_none hd.1, List.getElem?_set_self hlt, beq_self_eq_true]
      rfl
    · rw [List.getElem?_set_ne (Ne.symm hk), beq_eq_false_iff_ne.2 hk]

/-- Values that were written to different cells are found there, and nothing anywhere else. -/
theorem join_cells {slots : Nat} {written : List (Nat × Val)} (hd : (written.map Prod.fst).Nodup)
    (hin : ∀ e ∈ written, e.1 < slots) (slot : Nat) :
    ((cells slots written)[slot]?).join = written.lookup slot := by
  have hempty : ((List.replicate slots (none : Option Val))[slot]?).join = none := by
    rw [List.getElem?_replicate]
    split <;> rfl
  rw [cells, join_foldl_set hd (by simpa using hin), hempty, Option.or_none]

/-! ## Frames -/

section

variable {s : Signature} {args : List Val} (hn : args.length = s.params.length)

include hn

theorem map_fst_locals : (locals s.paramOffsets args).map Prod.fst = s.paramOffsets := by
  refine List.map_fst_zip (Nat.le_of_eq ?_)
  rw [hn]
  exact length_slotOffsets 0 s.params

theorem join_cells_locals (slot : Nat) :
    ((cells s.paramSlots (locals s.paramOffsets args))[slot]?).join = (locals s.paramOffsets args).lookup slot := by
  refine join_cells ?_ (fun e he => ?_) slot
  · rw [map_fst_locals hn]
    exact (pairwise_slotOffsets 0 s.params).imp Nat.ne_of_lt
  · have hstart : e.1 ∈ s.paramOffsets := by
      rw [← map_fst_locals hn]
      exact List.mem_map_of_mem he
    have hlt := (slotOffsets_bounds hstart).2
    rwa [Nat.zero_add] at hlt

theorem map_lookup_locals :
    s.paramOffsets.map (fun slot => (locals s.paramOffsets args).lookup slot) = args.map some := by
  have hloaded : Loaded ([] ++ locals s.paramOffsets args) 0 s.params args := loaded_zip hn (by simp)
  rw [List.nil_append] at hloaded
  rw [← List.forall₂_eq_eq_eq, List.forall₂_map_left_iff, List.forall₂_map_right_iff]
  exact hloaded

end

end Machine

/-! ## Loads -/

def Insn.load? : Insn → Option (Ty × Nat)
  | .load ty slot => some (ty, slot)
  | _ => none

def Method.loads (m : Method) : List (Ty × Nat) := m.code.filterMap Insn.load?

theorem filterMap_loadParams (start : Nat) (params : List Ty) :
    (loadParams start params).filterMap Insn.load? = slotPlaces start params := by
  rw [loadParams, List.filterMap_map]
  exact List.filterMap_some

theorem Shape.filterMap_accessCode {s : Shape} (hs : s.isCall = true) (flags : SiteFlags) (start : Nat) :
    (s.accessCode flags start).filterMap Insn.load? = slotPlaces start s.params := by
  unfold isCall at hs
  unfold accessCode params
  cases ha : s.access with
  | read ty =>
    rw [ha] at hs
    cases hs
  | call result params =>
    dsimp only
    rw [List.filterMap_append, List.filterMap_append, filterMap_loadParams]
    exact List.append_nil _

end ScriptHost
