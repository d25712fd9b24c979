import ScriptHost.Dump.Files
import ScriptHost.Proofs.Adapter.Admission
import ScriptHost.Proofs.Text.Segments

/-!
# Where dumps are written

The path of a dump leads from the dump directory downward: the name of a generated class has dots in front of its
package parts only, and every dot becomes a slash, so that nothing is left in it that leads back or to the root. Where
a path leads is read off its parts (`Dump.place`), and following it through files comes to the same place or fails
(`Files.follow_place`).
-/

namespace ScriptHost

namespace Dump

theorem parts_eq_splitOn (cs : List Char) : parts cs = cs.splitOn '/' := by
  induction cs with
  | nil => rw [List.splitOn_nil, parts]
  | cons c cs ih =>
    rw [parts, Text.splitOn_cons, ih]
    cases cs.splitOn '/' <;> rfl

theorem parts_append_slash (as bs : List Char) : parts (as ++ '/' :: bs) = parts as ++ parts bs := by
  rw [parts_eq_splitOn, List.splitOn_append_cons_self, ← parts_eq_splitOn, ← parts_eq_splitOn]

/-! ## Places -/

/-- Where a row of parts leads, by names from the root on: empty parts and single dots stay, two dots lead back. -/
def place : List String → List (List Char) → List String
  | pos, [] => pos
  | pos, part :: rest =>
    if part = [] ∨ part = ['.'] then place pos rest
    else if part = ['.', '.'] then place pos.dropLast rest
    else place (pos ++ [String.ofList part]) rest

theorem place_append (pos : List String) (ps qs : List (List Char)) :
    place pos (ps ++ qs) = place (place pos ps) qs := by
  induction ps generalizing pos with
  | nil => rfl
  | cons part rest ih =>
    rw [List.cons_append, place, place]
    split
    · exact ih pos
    · split
      · exact ih pos.dropLast
      · exact ih _

theorem place_down {ps : List (List Char)} (h : ['.', '.'] ∉ ps) (pos : List String) :
    place pos ps = pos ++ place [] ps := by
  induction ps generalizing pos with
  | nil => exact (List.append_nil pos).symm
  | cons part rest ih =>
    rw [List.mem_cons, not_or] at h
    rw [place, place, if_neg (Ne.symm h.1), if_neg (Ne.symm h.1)]
    split
    · exact ih h.2 pos
    · rw [ih h.2, ih h.2 ([] ++ _), List.nil_append, List.append_assoc]

/-! ## Paths taken from a directory -/

/-- What stands between a directory and a relative path from there. -/
def separator (dir : List Char) : List Char := if dir.isEmpty || dir.getLast? == some '/' then [] else ['/']

variable {path path' : List Char}

theorem joinPath_relative (h : isAbsolute path = false) (dir : List Char) :
    joinPath dir path = dir ++ (separator dir ++ path) := by
  rw [joinPath, if_neg (by simp [h]), separator]
  split <;> rfl

theorem place_joinPath (h : isAbsolute path = false) (dir : List Char) (pos : List String) :
    place pos (parts (joinPath dir path)) = place (place pos (parts dir)) (parts path) := by
  rw [joinPath_relative h, separator]
  split
  · next hdir =>
    rw [Bool.or_eq_true, List.isEmpty_iff, beq_iff_eq] at hdir
    rcases hdir with rfl | hlast
    · rfl
    · -- the directory ends in a slash, behind which there is an empty part
      obtain ⟨front, rfl⟩ := List.getLast?_eq_some_iff.1 hlast
      rw [List.nil_append, List.append_assoc, List.singleton_append, parts_append_slash, parts_append_slash,
        place_append, place_append]
      rfl
  · rw [List.singleton_append, parts_append_slash, place_append]

theorem joinPath_inj (h : isAbsolute path = false) (h' : isAbsolute path' = false) {dir : List Char} :
    joinPath dir path = joinPath dir path' ↔ path = path' := by
  rw [joinPath_relative h, joinPath_relative h', List.append_right_inj, List.append_right_inj]

/-! ## Relative paths of classes -/

theorem map_slash {rest : List Char} (h : '.' ∉ rest) : rest.map (fun c => if c = '.' then '/' else c) = rest := by
  rw [List.map_congr_left (g := id), List.map_id]
  intro c hc
  rw [if_neg, id]
  rintro rfl
  exact h hc

theorem count_dot_relativePath (cls : List Char) : (relativePath cls).count '.' = 1 := by
  have hmap : '.' ∉ cls.map (fun c => if c = '.' then '/' else c) := by
    intro h
    obtain ⟨c, -, hc⟩ := List.mem_map.1 h
    split at hc
    · exact absurd hc (by decide)
    · next hne => exact hne hc
  rw [relativePath, List.count_append, List.count_eq_zero.2 hmap]
  decide

theorem sublist_intercalate {α : Type} {sep : α} {ls : List (List α)} {l : List α} (h : l ∈ ls) :
    l.Sublist ([sep].intercalate ls) := by
  induction ls with
  | nil => cases h
  | cons l' ls ih =>
    cases ls with
    | nil =>
      have hself : [sep].intercalate [l'] = l := by rw [List.intercalate_singleton, List.mem_singleton.1 h]
      exact hself ▸ List.Sublist.refl l
    | cons l'' ls =>
      rw [List.intercalate_cons_cons]
      rcases List.mem_cons.1 h with rfl | h
      · exact List.sublist_append_of_sublist_left (List.sublist_append_left ..)
      · exact (ih h).trans (List.sublist_append_right ..)

theorem back_notMem_parts (cls : List Char) : ['.', '.'] ∉ parts (relativePath cls) := by
  intro h
  rw [parts_eq_splitOn] at h
  have hsub : ['.', '.'].Sublist (['/'].intercalate ((relativePath cls).splitOn '/')) := sublist_intercalate h
  rw [List.intercalate_splitOn] at hsub
  have hcount := hsub.count_le '.'
  rw [count_dot_relativePath] at hcount
  exact absurd hcount (by decide)

/-! ## Names of generated classes -/

/-- The class has a name that is given to the adapters of some target. -/
def IsGenerated (cls : String) : Prop :=
  ∃ target overrides classLevel, cls = Descriptor.nameFor target overrides classLevel

theorem relativePath_generated {cls : String} (h : IsGenerated cls) :
    ∃ rest : List Char, '.' ∉ rest ∧ cls = String.ofList ("scopelink.adapters.".toList ++ rest) ∧
      relativePath cls.toList = "scopelink".toList ++ '/' :: ("adapters".toList ++ '/' :: (rest ++ ".slad".toList)) := by
  obtain ⟨target, overrides, classLevel, rfl⟩ := h
  obtain ⟨rest, hrest, hname⟩ := Descriptor.nameFor_eq target overrides classLevel
  have hlist : (Descriptor.nameFor target overrides classLevel).toList = "scopelink.adapters.".toList ++ rest.toList := by
    rw [hname, String.toList_append]
    rfl
  refine ⟨rest.toList, hrest, String.toList_inj.1 (hlist.trans String.toList_ofList.symm), ?_⟩
  rw [hlist, relativePath, List.map_append, map_slash hrest]
  rfl

theorem isAbsolute_generated {cls : String} (h : IsGenerated cls) : isAbsolute (relativePath cls.toList) = false := by
  obtain ⟨rest, -, -, hpath⟩ := relativePath_generated h
  rw [hpath]
  rfl

theorem relativePath_inj {cls cls' : String} (h : IsGenerated cls) (h' : IsGenerated cls') :
    relativePath cls.toList = relativePath cls'.toList ↔ cls = cls' := by
  refine ⟨fun heq => ?_, fun heq => by rw [heq]⟩
  obtain ⟨rest, -, hcls, hpath⟩ := relativePath_generated h
  obtain ⟨rest', -, hcls', hpath'⟩ := relativePath_generated h'
  rw [hpath, hpath'] at heq
  have hrest : rest = rest' := by simpa using heq
  rw [hcls, hcls', hrest]

/-- The path of a generated class leads through two directories at least. -/
theorem place_generated {cls : String} (h : IsGenerated cls) (dir : List Char) (pos : List String) :
    ∃ names, place pos (parts (joinPath dir (relativePath cls.toList))) =
      place pos (parts dir) ++ "scopelink" :: "adapters" :: names := by
  have hdown := back_notMem_parts cls.toList
  obtain ⟨rest, -, -, hpath⟩ := relativePath_generated h
  rw [place_joinPath (isAbsolute_generated h), place_down hdown, hpath, parts_append_slash, parts_append_slash,
    place_append, place_append]
  rw [hpath, parts_append_slash, parts_append_slash, List.mem_append, List.mem_append, not_or, not_or] at hdown
  rw [place_down hdown.2.2]
  exact ⟨_, rfl⟩

end Dump

namespace Files

open Dump

/-- Following a path comes to the place that its parts name, whatever files there are. -/
theorem follow_place {fs : Files} {making : Bool} {ps : List (List Char)} {back p : List String}
    (h : fs.follow making ps back = .ok p) : p = place back.reverse ps := by
  induction ps generalizing back with
  | nil => exact (Except.ok.inj h).symm
  | cons part rest ih =>
    rw [follow.eq_def] at h
    dsimp only at h
    rw [place]
    split at h
    · cases h
    · split at h
      · cases h
      · split at h
        · next hstay => rw [if_pos hstay, ih h]
        · next hstay =>
          rw [if_neg hstay]
          split at h
          · next hback =>
            rw [if_pos hback]
            cases back with
            | nil => cases h
            | cons name up => rw [ih h, List.reverse_cons, List.dropLast_concat]
          · next hback =>
            rw [if_neg hback]
            split at h
            · cases h
            · rw [ih h, List.reverse_cons]

theorem mem_insert {p : List String} {bytes : List UInt8} {es : List (List String × List UInt8)}
    {e : List String × List UInt8} (h : e ∈ insert p bytes es) : e ∈ es ∨ e = (p, bytes) := by
  induction es with
  | nil => exact .inr (List.mem_singleton.1 h)
  | cons e' es ih =>
    obtain ⟨q, b⟩ := e'
    rw [insert] at h
    split at h
    · exact (List.mem_cons.1 h).symm
    · split at h
      · rcases List.mem_cons.1 h with rfl | h
        · exact .inl (List.mem_cons_self ..)
        · exact (ih h).imp_left (List.mem_cons_of_mem _)
      · rcases List.mem_cons.1 h with rfl | h
        · exact .inr rfl
        · exact .inl (List.mem_cons_of_mem _ h)

theorem mem_write {fs : Files} {path : List Char} {bytes : List UInt8} {e : List String × List UInt8}
    (h : e ∈ (fs.write path bytes).entries) : e ∈ fs.entries ∨ e = (place [] (parts path), bytes) := by
  rw [write] at h
  split at h
  · exact .inl h
  · next p hlocate =>
    split at h
    · exact .inl h
    · refine (mem_insert h).imp_right fun he => ?_
      rw [locate] at hlocate
      split at hlocate
      · cases hlocate
      · split at hlocate
        · cases hlocate
        · split at hlocate
          · cases hlocate
          · rw [he, follow_place hlocate]
            rfl

/-- The files of a directory after dumping generated classes, beside those that were there, are below the dump
directory. -/
theorem mem_dumpAll {dir : String} {classes : List (String × List UInt8)} (hc : ∀ c ∈ classes, IsGenerated c.1)
    {fs : Files} {e : List String × List UInt8} (h : e ∈ (fs.dumpAll (some dir) classes).entries) :
    e ∈ fs.entries ∨ ∃ names, e.1 = place [] (parts dir.toList) ++ "scopelink" :: "adapters" :: names := by
  induction classes generalizing fs with
  | nil => exact .inl h
  | cons c classes ih =>
    rcases ih (fun c hc' => hc c (List.mem_cons_of_mem _ hc')) h with h | h
    · rcases mem_write h with h | rfl
      · exact .inl h
      · obtain ⟨names, hnames⟩ := place_generated (hc c (List.mem_cons_self ..)) dir.toList []
        exact .inr ⟨names, by rw [String.toList_ofList, hnames]⟩
    · exact .inr h

end Files

open Dump

/-- A generated class is dumped at the dump directory joined with a relative path, which neither starts at the root nor
has a part that leads back. So from wherever the directory is reached, the path leads below it, and all files that
dumping generated classes makes are below it. Different names of generated classes have different paths. -/
theorem dumped_below (dir : String) :
    (∀ target overrides classLevel,
      pathFor (some dir) (Descriptor.nameFor target overrides classLevel) = some (String.ofList
        (joinPath dir.toList (relativePath (Descriptor.nameFor target overrides classLevel).toList))) ∧
      isAbsolute (relativePath (Descriptor.nameFor target overrides classLevel).toList) = false ∧
      ['.', '.'] ∉ parts (relativePath (Descriptor.nameFor target overrides classLevel).toList) ∧
      ∀ pos, ∃ names, place pos (parts (joinPath dir.toList
          (relativePath (Descriptor.nameFor target overrides classLevel).toList))) =
        place pos (parts dir.toList) ++ "scopelink" :: "adapters" :: names) ∧
    (∀ cls cls', IsGenerated cls → IsGenerated cls' →
      (pathFor (some dir) cls = pathFor (some dir) cls' ↔ cls = cls')) ∧
    ∀ classes : List (String × List UInt8), (∀ c ∈ classes, IsGenerated c.1) → ∀ fs : Files,
      ∀ e ∈ (fs.dumpAll (some dir) classes).entries,
        e ∈ fs.entries ∨ ∃ names, e.1 = place [] (parts dir.toList) ++ "scopelink" :: "adapters" :: names := by
  refine ⟨fun target overrides classLevel => ?_, fun cls cls' h h' => ?_, fun classes hc fs e he => ?_⟩
  · have h : IsGenerated (Descriptor.nameFor target overrides classLevel) := ⟨_, _, _, rfl⟩
    exact ⟨rfl, isAbsolute_generated h, back_notMem_parts _, place_generated h dir.toList⟩
  · rw [pathFor, pathFor, Option.map_some, Option.map_some, Option.some.injEq, String.ofList_inj,
      joinPath_inj (isAbsolute_generated h) (isAbsolute_generated h'), relativePath_inj h h']
  · exact Files.mem_dumpAll hc he

/-- A type whose name goes on with a path to the root after its last dot. -/
def climber : HostType := .empty "host./../../etc/cron" .interface (.trusted "host")

/-- The classes of the type are dumped below a directory that is reached on a detour, each at a path of its own. -/
theorem dumped_below_climber :
    IsGenerated (Descriptor.nameFor climber [] false) ∧ IsGenerated (Descriptor.nameFor climber [] true) ∧
    pathFor (some "a/../dumps") (Descriptor.nameFor climber [] false) ≠
      pathFor (some "a/../dumps") (Descriptor.nameFor climber [] true) ∧
    (Files.dumpAll (some "a/../dumps") [(Descriptor.nameFor climber [] false, [1])] {}).entries.length = 1 ∧
    ∀ e ∈ (Files.dumpAll (some "a/../dumps") [(Descriptor.nameFor climber [] false, [1])] {}).entries,
      ∃ names, e.1 = "dumps" :: "scopelink" :: "adapters" :: names := by
  have h : IsGenerated (Descriptor.nameFor climber [] false) := ⟨_, _, _, rfl⟩
  have h' : IsGenerated (Descriptor.nameFor climber [] true) := ⟨_, _, _, rfl⟩
  have hne : Descriptor.nameFor climber [] false ≠ Descriptor.nameFor climber [] true := by decide +kernel
  obtain ⟨-, hpaths, hfiles⟩ := dumped_below "a/../dumps"
  refine ⟨h, h', fun heq => hne ((hpaths _ _ h h').1 heq), by decide +kernel, fun e he => ?_⟩
  have hc : ∀ c ∈ [(Descriptor.nameFor climber [] false, [(1 : UInt8)])], IsGenerated c.1 := by
    intro c hc
    rw [List.mem_singleton.1 hc]
    exact h
  exact (hfiles _ hc {} e he).resolve_left List.not_mem_nil

end ScriptHost
