import ScriptHost.Adapter.Domain
import ScriptHost.Proofs.Text.Bytes
import ScriptHost.Proofs.Text.Segments

/-!
# Denied packages

A list of denied packages is compared as text, with one look at what follows. That is the order of packages by their
parts (`PackageAccess.covers_iff_segments`), whatever characters the texts have: an entry denies the packages
under it and no others.
-/

namespace ScriptHost

open Text (packageOf segments toBytes Under)

namespace PackageAccess

theorem covers_iff {entry package : List Char} :
    covers entry package = true ↔ package = entry ∨ ∃ rest, package = entry ++ '.' :: rest := by
  fun_induction covers entry package with
  | case1 => simp
  | case2 c cs => simp
  | case3 a as => simp
  | case4 a as b bs ih =>
    rw [Bool.and_eq_true, beq_iff_eq, ih]
    simp [eq_comm, and_or_left]

theorem covers_iff_segments {entry package : List Char} :
    covers entry package = true ↔ segments entry <+: segments package := by
  rw [covers_iff, Text.segments_prefix_iff]

theorem concat_prefix_iff {bytes all : List UInt8} {b : UInt8} :
    bytes ++ [b] <+: all ↔ bytes <+: all ∧ all[bytes.length]? = some b := by
  constructor
  · rintro ⟨rest, rfl⟩
    refine ⟨(List.prefix_append ..).trans (List.prefix_append ..), ?_⟩
    rw [List.append_assoc, List.getElem?_append_right (Nat.le_refl _), Nat.sub_self]
    rfl
  · rintro ⟨⟨rest, rfl⟩, hb⟩
    rw [List.getElem?_append_right (Nat.le_refl _), Nat.sub_self] at hb
    obtain ⟨rest', rfl⟩ : ∃ rest', rest = b :: rest' := by
      cases rest with
      | nil => cases hb
      | cons b' rest' => exact ⟨rest', by rw [Option.some.inj hb]⟩
    exact ⟨rest', by rw [List.append_assoc]; rfl⟩

/-- By bytes: the package is the entry, or begins with it and has a dot at the place after it. -/
theorem covers_iff_bytes {entry package : String} : covers entry.toList package.toList = true ↔
    package = entry ∨ toBytes entry <+: toBytes package ∧ (toBytes package)[(toBytes entry).length]? = some 0x2e := by
  have hdot : (∃ rest, package.toList = entry.toList ++ '.' :: rest) ↔
      (entry ++ ".").toList <+: package.toList := by
    rw [String.toList_append]
    exact exists_congr fun rest => by rw [List.append_assoc]; exact eq_comm
  have hbytes : toBytes (entry ++ ".") = toBytes entry ++ [0x2e] := by
    rw [Text.toBytes_append]
    rfl
  rw [covers_iff, String.toList_inj, hdot, ← Text.toBytes_prefix_iff, hbytes,
    concat_prefix_iff]

theorem permits_deny_eq_false {entries : List String} {package : String} :
    (deny entries).permits package = false ↔ ∃ e ∈ entries, covers e.toList package.toList = true := by
  rw [permits, Bool.not_eq_false', List.any_eq_true]

theorem denied_iff_under {entries : List String} {package : String} :
    (deny entries).permits package = false ↔ ∃ e ∈ entries, Under package e := by
  simp only [permits_deny_eq_false, covers_iff_segments, Under]

theorem permits_under {access : PackageAccess} {package outer : String} (hunder : Under package outer)
    (h : access.permits outer = false) : access.permits package = false := by
  cases access with
  | allowAll => cases h
  | deny entries =>
    obtain ⟨e, he, houter⟩ := denied_iff_under.1 h
    exact denied_iff_under.2 ⟨e, he, hunder.trans houter⟩

theorem permits_anti {entries entries' : List String} (hsub : entries ⊆ entries') {package : String}
    (h : (deny entries).permits package = false) : (deny entries').permits package = false := by
  obtain ⟨e, he, hunder⟩ := denied_iff_under.1 h
  exact denied_iff_under.2 ⟨e, hsub he, hunder⟩

end PackageAccess

namespace Domain

theorem check_cases (d : Domain) (symbol package : String) :
    (package = "" ∨ d.permits package = true) ∧ d.check symbol package = .ok () ∨
      (package ≠ "" ∧ d.permits package = false) ∧
        d.check symbol package = .error (.accessDenied symbol package) := by
  rw [check]
  by_cases h : package = "" ∨ d.permits package = true
  · exact .inl ⟨h, if_pos h⟩
  · rw [not_or, Bool.not_eq_true] at h
    exact .inr ⟨h, if_neg (by simp [h])⟩

/-- Code of the domain may not name the symbol. -/
def Denies (d : Domain) (symbol : String) : Prop :=
  d.check symbol (packageOf symbol) = .error (.accessDenied symbol (packageOf symbol))

theorem denies_iff {d : Domain} {symbol : String} :
    d.Denies symbol ↔ packageOf symbol ≠ "" ∧ d.permits (packageOf symbol) = false := by
  rw [Denies]
  rcases d.check_cases symbol (packageOf symbol) with ⟨hopen, hcheck⟩ | ⟨hdenied, hcheck⟩
  · rw [hcheck]
    refine iff_of_false (nomatch ·) fun ⟨hne, hdenied⟩ => ?_
    rw [hopen.resolve_left hne] at hdenied
    cases hdenied
  · exact iff_of_true hcheck hdenied

end Domain

/-- A list of entries denies a package exactly if the parts of an entry begin its parts, which is the comparison by
bytes: the package is the entry, or begins with it and has a dot at the place after it. So with a package all that is
nested under it is denied, and with it the symbols there, except that the empty package is open to every domain; and
more entries never permit more. -/
theorem denial_segmentwise :
    (∀ entries package, (PackageAccess.deny entries).permits package = false ↔
      ∃ e ∈ entries, segments e.toList <+: segments package.toList) ∧
    (∀ entries package, (PackageAccess.deny entries).permits package = false ↔
      ∃ e ∈ entries, package = e ∨
        toBytes e <+: toBytes package ∧ (toBytes package)[(toBytes e).length]? = some 0x2e) ∧
    (∀ (d : Domain) (symbol nested : String),
      segments (packageOf symbol).toList <+: segments (packageOf nested).toList →
        (d.permits (packageOf symbol) = false →
          d.permits (packageOf nested) = false ∧ (packageOf nested ≠ "" → d.Denies nested)) ∧
        (d.Denies symbol → d.Denies nested)) ∧
    ∀ entries entries', entries ⊆ entries' →
      (∀ package, (PackageAccess.deny entries').permits package = true →
        (PackageAccess.deny entries).permits package = true) ∧
      ∀ name symbol, (Domain.restricted name entries).Denies symbol → (Domain.restricted name entries').Denies symbol := by
  refine ⟨fun entries package => PackageAccess.denied_iff_under, fun entries package => ?_,
    fun d symbol nested hunder => ⟨fun h => ?_, fun h => ?_⟩, fun entries entries' hsub => ⟨fun package h => ?_, ?_⟩⟩
  · simp only [PackageAccess.permits_deny_eq_false, PackageAccess.covers_iff_bytes]
  · have hnested := PackageAccess.permits_under hunder h
    exact ⟨hnested, fun hne => Domain.denies_iff.2 ⟨hne, hnested⟩⟩
  · obtain ⟨hne, hdenied⟩ := Domain.denies_iff.1 h
    exact Domain.denies_iff.2 ⟨Under.ne_empty hunder hne, PackageAccess.permits_under hunder hdenied⟩
  · cases hdenied : (PackageAccess.deny entries).permits package with
    | true => rfl
    | false =>
      rw [PackageAccess.permits_anti hsub hdenied] at h
      cases h
  · intro name symbol h
    obtain ⟨hne, hdenied⟩ := Domain.denies_iff.1 h
    exact Domain.denies_iff.2 ⟨hne, PackageAccess.permits_anti hsub hdenied⟩

/-- An entry that ends in a dot denies what has an empty part there, and no other package under the name before the
dot. The symbols there are denied at any depth, also with more entries. -/
theorem denial_segmentwise_emptyPart :
    (PackageAccess.deny ["ä."]).permits "ä..b" = false ∧ (PackageAccess.deny ["ä."]).permits "ä.b" = true ∧
    (Domain.restricted "d" ["ä."]).Denies "ä..Top" ∧
    segments (packageOf "ä..Top").toList <+: segments (packageOf "ä..b..Low").toList ∧
    (Domain.restricted "d" ["ä."]).Denies "ä..b..Low" ∧
    ["ä."] ⊆ ["", "ä."] ∧ (Domain.restricted "d" ["", "ä."]).Denies "ä..b..Low" := by
  obtain ⟨hsegments, -, hnested, hmore⟩ := denial_segmentwise
  have htop : (Domain.restricted "d" ["ä."]).Denies "ä..Top" :=
    Domain.denies_iff.2 ⟨by decide +kernel, by decide +kernel⟩
  have hunder : segments (packageOf "ä..Top").toList <+: segments (packageOf "ä..b..Low").toList := by decide +kernel
  have hsub : ["ä."] ⊆ ["", "ä."] := List.subset_cons_self ..
  have hlow := (hnested _ _ _ hunder).2 htop
  exact ⟨(hsegments _ _).2 ⟨_, List.mem_singleton_self _, by decide⟩, by decide, htop, hunder, hlow, hsub,
    (hmore _ _ hsub).2 _ _ hlow⟩

end ScriptHost
