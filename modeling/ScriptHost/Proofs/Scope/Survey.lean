import ScriptHost.Scope.Builder

/-!
# Surveys of batches

Before anything is generated for a batch, its sites are validated and their shapes counted, one site after the other
(`survey_cases`). If this comes to an end then all sites are valid, and the census has the numbers of the batch
(`survey_ok`). It does not for a site that is not valid (`survey_invalid`), nor for a shape that stands in the batch
more often than a word of 32 bits can count (`survey_overflow`).
-/

namespace ScriptHost

/-! ## Counting -/

theorem countedUp_cases (n : UInt32) :
    (∃ next, countedUp n = .ok next ∧ next.toNat = n.toNat + 1) ∨
      countedUp n = .error .overflow ∧ UInt32.size ≤ n.toNat + 1 := by
  unfold countedUp
  split
  · next hlt =>
    refine .inl ⟨n + 1, rfl, ?_⟩
    rw [UInt32.toNat_add, UInt32.toNat_one]
    exact Nat.mod_eq_of_lt hlt
  · next hge => exact .inr ⟨rfl, Nat.not_lt.1 hge⟩

namespace Census

theorem count_empty (s : Shape) : ({} : Census).count s = 0 := by
  rw [count, Assoc.get?_empty]
  rfl

theorem record_cases (c : Census) (s : Shape) :
    (∃ c', c.record s = .ok c' ∧ ∀ x, (c'.count x).toNat = (c.count x).toNat + if s == x then 1 else 0) ∨
      c.record s = .error .overflow ∧ UInt32.size ≤ (c.count s).toNat + 1 := by
  unfold record
  rcases countedUp_cases (c.count s) with ⟨next, hnext, hcount⟩ | ⟨hover, hle⟩
  · rw [hnext]
    refine .inl ⟨_, rfl, fun x => ?_⟩
    rw [count, Assoc.get?_put]
    by_cases hx : s = x
    · subst hx
      rw [if_pos rfl, beq_self_eq_true, if_pos rfl]
      exact hcount
    · rw [if_neg hx, if_neg (by simpa using hx)]
      rfl
  · rw [hover]
    exact .inr ⟨rfl, hle⟩

end Census

namespace ModuleBuilder

/-! ## Batches -/

/-- No shape stands in the batch more often than a word of 32 bits can count. -/
def Countable (sites : List Site) : Prop :=
  ∀ s ∈ sites, (sites.filter fun s' => s'.shape = s.shape).length < UInt32.size

/-- The site is to share in its batch: neither its variable nor its own depth is dynamic, and there are more sites of
its shape than the threshold of its kind. -/
def Shares (t : Thresholds) (sites : List Site) (s : Site) : Prop :=
  s.shape.symbol.hint ≠ .dynamic ∧ s.depth ≠ .dynamic ∧
    (if s.shape.isCall then t.call else t.get).toNat < (sites.filter fun s' => s'.shape = s.shape).length

instance (t : Thresholds) (sites : List Site) (s : Site) : Decidable (Shares t sites s) :=
  inferInstanceAs (Decidable (_ ∧ _ ∧ _))

/-- The census has the numbers of the batch. -/
def Tallies (census : Census) (sites : List Site) : Prop :=
  ∀ x, (census.count x).toNat = (sites.map Site.shape).count x

variable {sites : List Site}

theorem length_filter_shape (sites : List Site) (x : Shape) :
    (sites.filter fun s => s.shape = x).length = (sites.map Site.shape).count x := by
  rw [List.count, List.countP_map, List.countP_eq_length_filter]
  congr 2

theorem countable_iff : Countable sites ↔ ∀ x, (sites.map Site.shape).count x < UInt32.size := by
  unfold Countable
  simp only [length_filter_shape]
  constructor
  · intro h x
    by_cases hx : x ∈ sites.map Site.shape
    · obtain ⟨s, hs, rfl⟩ := List.mem_map.1 hx
      exact h s hs
    · rw [List.count_eq_zero.2 hx]
      decide
  · exact fun h s _ => h s.shape

theorem Countable.of_append {rest : List Site} (h : Countable (sites ++ rest)) : Countable sites := by
  rw [countable_iff] at h ⊢
  intro x
  have hx := h x
  rw [List.map_append, List.count_append] at hx
  omega

theorem countable_of_length (h : sites.length < UInt32.size) : Countable sites :=
  fun _ _ => Nat.lt_of_le_of_lt (List.length_filter_le ..) h

theorem not_countable_replicate {n : Nat} (s : Site) (hn : UInt32.size ≤ n) : ¬Countable (List.replicate n s) := by
  intro h
  have hlt := countable_iff.1 h s.shape
  rw [List.map_replicate, List.count_replicate_self] at hlt
  exact Nat.not_lt.2 hn hlt

theorem Tallies.sharesSite_iff {census : Census} (h : Tallies census sites) {t : Thresholds} {s : Site} :
    sharesSite t (census.count s.shape) s = true ↔ Shares t sites s := by
  unfold sharesSite Shares ScopeSymbol.isDynamic Thresholds.shares
  rw [length_filter_shape, ← h]
  simp [and_assoc, UInt32.lt_iff_toNat_lt]

theorem survey_valid_cases (census : Census) (hv : ∀ s ∈ sites, s.validate = .ok ()) :
    (∃ census', survey census sites = .ok census' ∧
      ∀ x, (census'.count x).toNat = (census.count x).toNat + (sites.map Site.shape).count x) ∨
    survey census sites = .error .overflow ∧
      ∃ x, UInt32.size ≤ (census.count x).toNat + (sites.map Site.shape).count x := by
  induction sites generalizing census with
  | nil => exact .inl ⟨census, rfl, fun x => rfl⟩
  | cons s ss ih =>
    unfold survey
    rw [hv s (List.mem_cons_self ..), asInternal_ok]
    rcases census.record_cases s.shape with ⟨c, hc, hcount⟩ | ⟨hover, hle⟩
    · -- what the site adds to the census is what it adds to the numbers of the batch
      have hcons : ∀ x, (c.count x).toNat + (ss.map Site.shape).count x =
          (census.count x).toNat + ((s :: ss).map Site.shape).count x := by
        intro x
        rw [hcount, List.map_cons, List.count_cons, Nat.add_assoc, Nat.add_comm (List.count ..)]
      simp only [← hcons]
      rw [hc]
      exact ih c fun s' hs' => hv s' (List.mem_cons_of_mem _ hs')
    · rw [hover]
      refine .inr ⟨rfl, s.shape, ?_⟩
      rw [List.map_cons, List.count_cons_self]
      omega

theorem Tallies.countable {census : Census} (h : Tallies census sites) : Countable sites := by
  rw [countable_iff]
  intro x
  rw [← h]
  exact (census.count x).toNat_lt

/-- A batch of valid sites that can be counted is surveyed to its end, any other overflows. -/
theorem survey_of_valid (hv : ∀ s ∈ sites, s.validate = .ok ()) :
    (∃ census, survey {} sites = .ok census ∧ Tallies census sites) ∨
      survey {} sites = .error .overflow ∧ ¬Countable sites := by
  have hempty : ∀ x, (({} : Census).count x).toNat + (sites.map Site.shape).count x =
      (sites.map Site.shape).count x := by
    intro x
    rw [Census.count_empty, UInt32.toNat_zero, Nat.zero_add]
  rcases survey_valid_cases {} hv with ⟨census, hok, hcount⟩ | ⟨hover, x, hle⟩
  · exact .inl ⟨census, hok, fun x => (hcount x).trans (hempty x)⟩
  · rw [hempty] at hle
    exact .inr ⟨hover, fun h => Nat.not_lt.2 hle (countable_iff.1 h x)⟩

theorem survey_append (census : Census) (sites rest : List Site) :
    survey census (sites ++ rest) = survey census sites >>= fun c => survey c rest := by
  induction sites generalizing census with
  | nil => rfl
  | cons s ss ih => simp only [List.cons_append, survey, ih, bind_assoc]

theorem survey_invalid {before rest : List Site} {s : Site} {e : InternalFault}
    (hv : ∀ s' ∈ before, s'.validate = .ok ()) (hcount : Countable before) (hs : s.validate = .error e) :
    survey {} (before ++ s :: rest) = .error (.error (.internal e)) := by
  rw [survey_append]
  rcases survey_of_valid hv with ⟨census, hok, -⟩ | ⟨-, hover⟩
  · rw [hok]
    show survey census (s :: rest) = _
    rw [survey, hs]
    rfl
  · exact absurd hcount hover

theorem survey_overflow {before : List Site} (hv : ∀ s ∈ before, s.validate = .ok ()) (hover : ¬Countable before)
    (rest : List Site) : survey {} (before ++ rest) = .error .overflow := by
  rw [survey_append]
  rcases survey_of_valid hv with ⟨census, -, htallies⟩ | ⟨hsurvey, -⟩
  · exact absurd htallies.countable hover
  · rw [hsurvey]
    rfl

theorem valid_cases (sites : List Site) :
    (∀ s ∈ sites, s.validate = .ok ()) ∨ ∃ before s rest e, sites = before ++ s :: rest ∧
      (∀ s' ∈ before, s'.validate = .ok ()) ∧ s.validate = .error e := by
  induction sites with
  | nil => exact .inl (List.forall_mem_nil _)
  | cons s ss ih =>
    cases hs : s.validate with
    | error e => exact .inr ⟨[], s, ss, e, rfl, List.forall_mem_nil _, hs⟩
    | ok _ =>
      rcases ih with hss | ⟨before, s', rest, e, rfl, hbefore, hs'⟩
      · exact .inl (List.forall_mem_cons.2 ⟨hs, hss⟩)
      · exact .inr ⟨s :: before, s', rest, e, rfl, List.forall_mem_cons.2 ⟨hs, hbefore⟩, hs'⟩

/-- A survey comes to its end, or it is refused for the first site that is not valid, or it cannot count valid sites
that come before. -/
theorem survey_cases (sites : List Site) :
    (∃ census, survey {} sites = .ok census ∧ (∀ s ∈ sites, s.validate = .ok ()) ∧ Tallies census sites) ∨
    (∃ before s rest e, sites = before ++ s :: rest ∧ (∀ s' ∈ before, s'.validate = .ok ()) ∧ Countable before ∧
      s.validate = .error e ∧ survey {} sites = .error (.error (.internal e))) ∨
    survey {} sites = .error .overflow ∧ ¬Countable sites := by
  rcases valid_cases sites with hv | ⟨before, s, rest, e, rfl, hbefore, hs⟩
  · rcases survey_of_valid hv with ⟨census, hok, htallies⟩ | hover
    · exact .inl ⟨census, hok, hv, htallies⟩
    · exact .inr (.inr hover)
  · by_cases hcount : Countable before
    · exact .inr (.inl ⟨before, s, rest, e, rfl, hbefore, hcount, hs, survey_invalid hbefore hcount hs⟩)
    · exact .inr (.inr ⟨survey_overflow hbefore hcount _, fun h => hcount h.of_append⟩)

theorem survey_ok {census : Census} (h : survey {} sites = .ok census) :
    (∀ s ∈ sites, s.validate = .ok ()) ∧ Tallies census sites := by
  rcases survey_cases sites with ⟨c, hok, hv, htallies⟩ | ⟨before, s, rest, e, -, -, -, -, hrefused⟩ | ⟨hover, -⟩
  · obtain rfl : c = census := Except.ok.inj (hok.symm.trans h)
    exact ⟨hv, htallies⟩
  · cases hrefused.symm.trans h
  · cases hover.symm.trans h

end ModuleBuilder
end ScriptHost
