import ScriptHost.Assoc

/-!
# More laws of association tables

What `adjust` and `erase` do to `get?`, and what every operation does to the entries: a value that is replaced
stays in its place, and a new key comes last.
-/

namespace ScriptHost.Assoc

variable {κ ν : Type} [DecidableEq κ]

theorem get?_adjust (t : Assoc κ ν) (k k' : κ) (f : ν → ν) :
    (t.adjust k f).get? k' = if k = k' then (t.get? k').map f else t.get? k' := by
  rw [adjust]
  cases h : t.get? k with
  | none =>
    by_cases hk : k = k'
    · subst hk
      rw [if_pos rfl, h]
      rfl
    · rw [if_neg hk]
  | some v =>
    dsimp only
    rw [get?_put]
    by_cases hk : k = k'
    · subst hk
      rw [if_pos rfl, if_pos rfl, h]
      rfl
    · rw [if_neg hk, if_neg hk]

theorem getIn_filter_self (k : κ) (es : List (κ × ν)) :
    getIn k (es.filter fun e => !decide (e.1 = k)) = none := by
  induction es with
  | nil => rfl
  | cons e es ih =>
    by_cases he : e.1 = k
    · rw [List.filter_cons_of_neg (by simp [he]), ih]
    · rw [List.filter_cons_of_pos (by simp [he]), getIn, if_neg he, ih]

theorem getIn_filter_ne {k k' : κ} (h : k ≠ k') (es : List (κ × ν)) :
    getIn k' (es.filter fun e => !decide (e.1 = k)) = getIn k' es := by
  induction es with
  | nil => rfl
  | cons e es ih =>
    by_cases he : e.1 = k
    · have hne : e.1 ≠ k' := fun he' => h (he.symm.trans he')
      rw [List.filter_cons_of_neg (by simp [he]), ih, getIn, if_neg hne]
    · rw [List.filter_cons_of_pos (by simp [he]), getIn, getIn, ih]

theorem get?_erase (t : Assoc κ ν) (k k' : κ) : (t.erase k).get? k' = if k = k' then none else t.get? k' := by
  by_cases h : k = k'
  · subst h
    rw [if_pos rfl]
    exact getIn_filter_self k t.entries
  · rw [if_neg h]
    exact getIn_filter_ne h t.entries

/-! ## Entries -/

theorem exists_entries {t : Assoc κ ν} {k : κ} {v : ν} (h : t.get? k = some v) :
    ∃ es es', t.entries = es ++ (k, v) :: es' ∧ ∀ v', (t.put k v').entries = es ++ (k, v') :: es' := by
  obtain ⟨entries⟩ := t
  simp only [get?, put] at h ⊢
  induction entries with
  | nil => cases h
  | cons e rest ih =>
    obtain ⟨k', v'⟩ := e
    by_cases hk : k' = k
    · subst hk
      rw [getIn, if_pos rfl] at h
      obtain rfl := Option.some.inj h
      exact ⟨[], rest, rfl, fun v' => by rw [putIn, if_pos rfl]; rfl⟩
    · rw [getIn, if_neg hk] at h
      obtain ⟨es, es', heq, hput⟩ := ih h
      refine ⟨(k', v') :: es, es', by rw [heq]; rfl, fun v'' => ?_⟩
      rw [putIn, if_neg hk, hput]
      rfl

theorem entries_put_of_none {t : Assoc κ ν} {k : κ} (h : t.get? k = none) (v : ν) :
    (t.put k v).entries = t.entries ++ [(k, v)] := by
  obtain ⟨entries⟩ := t
  simp only [get?, put] at h ⊢
  induction entries with
  | nil => rfl
  | cons e rest ih =>
    obtain ⟨k', v'⟩ := e
    by_cases hk : k' = k
    · rw [getIn, if_pos hk] at h
      cases h
    · rw [getIn, if_neg hk] at h
      rw [putIn, if_neg hk, ih h]
      rfl

theorem mem_entries_put {t : Assoc κ ν} {k : κ} {v : ν} {e : κ × ν} (h : e ∈ (t.put k v).entries) :
    e ∈ t.entries ∨ e = (k, v) := by
  cases hk : t.get? k with
  | none =>
    rw [entries_put_of_none hk, List.mem_append, List.mem_singleton] at h
    exact h
  | some v' =>
    obtain ⟨es, es', heq, hput⟩ := exists_entries hk
    rw [hput, List.mem_append, List.mem_cons] at h
    rw [heq, List.mem_append, List.mem_cons]
    rcases h with h | h | h
    · exact .inl (.inl h)
    · exact .inr h
    · exact .inl (.inr (.inr h))

theorem mem_of_get? {t : Assoc κ ν} {k : κ} {v : ν} (h : t.get? k = some v) : (k, v) ∈ t.entries := by
  obtain ⟨es, es', heq, -⟩ := exists_entries h
  rw [heq]
  exact List.mem_append_right _ (List.mem_cons_self ..)

theorem get?_of_mem {t : Assoc κ ν} (hk : t.keys.Nodup) {k : κ} {v : ν} (h : (k, v) ∈ t.entries) :
    t.get? k = some v := by
  obtain ⟨entries⟩ := t
  simp only [keys, get?] at hk h ⊢
  induction entries with
  | nil => cases h
  | cons e rest ih =>
    rw [List.map_cons, List.nodup_cons] at hk
    rcases List.mem_cons.1 h with rfl | h
    · rw [getIn, if_pos rfl]
    · have hne : e.1 ≠ k := fun he => hk.1 (he ▸ List.mem_map_of_mem h)
      rw [getIn, if_neg hne, ih hk.2 h]

theorem keys_put {t : Assoc κ ν} {k : κ} {v : ν} (h : t.get? k = some v) (v' : ν) : (t.put k v').keys = t.keys := by
  obtain ⟨es, es', heq, hput⟩ := exists_entries h
  rw [keys, keys, heq, hput, List.map_append, List.map_append]
  rfl

theorem not_mem_keys {t : Assoc κ ν} {k : κ} (h : t.get? k = none) : k ∉ t.keys := by
  obtain ⟨entries⟩ := t
  simp only [get?, keys] at h ⊢
  induction entries with
  | nil => exact List.not_mem_nil
  | cons e rest ih =>
    by_cases hk : e.1 = k
    · rw [getIn, if_pos hk] at h
      cases h
    · rw [getIn, if_neg hk] at h
      rw [List.map_cons, List.mem_cons, not_or]
      exact ⟨Ne.symm hk, ih h⟩

theorem nodup_keys_put {t : Assoc κ ν} (hn : t.keys.Nodup) (k : κ) (v : ν) : (t.put k v).keys.Nodup := by
  cases h : t.get? k with
  | some v' => rwa [keys_put h]
  | none =>
    rw [keys, entries_put_of_none h, List.map_append]
    refine List.nodup_append.2 ⟨hn, List.pairwise_singleton .., fun a ha b hb heq => ?_⟩
    rw [heq, List.mem_singleton.1 hb] at ha
    exact not_mem_keys h ha

theorem nodup_keys_erase {t : Assoc κ ν} (hn : t.keys.Nodup) (k : κ) : (t.erase k).keys.Nodup :=
  hn.sublist (List.filter_sublist.map Prod.fst)

theorem perm_erase {t : Assoc κ ν} (hn : t.keys.Nodup) {k : κ} {v : ν} (h : t.get? k = some v) :
    t.entries.Perm ((k, v) :: (t.erase k).entries) := by
  obtain ⟨es, es', heq, -⟩ := exists_entries h
  rw [keys, heq, List.map_append, List.map_cons, List.nodup_append] at hn
  have hleft : es.filter (fun e => !decide (e.1 = k)) = es := by
    rw [List.filter_eq_self]
    intro e he
    have hne := hn.2.2 e.1 (List.mem_map_of_mem he) k (List.mem_cons_self ..)
    simp [hne]
  have hright : es'.filter (fun e => !decide (e.1 = k)) = es' := by
    rw [List.filter_eq_self]
    intro e he
    have hmem : e.1 ∈ es'.map Prod.fst := List.mem_map_of_mem he
    have hne : e.1 ≠ k := fun hk => (List.nodup_cons.1 hn.2.1).1 (hk ▸ hmem)
    simp [hne]
  rw [erase, heq, List.filter_append, List.filter_cons_of_neg (by simp), hleft, hright]
  exact List.perm_middle

/-! ## Views of values -/

variable {μ : Type}

def view (f : ν → μ) (t : Assoc κ ν) : Assoc κ μ := ⟨t.entries.map fun e => (e.1, f e.2)⟩

theorem get?_view (f : ν → μ) (t : Assoc κ ν) (k : κ) : (t.view f).get? k = (t.get? k).map f := by
  obtain ⟨entries⟩ := t
  simp only [get?, view]
  induction entries with
  | nil => rfl
  | cons e rest ih =>
    rw [List.map_cons, getIn, getIn]
    by_cases hk : e.1 = k
    · rw [if_pos hk, if_pos hk]
      rfl
    · rw [if_neg hk, if_neg hk, ih]

omit [DecidableEq κ] in
theorem keys_view (f : ν → μ) (t : Assoc κ ν) : (t.view f).keys = t.keys := by
  rw [keys, keys, view, List.map_map]
  rfl

theorem view_put {f : ν → μ} {t : Assoc κ ν} {k : κ} {v v' : ν} (h : t.get? k = some v) (hf : f v' = f v) :
    (t.put k v').view f = t.view f := by
  obtain ⟨es, es', heq, hput⟩ := exists_entries h
  rw [view, view, heq, hput, List.map_append, List.map_append, List.map_cons, List.map_cons, hf]

theorem view_adjust {f : ν → μ} {g : ν → ν} (hf : ∀ v, f (g v) = f v) (t : Assoc κ ν) (k : κ) :
    (t.adjust k g).view f = t.view f := by
  rw [adjust]
  cases h : t.get? k with
  | none => rfl
  | some v => exact view_put h (hf v)

theorem keys_adjust (t : Assoc κ ν) (k : κ) (g : ν → ν) : (t.adjust k g).keys = t.keys := by
  rw [adjust]
  cases h : t.get? k with
  | none => rfl
  | some v => exact keys_put h (g v)

end ScriptHost.Assoc
