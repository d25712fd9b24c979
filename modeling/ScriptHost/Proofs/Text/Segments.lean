import ScriptHost.Text.Dotted

/-!
# Parts of dotted names

A name is cut at its dots (`segments_eq_splitOn`) and nothing is lost, also not where it begins or ends with a dot or
has two in a row. So the parts of one name begin those of another just where its text does and stops at the end or at
a dot (`segments_prefix_iff`).
-/

namespace ScriptHost.Text

/-- A row is cut from its end: each element opens a part of its own or goes to the front of the first one. -/
theorem splitOn_cons {α : Type} [DecidableEq α] {sep : α} (c : α) (cs : List α) :
    (c :: cs).splitOn sep =
      if c = sep then [] :: cs.splitOn sep
      else match cs.splitOn sep with
        | [] => [[c]]
        | first :: rest => (c :: first) :: rest := by
  rw [List.splitOn_cons_eq_if_modifyHead]
  by_cases hc : c = sep
  · rw [if_pos hc, if_pos (beq_iff_eq.2 hc)]
  · rw [if_neg hc, if_neg (by rwa [beq_iff_eq])]
    cases hcs : cs.splitOn sep with
    | nil => exact absurd hcs (List.splitOn_ne_nil _ _)
    | cons first rest => rfl

theorem segments_eq_splitOn (cs : List Char) : segments cs = cs.splitOn '.' := by
  induction cs with
  | nil => rw [List.splitOn_nil, segments]
  | cons c cs ih =>
    rw [segments, splitOn_cons, ih]
    cases cs.splitOn '.' <;> rfl

theorem intercalate_append {α : Type} {sep : α} {ls ms : List (List α)} (hls : ls ≠ []) (hms : ms ≠ []) :
    [sep].intercalate (ls ++ ms) = [sep].intercalate ls ++ sep :: [sep].intercalate ms := by
  induction ls with
  | nil => exact absurd rfl hls
  | cons l ls ih =>
    rw [List.cons_append, List.intercalate_cons_of_ne_nil (by simp [hms])]
    cases ls with
    | nil => simp
    | cons l' ls =>
      rw [ih (List.cons_ne_nil _ _), List.intercalate_cons_cons]
      simp

theorem splitOn_prefix_iff {α : Type} [BEq α] [LawfulBEq α] {sep : α} {as bs : List α} :
    as.splitOn sep <+: bs.splitOn sep ↔ bs = as ∨ ∃ rest, bs = as ++ sep :: rest := by
  constructor
  · rintro ⟨more, hmore⟩
    have hbs : bs = [sep].intercalate (as.splitOn sep ++ more) := by rw [hmore, List.intercalate_splitOn]
    by_cases hnil : more = []
    · rw [hnil, List.append_nil, List.intercalate_splitOn] at hbs
      exact .inl hbs
    · rw [intercalate_append (List.splitOn_ne_nil _ _) hnil, List.intercalate_splitOn] at hbs
      exact .inr ⟨_, hbs⟩
  · rintro (rfl | ⟨rest, rfl⟩)
    · exact List.prefix_rfl
    · rw [List.splitOn_append_cons_self]
      exact List.prefix_append ..

theorem segments_prefix_iff {as bs : List Char} :
    segments as <+: segments bs ↔ bs = as ∨ ∃ rest, bs = as ++ '.' :: rest := by
  rw [segments_eq_splitOn, segments_eq_splitOn, splitOn_prefix_iff]

/-- A name is another or nested under it: its parts begin with those of the other. -/
def Under (name outer : String) : Prop := segments outer.toList <+: segments name.toList

theorem Under.trans {name middle outer : String} (h : Under name middle) (h' : Under middle outer) : Under name outer :=
  List.IsPrefix.trans h' h

theorem under_append_dot (outer rest : String) : Under (outer ++ "." ++ rest) outer := by
  refine segments_prefix_iff.2 (.inr ⟨rest.toList, ?_⟩)
  rw [String.toList_append, String.toList_append, List.append_assoc]
  rfl

theorem Under.ne_empty {name outer : String} (h : Under name outer) (houter : outer ≠ "") : name ≠ "" := by
  rintro rfl
  rcases segments_prefix_iff.1 h with heq | ⟨rest, heq⟩
  · exact houter (String.toList_inj.1 heq.symm)
  · simp at heq

end ScriptHost.Text
