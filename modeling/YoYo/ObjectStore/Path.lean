import Mathlib.Data.List.Basic

/-!
# Paths of objects

An object store keeps its objects under *paths*, strings of components between
separators. A path is *standardized* by dropping its empty components, which
collapses runs of separators, and removes those at its ends
(`standardized_append`).

Names made of parts, with a mark in between, are told apart if the parts are,
unless the mark occurs in a part (`append_mark_inj_iff`).
-/

namespace ObjectStore

section

variable {α : Type*} [DecidableEq α] {sep : α} {a b l : List α}

/-- The components of a string that are not empty, joined again. -/
def standardized (sep : α) (s : List α) : List α :=
  [sep].intercalate ((s.splitOn sep).filter (· ≠ []))

/-- A string with one separator for each run of separators. -/
def collapse (sep : α) : List α → List α
  | [] => []
  | x :: l => if x = sep ∧ l.head? = some sep then collapse sep l else x :: collapse sep l

@[simp] theorem collapse_nil : collapse sep [] = [] := rfl

theorem collapse_cons_of_ne {x : α} (hx : x ≠ sep) :
    collapse sep (x :: l) = x :: collapse sep l := by
  rw [collapse, if_neg fun h => hx h.1]

/-- A string without separators stays as it is before another one. -/
theorem collapse_append_of_notMem (ha : sep ∉ a) : collapse sep (a ++ b) = a ++ collapse sep b := by
  induction a with
  | nil => rfl
  | cons x a ih =>
    rw [List.mem_cons, not_or] at ha
    rw [List.cons_append, collapse_cons_of_ne (Ne.symm ha.1), ih ha.2, List.cons_append]

theorem collapse_of_notMem (ha : sep ∉ a) : collapse sep a = a := by
  have h := collapse_append_of_notMem (b := []) ha
  rwa [collapse_nil, List.append_nil] at h

/-- No run of separators goes on in what does not start with one. -/
theorem collapse_append (hb : b.head? ≠ some sep) :
    collapse sep (a ++ b) = collapse sep a ++ collapse sep b := by
  induction a with
  | nil => rfl
  | cons x a ih =>
    have hhead : (a ++ b).head? = some sep ↔ a.head? = some sep := by
      cases a with
      | nil => simpa using hb
      | cons y a => rfl
    simp only [List.cons_append, collapse, hhead, ih]
    split_ifs <;> rfl

/-- A run of separators is one, before the rest. -/
theorem collapse_cons_sep (l : List α) :
    collapse sep (sep :: l) = sep :: collapse sep (l.dropWhile (· = sep)) := by
  induction l with
  | nil => simp [collapse]
  | cons x l ih =>
    by_cases hx : x = sep
    · subst hx
      rw [List.dropWhile_cons_of_pos (by simp), ← ih, collapse, if_pos ⟨rfl, rfl⟩]
    · rw [List.dropWhile_cons_of_neg (by simpa using hx), collapse,
        if_neg fun h => hx (Option.some.inj h.2)]

/-- The components of a string that does not end in a separator, all but the
    first of them if they are empty, joined again. -/
theorem intercalate_splitOn_filter (hl : l.getLast? ≠ some sep) :
    ∃ p ps, l.splitOn sep = p :: ps ∧
      [sep].intercalate (p :: ps.filter (· ≠ [])) = collapse sep l ∧
      (p = [] ↔ l = [] ∨ l.head? = some sep) := by
  induction l with
  | nil => exact ⟨[], [], rfl, rfl, by simp⟩
  | cons x l ih =>
    have hlast : l.getLast? ≠ some sep := by
      cases l with
      | nil => simp
      | cons y l => rwa [List.getLast?_cons_cons] at hl
    obtain ⟨p, ps, hsplit, hjoin, hp⟩ := ih hlast
    by_cases hx : x = sep
    · subst hx
      -- A separator starts a component, empty so far, and ends the empty one before it.
      refine ⟨[], p :: ps, ?_, ?_, by simp⟩
      · rw [List.splitOn_cons_eq_if_modifyHead, if_pos (beq_self_eq_true x), hsplit]
      · have hne : l ≠ [] := by
          rintro rfl
          exact hl rfl
        rw [collapse]
        by_cases hnil : p = []
        · -- The run of separators goes on.
          have hhead := (hp.1 hnil).resolve_left hne
          rw [if_pos ⟨rfl, hhead⟩, ← hjoin, hnil]
          rfl
        · have hhead : l.head? ≠ some x := fun h => hnil (hp.2 (.inr h))
          rw [if_neg fun h => hhead h.2, List.filter_cons_of_pos (by simpa using hnil),
            List.intercalate_cons_cons, hjoin]
          rfl
    · rw [List.splitOn_cons_eq_if_modifyHead, if_neg (by simpa using hx), hsplit]
      refine ⟨x :: p, ps, rfl, ?_, by simp [hx]⟩
      rw [List.intercalate_cons_cons_left, hjoin, collapse_cons_of_ne hx]

/-- A name in a folder, not ending in a separator. -/
theorem standardized_append {folder name : List α} (hne : folder ≠ []) (hfolder : sep ∉ folder)
    (hname : name.getLast? ≠ some sep) (hname' : name ≠ []) :
    standardized sep (folder ++ sep :: name) =
      folder ++ sep :: collapse sep (name.dropWhile (· = sep)) := by
  have hlast : (folder ++ sep :: name).getLast? ≠ some sep := by
    obtain ⟨x, name, rfl⟩ := List.exists_cons_of_ne_nil hname'
    rwa [List.getLast?_append_cons, List.getLast?_cons_cons]
  obtain ⟨p, ps, hsplit, hjoin, hp⟩ := intercalate_splitOn_filter hlast
  have hnil : p ≠ [] := fun hnil => by
    rcases hp.1 hnil with h | h
    · exact hne (List.append_eq_nil_iff.1 h).1
    · obtain ⟨x, folder, rfl⟩ := List.exists_cons_of_ne_nil hne
      rw [List.cons_append, List.head?_cons, Option.some.injEq] at h
      exact hfolder (h ▸ List.mem_cons_self)
  rw [standardized, hsplit, List.filter_cons_of_pos (by simpa using hnil), hjoin,
    collapse_append_of_notMem hfolder, collapse_cons_sep]

end

/-! ## Names with a mark -/

section

variable {α : Type*} {c : α} {w a b a' b' t r : List α}

/-- The part `a'` ends after a mark in the string `a ++ c :: w ++ c :: b`: the
    next occurrence of the mark in it may share the `c` in between. -/
def MarkedAgain (c : α) (w a b a' b' : List α) : Prop :=
  ∃ z, a' = a ++ c :: w ++ z ∧ c :: b = z ++ c :: w ++ c :: b'

/-- The first `c` of a string is after what is before it in any other way to take it apart. -/
theorem exists_of_append_cons_eq (hc : c ∉ w)
    (h : w ++ c :: b = t ++ c :: r) : ∃ z, t = w ++ z ∧ c :: b = z ++ c :: r := by
  rcases List.append_eq_append_iff.1 h with ⟨z, ht, hb⟩ | ⟨z, hw, hr⟩
  · exact ⟨z, ht, hb⟩
  · cases z with
    | nil =>
      rw [List.append_nil] at hw
      exact ⟨[], by rw [hw, List.append_nil], hr.symm⟩
    | cons d z =>
      obtain ⟨rfl, -⟩ := List.cons.inj hr
      exact absurd (hw ▸ List.mem_append_right t List.mem_cons_self) hc

/-- Two strings with a character after parts without it. -/
theorem append_cons_inj (ha : c ∉ a) (ha' : c ∉ a') :
    a ++ c :: b = a' ++ c :: b' ↔ a = a' ∧ b = b' := by
  refine ⟨fun h => ?_, by rintro ⟨rfl, rfl⟩; rfl⟩
  obtain ⟨z, hz, hb⟩ := exists_of_append_cons_eq ha h
  obtain ⟨z', hz', -⟩ := exists_of_append_cons_eq ha' h.symm
  have hnil : z = [] := by
    have hlen := congrArg List.length hz
    have hlen' := congrArg List.length hz'
    rw [List.length_append] at hlen hlen'
    exact List.eq_nil_of_length_eq_zero (by omega)
  subst hnil
  exact ⟨by rw [hz, List.append_nil], (List.cons.inj hb).2⟩

/-- Two marks of a string are the same, or the second one is after the first one. -/
theorem mark_cases (hc : c ∉ w)
    (h : c :: w ++ c :: b = t ++ (c :: w ++ c :: b')) :
    t = [] ∧ b = b' ∨ ∃ z, t = c :: w ++ z ∧ c :: b = z ++ c :: w ++ c :: b' := by
  cases t with
  | nil => exact .inl ⟨rfl, (List.cons.inj (List.append_cancel_left h)).2⟩
  | cons d t =>
    obtain ⟨rfl, htail⟩ := List.cons.inj h
    obtain ⟨z, rfl, hz⟩ := exists_of_append_cons_eq hc htail
    refine .inr ⟨z, rfl, ?_⟩
    rw [hz, List.append_assoc]
    rfl

theorem MarkedAgain.append_eq (h : MarkedAgain c w a b a' b') :
    a ++ c :: w ++ c :: b = a' ++ c :: w ++ c :: b' := by
  obtain ⟨z, rfl, hb⟩ := h
  rw [hb]
  simp

/-- Parts with a mark in between are the same, or there is another mark. -/
theorem append_mark_inj_iff (hc : c ∉ w) :
    a ++ c :: w ++ c :: b = a' ++ c :: w ++ c :: b' ↔
      a = a' ∧ b = b' ∨ MarkedAgain c w a b a' b' ∨ MarkedAgain c w a' b' a b := by
  constructor
  · intro h
    rw [List.append_assoc, List.append_assoc] at h
    rcases List.append_eq_append_iff.1 h with ⟨t, rfl, ht⟩ | ⟨t, rfl, ht⟩
    · rcases mark_cases hc ht with ⟨rfl, rfl⟩ | ⟨z, rfl, hz⟩
      · exact .inl ⟨(List.append_nil a).symm, rfl⟩
      · exact .inr (.inl ⟨z, (List.append_assoc _ _ _).symm, hz⟩)
    · rcases mark_cases hc ht with ⟨rfl, rfl⟩ | ⟨z, rfl, hz⟩
      · exact .inl ⟨List.append_nil a', rfl⟩
      · exact .inr (.inr ⟨z, (List.append_assoc _ _ _).symm, hz⟩)
  · rintro (⟨rfl, rfl⟩ | h | h)
    · rfl
    · exact h.append_eq
    · exact h.append_eq.symm

end

end ObjectStore
