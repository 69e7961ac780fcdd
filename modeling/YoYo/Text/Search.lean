import Mathlib

/-!
# Searching texts regardless of case

Texts may be searched for in each other, and put into lower case (`Searching`). In
whatever way that is done, a text that occurs in another does so in lower case,
and what is in lower case stays so. A text is searched for among some others as
it is (`FoundIn`), or regardless of case (`Found`), i.e., in lower case in the
others in lower case. The latter finds whatever is found as it is, or in lower
case in some of the others as they are.

A way to do that is to put each character into lower case on its own, into one
or more of them, and to look for occurrences of the characters
(`LowercaseMapping.searching`).
-/

namespace Text

variable {τ σ α : Type*}

/-- How texts are put into lower case, and searched for in each other. -/
structure Searching (τ : Type*) where
  lowercased : τ → τ
  contains : τ → τ → Bool
  contains_lowercased : ∀ {t s}, contains t s → contains (lowercased t) (lowercased s)
  lowercased_lowercased : ∀ t, lowercased (lowercased t) = lowercased t

namespace Searching

variable (c : Searching τ)

/-- The text occurs in one of the others. -/
def FoundIn (s : τ) (texts : List τ) : Prop := ∃ t ∈ texts, c.contains t s

instance (s : τ) (texts : List τ) : Decidable (c.FoundIn s texts) :=
  inferInstanceAs (Decidable (∃ t ∈ texts, c.contains t s))

/-- The text occurs in one of the others, regardless of case. -/
def Found (s : τ) (texts : List τ) : Prop := c.FoundIn (c.lowercased s) (texts.map c.lowercased)

variable {c} {s : τ} {texts texts' : List τ}

/-- What occurs as it is does so regardless of case. -/
theorem found_of_foundIn (h : c.FoundIn s texts) : c.Found s texts := by
  obtain ⟨t, ht, hs⟩ := h
  exact ⟨c.lowercased t, List.mem_map_of_mem ht, c.contains_lowercased hs⟩

/-- A text in lower case occurs in what it does, also if that is put into lower case. -/
theorem FoundIn.of_lowercased (h : c.FoundIn (c.lowercased s) texts)
    (htexts : ∀ t ∈ texts, t ∈ texts' ∨ c.lowercased t ∈ texts') :
    c.FoundIn (c.lowercased s) texts' := by
  obtain ⟨t, ht, hs⟩ := h
  rcases htexts t ht with hmem | hmem
  · exact ⟨t, hmem, hs⟩
  · have hlower := c.contains_lowercased hs
    rw [c.lowercased_lowercased] at hlower
    exact ⟨c.lowercased t, hmem, hlower⟩

/-- The texts of a type which are those of another, written in another way. -/
def comap (c : Searching τ) (f : σ → τ) (g : τ → σ) (hfg : ∀ t, f (g t) = t) : Searching σ where
  lowercased t := g (c.lowercased (f t))
  contains t s := c.contains (f t) (f s)
  contains_lowercased h := by
    rw [hfg, hfg]
    exact c.contains_lowercased h
  lowercased_lowercased t := by rw [hfg, c.lowercased_lowercased]

end Searching

/-! ## Lists of characters -/

/-- How the characters of an alphabet are put into lower case. -/
structure LowercaseMapping (α : Type*) where
  mapping : α → List α
  flatMap_mapping : ∀ a, (mapping a).flatMap mapping = mapping a

/-- Characters put into lower case one by one, and searched for literally. -/
def LowercaseMapping.searching [DecidableEq α] (m : LowercaseMapping α) :
    Searching (List α) where
  lowercased t := t.flatMap m.mapping
  contains t s := decide (s <:+: t)
  contains_lowercased h := by
    rw [decide_eq_true_iff] at h ⊢
    exact h.flatMap m.mapping
  lowercased_lowercased t := by
    rw [List.flatMap_assoc]
    simp only [m.flatMap_mapping]

/-- The letters of ASCII in lower case, and other characters as they are. -/
def ascii : LowercaseMapping Char where
  mapping c := [c.toLower]
  flatMap_mapping c := by
    rw [List.flatMap_singleton, Char.toLower_toLower_eq_toLower]

end Text
