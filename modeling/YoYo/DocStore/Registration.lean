import Mathlib.Data.List.Basic

/-!
# Registrations

Listeners are registered one after the other, and each is live until it is
removed (`Registrations`), by whoever has kept the registration of it. Removing
a listener again does nothing.
-/

namespace DocStore

/-- The listeners registered so far, known by their numbers, of which some are live. -/
structure Registrations where
  registered : ℕ
  live : List ℕ
  deriving DecidableEq, Repr

namespace Registrations

/-- No listeners. -/
def empty : Registrations := ⟨0, []⟩

/-- Registering a listener. -/
def addSnapshotListener (r : Registrations) : ℕ × Registrations :=
  (r.registered, ⟨r.registered + 1, r.live ++ [r.registered]⟩)

/-- Removing one. -/
def remove (r : Registrations) (listener : ℕ) : Registrations :=
  { r with live := r.live.filter fun l => l ≠ listener }

/-- Removing one after the other. -/
def removeAll (r : Registrations) (listeners : List ℕ) : Registrations := listeners.foldl remove r

variable {r : Registrations} {listener : ℕ} {listeners : List ℕ}

@[simp] theorem live_remove : (r.remove listener).live = r.live.filter fun l => l ≠ listener := rfl

@[simp] theorem removeAll_nil : r.removeAll [] = r := rfl

@[simp] theorem removeAll_cons :
    r.removeAll (listener :: listeners) = (r.remove listener).removeAll listeners := rfl

/-- Those live stay so that are not removed. -/
theorem live_removeAll :
    (r.removeAll listeners).live = r.live.filter fun l => l ∉ listeners := by
  induction listeners generalizing r with
  | nil => simp
  | cons listener listeners ih =>
    rw [removeAll_cons, ih, live_remove, List.filter_filter]
    refine List.filter_congr fun l _ => ?_
    simp only [List.mem_cons, not_or, Bool.decide_and, Bool.and_comm]

/-- Where all that are live are removed, none is left. -/
theorem live_removeAll_of_subset (h : r.live ⊆ listeners) : (r.removeAll listeners).live = [] := by
  rw [live_removeAll, List.filter_eq_nil_iff]
  intro l hl
  simpa using h hl

end Registrations

end DocStore
