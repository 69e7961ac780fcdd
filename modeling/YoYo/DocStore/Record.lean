import Mathlib.Order.Basic
import YoYo.DocStore.Prog

/-!
# Programs along a record

While a program waits for an answer, others go on, and what has happened grows: a
*record* `W` is what is known to have happened, ordered by growth. What a program
is answered is justified by the record there is then, and what it does later by
the one there is by then (`Prog.Along`). As no justification is ever lost
(`Prog.Along.mono`), programs may be answered in any order, and started at any
time, in a system whose record grows.
-/

namespace DocStore.Prog

variable {C W : Type*} {A : C → Type*} {ρ : Type*} [Preorder W] {ok ok' : W → (c : C) → A c → Prop}
  {P : W → C → Prop} {Q Q' : W → ρ → Prop}

/-- Whatever the record grows into while the program waits, and whatever its calls
    are answered by, as long as the answers are `ok` by then, its calls satisfy
    `P`, and its result `Q`, by the time of each. -/
def Along (ok : W → (c : C) → A c → Prop) (P : W → C → Prop) (Q : W → ρ → Prop) :
    Prog C A ρ → W → Prop
  | done r, w => Q w r
  | call c k, w => P w c ∧ ∀ w', w ≤ w' → ∀ a, ok w' c a → (k a).Along ok P Q w'

variable {p : Prog C A ρ} {w w' : W}

@[simp] theorem along_done {r : ρ} : (done r : Prog C A ρ).Along ok P Q w ↔ Q w r := Iff.rfl

namespace Along

/-- What is justified once stays so. -/
theorem mono (hP : ∀ {w w'} c, w ≤ w' → P w c → P w' c)
    (hQ : ∀ {w w'} r, w ≤ w' → Q w r → Q w' r) (h : p.Along ok P Q w) (hle : w ≤ w') :
    p.Along ok P Q w' := by
  cases p with
  | done r => exact hQ r hle h
  | call c k => exact ⟨hP c hle h.1, fun w'' hle' a ha => h.2 w'' (hle.trans hle') a ha⟩

/-- The next call, if there is one, is answered. -/
theorem resume (h : p.Along ok P Q w) (hle : w ≤ w') (hQ : ∀ r, Q w r → Q w' r)
    {a : (c : C) → A c} (ha : ∀ c, ok w' c (a c)) : (p.resume a).Along ok P Q w' := by
  cases p with
  | done r => exact hQ r h
  | call c k => exact h.2 w' hle (a c) (ha c)

/-- A program that checks its calls may end with `thrown`, too. -/
theorem checked {valid : C → Prop} [DecidablePred valid] {thrown : ρ} (h : p.Along ok P Q w)
    (hthrown : ∀ w, Q w thrown) : (p.checked valid thrown).Along ok P Q w := by
  induction p generalizing w with
  | done r => exact h
  | call c k ih =>
    by_cases hc : valid c
    · rw [checked_call_of_valid hc]
      exact ⟨h.1, fun w' hle a ha => ih a (h.2 w' hle a ha)⟩
    · rw [checked_call_of_not_valid hc]
      exact hthrown w

/-- The result of a program that has ended. -/
theorem of_result (h : p.Along ok P Q w) {r : ρ} (hr : p.result = some r) : Q w r := by
  cases p with
  | done r' => exact Option.some.inj hr ▸ h
  | call c k => exact absurd hr (Option.some_ne_none r).symm

end Along

end DocStore.Prog
