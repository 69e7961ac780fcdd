import YoYo.DocStore.Record

/-!
# Layers of programs

A service is written with the calls of the service below it: what is one call to
its clients is a program there. So a program of its clients becomes one of the
service below, by making each of its calls so (`Prog.through`), of programs that
are run one after the other (`Prog.bind`).

What holds along a record is put together the same way: a program satisfies what
is asked for below, if it satisfies what is asked for above and each of its calls
is made by a program ending with an answer that is fine above (`Prog.Along.through`).
-/

namespace DocStore.Prog

variable {C C' W : Type*} {A : C → Type*} {A' : C' → Type*} {ρ σ : Type*}

/-- A program, and what its result goes on with. -/
def bind : Prog C A ρ → (ρ → Prog C A σ) → Prog C A σ
  | done r, f => f r
  | call c k, f => call c fun a => (k a).bind f

@[simp] theorem done_bind (r : ρ) (f : ρ → Prog C A σ) : (done r).bind f = f r := rfl

@[simp] theorem call_bind (c : C) (k : A c → Prog C A ρ) (f : ρ → Prog C A σ) :
    (call c k).bind f = call c fun a => (k a).bind f := rfl

/-- A program, with each call made by a program of the layer below. -/
def through (perform : (c : C) → Prog C' A' (A c)) : Prog C A ρ → Prog C' A' ρ
  | done r => done r
  | call c k => (perform c).bind fun a => (k a).through perform

variable {perform : (c : C) → Prog C' A' (A c)}

@[simp] theorem through_done (r : ρ) : (done r : Prog C A ρ).through perform = done r := rfl

@[simp] theorem through_call (c : C) (k : A c → Prog C A ρ) :
    (call c k).through perform = (perform c).bind fun a => (k a).through perform := rfl

/-! ## Along a record -/

variable [Preorder W] {ok : W → (c : C) → A c → Prop} {ok' : W → (c : C') → A' c → Prop}
  {P : W → C → Prop} {P' : W → C' → Prop} {Q : W → ρ → Prop} {Q' : W → σ → Prop}
  {p : Prog C A ρ} {w : W}

/-- What the first program ends with justifies what goes on. -/
theorem Along.bind (h : p.Along ok P Q w) {f : ρ → Prog C A σ}
    (hf : ∀ w', w ≤ w' → ∀ r, Q w' r → (f r).Along ok P Q' w') :
    (p.bind f).Along ok P Q' w := by
  induction p generalizing w with
  | done r => exact hf w le_rfl r h
  | call c k ih =>
    refine ⟨h.1, fun w' hle a ha => ih a (h.2 w' hle a ha) fun w'' hle' => ?_⟩
    exact hf w'' (hle.trans hle')

/-- Calls that satisfy what is asked for above are made by programs satisfying
    what is asked for below, each with an answer that is fine above. -/
theorem Along.through (h : p.Along ok P Q w)
    (hperform : ∀ w', w ≤ w' → ∀ c, P w' c → (perform c).Along ok' P' (ok · c) w') :
    (p.through perform).Along ok' P' Q w := by
  induction p generalizing w with
  | done r => exact h
  | call c k ih =>
    refine (hperform w le_rfl c h.1).bind fun w' hle a ha => ih a (h.2 w' hle a ha) ?_
    exact fun w'' hle' => hperform w'' (hle.trans hle')

/-- The result, in another form. -/
theorem Along.map (h : p.Along ok P Q w) {f : ρ → σ} (hf : ∀ w' r, Q w' r → Q' w' (f r)) :
    (p.map f).Along ok P Q' w := by
  induction p generalizing w with
  | done r => exact hf w r h
  | call c k ih => exact ⟨h.1, fun w' hle a ha => ih a (h.2 w' hle a ha)⟩

/-! ## What a program tells -/

section Tells

variable {τ : Type*} {effect : (c : C) → A c → Option τ} {effect' : (c : C') → A' c → Option τ}
  {told : ρ → Option τ} {told' : σ → Option τ}

/-- Whatever its calls are answered by: what a call has done, if anything, is what
    the program tells by ending right then. -/
def Tells (effect : (c : C) → A c → Option τ) (told : ρ → Option τ) : Prog C A ρ → Prop
  | done _ => True
  | call c k => ∀ a, (k a).result.bind told = effect c a ∧ (k a).Tells effect told

@[simp] theorem tells_done {r : ρ} : (done r : Prog C A ρ).Tells effect told := trivial

/-- What goes on with the result tells what the result does. -/
theorem Tells.bind {p : Prog C A ρ} (h : p.Tells effect told) {f : ρ → Prog C A σ}
    (hf : ∀ r, (f r).result.bind told' = told r ∧ (f r).Tells effect told') :
    (p.bind f).Tells effect told' := by
  induction p with
  | done r => exact (hf r).2
  | call c k ih =>
    refine fun a => ⟨?_, ih a (h a).2⟩
    change ((k a).bind f).result.bind told' = effect c a
    rw [← (h a).1]
    cases k a with
    | done r => exact (hf r).1
    | call c' k' => rfl

/-- The result, in another form. -/
theorem Tells.map {p : Prog C A ρ} (h : p.Tells effect told) {f : ρ → σ}
    (hf : ∀ r, told' (f r) = told r) : (p.map f).Tells effect told' := by
  induction p with
  | done r => trivial
  | call c k ih =>
    refine fun a => ⟨?_, ih a (h a).2⟩
    rw [← (h a).1, result_map]
    cases (k a).result with
    | none => rfl
    | some r => exact hf r

/-- Where each call is made by a program that makes some itself, a program has
    ended below exactly if it has above. -/
theorem result_through (hcall : ∀ c, (perform c).result = none) (p : Prog C A ρ) :
    (p.through perform).result = p.result := by
  cases p with
  | done r => rfl
  | call c k =>
    rw [through_call]
    have hc := hcall c
    cases hperform : perform c with
    | done a =>
      rw [hperform] at hc
      cases hc
    | call c' k' => rfl

/-- Calls made by programs that tell what they have done. -/
theorem Tells.through {p : Prog C A ρ} (h : p.Tells effect told)
    (hcall : ∀ c, (perform c).result = none)
    (hperform : ∀ c, (perform c).Tells effect' (effect c)) :
    (p.through perform).Tells effect' told := by
  induction p with
  | done r => trivial
  | call c k ih =>
    refine (hperform c).bind fun a => ⟨?_, ih a (h a).2⟩
    rw [result_through hcall]
    exact (h a).1

end Tells

end DocStore.Prog
