import Mathlib.Data.List.Basic
import Mathlib.Data.List.Induction

/-!
# Runs

A system taking one event after another: `next s e` is the state after the
event `e` in the state `s`. A *run* is a list of events, and what is said of a
run is said of each of its steps, i.e., of each event in the state it happens
in (`AllSteps`). Which events a state allows is such a property of steps too.

* `AllSteps.invariant`: what every step of the run preserves, the run does, also
  if it is about the run so far (`AllSteps.invariant_of_run`);
* `allSteps_iff`: two properties of steps agreeing in the states satisfying an
  invariant agree on the runs, even if the invariant is only preserved by the
  steps having the property;
* `allSteps_iff_forall`: a property of a run is one of all of its steps;
* `forall_prefix_iff`: what holds at every moment of a run is one as well;
* `yielded`: what the steps of a run yield, to be kept account of
  (`AllSteps.invariant_yielded`);
* `Reaches`: a run leads from one state to another.

Where clients act on what they have read some time before, the state is the
list of the versions there have been (`Versions`).
-/

namespace DocStore

variable {σ ε : Type*} (next : σ → ε → σ)

/-- The state after the run `es` from `s`. -/
def after (s : σ) (es : List ε) : σ := es.foldl next s

/-- Every step of the run `es` from `s` has the property `P`. -/
def AllSteps (P : σ → ε → Prop) : σ → List ε → Prop
  | _, [] => True
  | s, e :: es => P s e ∧ AllSteps P (next s e) es

instance AllSteps.instDecidable {P : σ → ε → Prop} [inst : ∀ s e, Decidable (P s e)] :
    ∀ s es, Decidable (AllSteps next P s es)
  | _, [] => .isTrue trivial
  | s, e :: es => @instDecidableAnd _ _ (inst s e) (AllSteps.instDecidable (next s e) es)

variable {next} {P Q R : σ → ε → Prop} {I : σ → Prop}

@[simp] theorem after_nil (s : σ) : after next s [] = s := rfl

@[simp] theorem after_cons (s : σ) (e : ε) (es : List ε) :
    after next s (e :: es) = after next (next s e) es := rfl

@[simp] theorem after_append (s : σ) (es es' : List ε) :
    after next s (es ++ es') = after next (after next s es) es' := List.foldl_append

@[simp] theorem allSteps_nil (s : σ) : AllSteps next P s [] := trivial

@[simp] theorem allSteps_cons {s : σ} {e : ε} {es : List ε} :
    AllSteps next P s (e :: es) ↔ P s e ∧ AllSteps next P (next s e) es := Iff.rfl

theorem allSteps_append {s : σ} {es es' : List ε} :
    AllSteps next P s (es ++ es') ↔
      AllSteps next P s es ∧ AllSteps next P (after next s es) es' := by
  induction es generalizing s with
  | nil => simp
  | cons e es ih => simp [ih, and_assoc]

theorem allSteps_and {s : σ} {es : List ε} :
    AllSteps next (fun s e => P s e ∧ Q s e) s es ↔
      AllSteps next P s es ∧ AllSteps next Q s es := by
  induction es generalizing s with
  | nil => simp
  | cons e es ih =>
    rw [allSteps_cons, allSteps_cons, allSteps_cons, ih]
    exact and_and_and_comm

/-- Every step of a run has the property: the one after any of its prefixes. -/
theorem AllSteps.step_of_append {s : σ} {es es' : List ε} {e : ε}
    (h : AllSteps next P s (es ++ e :: es')) : P (after next s es) e :=
  (allSteps_append.1 h).2.1

/-- A property of a run is one of each of its events, in the state it happens in. -/
theorem allSteps_iff_forall {s : σ} {es : List ε} :
    AllSteps next P s es ↔ ∀ es₁ e es₂, es = es₁ ++ e :: es₂ → P (after next s es₁) e := by
  refine ⟨fun h es₁ e es₂ heq => (heq ▸ h).step_of_append, fun h => ?_⟩
  induction es generalizing s with
  | nil => trivial
  | cons e es ih =>
    exact ⟨h [] e es rfl, ih fun es₁ e' es₂ heq => h (e :: es₁) e' es₂ (by rw [heq]; rfl)⟩

/-- What holds at every moment of a run holds at its start, and after each of its steps. -/
theorem forall_prefix_iff {B : σ → Prop} {s : σ} {es : List ε} :
    (∀ es₁ es₂, es = es₁ ++ es₂ → B (after next s es₁)) ↔
      B s ∧ AllSteps next (fun s e => B (next s e)) s es := by
  induction es generalizing s with
  | nil =>
    refine ⟨fun h => ⟨h [] [] rfl, trivial⟩, fun h es₁ es₂ heq => ?_⟩
    rw [(List.append_eq_nil_iff.1 heq.symm).1]
    exact h.1
  | cons e es ih =>
    rw [allSteps_cons, ← ih]
    constructor
    · exact fun h => ⟨h [] _ rfl, fun es₁ es₂ heq => h (e :: es₁) es₂ (by rw [heq]; rfl)⟩
    · rintro ⟨hs, h⟩ (_ | ⟨e', es₁⟩) es₂ heq
      · exact hs
      · obtain ⟨rfl, rfl⟩ := List.cons.inj heq
        exact h es₁ es₂ rfl

/-- A run is made of its prefixes. -/
theorem AllSteps.prefix {s : σ} {es es' : List ε} (h : AllSteps next P s (es ++ es')) :
    AllSteps next P s es := (allSteps_append.1 h).1

/-- An invariant preserved by every step is preserved by the run. -/
theorem AllSteps.invariant (hI : ∀ s e, I s → P s e → I (next s e)) {s : σ} {es : List ε}
    (hs : I s) (h : AllSteps next P s es) : I (after next s es) := by
  induction es generalizing s with
  | nil => exact hs
  | cons e es ih => exact ih (hI s e hs h.1) h.2

/-- An invariant about the run so far, too. -/
theorem AllSteps.invariant_of_run {J : List ε → σ → Prop}
    (hJ : ∀ es s e, J es s → P s e → J (es ++ [e]) (next s e)) {s : σ} {es : List ε}
    (hs : J [] s) (h : AllSteps next P s es) : J es (after next s es) := by
  induction es using List.reverseRecOn with
  | nil => exact hs
  | append_singleton es e ih =>
    obtain ⟨hes, he⟩ := allSteps_append.1 h
    rw [after_append]
    exact hJ es _ e (ih hes) he.1

/-- Properties of the steps of a run entailed by others, in the states of an
    invariant those preserve. -/
theorem AllSteps.imp (hI : ∀ s e, I s → P s e → I (next s e))
    (hPQ : ∀ s e, I s → P s e → Q s e) {s : σ} {es : List ε} (hs : I s)
    (h : AllSteps next P s es) : AllSteps next Q s es := by
  induction es generalizing s with
  | nil => trivial
  | cons e es ih => exact ⟨hPQ s e hs h.1, ih (hI s e hs h.1) h.2⟩

/-- Two properties of the steps of the runs of `P` agree on these runs, if they
    agree in the states of an invariant, preserved by the steps having them. -/
theorem allSteps_iff (hI : ∀ s e, I s → P s e → R s e → I (next s e))
    (hQR : ∀ s e, I s → P s e → (Q s e ↔ R s e)) {s : σ} {es : List ε} (hs : I s)
    (h : AllSteps next P s es) : AllSteps next Q s es ↔ AllSteps next R s es := by
  induction es generalizing s with
  | nil => simp
  | cons e es ih =>
    rw [allSteps_cons, allSteps_cons, hQR s e hs h.1]
    exact and_congr_right fun hR => ih (hI s e hs h.1 hR) h.2

/-- If a step of the run without a property leads to where there is no way back
    from, either every step has it or that is where the run ends. -/
theorem AllSteps.or_after {B : σ → Prop} (hI : ∀ s e, I s → P s e → I (next s e))
    (hB : ∀ s e, I s → P s e → ¬ Q s e → B (next s e))
    (hstay : ∀ s e, I s → P s e → B s → B (next s e)) {s : σ} {es : List ε} (hs : I s)
    (h : AllSteps next P s es) : AllSteps next Q s es ∨ B (after next s es) := by
  induction es generalizing s with
  | nil => exact .inl trivial
  | cons e es ih =>
    by_cases hQ : Q s e
    · exact (ih (hI s e hs h.1) h.2).imp_left fun hes => ⟨hQ, hes⟩
    · have hend := h.2.invariant (I := fun s => I s ∧ B s)
        (fun s e hIB hP => ⟨hI s e hIB.1 hP, hstay s e hIB.1 hP hIB.2⟩)
        ⟨hI s e hs h.1, hB s e hs h.1 hQ⟩
      exact .inr hend.2

/-- The last of the events of a kind, if there are any. -/
theorem exists_last {p : ε → Prop} {es : List ε} (h : ∃ e ∈ es, p e) :
    ∃ es₁ e es₂, es = es₁ ++ e :: es₂ ∧ p e ∧ ∀ e' ∈ es₂, ¬ p e' := by
  induction es with
  | nil => simp at h
  | cons e es ih =>
    by_cases hes : ∃ e' ∈ es, p e'
    · obtain ⟨es₁, e', es₂, rfl, he', hlast⟩ := ih hes
      exact ⟨e :: es₁, e', es₂, rfl, he', hlast⟩
    · push Not at hes
      obtain ⟨e', hmem, he'⟩ := h
      rcases List.mem_cons.1 hmem with rfl | hmem
      · exact ⟨[], e', es, rfl, he', hes⟩
      · exact absurd he' (hes e' hmem)

/-! ## Yields -/

section

variable {β : Type*}

variable (next) in
/-- What the steps of the run `es` from `s` yield, one after another. -/
def yielded (f : σ → ε → Option β) : σ → List ε → List β
  | _, [] => []
  | s, e :: es => (f s e).toList ++ yielded f (next s e) es

/-- An invariant about what has been yielded so far. -/
theorem AllSteps.invariant_yielded {f : σ → ε → Option β} {J : List β → σ → Prop}
    (hJ : ∀ l s e, J l s → P s e → J (l ++ (f s e).toList) (next s e)) {l : List β} {s : σ}
    {es : List ε} (hs : J l s) (h : AllSteps next P s es) :
    J (l ++ yielded next f s es) (after next s es) := by
  induction es generalizing l s with
  | nil => rwa [yielded, List.append_nil]
  | cons e es ih =>
    rw [yielded, ← List.append_assoc]
    exact ih (hJ l s e hs h.1) h.2

end

/-! ## Reachability -/

/-- A run of steps having `P` leads from `s` to `s'`. -/
def Reaches (next : σ → ε → σ) (P : σ → ε → Prop) (s s' : σ) : Prop :=
  ∃ es, AllSteps next P s es ∧ after next s es = s'

namespace Reaches

variable {s s' s'' : σ}

@[refl] theorem refl (s : σ) : Reaches next P s s := ⟨[], trivial, rfl⟩

theorem of_step {e : ε} (h : P s e) : Reaches next P s (next s e) := ⟨[e], ⟨h, trivial⟩, rfl⟩

theorem trans (h : Reaches next P s s') (h' : Reaches next P s' s'') : Reaches next P s s'' := by
  obtain ⟨es, hes, rfl⟩ := h
  obtain ⟨es', hes', rfl⟩ := h'
  exact ⟨es ++ es', allSteps_append.2 ⟨hes, hes'⟩, after_append _ _ _⟩

/-- The run goes on. -/
theorem step (h : Reaches next P s s') {e : ε} (he : P s' e) : Reaches next P s (next s' e) :=
  h.trans (of_step he)

end Reaches

/-! ## Versions -/

/-- The version now, and those before it. -/
structure Versions (σ : Type*) where
  now : σ
  past : List σ

namespace Versions

/-- The first version. -/
def init (s : σ) : Versions σ := ⟨s, []⟩

/-- All versions, of which any may be the one a client has read. -/
def seen (v : Versions σ) : List σ := v.now :: v.past

/-- A new version. -/
def push (v : Versions σ) (s : σ) : Versions σ := ⟨s, v.seen⟩

variable {v : Versions σ} {s s' : σ}

@[simp] theorem mem_seen_init : s' ∈ (init s).seen ↔ s' = s := List.mem_singleton

theorem now_mem_seen (v : Versions σ) : v.now ∈ v.seen := List.mem_cons_self

@[simp] theorem mem_seen_push : s' ∈ (v.push s).seen ↔ s' = s ∨ s' ∈ v.seen := List.mem_cons

end Versions

end DocStore
