import Mathlib.Data.Fintype.Defs
import Mathlib.Logic.Function.Basic
import YoYo.DocStore.Collection
import YoYo.DocStore.Run

/-!
# Programs calling a store

A client of a store is written with callbacks: it makes a call, and goes on in
a callback given the answer. A *program* (`Prog`) is the tree of these calls,
branching on the answers; it ends with what it tells its own caller. The calls
are those made on one collection (`Call`): queries, creations and writes, each
of which may fail.

* `Prog.exec` runs a program alone, given which of its calls succeed, and
  `Prog.calls` are the calls it makes;
* `Prog.resume` answers its next call, for programs whose calls are answered by
  and by, and `Prog.Ends` is what holds of the result whatever the answers are
  (`Prog.AllCalls`: and of all calls, for answers of a kind);
* `Prog.checked` is a program on a store that does not accept all calls;
* `Prog.run` runs a program on given answers, and `Prog.Ignores` is that parts of
  these make no difference to it;
* a `Pool` runs any number of programs, one call of any of them at a time.

In a pool, a program that has queried something and goes on to overwrite it
relies on nobody else writing there in between: it has an open *window*
(`Pool.window`) there. `Pool.rely_guarantee` is the rule for the runs in which
no call writes in the window of another program (`Pool.NoOverlap`): assertions
about each program, stable under the calls of the others outside of its window,
hold throughout.
-/

namespace DocStore

/-- A program making calls `C`, with answers `A`, until it tells its caller a result. -/
inductive Prog (C : Type*) (A : C → Type*) (ρ : Type*)
  | done (r : ρ)
  | call (c : C) (k : A c → Prog C A ρ)

namespace Prog

variable {C : Type*} {A : C → Type*} {ρ σ ε : Type*}

/-- The run of a program alone: its result, and the final store. The calls are
    answered given how the environment behaves, `env n` at the `n`-th one. -/
def exec (h : ε → σ → (c : C) → A c × σ) : Prog C A ρ → (ℕ → ε) → σ → ρ × σ
  | done r, _, s => (r, s)
  | call c k, env, s => exec h (k (h (env 0) s c).1) (fun n => env (n + 1)) (h (env 0) s c).2

/-- The calls made in that run. -/
def calls (h : ε → σ → (c : C) → A c × σ) : Prog C A ρ → (ℕ → ε) → σ → List C
  | done _, _, _ => []
  | call c k, env, s =>
    c :: calls h (k (h (env 0) s c).1) (fun n => env (n + 1)) (h (env 0) s c).2

variable {h : ε → σ → (c : C) → A c × σ} {env : ℕ → ε} {s : σ}

@[simp] theorem exec_done (r : ρ) : exec h (.done r : Prog C A ρ) env s = (r, s) := rfl

theorem exec_call (c : C) (k : A c → Prog C A ρ) :
    exec h (.call c k) env s =
      exec h (k (h (env 0) s c).1) (fun n => env (n + 1)) (h (env 0) s c).2 := rfl

@[simp] theorem calls_done (r : ρ) : calls h (.done r : Prog C A ρ) env s = [] := rfl

theorem calls_call (c : C) (k : A c → Prog C A ρ) :
    calls h (.call c k) env s =
      c :: calls h (k (h (env 0) s c).1) (fun n => env (n + 1)) (h (env 0) s c).2 := rfl

/-! ### Answers one by one -/

/-- The program after its next call is answered, if it makes one. -/
def resume (a : (c : C) → A c) : Prog C A ρ → Prog C A ρ
  | done r => done r
  | call c k => k (a c)

/-- The result of a program that has ended. -/
def result : Prog C A ρ → Option ρ
  | done r => some r
  | call _ _ => none

/-- The program with its result put into another form. -/
def map {ρ' : Type*} (f : ρ → ρ') : Prog C A ρ → Prog C A ρ'
  | done r => done (f r)
  | call c k => call c fun a => (k a).map f

/-- The result of a program in another form, if it has ended. -/
@[simp] theorem result_map {ρ' : Type*} (f : ρ → ρ') (p : Prog C A ρ) :
    (p.map f).result = p.result.map f := by
  cases p <;> rfl

@[simp] theorem resume_map {ρ' : Type*} (f : ρ → ρ') (p : Prog C A ρ) (a : (c : C) → A c) :
    (p.map f).resume a = (p.resume a).map f := by
  cases p <;> rfl

/-- Whatever its calls are answered by, the program ends with a result satisfying `P`. -/
def Ends (P : ρ → Prop) : Prog C A ρ → Prop
  | done r => P r
  | call _ k => ∀ a, (k a).Ends P

variable {P : ρ → Prop} {p : Prog C A ρ}

@[simp] theorem ends_done {r : ρ} : (done r : Prog C A ρ).Ends P ↔ P r := Iff.rfl

theorem ends_call {c : C} {k : A c → Prog C A ρ} : (call c k).Ends P ↔ ∀ a, (k a).Ends P := Iff.rfl

theorem Ends.of_forall (h : ∀ r, P r) (p : Prog C A ρ) : p.Ends P := by
  induction p with
  | done r => exact h r
  | call c k ih => exact ih

theorem ends_map {ρ' : Type*} {f : ρ → ρ'} {P : ρ' → Prop} :
    (p.map f).Ends P ↔ p.Ends fun r => P (f r) := by
  induction p with
  | done r => rfl
  | call c k ih => exact forall_congr' ih

/-- An answer does not change what a program may end with. -/
theorem Ends.resume (h : p.Ends P) (a : (c : C) → A c) : (p.resume a).Ends P := by
  cases p with
  | done r => exact h
  | call c k => exact h (a c)

/-- Whatever its calls are answered by, as long as the answers are `ok`, all calls
    of the program satisfy `P`, and the result `Q`. -/
def AllCalls (ok : (c : C) → A c → Prop) (P : C → Prop) (Q : ρ → Prop) : Prog C A ρ → Prop
  | done r => Q r
  | call c k => P c ∧ ∀ a, ok c a → (k a).AllCalls ok P Q

/-- So do those that are left once a call has such an answer. -/
theorem AllCalls.resume {ok : (c : C) → A c → Prop} {P : C → Prop} {Q : ρ → Prop}
    (h : p.AllCalls ok P Q) {a : (c : C) → A c} (ha : ∀ c k, p = call c k → ok c (a c)) :
    (p.resume a).AllCalls ok P Q := by
  cases p with
  | done r => exact h
  | call c k => exact h.2 (a c) (ha c k rfl)

/-- So all calls of a run satisfy `P`, if it has such answers. -/
theorem AllCalls.forall_mem_calls {ok : (c : C) → A c → Prop} {P : C → Prop} {Q : ρ → Prop}
    (hp : p.AllCalls ok P Q) (hok : ∀ e s c, ok c (h e s c).1) :
    ∀ c ∈ p.calls h env s, P c := by
  induction p generalizing env s with
  | done r => exact fun c hc => absurd hc List.not_mem_nil
  | call c k ih =>
    rw [calls_call, List.forall_mem_cons]
    exact ⟨hp.1, ih _ (hp.2 _ (hok (env 0) s c))⟩

/-- The result is one of those the program may end with. -/
theorem Ends.of_result (h : p.Ends P) {r : ρ} (hr : p.result = some r) : P r := by
  cases p with
  | done r' => exact Option.some.inj hr ▸ h
  | call c k => exact absurd hr (Option.some_ne_none r).symm

/-- Whatever its calls are answered by: an answer ends the program with a result
    satisfying `P` only if `R` holds of it, and of the call and the callback it is
    the answer for. -/
def EndsBy (P : ρ → Prop) (R : (c : C) → (A c → Prog C A ρ) → A c → Prop) : Prog C A ρ → Prop
  | done _ => True
  | call c k => ∀ a, (∀ r, (k a).result = some r → P r → R c k a) ∧ (k a).EndsBy P R

/-! ### Calls that are not accepted -/

section

variable (valid : C → Prop) [DecidablePred valid] (thrown : ρ)

/-- The program with its calls checked: at one that is not valid, it ends with `thrown`. -/
def checked : Prog C A ρ → Prog C A ρ
  | done r => done r
  | call c k => if valid c then call c fun a => (k a).checked else done thrown

variable {valid thrown}

@[simp] theorem checked_done (r : ρ) : (done r : Prog C A ρ).checked valid thrown = done r := rfl

theorem checked_call_of_valid {c : C} (hc : valid c) (k : A c → Prog C A ρ) :
    (call c k).checked valid thrown = call c fun a => (k a).checked valid thrown := if_pos hc

theorem checked_call_of_not_valid {c : C} (hc : ¬ valid c) (k : A c → Prog C A ρ) :
    (call c k).checked valid thrown = done thrown := if_neg hc

/-- It makes the calls of the program up to the first that is not valid. -/
theorem calls_checked (p : Prog C A ρ) :
    (p.checked valid thrown).calls h env s = (p.calls h env s).takeWhile (valid ·) := by
  induction p generalizing env s with
  | done r => rfl
  | call c k ih =>
    by_cases hc : valid c
    · rw [checked_call_of_valid hc, calls_call, calls_call, ih,
        List.takeWhile_cons_of_pos (by simpa using hc)]
    · rw [checked_call_of_not_valid hc, calls_call, List.takeWhile_cons_of_neg (by simpa using hc),
        calls_done]

/-- So it ends as the program does exactly if all calls of that are valid. -/
theorem exec_checked (p : Prog C A ρ) :
    ((p.checked valid thrown).exec h env s).1 =
      if ∀ c ∈ p.calls h env s, valid c then (p.exec h env s).1 else thrown := by
  induction p generalizing env s with
  | done r => simp
  | call c k ih =>
    rw [calls_call]
    by_cases hc : valid c
    · rw [checked_call_of_valid hc, exec_call, exec_call, ih]
      simp only [List.forall_mem_cons, hc, true_and]
    · rw [checked_call_of_not_valid hc, exec_done,
        if_neg fun hall => hc (hall c List.mem_cons_self)]

theorem ends_checked {p : Prog C A ρ} (hp : p.Ends P) (hthrown : P thrown) :
    (p.checked valid thrown).Ends P := by
  induction p with
  | done r => exact hp
  | call c k ih =>
    by_cases hc : valid c
    · rw [checked_call_of_valid hc]
      exact fun a => ih a (hp a)
    · rw [checked_call_of_not_valid hc]
      exact hthrown

end

/-! ### Runs on given answers -/

/-- The calls a program makes, and its result, if its `n`-th call is answered by `env n`. -/
def run : Prog C A ρ → (ℕ → (c : C) → A c) → List C × ρ
  | done r, _ => ([], r)
  | call c k, env => ((k (env 0 c)).run fun n => env (n + 1)).map (c :: ·) id

variable {answers : ℕ → (c : C) → A c}

@[simp] theorem run_done (r : ρ) : (done r : Prog C A ρ).run answers = ([], r) := rfl

theorem run_call (c : C) (k : A c → Prog C A ρ) :
    (call c k).run answers =
      ((k (answers 0 c)).run fun n => answers (n + 1)).map (c :: ·) id := rfl

theorem Ends.run (h : p.Ends P) : P (p.run answers).2 := by
  induction p generalizing answers with
  | done r => exact h
  | call c k ih => exact ih (answers 0 c) (h (answers 0 c))

/-- The program goes on as if every answer were what `e` makes of it. -/
def Ignores (e : (c : C) → A c → A c) : Prog C A ρ → Prop
  | done _ => True
  | call c k => ∀ a, k (e c a) = k a ∧ (k a).Ignores e

variable {e : (c : C) → A c → A c}

@[simp] theorem ignores_done (r : ρ) : (done r : Prog C A ρ).Ignores e := trivial

theorem ignores_call {c : C} {k : A c → Prog C A ρ} :
    (call c k).Ignores e ↔ ∀ a, k (e c a) = k a ∧ (k a).Ignores e := Iff.rfl

/-- So does its whole run. -/
theorem Ignores.run_eq (h : p.Ignores e) :
    p.run (fun n c => e c (answers n c)) = p.run answers := by
  induction p generalizing answers with
  | done r => rfl
  | call c k ih =>
    obtain ⟨hk, hrest⟩ := h (answers 0 c)
    rw [run_call, run_call, hk, ih (answers 0 c) hrest]

/-! ### Two stores -/

/-- A program on one store, and the program on two stores that is its result. -/
def onLeft {C' : Type*} {A' : C' → Type _} :
    Prog C A (Prog (C ⊕ C') (Sum.elim A A') ρ) → Prog (C ⊕ C') (Sum.elim A A') ρ
  | done p => p
  | call c k => call (.inl c) fun a => (k a).onLeft

end Prog

/-! ## Calls on a collection -/

/-- The calls on a collection: a query of the documents matching `q`, and the
    creation and the writing of a document. -/
inductive Call (K κ α : Type)
  | getDocuments (q : κ)
  | addDocument (a : α)
  | setData (id : K) (a : α)
  deriving DecidableEq

/-- The answers: a snapshot unless the query fails, and whether a write succeeded. -/
abbrev Answer {K κ α : Type} : Call K κ α → Type
  | .getDocuments _ => Option (List (Doc K α))
  | .addDocument _ => Bool
  | .setData _ _ => Bool

section Call

variable {K κ α : Type} [LinearOrder K] (g : AutoId K) (sel : κ → α → Bool)

/-- How a collection answers a call: a failing one returns an error, and leaves
    the collection as it is. -/
def Call.answer (ok : Bool) (s : Collection K α) : (c : Call K κ α) → Answer c × Collection K α
  | .getDocuments q => (if ok then some (s.query (sel q)) else none, s)
  | .addDocument a => (ok, if ok then s.addDocument g a else s)
  | .setData id a => (ok, if ok then s.setData id a else s)

end Call

/-! ## Pools -/

/-- Any number of programs on one store: the store, where each program is, and
    the last call each has made. -/
structure Pool (ι σ : Type*) (C : Type*) (A : C → Type*) (ρ : Type*) where
  store : σ
  prog : ι → Prog C A ρ
  last : ι → Option C

namespace Pool

variable {ι σ C ρ κ : Type*} {A : C → Type*} [DecidableEq ι]

/-- All programs at their start. -/
def start (s : σ) (progs : ι → Prog C A ρ) : Pool ι σ C A ρ := ⟨s, progs, fun _ => none⟩

variable (h : σ → (c : C) → A c × σ) (reads writes : C → Option κ)

/-- The program `i` makes its next call. -/
def step (p : Pool ι σ C A ρ) (i : ι) : Pool ι σ C A ρ :=
  match p.prog i with
  | .done _ => p
  | .call c k =>
    { store := (h p.store c).2
      prog := Function.update p.prog i (k (h p.store c).1)
      last := Function.update p.last i (some c) }

/-- Where a program has read, by its last call, what it may go on to overwrite. -/
def windowOf : Prog C A ρ → Option C → Option κ
  | .done _, _ => none
  | .call _ _, last => last.bind reads

/-- Where the program `i` has its window open. -/
def window (p : Pool ι σ C A ρ) (i : ι) : Option κ := windowOf reads (p.prog i) (p.last i)

/-- Where the program `i` writes by its next call. -/
def target (p : Pool ι σ C A ρ) (i : ι) : Option κ :=
  match p.prog i with
  | .done _ => none
  | .call c _ => writes c

/-- The next call of `i` does not write in an open window of another program. -/
def NoOverlap (p : Pool ι σ C A ρ) (i : ι) : Prop :=
  ∀ key, p.target writes i = some key → ∀ j, j ≠ i → p.window reads j ≠ some key

instance [Fintype ι] [DecidableEq κ] (p : Pool ι σ C A ρ) (i : ι) :
    Decidable (p.NoOverlap reads writes i) :=
  inferInstanceAs (Decidable (∀ key ∈ p.target writes i, ∀ j, j ≠ i → p.window reads j ≠ some key))

variable {h reads writes} {I : σ → Prop} {L : ι → σ → Prog C A ρ → Option C → Prop}

theorem step_done {p : Pool ι σ C A ρ} {i : ι} {r : ρ} (hp : p.prog i = .done r) :
    p.step h i = p := by
  rw [step, hp]

theorem step_call {p : Pool ι σ C A ρ} {i : ι} {c : C} {k : A c → Prog C A ρ}
    (hp : p.prog i = .call c k) :
    p.step h i =
      { store := (h p.store c).2
        prog := Function.update p.prog i (k (h p.store c).1)
        last := Function.update p.last i (some c) } := by
  rw [step, hp]

/-- An assertion about the store and, for each program, one about the store and
    the program, hold throughout the runs without overlaps, if

    * the next call of a program preserves the former and its own;
    * it preserves those of the others, unless it writes in their windows. -/
theorem rely_guarantee
    (own : ∀ i s c k l, I s → L i s (.call c k) l →
      I (h s c).2 ∧ L i (h s c).2 (k (h s c).1) (some c))
    (stable : ∀ i j s c k l q l', j ≠ i → I s → L i s (.call c k) l → L j s q l' →
      (∀ key, writes c = some key → windowOf reads q l' ≠ some key) → L j (h s c).2 q l')
    {p : Pool ι σ C A ρ} {sched : List ι} (hI : I p.store)
    (hL : ∀ i, L i p.store (p.prog i) (p.last i))
    (hno : AllSteps (step h) (NoOverlap reads writes) p sched) :
    I (after (step h) p sched).store ∧
      ∀ i, L i (after (step h) p sched).store ((after (step h) p sched).prog i)
        ((after (step h) p sched).last i) := by
  refine hno.invariant (I := fun p => I p.store ∧ ∀ i, L i p.store (p.prog i) (p.last i))
    (fun p i hp hi => ?_) ⟨hI, hL⟩
  obtain ⟨hI, hL⟩ := hp
  cases hpi : p.prog i with
  | done r =>
    rw [step_done hpi]
    exact ⟨hI, hL⟩
  | call c k =>
    have hLi := hpi ▸ hL i
    rw [step_call hpi]
    refine ⟨(own i _ c k _ hI hLi).1, fun j => ?_⟩
    by_cases hji : j = i
    · -- The program making the call goes on as its own assertion says.
      subst hji
      simp only [Function.update_self]
      exact (own j _ c k _ hI hLi).2
    · -- The others stay where they are, and the call is not in their windows.
      simp only [Function.update_of_ne hji]
      refine stable i j _ c k _ _ _ hji hI hLi (hL j) fun key hc => hi key ?_ j hji
      rw [target, hpi]
      exact hc

end Pool

end DocStore
