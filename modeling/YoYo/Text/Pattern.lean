import Mathlib.Data.List.Infix
import Mathlib.Data.Nat.Notation

/-!
# Patterns

Regular expressions with assertions: on the characters around a position, that
there is nothing before it or that what is left ends the text, and on what follows
it, which is looked at and not read. What a pattern reads is a relation between the
positions before and after (`Pattern.Reads`); a pattern is looked for by trying
all ways to go on, in turn (`Pattern.run`), which finds what there is
(`Pattern.run_iff`).
-/

namespace Text

/-- A position in a text: what is before it, backwards, and what is left. -/
structure Position (α : Type*) where
  before : List α
  rest : List α

/-- Patterns: there is nothing before; what is left ends the text; a character of
    a class; one pattern after the other; any number of times, and so many times
    at least and at most; and, without reading it, what follows. -/
inductive Pattern (α : Type*)
  | start
  | stop (ends : List α → Bool)
  | one (belongs : α → Bool)
  | seq (p q : Pattern α)
  | star (p : Pattern α)
  | rep (p : Pattern α) (min max : ℕ)
  | ahead (p : Pattern α)

namespace Pattern

variable {α : Type*}

/-- What a pattern reads, from a position to another. -/
inductive Reads : Pattern α → Position α → Position α → Prop
  | start {rest : List α} : Reads start ⟨[], rest⟩ ⟨[], rest⟩
  | stop {ends : List α → Bool} {s : Position α} (h : ends s.rest) : Reads (stop ends) s s
  | one {belongs : α → Bool} {c : α} {before rest : List α} (h : belongs c) :
    Reads (one belongs) ⟨before, c :: rest⟩ ⟨c :: before, rest⟩
  | seq {p q : Pattern α} {s t u : Position α} (hp : Reads p s t) (hq : Reads q t u) :
    Reads (seq p q) s u
  | none {p : Pattern α} {s : Position α} : Reads (star p) s s
  | more {p : Pattern α} {s t u : Position α} (hp : Reads p s t) (hstar : Reads (star p) t u) :
    Reads (star p) s u
  | enough {p : Pattern α} {max : ℕ} {s : Position α} : Reads (rep p 0 max) s s
  | again {p : Pattern α} {min max : ℕ} {s t u : Position α} (hp : Reads p s t)
    (hrep : Reads (rep p (min - 1) max) t u) : Reads (rep p min (max + 1)) s u
  | ahead {p : Pattern α} {s t : Position α} (hp : Reads p s t) : Reads (ahead p) s s

/-- Whether a pattern reads a text from a position on so that what comes next, `k`, succeeds. -/
def run : Pattern α → (Position α → Bool) → Position α → Bool
  | start, k, s => s.before.isEmpty && k s
  | stop ends, k, s => ends s.rest && k s
  | one belongs, k, s =>
    match s.rest with
    | [] => false
    | c :: rest => belongs c && k ⟨c :: s.before, rest⟩
  | seq p q, k, s => p.run (q.run k) s
  | star p, k, s => runStar p.run k s.rest.length s
  | rep p min max, k, s => runRep p.run k min max s
  | ahead p, k, s => p.run (fun _ => true) s && k s
where
  /-- Reading again and again, as long as something is read. -/
  runStar (run : (Position α → Bool) → Position α → Bool) (k : Position α → Bool) :
      ℕ → Position α → Bool
    | 0, s => k s
    | n + 1, s =>
      k s || run (fun t => t.rest.length < s.rest.length && runStar run k n t) s
  /-- Reading again, a number of times. -/
  runRep (run : (Position α → Bool) → Position α → Bool) (k : Position α → Bool) :
      ℕ → ℕ → Position α → Bool
    | min, 0, s => min = 0 && k s
    | min, max + 1, s => min = 0 && k s || run (runRep run k (min - 1) max) s

/-- The pattern reads all of a text. -/
def Matches (p : Pattern α) (text : List α) : Prop := ∃ t, Reads p ⟨[], text⟩ t ∧ t.rest = []

/-- Whether it does. -/
def isMatch (p : Pattern α) (text : List α) : Bool := p.run (fun t => t.rest.isEmpty) ⟨[], text⟩

variable {p q : Pattern α} {s t u : Position α} {k : Position α → Bool} {belongs : α → Bool}

/-! ## Reading -/

/-- What is read comes next in the text. -/
theorem Reads.exists_read (h : Reads p s t) :
    ∃ w, s.rest = w ++ t.rest ∧ t.before = w.reverse ++ s.before := by
  induction h with
  | start | stop | none | enough | ahead => exact ⟨[], rfl, rfl⟩
  | @one _ c before rest _ => exact ⟨[c], rfl, rfl⟩
  | seq _ _ ih ih' | more _ _ ih ih' | again _ _ ih ih' =>
    obtain ⟨w, hrest, hbefore⟩ := ih
    obtain ⟨w', hrest', hbefore'⟩ := ih'
    exact ⟨w ++ w', by rw [hrest, hrest', List.append_assoc],
      by rw [hbefore', hbefore, List.reverse_append, List.append_assoc]⟩

/-- Where nothing has been read, the position is the same. -/
theorem Reads.eq_of_length_le (h : Reads p s t) (hle : s.rest.length ≤ t.rest.length) : t = s := by
  obtain ⟨w, hrest, hbefore⟩ := h.exists_read
  have hnil : w = [] := by
    rw [hrest, List.length_append] at hle
    exact List.length_eq_zero_iff.1 (by omega)
  obtain ⟨before, rest⟩ := s
  obtain ⟨before', rest'⟩ := t
  subst hnil
  simp_all

@[simp] theorem reads_start_iff : Reads start s t ↔ s.before = [] ∧ t = s := by
  constructor
  · rintro ⟨⟩
    exact ⟨rfl, rfl⟩
  · rintro ⟨hnil, rfl⟩
    obtain ⟨before, rest⟩ := t
    cases hnil
    exact .start

@[simp] theorem reads_stop_iff {ends : List α → Bool} :
    Reads (stop ends) s t ↔ ends s.rest ∧ t = s := by
  constructor
  · rintro ⟨⟩
    exact ⟨‹_›, rfl⟩
  · rintro ⟨h, rfl⟩
    exact .stop h

theorem reads_one_iff : Reads (one belongs) s t ↔
    ∃ c, belongs c ∧ s.rest = c :: t.rest ∧ t.before = c :: s.before := by
  constructor
  · rintro ⟨⟩
    exact ⟨_, ‹_›, rfl, rfl⟩
  · rintro ⟨c, h, hrest, hbefore⟩
    obtain ⟨before, rest⟩ := s
    obtain ⟨before', rest'⟩ := t
    simp only at hrest hbefore
    subst hrest hbefore
    exact .one h

@[simp] theorem reads_seq_iff : Reads (seq p q) s u ↔ ∃ t, Reads p s t ∧ Reads q t u := by
  constructor
  · rintro ⟨⟩
    exact ⟨_, ‹_›, ‹_›⟩
  · rintro ⟨t, hp, hq⟩
    exact .seq hp hq

@[simp] theorem reads_ahead_iff : Reads (ahead p) s u ↔ u = s ∧ ∃ t, Reads p s t := by
  constructor
  · rintro ⟨⟩
    exact ⟨rfl, _, ‹_›⟩
  · rintro ⟨rfl, t, hp⟩
    exact .ahead hp

/-- Any number of times is none, or once, reading something, and any number of
    times from there. -/
theorem Reads.star_cases (h : Reads (star p) s u) :
    u = s ∨ ∃ t, Reads p s t ∧ t.rest.length < s.rest.length ∧ Reads (star p) t u := by
  generalize hstar : star p = r at h
  induction h with
  | none => exact .inl rfl
  | @more _ s t u hp hrest _ ih =>
    cases hstar
    by_cases hle : s.rest.length ≤ t.rest.length
    · -- Nothing has been read at first: it goes on from the same position.
      obtain rfl := hp.eq_of_length_le hle
      exact ih rfl
    · exact .inr ⟨t, hp, by omega, hrest⟩
  | _ => cases hstar

theorem reads_rep_zero_iff {min : ℕ} : Reads (rep p min 0) s u ↔ min = 0 ∧ u = s := by
  constructor
  · rintro ⟨⟩
    exact ⟨rfl, rfl⟩
  · rintro ⟨rfl, rfl⟩
    exact .enough

theorem reads_rep_succ_iff {min max : ℕ} : Reads (rep p min (max + 1)) s u ↔
    min = 0 ∧ u = s ∨ ∃ t, Reads p s t ∧ Reads (rep p (min - 1) max) t u := by
  constructor
  · rintro (_ | _)
    · exact .inl ⟨rfl, rfl⟩
    · exact .inr ⟨_, ‹_›, ‹_›⟩
  · rintro (⟨rfl, rfl⟩ | ⟨t, hp, hrep⟩)
    · exact .enough
    · exact .again hp hrep

/-! ## Looking for a pattern -/

section Body

variable {body : (Position α → Bool) → Position α → Bool}
  (hbody : ∀ k s, body k s ↔ ∃ t, Reads p s t ∧ k t)

include hbody

/-- Reading something again and again finds all there is to read, in as many steps
    as there are characters left. -/
theorem runStar_iff {n : ℕ} (hn : s.rest.length ≤ n) :
    run.runStar body k n s ↔ ∃ t, Reads (star p) s t ∧ k t := by
  induction n generalizing s with
  | zero =>
    rw [run.runStar]
    refine ⟨fun hk => ⟨s, .none, hk⟩, ?_⟩
    rintro ⟨t, hstar, hk⟩
    rcases hstar.star_cases with rfl | ⟨u, -, hlt, -⟩
    · exact hk
    · omega
  | succ n ih =>
    rw [run.runStar, Bool.or_eq_true, hbody]
    constructor
    · rintro (hk | ⟨t, hp, hnext⟩)
      · exact ⟨s, .none, hk⟩
      · rw [Bool.and_eq_true, decide_eq_true_iff] at hnext
        obtain ⟨u, hstar, hk⟩ := (ih (by omega)).1 hnext.2
        exact ⟨u, .more hp hstar, hk⟩
    · rintro ⟨u, hstar, hk⟩
      rcases hstar.star_cases with rfl | ⟨t, hp, hlt, hstar⟩
      · exact .inl hk
      · refine .inr ⟨t, hp, ?_⟩
        rw [Bool.and_eq_true, decide_eq_true_iff]
        exact ⟨hlt, (ih (by omega)).2 ⟨u, hstar, hk⟩⟩

theorem runRep_iff {min max : ℕ} :
    run.runRep body k min max s ↔ ∃ t, Reads (rep p min max) s t ∧ k t := by
  induction max generalizing min s with
  | zero => simp [run.runRep, reads_rep_zero_iff, and_assoc]
  | succ max ih =>
    rw [run.runRep, Bool.or_eq_true, hbody, Bool.and_eq_true, decide_eq_true_iff]
    constructor
    · rintro (⟨rfl, hk⟩ | ⟨t, hp, hrest⟩)
      · exact ⟨s, .enough, hk⟩
      · obtain ⟨u, hrep, hk⟩ := ih.1 hrest
        exact ⟨u, .again hp hrep, hk⟩
    · rintro ⟨u, hrep, hk⟩
      rcases reads_rep_succ_iff.1 hrep with ⟨rfl, rfl⟩ | ⟨t, hp, hrep⟩
      · exact .inl ⟨rfl, hk⟩
      · exact .inr ⟨t, hp, ih.2 ⟨u, hrep, hk⟩⟩

end Body

/-- **Looking for a pattern finds what it reads.** -/
theorem run_iff : p.run k s ↔ ∃ t, Reads p s t ∧ k t := by
  induction p generalizing k s with
  | start => simp [run, and_assoc]
  | stop ends => simp [run, and_assoc]
  | one belongs =>
    obtain ⟨before, rest⟩ := s
    rw [run]
    cases rest with
    | nil => simp [reads_one_iff]
    | cons c rest =>
      simp only [Bool.and_eq_true, reads_one_iff, List.cons.injEq]
      constructor
      · rintro ⟨hc, hk⟩
        exact ⟨_, ⟨c, hc, ⟨rfl, rfl⟩, rfl⟩, hk⟩
      · rintro ⟨⟨before', rest'⟩, ⟨c', hc, ⟨rfl, rfl⟩, rfl⟩, hk⟩
        exact ⟨hc, hk⟩
  | seq p q ihp ihq =>
    simp only [run, ihp, ihq, reads_seq_iff]
    constructor
    · rintro ⟨t, hp, u, hq, hk⟩
      exact ⟨u, ⟨t, hp, hq⟩, hk⟩
    · rintro ⟨u, ⟨t, hp, hq⟩, hk⟩
      exact ⟨t, hp, u, hq, hk⟩
  | star p ih =>
    rw [run]
    exact runStar_iff (fun _ _ => ih) le_rfl
  | rep p min max ih =>
    rw [run]
    exact runRep_iff fun _ _ => ih
  | ahead p ih => simp [run, ih, and_comm]

/-- A text matches if it is found to. -/
theorem isMatch_iff {text : List α} : p.isMatch text ↔ p.Matches text := by
  rw [isMatch, run_iff]
  simp [Matches]

/-! ## Characters of a class -/

/-- Any number of characters of a class. -/
theorem reads_star_one_iff : Reads (star (one belongs)) s t ↔
    ∃ w, (∀ c ∈ w, belongs c) ∧ s.rest = w ++ t.rest ∧ t.before = w.reverse ++ s.before := by
  constructor
  · intro h
    generalize hstar : star (one belongs) = r at h
    induction h with
    | none => exact ⟨[], fun _ hc => absurd hc List.not_mem_nil, rfl, rfl⟩
    | more hp _ _ ih =>
      cases hstar
      obtain ⟨c, hc, hrest, hbefore⟩ := reads_one_iff.1 hp
      obtain ⟨w, hw, hrest', hbefore'⟩ := ih rfl
      exact ⟨c :: w, List.forall_mem_cons.2 ⟨hc, hw⟩, by rw [hrest, hrest', List.cons_append],
        by rw [hbefore', hbefore, List.reverse_cons, List.append_assoc, List.singleton_append]⟩
    | _ => cases hstar
  · rintro ⟨w, hw, hrest, hbefore⟩
    obtain ⟨before, rest⟩ := s
    obtain ⟨before', rest'⟩ := t
    simp only at hrest hbefore
    subst hrest hbefore
    induction w generalizing before with
    | nil => exact .none
    | cons c w ih =>
      rw [List.forall_mem_cons] at hw
      refine .more (.one hw.1) ?_
      simpa using ih hw.2 (c :: before)

/-- So many characters of a class. -/
theorem reads_rep_one_iff {min max : ℕ} : Reads (rep (one belongs) min max) s t ↔
    ∃ w, (∀ c ∈ w, belongs c) ∧ min ≤ w.length ∧ w.length ≤ max ∧ s.rest = w ++ t.rest ∧
      t.before = w.reverse ++ s.before := by
  constructor
  · intro h
    generalize hrep : rep (one belongs) min max = r at h
    induction h generalizing min max with
    | enough =>
      cases hrep
      exact ⟨[], fun _ hc => absurd hc List.not_mem_nil, Nat.le_refl _, Nat.zero_le _, rfl, rfl⟩
    | again hp _ _ ih =>
      cases hrep
      obtain ⟨c, hc, hrest, hbefore⟩ := reads_one_iff.1 hp
      obtain ⟨w, hw, hmin, hmax, hrest', hbefore'⟩ := ih rfl
      refine ⟨c :: w, List.forall_mem_cons.2 ⟨hc, hw⟩, ?_, ?_, ?_, ?_⟩
      · rw [List.length_cons]
        omega
      · rw [List.length_cons]
        omega
      · rw [hrest, hrest', List.cons_append]
      · rw [hbefore', hbefore, List.reverse_cons, List.append_assoc, List.singleton_append]
    | _ => cases hrep
  · rintro ⟨w, hw, hmin, hmax, hrest, hbefore⟩
    obtain ⟨before, rest⟩ := s
    obtain ⟨before', rest'⟩ := t
    simp only at hrest hbefore
    subst hrest hbefore
    induction w generalizing before min max with
    | nil =>
      obtain rfl : min = 0 := Nat.eq_zero_of_le_zero hmin
      exact .enough
    | cons c w ih =>
      rw [List.forall_mem_cons] at hw
      rw [List.length_cons] at hmin hmax
      obtain ⟨max, rfl⟩ : ∃ m, max = m + 1 := ⟨max - 1, by omega⟩
      refine .again (.one hw.1) ?_
      simpa using ih hw.2 (by omega) (by omega) (c :: before)

end Pattern

end Text
