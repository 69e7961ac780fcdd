import YoYo.Friends.Pair

/-!
# Failing calls

Any of the calls of an operation may fail, and the operation goes on regardless:
the second half is performed whether the first one was or not, and nothing is
undone. What an operation reports is whether both were (`exec_reported`): after
a success both lists carry its effect, and after a failure one of them at most
does, the other being as it was. Its effect is one on the entries the two users
have for each other, if it finds those it is to remove (`HalfDone`); what becomes
of a list otherwise is in `YoYo.Friends.Frame`.

Here nothing is assumed of the store, so that documents may fail to decode.
-/

namespace YoYo

open DocStore

namespace FriendOp

/-- A half was performed on the list of the user `owner` in the book `b`, and that is
    all: it is about the entries for the user `uid`, which carry its effect if those
    it is to remove are there, while the others are as they were. -/
structure HalfDone (op : FriendOp) (half : Option (List Friend) → Except Report (List Friend))
    (effect : List Friend → List Friend) (owner uid : UID) (b b' : Book) : Prop where
  written : ∃ l, half (b owner) = .ok l ∧ b' = Function.update b owner (some l)
  carries : (op.removes → entries (b owner) uid ≠ []) → ∀ y,
    entries (b' owner) y = if y = uid then effect (entries (b owner) y) else entries (b owner) y

/-- The first half was performed, on the book `b`, and that is all. -/
def MyHalfDone (op : FriendOp) (b b' : Book) : Prop :=
  op.HalfDone op.myHalf op.myEffect op.myUID op.friendUID b b'

/-- The second half was performed, on the book `b`, and that is all. -/
def FriendHalfDone (op : FriendOp) (b b' : Book) : Prop :=
  op.HalfDone op.friendHalf op.friendEffect op.friendUID op.myUID b b'

/-- A half that has written its list was performed. -/
theorem IsHalf.done {op : FriendOp}
    {half : Option (List Friend) → Except Report (List Friend)}
    {effect : List Friend → List Friend} {owner uid : UID}
    (h : IsHalf uid half op.removes effect) {b : Book} {l : List Friend}
    (hl : half (b owner) = .ok l) :
    op.HalfDone half effect owner uid b (Function.update b owner (some l)) where
  written := ⟨l, hl, rfl⟩
  carries hrem y := by
    rw [Function.update_self]
    exact h.entries_eq hl hrem y

/-- An operation never succeeds early. -/
theorem myHalf_ne_reported_true {op : FriendOp} {l : Option (List Friend)} :
    op.myHalf l ≠ .error (.reported true) := by
  cases op with
  | sendFriendRequest => simp [myHalf]
  | performActionForFriend a b action =>
    cases l with
    | none => simp [myHalf]
    | some l =>
      simp only [myHalf]
      split <;> simp

/-- The second half ends the operation only without a report. -/
theorem friendHalf_ne_reported {op : FriendOp} {l : Option (List Friend)} {success : Bool} :
    op.friendHalf l ≠ .error (.reported success) := by
  cases op with
  | sendFriendRequest => simp [friendHalf]
  | performActionForFriend a b action =>
    cases l with
    | none => simp [friendHalf]
    | some l =>
      simp only [friendHalf]
      split <;> simp

variable {g : AutoId DocID}

/-- The second half, whichever calls succeed: a success needs both halves, and
    after a failure the second one is performed only if the first one failed. -/
theorem exec_rest (op : FriendOp) (success : Bool) (ok : ℕ → Bool) (s : FriendsStore) :
    let r := (op.rest success).exec (answer g) ok s
    (r.1 = .reported true → success = true ∧ op.FriendHalfDone (book s) (book r.2)) ∧
    (r.1 = .reported false → book r.2 = book s ∨
      success = false ∧ op.FriendHalfDone (book s) (book r.2)) := by
  rw [rest]
  rcases exec_half (g := g) op.friendHalf op.friendUID
      (fun success1 => .done (.reported (success && success1))) ok s with
    hr | ⟨r, herr, hr⟩ | ⟨theirs, htheirs, ok', hr | ⟨s', hw, hr⟩⟩
  · rw [hr]
    exact ⟨fun h => by simp at h, fun _ => .inl rfl⟩
  · rw [hr]
    refine ⟨fun (h : r = _) => ?_, fun (h : r = _) => ?_⟩ <;>
      exact absurd (h ▸ herr) friendHalf_ne_reported
  · rw [hr, Prog.exec_done]
    exact ⟨fun h => by simp at h, fun _ => .inl rfl⟩
  · rw [hr, Prog.exec_done]
    have hdone : op.FriendHalfDone (book s) (book s') := by
      rw [book_write (rewritten_readBack s _ _) hw, rewritten_uid, rewritten_friends]
      exact op.isHalf_friendHalf.done htheirs
    refine ⟨fun h => ⟨by simpa using h, hdone⟩, fun h => .inr ⟨by simpa using h, hdone⟩⟩

/-- For every store, and whichever of its calls fail: if an operation reports a
    success, both of its halves were performed, one after the other; if it
    reports a failure, one half at most was, and everything else is as it was. -/
theorem exec_reported (op : FriendOp) (ok : ℕ → Bool) (s : FriendsStore) :
    let r := op.execWith g ok s
    (r.1 = .reported true →
      ∃ b, op.MyHalfDone (book s) b ∧ op.FriendHalfDone b (book r.2)) ∧
    (r.1 = .reported false → book r.2 = book s ∨
      op.MyHalfDone (book s) (book r.2) ∨ op.FriendHalfDone (book s) (book r.2)) := by
  rw [execWith, prog_eq]
  rcases exec_half (g := g) op.myHalf op.myUID op.rest ok s with
    hr | ⟨r, herr, hr⟩ | ⟨mine, hmine, ok', hr | ⟨s₁, hw, hr⟩⟩
  · rw [hr]
    exact ⟨fun h => by simp at h, fun _ => .inl rfl⟩
  · -- The operation ended before its first write, and not with a success.
    rw [hr]
    exact ⟨fun (h : r = _) => absurd (h ▸ herr) myHalf_ne_reported_true, fun _ => .inl rfl⟩
  · -- The first half failed.
    rw [hr]
    obtain ⟨htrue, hfalse⟩ := exec_rest (g := g) op false ok' s
    refine ⟨fun h => absurd (htrue h).1 (by simp), fun h => ?_⟩
    exact (hfalse h).imp_right fun hdone => .inr hdone.2
  · -- The first half was performed, so that the second one was not if a failure is reported.
    rw [hr]
    obtain ⟨htrue, hfalse⟩ := exec_rest (g := g) op true ok' s₁
    have hdone : op.MyHalfDone (book s) (book s₁) := by
      rw [book_write (rewritten_readBack s _ _) hw, rewritten_uid, rewritten_friends]
      exact op.isHalf_myHalf.done hmine
    refine ⟨fun h => ⟨book s₁, hdone, (htrue h).2⟩, fun h => .inr (.inl ?_)⟩
    exact (hfalse h).elim (fun heq => heq ▸ hdone) fun hdone' => absurd hdone'.1 (by simp)

end FriendOp

/-- The operation is atomic: a success is one of both halves, and a failure
    leaves all lists as they were. -/
def Atomic (g : AutoId DocID) (op : FriendOp) (ok : ℕ → Bool) (s : FriendsStore) : Prop :=
  let r := op.execWith g ok s
  (r.1 = .reported true → ∃ b, op.MyHalfDone (book s) b ∧ op.FriendHalfDone b (book r.2)) ∧
  (r.1 = .reported false → book r.2 = book s)

/-- The first request of all, the query for the list of the friend failing. -/
theorem not_atomic_sendFriendRequest :
    ¬ Atomic succId (.sendFriendRequest "ann" "bob" 1 2) (fun n => n ≠ 3) .empty := by
  intro h
  have := congrFun (h.2 (by decide)) "ann"
  revert this
  decide

end YoYo
