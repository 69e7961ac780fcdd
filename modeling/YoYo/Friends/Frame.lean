import YoYo.Friends.Stale

/-!
# What an action leaves alone

An action of a user on a friend is about the entries of the two for each other.
It leaves all others alone, in their order, and does not trap, exactly if it
finds what it is to remove: in the list of the user and in that of the friend,
if there are these lists (`FindsFriend`). A row shown may be stale, so that the
entry is not there any more; the first one of the list is removed instead.

* `performAction_framed_iff`, on one list;
* `framed_iff`, on the runs of taps on rows from any earlier snapshot.
-/

namespace YoYo

open DocStore FriendService

/-- The entries of a list for the users other than `uid`. -/
def others (l : Option (List Friend)) (uid : UID) : List Friend :=
  (l.getD []).filter fun friend => friend.uid ≠ uid

/-- On a list: an action does not trap, and leaves the entries for other users
    alone, exactly if it finds the entry it is to remove. -/
theorem performAction_framed_iff (l : List Friend) (uid : UID) (action : FriendAction)
    (blockedByMe : Bool) :
    (∃ l', performAction l uid action blockedByMe = some l' ∧
        others (some l') uid = others (some l) uid) ↔
      (action.removes → entries (some l) uid ≠ []) := by
  cases hrem : action.removes with
  | false =>
    refine iff_of_true ⟨_, performAction_of_not_removes hrem l uid blockedByMe, ?_⟩ (by simp)
    simp only [others, Option.getD_some]
    -- The statuses of the entries for the user are set one by one.
    induction l with
    | nil => rfl
    | cons f l ih =>
      rw [List.map_cons, List.filter_cons, List.filter_cons, ih]
      by_cases hf : f.uid = uid <;> simp [hf]
  | true =>
    by_cases habs : entries (some l) uid = []
    · -- The first entry is somebody else's, and it is gone, if there is one at all.
      refine iff_of_false ?_ fun h => h rfl habs
      rw [performAction_of_absent hrem habs]
      rintro ⟨l', hl', hoth⟩
      cases l with
      | nil => simp at hl'
      | cons f l =>
        rw [if_neg (List.cons_ne_nil f l), List.tail_cons, Option.some.injEq] at hl'
        have hf : f.uid ≠ uid := entries_eq_nil_iff.1 habs f List.mem_cons_self
        subst hl'
        simp only [others, Option.getD_some] at hoth
        rw [List.filter_cons_of_pos (by simpa using hf)] at hoth
        exact absurd (congrArg List.length hoth) (by simp)
    · refine iff_of_true ⟨_, performAction_of_removes hrem habs blockedByMe, ?_⟩ fun _ => habs
      -- What is erased is the first entry for the user.
      exact filter_eraseP_of_not (fun f hf => by simpa using hf) l

/-- It traps exactly when removing from the empty list. -/
theorem performAction_eq_none_iff (l : List Friend) (uid : UID) (action : FriendAction)
    (blockedByMe : Bool) :
    performAction l uid action blockedByMe = none ↔ action.removes ∧ l = [] := by
  cases hrem : action.removes with
  | false => simp [performAction_of_not_removes hrem]
  | true =>
    by_cases habs : entries (some l) uid = []
    · rw [performAction_of_absent hrem habs]
      by_cases hl : l = [] <;> simp [hl]
    · rw [performAction_of_removes hrem habs]
      refine iff_of_false (by simp) fun h => habs ?_
      rw [h.2]
      rfl

/-! ## Operations -/

/-- The action finds what it is to remove, in the list of the user and in that
    of the friend, if there are these lists. -/
def FindsFriend (b : Book) : FriendOp → Prop
  | .sendFriendRequest _ _ _ _ => True
  | .performActionForFriend x y action => action.removes → b x = none ∨
      entries (b x) y ≠ [] ∧ (b y = none ∨ entries (b y) x ≠ [])

instance (b : Book) : ∀ op, Decidable (FindsFriend b op)
  | .sendFriendRequest _ _ _ _ => .isTrue trivial
  | .performActionForFriend _ _ _ => inferInstanceAs (Decidable (_ → _ ∨ _ ∧ (_ ∨ _)))

/-- The action does not trap, and leaves alone the entries of the two users for
    others, and the lists of all other users. -/
def Framed (b : Book) : FriendOp → Prop
  | .sendFriendRequest _ _ _ _ => True
  | .performActionForFriend x y action =>
    let r := (FriendOp.performActionForFriend x y action).onBook b
    r.1 ≠ .trapped ∧ others (r.2 x) y = others (b x) y ∧ others (r.2 y) x = others (b y) x ∧
      ∀ u, u ≠ x → u ≠ y → r.2 u = b u

/-- An action on somebody else touches nobody else exactly if it finds its friend. -/
theorem framed_iff_findsFriend {b : Book} {x y : UID} (hne : x ≠ y) (action : FriendAction) :
    Framed b (.performActionForFriend x y action) ↔
      FindsFriend b (.performActionForFriend x y action) := by
  rw [Framed, FindsFriend, FriendOp.onBook]
  simp only [FriendOp.myUID, FriendOp.friendUID]
  cases hbx : b x with
  | none => simp [FriendOp.myHalf, hbx]
  | some l =>
    have hmine := performAction_framed_iff l y action (action = .block)
    simp only [FriendOp.myHalf]
    cases hl : performAction l y action (action = .block) with
    | none =>
      -- The first half traps, removing from the empty list.
      have := (performAction_eq_none_iff l y action _).1 hl
      simp [this.1, this.2, entries_some]
    | some l' =>
      have hby : Function.update b x (some l') y = b y := Function.update_of_ne hne.symm _ _
      simp only [hl, Option.some.injEq, exists_eq_left'] at hmine
      simp only [hby]
      cases hbl : b y with
      | none =>
        have hother : ∀ u, u ≠ x → u ≠ y → Function.update b x (some l') u = b u :=
          fun u hu _ => Function.update_of_ne hu _ _
        simp only [FriendOp.friendHalf, hby, hbl, Function.update_self, hmine]
        constructor
        · exact fun h hrem => .inr ⟨h.2.1 hrem, .inl trivial⟩
        · intro h
          refine ⟨Report.noConfusion, fun hrem => ?_, trivial, hother⟩
          exact ((h hrem).resolve_left (by simp)).1
      | some m =>
        -- Both halves are performed, each one framed exactly if it finds its entry.
        have htheirs := performAction_framed_iff m x action false
        cases hm : performAction m x action false with
        | none =>
          obtain ⟨hrem, rfl⟩ := (performAction_eq_none_iff m x action _).1 hm
          simp only [FriendOp.friendHalf, hm]
          refine iff_of_false (fun h => h.1 rfl) fun h => ?_
          simpa [entries_some] using h hrem
        | some m' =>
          simp only [hm, Option.some.injEq, exists_eq_left'] at htheirs
          have hother : ∀ u, u ≠ x → u ≠ y →
              Function.update (Function.update b x (some l')) y (some m') u = b u := by
            intro u hu hu'
            rw [Function.update_of_ne hu', Function.update_of_ne hu]
          have hx : Function.update (Function.update b x (some l')) y (some m') x = some l' := by
            rw [Function.update_of_ne hne, Function.update_self]
          simp only [FriendOp.friendHalf, hm, hx, Function.update_self, hmine, htheirs]
          constructor
          · exact fun h hrem => .inr ⟨h.2.1 hrem, .inr (h.2.2.1 hrem)⟩
          · intro h
            refine ⟨Report.noConfusion, fun hrem => ?_, fun hrem => ?_, hother⟩
            · exact ((h hrem).resolve_left (by simp)).1
            · exact ((h hrem).resolve_left (by simp)).2.resolve_left (by simp)

/-! ## Runs of taps on stale rows -/

variable {g : AutoId DocID} {h : History} {s : FriendsStore}

/-- The action, performed now, does not trap, and leaves alone the entries of
    the two users for others, and the lists of all other users. -/
def History.Framed (g : AutoId DocID) (h : History) : FriendOp → Prop
  | .sendFriendRequest _ _ _ _ => True
  | .performActionForFriend x y action =>
    ((FriendOp.performActionForFriend x y action).exec g h.now).1 ≠ .trapped ∧
    let b := book h.now
    let b' := book (h.next g (.performActionForFriend x y action)).now
    others (b' x) y = others (b x) y ∧ others (b' y) x = others (b y) x ∧
      ∀ u, u ≠ x → u ≠ y → b' u = b u

/-- The action, performed now, finds what it is to remove. -/
def History.FindsFriend (h : History) (op : FriendOp) : Prop := YoYo.FindsFriend (book h.now) op

instance (h : History) (op : FriendOp) : Decidable (h.FindsFriend op) :=
  inferInstanceAs (Decidable (YoYo.FindsFriend (book h.now) op))

/-- No list of the book has its owner. -/
def NoSelf (b : Book) : Prop := ∀ x, entries (b x) x = []

/-- That is, every owner differs from everybody in his list. -/
theorem noSelf_iff {b : Book} : NoSelf b ↔ b.Relates Ne := by
  refine forall_congr' fun x => ?_
  rw [entries, List.filter_eq_nil_iff]
  refine forall₂_congr fun friend _ => ?_
  rw [decide_eq_true_iff]
  exact ne_comm

/-- An operation on somebody else puts nobody in his own list. -/
theorem NoSelf.onBook {b : Book} (hb : NoSelf b) {op : FriendOp} (hne : op.myUID ≠ op.friendUID) :
    NoSelf (op.onBook b).2 := noSelf_iff.2 ((noSelf_iff.1 hb).onBook hne hne.symm)

/-- What the runs of taps keep: the lists stored, and nobody in his own list,
    now or in any row shown. -/
structure History.Sane (h : History) : Prop where
  kept : Kept h.now
  noSelf : ∀ s ∈ h.seen, NoSelf (book s)

theorem History.sane_init : History.init.Sane where
  kept := kept_empty
  noSelf s hs := by
    rw [List.mem_singleton.1 hs]
    exact fun _ => rfl

/-- Nobody taps a row of his own. -/
theorem History.Sane.ne_of_tappable (hI : h.Sane) {op : FriendOp} (hop : h.Tappable op) :
    op.myUID ≠ op.friendUID := by
  cases op with
  | sendFriendRequest x y sent received => exact (SearchService.offers_iff.1 hop).1.symm
  | performActionForFriend x y action =>
    obtain ⟨s, hs, hoffers⟩ := hop
    intro (hxy : x = y)
    subst hxy
    exact hoffers.entries_ne_nil (hI.noSelf s hs _)

theorem History.Sane.next (hI : h.Sane) {op : FriendOp} (hop : h.Tappable op) :
    (h.next g op).Sane := by
  obtain ⟨-, hbook, hkept⟩ := exec_refines (g := g) hI.kept op
  refine ⟨hkept, fun s hs => ?_⟩
  rcases List.mem_cons.1 hs with rfl | hs
  · have hself := (hI.noSelf _ List.mem_cons_self).onBook (hI.ne_of_tappable hop)
    rwa [← hbook] at hself
  · exact hI.noSelf s hs

theorem History.Sane.framed_iff_findsFriend (hI : h.Sane) {op : FriendOp} (hop : h.Tappable op) :
    h.Framed g op ↔ h.FindsFriend op := by
  cases op with
  | sendFriendRequest x y sent received => exact Iff.rfl
  | performActionForFriend x y action =>
    obtain ⟨hreport, hbook, -⟩ := exec_refines (g := g) hI.kept (.performActionForFriend x y action)
    have hne : x ≠ y := hI.ne_of_tappable hop
    rw [History.FindsFriend, ← YoYo.framed_iff_findsFriend hne action, History.Framed,
      YoYo.Framed]
    simp only [History.now_next, nextStore, hreport, hbook]

/-- In every run of taps, on rows of any earlier snapshot, every action leaves
    all other entries alone, and none traps, exactly if every action finds what
    it is to remove. On its own, an action leaves alone the entries for others
    exactly if the list has one to be removed, and traps exactly if it is to
    remove one from the empty list. -/
theorem framed_iff :
    (∀ ops, AllSteps (History.next g) History.Tappable .init ops →
      (AllSteps (History.next g) (History.Framed g) .init ops ↔
        AllSteps (History.next g) History.FindsFriend .init ops)) ∧
    ∀ l uid action blockedByMe,
      ((∃ l', performAction l uid action blockedByMe = some l' ∧
          others (some l') uid = others (some l) uid) ↔
        (action.removes → entries (some l) uid ≠ [])) ∧
      (performAction l uid action blockedByMe = none ↔ action.removes ∧ l = []) := by
  refine ⟨fun ops hops => ?_, fun l uid action blockedByMe =>
    ⟨performAction_framed_iff l uid action blockedByMe, performAction_eq_none_iff l uid action _⟩⟩
  exact allSteps_iff (I := History.Sane) (fun h op hI hop _ => hI.next hop)
    (fun h op hI hop => hI.framed_iff_findsFriend hop) History.sane_init hops

/-- In a run whose actions all find what they are to remove. -/
theorem framed_exampleRun :
    AllSteps (History.next succId) (History.Framed succId) .init exampleRun :=
  (framed_iff.1 exampleRun (by decide)).2 (by decide)

/-- A request cancelled twice, the second time on a stale row: the first time
    by the user it was sent to. -/
def cancelledTwice : List FriendOp :=
  [.sendFriendRequest "cem" "ann" 1 2, .sendFriendRequest "ann" "bob" 3 4,
    .performActionForFriend "bob" "ann" .cancel, .performActionForFriend "ann" "bob" .cancel]

/-- The second time, the request of somebody else is removed; and an action
    removing from the empty list traps. -/
theorem not_framed_cancelledTwice :
    AllSteps (History.next succId) History.Tappable .init cancelledTwice ∧
    ¬ AllSteps (History.next succId) (History.Framed succId) .init cancelledTwice ∧
    performAction [] "bob" .cancel false = none := by
  refine ⟨by decide, fun h => ?_, rfl⟩
  have hstep := (@AllSteps.step_of_append _ _ _ _ _ (cancelledTwice.take 3) [] _ h).2.1
  revert hstep
  decide

end YoYo
