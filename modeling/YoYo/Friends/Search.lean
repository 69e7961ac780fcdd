import YoYo.Friends.Frame

/-!
# Requests from earlier searches

The results of a search are not refreshed after a request, and the button of a
row is enabled again whenever its cell is reused: a request may be sent to any
user some earlier search has offered. Nothing in a request looks for an entry
that is there already, so that lists may get two entries for the same user, of
which an action removes one only.

It does not come to this exactly in the runs in which every request finds no
entry of one of its two users for the other, and no entry is to be removed by
somebody with an empty list (`oneEntry_iff`).
-/

namespace YoYo

open DocStore FriendService

/-- A request is to a user offered by a search at any time before. Actions may be any. -/
def History.Searched (h : History) : FriendOp → Prop
  | .sendFriendRequest a b _ _ => ∃ s ∈ h.seen, SearchService.offers a (listOf s a) b
  | .performActionForFriend _ _ _ => True

instance (h : History) : ∀ op, Decidable (h.Searched op)
  | .sendFriendRequest _ _ _ _ => inferInstanceAs (Decidable (∃ s ∈ h.seen, _))
  | .performActionForFriend _ _ _ => .isTrue trivial

/-- No list of the book has two entries for the same user. -/
def Book.Single (b : Book) : Prop := ∀ x, (((b x).getD []).map Friend.uid).Nodup

/-- An operation has left no entries of its two users for each other. -/
def FriendOp.NoneLeft (op : FriendOp) (b : Book) : Prop :=
  entries (b op.myUID) op.friendUID = [] ∧ entries (b op.friendUID) op.myUID = []

instance (op : FriendOp) (b : Book) : Decidable (op.NoneLeft b) :=
  inferInstanceAs (Decidable (_ ∧ _))

/-- A request finds no entry of one of the two users for the other. An entry
    the friend has is not to be removed by a user whose list is empty, or missing. -/
def FriendOp.FindsNone (b : Book) : FriendOp → Prop
  | .sendFriendRequest x y _ _ => entries (b x) y = [] ∧ entries (b y) x = []
  | .performActionForFriend x y action =>
    action.removes → entries (b y) x ≠ [] → (b x).getD [] ≠ []

instance (b : Book) : ∀ op, Decidable (FriendOp.FindsNone b op)
  | .sendFriendRequest _ _ _ _ => inferInstanceAs (Decidable (_ ∧ _))
  | .performActionForFriend _ _ _ => inferInstanceAs (Decidable (_ → _ → _))

variable {g : AutoId DocID} {h : History} {b : Book} {x y : UID} {l l' : List Friend}
  {action : FriendAction} {blockedByMe : Bool}

/-! ## Books -/

theorem Book.single_iff : b.Single ↔ ∀ x y, (entries (b x) y).length ≤ 1 :=
  forall_congr' fun _ => nodup_uids_iff

theorem Book.Single.update (hb : b.Single) (hl : (l.map Friend.uid).Nodup) :
    Book.Single (Function.update b x (some l)) := by
  intro u
  by_cases hu : u = x
  · rw [hu, Function.update_self]
    exact hl
  · rw [Function.update_of_ne hu]
    exact hb u

theorem Book.Single.nodup (hb : b.Single) (hx : b x = some l) : (l.map Friend.uid).Nodup := by
  have hl := hb x
  rwa [hx, Option.getD_some] at hl

/-- An action adds no entries. -/
theorem uids_sublist_of_performAction (hl' : performAction l y action blockedByMe = some l') :
    (l'.map Friend.uid).Sublist (l.map Friend.uid) := by
  cases hrem : action.removes with
  | false =>
    rw [performAction_of_not_removes hrem, Option.some.injEq] at hl'
    have huids : l'.map Friend.uid = l.map Friend.uid := by
      rw [← hl', List.map_map]
      refine List.map_congr_left fun f _ => ?_
      simp only [Function.comp]
      split_ifs <;> rfl
    rw [huids]
  | true =>
    by_cases habs : entries (some l) y = []
    · rw [performAction_of_absent hrem habs] at hl'
      split_ifs at hl'
      cases hl'
      exact (List.tail_sublist l).map _
    · rw [performAction_of_removes hrem habs, Option.some.injEq] at hl'
      exact hl' ▸ List.eraseP_sublist.map _

/-- Removing the entry of a user who has one at most leaves none. -/
theorem entries_of_removes (hrem : action.removes) (hl : (l.map Friend.uid).Nodup)
    (hl' : performAction l y action blockedByMe = some l') : entries (some l') y = [] := by
  by_cases habs : entries (some l) y = []
  · rw [performAction_of_absent hrem habs] at hl'
    split_ifs at hl'
    cases hl'
    rw [entries_eq_nil_iff] at *
    exact fun f hf => habs f (List.mem_of_mem_tail hf)
  · have he := entries_performAction (fun _ => habs) hl' y
    rw [if_pos rfl, acted_of_removes hrem] at he
    rw [he]
    refine List.eq_nil_of_length_eq_zero ?_
    have hle := nodup_uids_iff.1 hl y
    rw [List.length_tail]
    omega

/-- What an action on the list of `x` and then on that of `y` does: nothing, if
    `x` has no entries and the action is to remove one, and otherwise it is
    performed on the list of `x`, if there is one. -/
theorem onBook_cases (b : Book) (x y : UID) (action : FriendAction) :
    ((FriendOp.performActionForFriend x y action).onBook b).2 = b ∧
      (b x = none ∨ action.removes ∧ b x = some []) ∨
    ∃ l mine, b x = some l ∧ performAction l y action (action = .block) = some mine ∧
      ((((FriendOp.performActionForFriend x y action).onBook b).2 =
          Function.update b x (some mine) ∧
        (Function.update b x (some mine) y = none ∨
          Function.update b x (some mine) y = some [])) ∨
      ∃ m theirs, Function.update b x (some mine) y = some m ∧
        performAction m x action false = some theirs ∧
        ((FriendOp.performActionForFriend x y action).onBook b).2 =
          Function.update (Function.update b x (some mine)) y (some theirs)) := by
  rw [FriendOp.onBook]
  simp only [FriendOp.myUID, FriendOp.friendUID]
  cases hbx : b x with
  | none => exact .inl ⟨rfl, .inl rfl⟩
  | some l =>
    cases hmine : performAction l y action (action = .block) with
    | none =>
      obtain ⟨hrem, rfl⟩ := (performAction_eq_none_iff l y action _).1 hmine
      exact .inl ⟨by simp only [FriendOp.myHalf, hmine], .inr ⟨hrem, rfl⟩⟩
    | some mine =>
      refine .inr ⟨l, mine, rfl, hmine, ?_⟩
      simp only [FriendOp.myHalf, hmine]
      cases hby : Function.update b x (some mine) y with
      | none => exact .inl ⟨rfl, .inl rfl⟩
      | some m =>
        cases htheirs : performAction m x action false with
        | none =>
          obtain ⟨-, rfl⟩ := (performAction_eq_none_iff m x action _).1 htheirs
          exact .inl ⟨by simp only [FriendOp.friendHalf, htheirs], .inr rfl⟩
        | some theirs =>
          exact .inr ⟨m, theirs, rfl, htheirs, by simp only [FriendOp.friendHalf, htheirs]⟩

/-- Rewriting one list, with nobody but those in it. -/
theorem Book.Relates.update_of_sublist {R : UID → UID → Prop} (hb : b.Relates R) (hx : b x = some l)
    (hl : (l'.map Friend.uid).Sublist (l.map Friend.uid)) :
    Book.Relates R (Function.update b x (some l')) := by
  intro u friend hfriend
  by_cases hu : u = x
  · subst hu
    rw [Function.update_self] at hfriend
    obtain ⟨f, hf, huid⟩ := List.mem_map.1 (hl.mem (List.mem_map_of_mem (f := Friend.uid) hfriend))
    exact huid ▸ hb u f (by rwa [hx])
  · rw [Function.update_of_ne hu] at hfriend
    exact hb u friend hfriend

/-- Actions put nobody in any list. -/
theorem Book.Relates.perform {R : UID → UID → Prop} (hb : b.Relates R) (x y : UID)
    (action : FriendAction) :
    Book.Relates R ((FriendOp.performActionForFriend x y action).onBook b).2 := by
  rcases onBook_cases b x y action with
    ⟨hbook, -⟩ | ⟨l, mine, hx, hmine, ⟨hbook, -⟩ | ⟨m, theirs, hy, htheirs, hbook⟩⟩
  · rwa [hbook]
  · rw [hbook]
    exact hb.update_of_sublist hx (uids_sublist_of_performAction hmine)
  · rw [hbook]
    exact (hb.update_of_sublist hx (uids_sublist_of_performAction hmine)).update_of_sublist hy
      (uids_sublist_of_performAction htheirs)

/-- Actions keep lists without two entries for the same user. -/
theorem Book.Single.perform (hb : b.Single) (x y : UID) (action : FriendAction) :
    Book.Single ((FriendOp.performActionForFriend x y action).onBook b).2 := by
  rcases onBook_cases b x y action with
    ⟨hnext, -⟩ | ⟨l, mine, hx, hmine, ⟨hnext, -⟩ | ⟨m, theirs, hy, htheirs, hnext⟩⟩
  · rwa [hnext]
  · rw [hnext]
    exact hb.update ((uids_sublist_of_performAction hmine).nodup (hb.nodup hx))
  · rw [hnext]
    have hb' := hb.update (x := x) ((uids_sublist_of_performAction hmine).nodup (hb.nodup hx))
    exact hb'.update ((uids_sublist_of_performAction htheirs).nodup (hb'.nodup hy))

/-- A removing action leaves none of the entries exactly if it is not the empty
    list that it is to remove the first of them from. -/
theorem noneLeft_perform_iff (hb : b.Single) (hrem : action.removes) :
    (FriendOp.performActionForFriend x y action).NoneLeft
        ((FriendOp.performActionForFriend x y action).onBook b).2 ↔
      (entries (b y) x ≠ [] → (b x).getD [] ≠ []) := by
  simp only [FriendOp.NoneLeft, FriendOp.myUID, FriendOp.friendUID]
  have hnone : ∀ {b : Book} {u : UID}, b u = none ∨ b u = some [] → ∀ v, entries (b u) v = [] := by
    rintro b u (hu | hu) v <;> rw [hu] <;> rfl
  rcases onBook_cases b x y action with
    ⟨hnext, hx⟩ | ⟨l, mine, hx, hmine, hrest⟩
  · -- Nothing happens.
    have hx := hx.imp_right And.right
    rw [hnext, hnone hx]
    have hnil : (b x).getD [] = [] := by
      rcases hx with hx | hx <;> rw [hx] <;> rfl
    simp [hnil]
  · have hmineLeft := entries_of_removes hrem (hb.nodup hx) hmine
    have hlne : l ≠ [] := fun hnil => by
      rw [(performAction_eq_none_iff l y action _).2 ⟨hrem, hnil⟩] at hmine
      cases hmine
    refine iff_of_true ?_ fun _ => by rwa [hx, Option.getD_some]
    rcases hrest with ⟨hnext, hy⟩ | ⟨m, theirs, hy, htheirs, hnext⟩
    · rw [hnext, hnone hy, Function.update_self]
      exact ⟨hmineLeft, rfl⟩
    · have hb' := hb.update (x := x) ((uids_sublist_of_performAction hmine).nodup (hb.nodup hx))
      have htheirsLeft := entries_of_removes hrem (hb'.nodup hy) htheirs
      rw [hnext, Function.update_self]
      refine ⟨?_, htheirsLeft⟩
      by_cases hxy : x = y
      · -- Acting on himself, the user has the list written last.
        subst hxy
        rw [Function.update_self]
        exact htheirsLeft
      · rw [Function.update_of_ne hxy, Function.update_self]
        exact hmineLeft

/-- A request keeps lists without two entries for the same user exactly if it
    finds none for one of its two users in the list of the other. -/
theorem single_send_iff (hb : b.Single) (hne : x ≠ y) (sent received : Date) :
    Book.Single ((FriendOp.sendFriendRequest x y sent received).onBook b).2 ↔
      entries (b x) y = [] ∧ entries (b y) x = [] := by
  have hready : ∀ l w, (FriendOp.sendFriendRequest x y sent received).Ready l w :=
    fun _ _ => trivial
  have he : ∀ u v, entries (((FriendOp.sendFriendRequest x y sent received).onBook b).2 u) v =
      if u = x ∧ v = y then entries (b u) v ++ [⟨y, sent, .requestSend⟩]
      else if u = y ∧ v = x then entries (b u) v ++ [⟨x, received, .requested⟩]
      else entries (b u) v :=
    (FriendOp.entries_onBook (x := x) (y := y) rfl rfl hne (hready _ _) (hready _ _)).2
  rw [Book.single_iff] at *
  constructor
  · intro hb'
    have hx := hb' x y
    have hy := hb' y x
    rw [he, if_pos ⟨rfl, rfl⟩, List.length_append, List.length_singleton] at hx
    rw [he, if_neg fun h => hne h.1.symm, if_pos ⟨rfl, rfl⟩, List.length_append,
      List.length_singleton] at hy
    exact ⟨List.eq_nil_of_length_eq_zero (by omega), List.eq_nil_of_length_eq_zero (by omega)⟩
  · rintro ⟨hx, hy⟩ u v
    rw [he]
    split_ifs with h₁ h₂
    · rw [h₁.1, h₁.2, hx]
      exact le_rfl
    · rw [h₂.1, h₂.2, hy]
      exact le_rfl
    · exact hb u v

/-! ## Runs -/

/-- The lists stored after the step have no two entries for the same user, and
    if it is to remove the entries of its two users for each other, none is left. -/
def History.SingleNext (g : AutoId DocID) (h : History) (op : FriendOp) : Prop :=
  (book (h.next g op).now).Single ∧ (op.removes → op.NoneLeft (book (h.next g op).now))

/-- A request finds no entry, and entries are not to be removed from an empty list. -/
def History.FindsNone (h : History) (op : FriendOp) : Prop := op.FindsNone (book h.now)

instance (h : History) (op : FriendOp) : Decidable (h.FindsNone op) :=
  inferInstanceAs (Decidable (op.FindsNone (book h.now)))

/-- A user is not offered himself. -/
theorem History.Searched.ne {sent received : Date}
    (hop : h.Searched (.sendFriendRequest x y sent received)) : x ≠ y := by
  obtain ⟨s, -, hoffers⟩ := hop
  exact (SearchService.offers_iff.1 hoffers).1.symm

theorem singleNext_iff (hs : Kept h.now) (hb : (book h.now).Single) {op : FriendOp}
    (hop : h.Searched op) : h.SingleNext g op ↔ h.FindsNone op := by
  rw [History.SingleNext, History.now_next, nextStore, (exec_refines hs op).2.1]
  cases op with
  | sendFriendRequest x y sent received =>
    rw [single_send_iff hb hop.ne]
    exact and_iff_left fun hrem => Bool.noConfusion hrem
  | performActionForFriend x y action =>
    refine (and_iff_right (hb.perform x y action)).trans ?_
    exact forall_congr' fun hrem => noneLeft_perform_iff hb hrem

/-- In the run `ops`, no list ever has two entries for the same user, and after
    an entry has been cancelled or unfriended, neither of the two users has one
    for the other. -/
structure OneEntry (g : AutoId DocID) (ops : List FriendOp) : Prop where
  nodup : ∀ ops₁ ops₂, ops = ops₁ ++ ops₂ → ∀ uid l,
    listOf (after (History.next g) .init ops₁).now uid = some l → (l.friends.map Friend.uid).Nodup
  removed : ∀ ops₁ op ops₂, ops = ops₁ ++ op :: ops₂ → op.removes →
    op.NoneLeft (book (after (History.next g) .init (ops₁ ++ [op])).now)

theorem Book.single_book_iff {s : FriendsStore} :
    (book s).Single ↔ ∀ uid l, listOf s uid = some l → (l.friends.map Friend.uid).Nodup := by
  refine forall_congr' fun uid => ?_
  rw [book]
  cases listOf s uid <;> simp

/-- One entry is what every step leaves, and none if the entries are to be removed. -/
theorem oneEntry_iff_allSteps {ops : List FriendOp} :
    OneEntry g ops ↔ AllSteps (History.next g) (History.SingleNext g) .init ops := by
  have hnodup : (∀ ops₁ ops₂, ops = ops₁ ++ ops₂ →
      (book (after (History.next g) .init ops₁).now).Single) ↔
        AllSteps (History.next g) (fun h op => (book (h.next g op).now).Single) .init ops :=
    (forall_prefix_iff (B := fun h : History => (book h.now).Single)).trans
      (and_iff_right (Book.single_book_iff.2 nofun))
  have hremoved : AllSteps (History.next g) (fun h op => op.removes →
      op.NoneLeft (book (h.next g op).now)) .init ops ↔ ∀ ops₁ op ops₂, ops = ops₁ ++ op :: ops₂ →
        op.removes → op.NoneLeft (book (after (History.next g) .init (ops₁ ++ [op])).now) := by
    simp only [after_append]
    exact allSteps_iff_forall
  refine Iff.trans ?_ allSteps_and.symm
  rw [← hnodup, hremoved]
  simp only [Book.single_book_iff]
  exact ⟨fun h => ⟨h.nodup, h.removed⟩, fun h => ⟨h.1, h.2⟩⟩

/-- In the runs whose requests are to users found by earlier searches, lists
    have one entry for each friend, and none once it has been removed, exactly
    if every request finds no entry, and no entry is to be removed by somebody
    whose list is empty. -/
theorem oneEntry_iff {ops : List FriendOp}
    (hops : AllSteps (History.next g) History.Searched .init ops) :
    OneEntry g ops ↔ AllSteps (History.next g) History.FindsNone .init ops := by
  rw [oneEntry_iff_allSteps]
  refine allSteps_iff (I := fun h => Kept h.now ∧ (book h.now).Single)
    (fun h op hI hop hfinds => ?_) (fun h op hI hop => singleNext_iff hI.1 hI.2 hop)
    ⟨kept_empty, Book.single_book_iff.2 nofun⟩ hops
  exact ⟨(exec_refines hI.1 op).2.2, ((singleNext_iff hI.1 hI.2 hop).2 hfinds).1⟩

/-- A request sent again once it has been cancelled, from the same search. -/
def requestedAgain : List FriendOp :=
  [.sendFriendRequest "ann" "bob" 1 2, .performActionForFriend "bob" "ann" .cancel,
    .sendFriendRequest "ann" "bob" 3 4, .performActionForFriend "bob" "ann" .accept,
    .performActionForFriend "ann" "bob" .unfriend]

theorem oneEntry_requestedAgain : OneEntry succId requestedAgain :=
  (oneEntry_iff (by decide)).2 (by decide)

/-- Ann and bob have found each other, and both send a request; ann cancels hers. -/
def requestsCrossing : List FriendOp :=
  [.sendFriendRequest "ann" "bob" 1 2, .sendFriendRequest "bob" "ann" 3 4,
    .performActionForFriend "ann" "bob" .cancel]

/-- Each has two entries for the other, and one after the cancellation. -/
theorem not_oneEntry_requestsCrossing :
    AllSteps (History.next succId) History.Searched .init requestsCrossing ∧
    ¬ OneEntry succId requestsCrossing := by
  refine ⟨by decide, fun h => ?_⟩
  have hleft := h.removed (requestsCrossing.take 2) _ [] rfl rfl
  revert hleft
  decide

end YoYo
