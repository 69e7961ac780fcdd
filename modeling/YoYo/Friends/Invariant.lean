import YoYo.Friends.Screen

/-!
# The two sides of a friendship

The lists of two users agree on what they are to each other: neither has an
entry for the other, or each has one and the statuses of the two are
complementary. An operation keeps it so if it is *sound* (`FriendOp.Sound`): a
request to somebody else without an entry in the list, or an action not
removing an entry that is not there. In particular, so do the operations the
screens offer, in any order (`friends_invariant`).
-/

namespace YoYo

open DocStore

/-- The status of the user `y` in the list of `x`. -/
def Book.statusOf (b : Book) (x y : UID) : Option FriendStatus :=
  (entries (b x) y).head?.map Friend.status

/-- The statuses two users may have in the lists of each other. -/
def Complementary (status status' : Option FriendStatus) : Prop :=
  (status, status') ∈
    [(none, none),
      (some .requestSend, some .requested), (some .requested, some .requestSend),
      (some .accpeted, some .accpeted),
      (some .unblock, some .blocked), (some .blocked, some .unblock)]

instance (status status' : Option FriendStatus) : Decidable (Complementary status status') :=
  inferInstanceAs (Decidable (_ ∈ _))

/-- The lists of a book agree: no list has its owner, nor two entries for the
    same user, and the entries of any two users are complementary. -/
structure Book.Agrees (b : Book) : Prop where
  noSelf : ∀ x, entries (b x) x = []
  single : ∀ x y, (entries (b x) y).length ≤ 1
  complementary : ∀ x y, Complementary (b.statusOf x y) (b.statusOf y x)

/-- An entry the operation is to remove is in the list of the user performing it. -/
def FriendOp.RemovesPresent (b : Book) (op : FriendOp) : Prop :=
  op.removes → entries (b op.myUID) op.friendUID ≠ []

instance (b : Book) (op : FriendOp) : Decidable (op.RemovesPresent b) :=
  inferInstanceAs (Decidable (_ → _))

/-- The operation is a request to somebody else without an entry in the list,
    or an action not removing an entry that is not there. -/
def FriendOp.Sound (b : Book) (op : FriendOp) : Prop :=
  match op with
  | .sendFriendRequest x y _ _ => y ≠ x ∧ entries (b x) y = []
  | .performActionForFriend _ _ _ => op.RemovesPresent b

variable {b : Book} {x y : UID} {f : Friend}

theorem statusOf_eq_none_iff : b.statusOf x y = none ↔ entries (b x) y = [] := by
  cases h : entries (b x) y <;> simp [Book.statusOf, h]

namespace Book.Agrees

theorem empty : Agrees fun _ => none where
  noSelf _ := rfl
  single _ _ := Nat.zero_le _
  complementary _ _ := by simp [Complementary, Book.statusOf]

/-- Only one of two users having an entry for the other is impossible. -/
theorem entries_eq_nil (hb : b.Agrees) (h : entries (b x) y = []) : entries (b y) x = [] := by
  have hc := hb.complementary x y
  rw [statusOf_eq_none_iff.2 h] at hc
  refine statusOf_eq_none_iff.1 ?_
  revert hc
  cases b.statusOf y x with
  | none => exact fun _ => rfl
  | some st => cases st <;> decide

/-- An entry for a user is the only one. -/
theorem entries_eq (hb : b.Agrees) (h : entries (b x) y ≠ []) : ∃ f, entries (b x) y = [f] := by
  have hpos := List.length_pos_iff.2 h
  exact List.length_eq_one_iff.1 (le_antisymm (hb.single x y) hpos)

theorem ne_of_entries_ne_nil (hb : b.Agrees) (h : entries (b x) y ≠ []) : x ≠ y := by
  rintro rfl
  exact h (hb.noSelf x)

end Book.Agrees

/-- The book with the entries of the pair of users `x` and `y` changed agrees, if the
    new ones are complementary. -/
theorem Book.Agrees.of_pair {b' : Book} (hb : b.Agrees) (hne : x ≠ y) {mine theirs : List Friend}
    (h : ∀ u v, entries (b' u) v =
      if u = x ∧ v = y then mine else if u = y ∧ v = x then theirs else entries (b u) v)
    (hmine : mine.length ≤ 1) (htheirs : theirs.length ≤ 1)
    (hc : Complementary (mine.head?.map Friend.status) (theirs.head?.map Friend.status))
    (hc' : Complementary (theirs.head?.map Friend.status) (mine.head?.map Friend.status)) :
    b'.Agrees where
  noSelf u := by
    rw [h, if_neg, if_neg, hb.noSelf]
    · rintro ⟨rfl, rfl⟩
      exact hne rfl
    · rintro ⟨rfl, rfl⟩
      exact hne rfl
  single u v := by
    rw [h]
    split_ifs
    · exact hmine
    · exact htheirs
    · exact hb.single u v
  complementary u v := by
    simp only [statusOf]
    rw [h u v, h v u]
    by_cases h₁ : u = x ∧ v = y
    · rw [if_pos h₁, if_neg fun h => hne (h₁.1.symm.trans h.2), if_pos ⟨h₁.2, h₁.1⟩]
      exact hc
    · rw [if_neg h₁]
      by_cases h₂ : u = y ∧ v = x
      · rw [if_pos h₂, if_pos ⟨h₂.2, h₂.1⟩]
        exact hc'
      · rw [if_neg h₂, if_neg fun h => h₂ ⟨h.2, h.1⟩, if_neg fun h => h₁ ⟨h.2, h.1⟩]
        exact hb.complementary u v

/-- Replacing a list by one with the same entries changes no entries. -/
theorem entries_update {l' : List Friend} (h : ∀ v, entries (some l') v = entries (b x) v)
    (u v : UID) :
    entries (Function.update b x (some l') u) v = entries (b u) v := by
  by_cases hu : u = x
  · rw [hu, Function.update_self, h]
  · rw [Function.update_of_ne hu]

/-- An action removing nothing on an absent entry changes no entries. -/
theorem entries_onBook_of_absent {action : FriendAction} (hrem : action.removes = false)
    (hxy : entries (b x) y = []) (hyx : entries (b y) x = []) (u v : UID) :
    entries (((FriendOp.performActionForFriend x y action).onBook b).2 u) v = entries (b u) v := by
  have hkeep : ∀ {l l' : List Friend} {w : UID} {blockedByMe : Bool}, entries (some l) w = [] →
      FriendService.performAction l w action blockedByMe = some l' →
        ∀ v, entries (some l') v = entries (some l) v := by
    intro l l' w blockedByMe hl hl' v
    rw [entries_performAction (by simp [hrem]) hl']
    split_ifs with hv
    · rw [hv, hl, acted_of_not_removes hrem, List.map_nil]
    · rfl
  rw [FriendOp.onBook]
  simp only [FriendOp.myUID, FriendOp.friendUID]
  cases hbx : b x with
  | none => rfl
  | some l =>
    obtain ⟨l', hl'⟩ : ∃ l', FriendService.performAction l y action (action = .block) = some l' :=
      exists_performAction (by simp [hrem]) _
    have hmine : ∀ u v, entries (Function.update b x (some l') u) v = entries (b u) v :=
      entries_update (by rw [hbx]; exact hkeep (hbx ▸ hxy) hl')
    simp only [FriendOp.myHalf, hl']
    cases hby : Function.update b x (some l') y with
    | none => exact hmine u v
    | some m =>
      obtain ⟨m', hm'⟩ : ∃ m', FriendService.performAction m x action false = some m' :=
        exists_performAction (by simp [hrem]) _
      have hm : entries (some m) x = [] := by rw [← hby, hmine, hyx]
      simp only [FriendOp.friendHalf, hm']
      rw [entries_update (by rw [hby]; exact hkeep hm hm'), hmine]

namespace FriendOp

/-- The status after an action on an entry that is there, if the entry is kept. -/
def statusAfter (action : FriendAction) (blockedByMe : Bool) : Option FriendStatus :=
  if action.removes then none else some (FriendService.newStatus action blockedByMe)

theorem status_acted (action : FriendAction) (blockedByMe : Bool) (f : Friend) :
    (acted action blockedByMe [f]).head?.map Friend.status = statusAfter action blockedByMe := by
  rw [acted, statusAfter]
  split <;> rfl

theorem length_acted_le (action : FriendAction) (blockedByMe : Bool) (f : Friend) :
    (acted action blockedByMe [f]).length ≤ 1 := by
  rw [acted]
  split
  · exact Nat.zero_le 1
  · exact le_rfl

/-- Whatever the action, it leaves the two sides complementary. -/
theorem complementary_statusAfter (action : FriendAction) :
    Complementary (statusAfter action (action = .block)) (statusAfter action false) ∧
      Complementary (statusAfter action false) (statusAfter action (action = .block)) := by
  cases action <;> decide

/-- The entries of the two users after an action on an entry that is there. -/
theorem entries_perform (hb : b.Agrees) (h : entries (b x) y ≠ []) (action : FriendAction) :
    ((performActionForFriend x y action).onBook b).1 = .reported true ∧
    ∀ u v, entries (((performActionForFriend x y action).onBook b).2 u) v =
      if u = x ∧ v = y then acted action (action = .block) (entries (b x) y)
      else if u = y ∧ v = x then acted action false (entries (b y) x)
      else entries (b u) v := by
  have h' : entries (b y) x ≠ [] := fun h' => h (hb.entries_eq_nil h')
  obtain ⟨hr, he⟩ := entries_onBook (x := x) (y := y) rfl rfl (hb.ne_of_entries_ne_nil h)
    (ready_of_entries_ne_nil (performActionForFriend x y action) h) (ready_of_entries_ne_nil _ h')
  refine ⟨hr, fun u v => ?_⟩
  rw [he, myEffect, friendEffect]
  by_cases h₁ : u = x ∧ v = y
  · rw [if_pos h₁, if_pos h₁, h₁.1, h₁.2]
  · rw [if_neg h₁, if_neg h₁]
    by_cases h₂ : u = y ∧ v = x
    · rw [if_pos h₂, if_pos h₂, h₂.1, h₂.2]
    · rw [if_neg h₂, if_neg h₂]

/-- The entries of the two users after a request to somebody without an entry. -/
theorem entries_send (hb : b.Agrees) (hne : y ≠ x) (h : entries (b x) y = [])
    (sent received : Date) :
    ∀ u v, entries (((sendFriendRequest x y sent received).onBook b).2 u) v =
      if u = x ∧ v = y then [⟨y, sent, .requestSend⟩]
      else if u = y ∧ v = x then [⟨x, received, .requested⟩]
      else entries (b u) v := by
  intro u v
  have hready : ∀ l w, (sendFriendRequest x y sent received).Ready l w := fun _ _ => trivial
  rw [(entries_onBook (x := x) (y := y) rfl rfl hne.symm (hready _ _) (hready _ _)).2, myEffect,
    friendEffect]
  by_cases h₁ : u = x ∧ v = y
  · rw [if_pos h₁, if_pos h₁, h₁.1, h₁.2, h]
    rfl
  · rw [if_neg h₁, if_neg h₁]
    by_cases h₂ : u = y ∧ v = x
    · rw [if_pos h₂, if_pos h₂, h₂.1, h₂.2, hb.entries_eq_nil h]
      rfl
    · rw [if_neg h₂, if_neg h₂]

end FriendOp

/-- Sound operations keep the lists in agreement. -/
theorem Book.Agrees.onBook (hb : b.Agrees) {op : FriendOp} (hop : op.Sound b) :
    (op.onBook b).2.Agrees := by
  cases op with
  | sendFriendRequest x y sent received =>
    obtain ⟨hne, h⟩ := hop
    exact hb.of_pair hne.symm (FriendOp.entries_send hb hne h sent received) le_rfl le_rfl
      (by simp [Complementary]) (by simp [Complementary])
  | performActionForFriend x y action =>
    by_cases h : entries (b x) y = []
    · -- Without entries, there is nothing to change.
      have hrem : action.removes = false := Bool.eq_false_iff.2 fun hrem => hop hrem h
      have he := entries_onBook_of_absent hrem h (hb.entries_eq_nil h)
      refine ⟨fun u => ?_, fun u v => ?_, fun u v => ?_⟩
      · rw [he, hb.noSelf]
      · rw [he]
        exact hb.single u v
      · simp only [statusOf]
        rw [he, he]
        exact hb.complementary u v
    · obtain ⟨f, hf⟩ := hb.entries_eq h
      -- There is one entry on each side, and both are given complementary statuses.
      obtain ⟨f', hf'⟩ := hb.entries_eq fun h' => h (hb.entries_eq_nil h')
      have he := (FriendOp.entries_perform hb h action).2
      rw [hf, hf'] at he
      obtain ⟨hc, hc'⟩ := FriendOp.complementary_statusAfter action
      refine hb.of_pair (hb.ne_of_entries_ne_nil h) he (FriendOp.length_acted_le _ _ f)
        (FriendOp.length_acted_le _ _ f') ?_ ?_
      · rw [FriendOp.status_acted, FriendOp.status_acted]
        exact hc
      · rw [FriendOp.status_acted, FriendOp.status_acted]
        exact hc'

/-! ## Runs of operations offered -/

/-- What the collection `friends` satisfies: one document at most for each user,
    and no list with its owner or with two entries for the same user, the
    entries of any two users for each other being complementary. -/
structure FriendsInvariant (s : FriendsStore) : Prop where
  oneDoc : ∀ uid, (s.query (ofUser uid)).length ≤ 1
  noSelf : ∀ uid l, listOf s uid = some l → ∀ friend ∈ l.friends, friend.uid ≠ uid
  nodup : ∀ uid l, listOf s uid = some l → (l.friends.map Friend.uid).Nodup
  complementary : ∀ x y, Complementary ((book s).statusOf x y) ((book s).statusOf y x)

variable {g : AutoId DocID} {s : FriendsStore}

/-- Every list read is in agreement with the others, if the book is. -/
theorem FriendsInvariant.of_agrees (hs : Kept s) (hb : (book s).Agrees) : FriendsInvariant s where
  oneDoc := hs.oneDoc
  noSelf uid l hl := by
    have h := hb.noSelf uid
    rw [book, hl, Option.map_some] at h
    exact entries_eq_nil_iff.1 h
  nodup uid l hl := by
    refine nodup_uids_iff.2 fun y => ?_
    have h := hb.single uid y
    rwa [book, hl, Option.map_some] at h
  complementary := hb.complementary

/-- Operations offered are sound. -/
theorem Offered.sound {op : FriendOp} (h : Offered s op) : op.Sound (book s) := by
  cases op with
  | sendFriendRequest x y sent received => exact SearchService.offers_iff.1 h
  | performActionForFriend x y action => exact fun _ => FriendsScreenOffers.entries_ne_nil h

/-- Sound operations keep the book of a store, in agreement. -/
theorem FriendOp.Sound.nextStore {op : FriendOp} (hop : op.Sound (book s)) (hs : Kept s)
    (hb : (book s).Agrees) :
    Kept (nextStore g s op) ∧ (book (nextStore g s op)).Agrees := by
  obtain ⟨-, hbook, hkept⟩ := exec_refines (g := g) hs op
  exact ⟨hkept, hbook ▸ hb.onBook hop⟩

/-- From no lists at all, whatever operations are performed, one after the
    other, each one offered by the screens for the lists then stored, the two
    sides of every friendship agree. -/
theorem friends_invariant {ops : List FriendOp} (h : AllSteps (nextStore g) Offered .empty ops) :
    FriendsInvariant (after (nextStore g) .empty ops) := by
  have hI := h.invariant (I := fun s => Kept s ∧ (book s).Agrees)
    (fun s op hs hop => hop.sound.nextStore hs.1 hs.2) ⟨kept_empty, book_empty ▸ .empty⟩
  exact .of_agrees hI.1 hI.2

/-- A request, accepted, and a block lifted again. -/
def exampleRun : List FriendOp :=
  [.sendFriendRequest "ann" "bob" 1 2, .performActionForFriend "bob" "ann" .accept,
    .performActionForFriend "ann" "bob" .block, .sendFriendRequest "cem" "ann" 3 4,
    .performActionForFriend "ann" "bob" .unblock, .performActionForFriend "bob" "ann" .unfriend]

theorem friends_invariant_exampleRun :
    FriendsInvariant (after (nextStore succId) .empty exampleRun) :=
  friends_invariant (by decide)

end YoYo
