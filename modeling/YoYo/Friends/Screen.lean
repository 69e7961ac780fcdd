import YoYo.Friends.Pair

/-!
# What the screens offer

Which operations a user is offered. The friends screen shows the entries of the
list of its user, but the blocked ones, and for each the buttons its status
leaves visible; a search for people offers those without an entry in the list.

An operation is *offered* in a store if the screens offer it for the lists
stored there (`Offered`).
-/

namespace YoYo

open DocStore

/-- The entries of a list the friends screen shows. -/
def shownFriends (friends : List Friend) : List Friend :=
  friends.filter fun friend => friend.status ≠ .blocked

/-- Whether each of the buttons of a row of the friends screen is hidden. -/
structure HiddenButtons where
  acceptButton : Bool
  blockButton : Bool
  cancelButton : Bool
  unfriendButton : Bool
  unblockButton : Bool
  deriving DecidableEq, Repr

/-- The buttons of the row of an entry. -/
def cellForRowAt (status : FriendStatus) : HiddenButtons :=
  let cell : HiddenButtons := ⟨false, false, false, false, false⟩
  if status = .requested then
    { cell with blockButton := true, unfriendButton := true, unblockButton := true }
  else if status = .requestSend then
    { cell with
      blockButton := true, acceptButton := true, unfriendButton := true, unblockButton := true }
  else if status = .unblock then
    { cell with
      blockButton := true, acceptButton := true, unfriendButton := true, cancelButton := true }
  else
    { cell with acceptButton := true, cancelButton := true, unblockButton := true }

/-- The action of each button, offered if the button is not hidden. -/
def HiddenButtons.offers (cell : HiddenButtons) : FriendAction → Bool
  | .accept => !cell.acceptButton
  | .cancel => !cell.cancelButton
  | .unfriend => !cell.unfriendButton
  | .block => !cell.blockButton
  | .unblock => !cell.unblockButton

/-- Whether a search of the user `uid`, whose list is `friendsList`, offers the
    user `userID`, if its profile matches. -/
def SearchService.offers (uid : UID) (friendsList : Option FriendsList) (userID : UID) : Bool :=
  userID ≠ uid &&
    match friendsList with
    | some friendsList => !friendsList.friends.any fun friend => friend.uid = userID
    | none => true

theorem SearchService.offers_iff {s : FriendsStore} {uid userID : UID} :
    SearchService.offers uid (listOf s uid) userID ↔
      userID ≠ uid ∧ entries (book s uid) userID = [] := by
  simp only [SearchService.offers, book]
  cases listOf s uid with
  | none => simp
  | some l => simp [entries_eq_nil_iff]

/-- The friends screen of the user `uid` offers an action on the user `friendUID`. -/
def FriendsScreenOffers (s : FriendsStore) (uid friendUID : UID) (action : FriendAction) : Prop :=
  ∃ friend ∈ shownFriends ((book s uid).getD []),
    friend.uid = friendUID ∧ (cellForRowAt friend.status).offers action

instance (s : FriendsStore) (uid friendUID : UID) (action : FriendAction) :
    Decidable (FriendsScreenOffers s uid friendUID action) :=
  inferInstanceAs (Decidable (∃ friend ∈ _, _))

/-- The operation is one the screens offer for the lists stored. -/
def Offered (s : FriendsStore) : FriendOp → Prop
  | .sendFriendRequest a b _ _ => SearchService.offers a (listOf s a) b
  | .performActionForFriend a b action => FriendsScreenOffers s a b action

instance (s : FriendsStore) : ∀ op, Decidable (Offered s op)
  | .sendFriendRequest _ _ _ _ => inferInstanceAs (Decidable (_ = true))
  | .performActionForFriend a b action =>
    inferInstanceAs (Decidable (FriendsScreenOffers s a b action))

/-- An entry shown is one of the list. -/
theorem FriendsScreenOffers.entries_ne_nil {s : FriendsStore} {uid friendUID : UID}
    {action : FriendAction} (h : FriendsScreenOffers s uid friendUID action) :
    entries (book s uid) friendUID ≠ [] := by
  obtain ⟨friend, hmem, huid, -⟩ := h
  refine List.ne_nil_of_mem (a := friend) (List.mem_filter.2 ⟨(List.mem_filter.1 hmem).1, ?_⟩)
  simpa using huid

/-- The store after an operation run alone. -/
def nextStore (g : AutoId DocID) (s : FriendsStore) (op : FriendOp) : FriendsStore :=
  (op.exec g s).2

end YoYo
