import YoYo.DocStore.Prog
import YoYo.Models

/-!
# The friend service

The operations on friendships, as programs calling the collection `friends`.
What two users are to each other is stored twice, in the list of each: an
operation first rewrites the list of the user performing it and then that of
the other, each by reading the list (`fetchFriendsList`), changing it, and
writing the whole of it (`updateFriendsList`), to its document if there is one
and to a new one otherwise.

An operation ends by reporting whether it succeeded, unless it does not report
at all, or traps.
-/

namespace YoYo

open DocStore

/-- The collection `friends`. -/
abbrev FriendsStore := Collection DocID FriendsDoc

/-- The documents of the user `uid`: the query both the reads and the writes make. -/
def ofUser (uid : UID) (d : FriendsDoc) : Bool := d.uid.is uid

/-- How an operation ends for the one performing it. -/
inductive Report
  | reported (success : Bool)
  | silent
  | trapped
  deriving DecidableEq, Repr

/-- The calls on the collection `friends`. -/
abbrev FriendsCall := Call DocID UID FriendsDoc

/-- The programs calling it. -/
abbrev FriendsProg := Prog FriendsCall Answer Report

namespace DatabaseService

/-- The list of a user: the first of the documents of the user that decodes, if any does. -/
def fetchFriendsList (uid : UID)
    (completionHandler : Except Unit (Option FriendsList) → FriendsProg) : FriendsProg :=
  .call (.getDocuments uid) fun
    | none => completionHandler (.error ())
    | some snapshot =>
      if snapshot.isEmpty then completionHandler (.ok none)
      else
        let friendsLists := snapshot.filterMap FriendsList.decode
        if friendsLists.length > 0 then completionHandler (.ok friendsLists.head?)
        else completionHandler (.ok none)

/-- Writing a list: to a new document if its owner has none, and otherwise to
    the one it was decoded from, failing if it was not. -/
def updateFriendsList (friendsList : FriendsList) (completionHandler : Bool → FriendsProg) :
    FriendsProg :=
  .call (.getDocuments friendsList.uid) fun
    | none => completionHandler false
    | some documents =>
      if (documents.take 1).isEmpty then
        .call (.addDocument friendsList.encode) fun success => completionHandler success
      else
        match friendsList.id with
        | some documentID =>
          .call (.setData documentID friendsList.encode) fun success => completionHandler success
        -- A list never decoded has no document id to be written to.
        | none => completionHandler false

end DatabaseService

/-- What a user may do about an entry of his list. -/
inductive FriendAction
  | accept
  | cancel
  | unfriend
  | block
  | unblock
  deriving DecidableEq, Repr

/-- The actions removing the entry they are performed on. -/
def FriendAction.removes : FriendAction → Bool
  | cancel | unfriend => true
  | accept | block | unblock => false

namespace FriendService

open DatabaseService

/-- The status a performed action gives to the entries it is performed on, in
    the list of the user performing it if it is a block of `blockedByMe`. -/
def newStatus (action : FriendAction) (blockedByMe : Bool) : FriendStatus :=
  if action = .accept ∨ action = .unblock then .accpeted
  else if action = .block ∧ blockedByMe then .unblock
  else .blocked

/-- The list after an action. The index to remove is looked for from `0`, so
    that it is `0` where there is none; removing traps outside of the list. -/
def performAction (friends : List Friend) (friendUID : UID) (action : FriendAction)
    (blockedByMe : Bool) : Option (List Friend) :=
  if action = .accept ∨ action = .block ∨ action = .unblock then
    some (friends.map fun friend =>
      if friend.uid = friendUID then { friend with status := newStatus action blockedByMe }
      else friend)
  else
    let removingIndex := (friends.findIdx? fun friend => friend.uid = friendUID).getD 0
    if removingIndex < friends.length then some (friends.eraseIdx removingIndex) else none

/-- The second half of a friend request, on the list of the friend. -/
def createFriendRequestForFriend (myUID friendUID : UID) (now : Date)
    (completionHandler : Bool → FriendsProg) : FriendsProg :=
  fetchFriendsList friendUID fun
    | .error _ => completionHandler false
    | .ok (some friendsList) =>
      updateFriendsList
        { friendsList with friends := friendsList.friends ++ [⟨myUID, now, .requested⟩] }
        completionHandler
    | .ok none => updateFriendsList ⟨none, friendUID, [⟨myUID, now, .requested⟩]⟩ completionHandler

/-- A friend request: an entry in the list of the one sending it, at the time
    `sent`, and one in the list of the friend, at the time `received`. -/
def sendFriendRequest (myUID friendUID : UID) (sent received : Date)
    (completionHandler : Bool → FriendsProg) : FriendsProg :=
  fetchFriendsList myUID fun
    | .error _ => completionHandler false
    | .ok (some friendsList) =>
      updateFriendsList
        { friendsList with friends := friendsList.friends ++ [⟨friendUID, sent, .requestSend⟩] }
        fun success =>
          createFriendRequestForFriend myUID friendUID received fun success1 =>
            completionHandler (success && success1)
    | .ok none =>
      updateFriendsList ⟨none, myUID, [⟨friendUID, sent, .requestSend⟩]⟩ fun success =>
        createFriendRequestForFriend myUID friendUID received fun success1 =>
          completionHandler (success && success1)

/-- The second half of an action, on the list of the friend: it never completes
    if the friend has no list. -/
def performActionWithFriend (myUID friendUID : UID) (action : FriendAction)
    (completionHandler : Bool → FriendsProg) : FriendsProg :=
  fetchFriendsList myUID fun
    | .error _ => completionHandler false
    | .ok (some friendsList) =>
      match performAction friendsList.friends friendUID action false with
      | none => .done .trapped
      | some modifiedFriends =>
        updateFriendsList { friendsList with friends := modifiedFriends } completionHandler
    -- There is no branch for a missing list: the completion handler is never called.
    | .ok none => .done .silent

/-- An action of the user signed in, `myUID`, on one of his friends. -/
def performActionForFriend (myUID friendUID : UID) (action : FriendAction) : FriendsProg :=
  fetchFriendsList myUID fun
    | .error _ => .done (.reported false)
    | .ok (some friendsList) =>
      match
        if action = .block then performAction friendsList.friends friendUID action true
        else performAction friendsList.friends friendUID action false
      with
      | none => .done .trapped
      | some modifiedFriends =>
        updateFriendsList { friendsList with friends := modifiedFriends } fun success =>
          performActionWithFriend friendUID myUID action fun success1 =>
            .done (.reported (success && success1))
    | .ok none => .done (.reported false)

end FriendService

/-- An operation of a user on another: a request, or an action. -/
inductive FriendOp
  | sendFriendRequest (myUID friendUID : UID) (sent received : Date)
  | performActionForFriend (myUID friendUID : UID) (action : FriendAction)
  deriving DecidableEq, Repr

namespace FriendOp

/-- The user performing the operation. -/
def myUID : FriendOp → UID
  | sendFriendRequest a _ _ _ => a
  | performActionForFriend a _ _ => a

/-- The user it is performed on. -/
def friendUID : FriendOp → UID
  | sendFriendRequest _ b _ _ => b
  | performActionForFriend _ b _ => b

/-- The program of an operation, ending with what it reports. -/
def prog : FriendOp → FriendsProg
  | sendFriendRequest a b sent received =>
    FriendService.sendFriendRequest a b sent received fun success => .done (.reported success)
  | performActionForFriend a b action => FriendService.performActionForFriend a b action

/-- The operation run alone on the store `s`, given which of its calls succeed. -/
def execWith (g : AutoId DocID) (ok : ℕ → Bool) (op : FriendOp) (s : FriendsStore) :
    Report × FriendsStore :=
  op.prog.exec (Call.answer g ofUser) ok s

/-- The operation run alone, all of its calls succeeding. -/
def exec (g : AutoId DocID) (op : FriendOp) (s : FriendsStore) : Report × FriendsStore :=
  op.execWith g (fun _ => true) s

end FriendOp

/-- The list of a user as the service reads it. -/
def listOf (s : FriendsStore) (uid : UID) : Option FriendsList :=
  ((s.query (ofUser uid)).filterMap FriendsList.decode).head?

end YoYo
