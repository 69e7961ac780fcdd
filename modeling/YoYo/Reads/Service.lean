import Mathlib.Data.List.Sort
import YoYo.DocStore.Prog
import YoYo.Messages.Service
import YoYo.Stories.Service
import YoYo.Friends.Screen

/-!
# Requests reading several collections

What the services read: the friends of a user with their profiles, their
stories, the users he may write to, and those he has written to or heard from.
Each request is a chain of queries, in callbacks: the list of friends, or the
messages, are read first, and then the profiles, or the stories, of the users
found there.

A request ends by delivering a reply to its delegate, unless it ends silently,
or traps in unwrapping a profile that is missing. Every query is answered once,
by an error or by a snapshot. (That is for queries the store accepts. One that
it does not throws, which terminates the app as a trap does: see
`YoYo.Reads.Limits` for the programs that check it.)
-/

namespace YoYo.Reads

open DocStore

/-- The collections. -/
structure Collections where
  friends : FriendsStore
  users : Collection DocID UserDoc
  stories : StoriesStore
  messages : MessagesStore

/-- A profile as it was read: the value under its id. -/
abbrev Profile := Doc DocID UserModel

/-- An error: that of a query, or of a document that does not decode. -/
inductive Error
  | ofQuery (description : String)
  | decoding
  deriving DecidableEq, Repr

/-! ## Calls -/

/-- The calls of the requests: queries, and the registration of a listener. -/
inductive ReadCall
  | friendsOf (uid : UID)
  | usersIn (uids : List UID)
  | storiesIn (uids : List UID)
  | messagesFrom (uid : UID)
  | messagesTo (uid : UID)
  | listenToStoriesIn (uids : List UID)
  deriving DecidableEq, Repr

/-- The answers: an error or a snapshot. A registration has none to wait for. -/
abbrev ReadAnswer : ReadCall → Type
  | .friendsOf _ => Except Error (List (Doc DocID FriendsDoc))
  | .usersIn _ => Except Error (List (Doc DocID UserDoc))
  | .storiesIn _ => Except Error (List (Doc DocID StoryDoc))
  | .messagesFrom _ | .messagesTo _ => Except Error (List (Doc DocID MessageDoc))
  | .listenToStoriesIn _ => Unit

/-- The profile is one of a user among these: the query for profiles. -/
def profileIn (uids : List UID) (d : UserDoc) : Bool := uids.any fun uid => d.userID.is uid

/-- The story is by a user among these: the query for stories. -/
def storyIn (uids : List UID) (d : StoryDoc) : Bool := uids.any fun uid => d.uid.is uid

/-- The message was sent to the user `uid`. -/
def sentTo (uid : UID) (d : MessageDoc) : Bool := d.receiverID.is uid

/-- The answer to a query: an error of the description `failure` if there is
    one, and the snapshot of the documents otherwise. -/
def snapshotOf {α : Type} (failure : Option String) (documents : List (Doc DocID α)) :
    Except Error (List (Doc DocID α)) :=
  match failure with
  | some description => .error (.ofQuery description)
  | none => .ok documents

/-- How the collections answer a call that is accepted. -/
def answer (failure : Option String) (s : Collections) : (c : ReadCall) → ReadAnswer c × Collections
  | .friendsOf uid => (snapshotOf failure (s.friends.query (ofUser uid)), s)
  | .usersIn uids => (snapshotOf failure (s.users.query (profileIn uids)), s)
  | .storiesIn uids => (snapshotOf failure (s.stories.query (storyIn uids)), s)
  | .messagesFrom uid => (snapshotOf failure (s.messages.query (sentBy uid)), s)
  | .messagesTo uid => (snapshotOf failure (s.messages.query (sentTo uid)), s)
  | .listenToStoriesIn _ => ((), s)

/-! ## Replies -/

/-- An entry of a friends list, with the profile of the friend. -/
structure MyFriend where
  friend : Friend
  userModel : Profile
  deriving DecidableEq, Repr

/-- The stories of a user, with his profile. -/
structure FriendStory where
  userModel : Profile
  stories : Option (List (Doc DocID Story))
  deriving DecidableEq, Repr

/-- A row of the list of conversations. -/
structure ChatModel where
  userModel : Profile
  unSeenMessages : ℕ
  lastMessageDate : Date
  deriving DecidableEq, Repr

/-- What an error is reported as: its own description, or a text. -/
inductive ErrorText
  | localizedDescription (error : Error)
  | text (msg : String)
  deriving DecidableEq, Repr

/-- What a request delivers to its delegate. -/
inductive Reply
  | fetchSuccess (myFriends : List MyFriend)
  | fetchError (msg : ErrorText)
  | fetchFriendsStory (stories : List FriendStory) (error : Option Error)
  | getMyFriendsCompleted (friends : Option (List Profile)) (error : Option Error)
  | fetchChatModels (chatModels : List ChatModel) (error : Option Error)
  | registerForStories
  | fetchUserModels (userModels : Option (List Profile)) (error : Option Error)
  deriving DecidableEq, Repr

/-- How a request ends: with a reply, without any, or with the end of the app. -/
inductive Ending
  | delivered (reply : Reply)
  | silent
  | trapped
  deriving DecidableEq, Repr

/-- The programs of the requests. -/
abbrev ReadProg := Prog ReadCall ReadAnswer Ending

/-! ## Queries -/

namespace DatabaseService

/-- The list of a user: the first of the documents of the user that decodes, if any does. -/
def fetchFriendsList (uid : UID)
    (completionHandler : Option FriendsList → Option Error → ReadProg) : ReadProg :=
  .call (.friendsOf uid) fun
    | .error error => completionHandler none (some error)
    | .ok snapshot =>
      if ¬ snapshot.isEmpty then
        let friendsLists := snapshot.filterMap FriendsList.decode
        if friendsLists.length > 0 then completionHandler friendsLists.head? none
        else completionHandler none none
      else completionHandler none none

/-- The profiles of users. Without users, the completion handler is never called. -/
def fetchUserModels (withUIDs : List UID)
    (completionHandler : Option (List Profile) → Option Error → ReadProg) : ReadProg :=
  if withUIDs.length > 0 then
    .call (.usersIn withUIDs) fun
      | .error error => completionHandler none (some error)
      | .ok snapshot => completionHandler (some (decodeAll UserModel.decode snapshot)) none
  else .done .silent

/-- The stories of users that have not expired at the time `today`. -/
def getStoriesWithUID (uid : List UID) (today : Date)
    (completionHandler : Option (List (Doc DocID Story)) → Option Error → ReadProg) : ReadProg :=
  .call (.storiesIn uid) fun
    | .error error => completionHandler (some []) (some error)
    | .ok snapshot =>
      let stories := decodeAll Story.decode snapshot
      completionHandler (some (stories.filter fun story => today ≤ story.data.expiryDate)) none

/-- The messages of a snapshot, if all of them decode. -/
def decodeMessages (snapshot : List (Doc DocID MessageDoc)) : Option (List Copy) :=
  snapshot.mapM fun d => (Message.decode d.data).map (Doc.mk d.id)

/-- The messages a user has sent, and those he has received. -/
def fetchMessagesForChatView (myUID : UID)
    (delegate : List Copy → Option Error → ReadProg) : ReadProg :=
  .call (.messagesFrom myUID) fun
    | .error error => delegate [] (some error)
    | .ok snapshot =>
      match decodeMessages snapshot with
      | none => delegate [] (some .decoding)
      | some sendMessages =>
        .call (.messagesTo myUID) fun
          | .error error => delegate [] (some error)
          | .ok snapshot =>
            match decodeMessages snapshot with
            | none => delegate [] (some .decoding)
            | some receiveMessages => delegate (sendMessages ++ receiveMessages) none

end DatabaseService

open Reads.DatabaseService

/-! ## Requests -/

/-- The first of the profiles of a user. -/
def profileOf (userModels : List Profile) (uid : UID) : Option Profile :=
  (userModels.filter fun userModel => userModel.data.userID = uid).head?

namespace FriendService

/-- The text of a list that cannot be shown. -/
def unableToFetch : ErrorText := .text "unable to fetch friends list. try again later"

/-- The friends of a user that the friends screen shows, the latest first. -/
def fetchFriendsList (uid : UID) : ReadProg :=
  DatabaseService.fetchFriendsList uid fun friendsList error =>
    match error, friendsList with
    | some error, _ => .done (.delivered (.fetchError (.localizedDescription error)))
    | none, some friendsList =>
      let friends := shownFriends friendsList.friends
      let uids := friends.map Friend.uid
      if uids.length > 0 then
        fetchUserModels uids fun userModels error =>
          match error, userModels with
          | some error, _ => .done (.delivered (.fetchError (.localizedDescription error)))
          | none, some userModels =>
            match friends.mapM fun friend =>
                (profileOf userModels friend.uid).map (⟨friend, ·⟩) with
            | none => .done .trapped
            | some myFriends =>
              .done (.delivered (.fetchSuccess
                (myFriends.insertionSort fun a b => b.friend.date ≤ a.friend.date)))
          | none, none => .done (.delivered (.fetchError unableToFetch))
      else .done (.delivered (.fetchError unableToFetch))
    | none, none => .done (.delivered (.fetchError unableToFetch))

end FriendService

namespace StoryService

/-- The users whose stories are fetched. -/
def acceptedUIDs (friendsList : FriendsList) : List UID :=
  (friendsList.friends.filter fun friend => friend.status = .accpeted).map Friend.uid

/-- The stories of each of the users, with his profile: of those who have any. -/
def friendsStory (userModels : List Profile) (stories : List (Doc DocID Story)) (uids : List UID) :
    Option (List FriendStory) :=
  (uids.mapM fun uid => (profileOf userModels uid).map fun userModel =>
    (⟨userModel, some (stories.filter fun story => story.data.uid = uid)⟩ : FriendStory)).map
      fun friendsStory => friendsStory.filter fun friendStory =>
        (friendStory.stories.map List.length).getD 0 > 0

/-- The stories of the friends of a user. There is no branch for a missing list. -/
def fetchMyFriendsStories (uid : UID) (today : Date) : ReadProg :=
  DatabaseService.fetchFriendsList uid fun friendsList error =>
    match error, friendsList with
    | some error, _ => .done (.delivered (.fetchFriendsStory [] (some error)))
    | none, some friendsList =>
      let uids := acceptedUIDs friendsList
      fetchUserModels uids fun userModels error =>
        match error, userModels with
        | some error, _ => .done (.delivered (.fetchFriendsStory [] (some error)))
        | none, some userModels =>
          getStoriesWithUID uids today fun stories error =>
            match error, stories with
            | some error, _ => .done (.delivered (.fetchFriendsStory [] (some error)))
            | none, some stories =>
              match friendsStory userModels stories uids with
              | none => .done .trapped
              | some friendsStory => .done (.delivered (.fetchFriendsStory friendsStory none))
            | none, none => .done .silent
        | none, none => .done .silent
    | none, none => .done .silent

/-- Listening to the stories of all users in the list of a user, and to his own. -/
def registerForStories (uid : UID) : ReadProg :=
  DatabaseService.fetchFriendsList uid fun friendsList _ =>
    match friendsList with
    | some friendsList =>
      .call (.listenToStoriesIn (friendsList.friends.map Friend.uid ++ [uid])) fun _ =>
        .done (.delivered .registerForStories)
    | none => .done .silent

end StoryService

namespace MessagingService

/-- The users one may write to. There is no branch for a missing list. -/
def getMyFriends (uid : UID) : ReadProg :=
  DatabaseService.fetchFriendsList uid fun friendsList error =>
    match error, friendsList with
    | some error, _ => .done (.delivered (.getMyFriendsCompleted none (some error)))
    | none, some friendsList =>
      fetchUserModels (friendsList.friends.map Friend.uid) fun userModel error =>
        .done (.delivered (.getMyFriendsCompleted userModel error))
    | none, none => .done .silent

/-- The other user of a message. -/
def otherUser (myUID : UID) (message : Copy) : UID :=
  if myUID ≠ message.data.senderID then message.data.senderID else message.data.receiverID

/-- The row of a conversation: there is a message of it, or unwrapping the
    latest date traps. -/
def chatModel (messages : List Copy) (userModel : Profile) : Option ChatModel :=
  let unSeenMessageCount := (messages.filter fun message =>
    message.data.senderID = userModel.data.userID ∧ message.data.messageStatus = .send).length
  let lastDate := ((messages.filter fun message =>
    message.data.senderID = userModel.data.userID ∨
      message.data.receiverID = userModel.data.userID).map fun message => message.data.date).max?
  lastDate.map fun lastDate => ⟨userModel, unSeenMessageCount, lastDate⟩

/-- What the messages of a user are made into: a row for each of the users he
    has written to or heard from, in no particular order of these, sorted by the
    latest message. -/
def fetchMessagesForChatView (myUID : UID) (messages : List Copy) (error : Option Error) :
    ReadProg :=
  match error with
  | none =>
    let userIDs := (messages.map (otherUser myUID)).dedup
    fetchUserModels userIDs fun userModels error =>
      match error, userModels with
      | some error, _ => .done (.delivered (.fetchChatModels [] (some error)))
      | none, some userModels =>
        match userModels.mapM (chatModel messages) with
        | none => .done .trapped
        | some chatModels =>
          .done (.delivered (.fetchChatModels
            (chatModels.insertionSort fun a b => b.lastMessageDate ≤ a.lastMessageDate) none))
      | none, none => .done .silent
  | some error => .done (.delivered (.fetchChatModels [] (some error)))

/-- The list of conversations. -/
def fetchChatModels (uid : UID) : ReadProg :=
  DatabaseService.fetchMessagesForChatView uid (fetchMessagesForChatView uid)

end MessagingService

namespace StoryViewByViewController

/-- The profiles of those who have viewed a story. -/
def fetchUserModels (viewedByUIDS : Option (List UID)) : ReadProg :=
  match viewedByUIDS with
  | some viewedByUIDS =>
    DatabaseService.fetchUserModels viewedByUIDS fun userModels error =>
      .done (.delivered (.fetchUserModels userModels error))
  | none => .done .silent

end StoryViewByViewController

/-- The requests, each by the user signed in, at the time it gets to the stories. -/
inductive Request
  | fetchFriendsList (uid : UID)
  | fetchMyFriendsStories (uid : UID) (today : Date)
  | registerForStories (uid : UID)
  | getMyFriends (uid : UID)
  | fetchChatModels (uid : UID)
  | fetchUserModels (viewedByUIDS : Option (List UID))
  deriving DecidableEq, Repr

namespace Request

/-- The program of a request. -/
def prog : Request → ReadProg
  | fetchFriendsList uid => FriendService.fetchFriendsList uid
  | fetchMyFriendsStories uid today => StoryService.fetchMyFriendsStories uid today
  | registerForStories uid => StoryService.registerForStories uid
  | getMyFriends uid => MessagingService.getMyFriends uid
  | fetchChatModels uid => MessagingService.fetchChatModels uid
  | fetchUserModels viewedByUIDS => StoryViewByViewController.fetchUserModels viewedByUIDS

/-- How a request ends, given the errors its queries return, each being accepted. -/
def ending (r : Request) (env : ℕ → Option String) (s : Collections) : Ending :=
  (r.prog.exec answer env s).1

/-- The calls it makes. -/
def calls (r : Request) (env : ℕ → Option String) (s : Collections) : List ReadCall :=
  r.prog.calls answer env s

end Request

/-! ## Running -/

/-- The profiles stored of users among these. -/
def profilesIn (s : Collections) (uids : List UID) : List Profile :=
  decodeAll UserModel.decode (s.users.query (profileIn uids))

/-- The stories stored of users among these that have not expired. -/
def storiesIn (s : Collections) (uids : List UID) (today : Date) : List (Doc DocID Story) :=
  (decodeAll Story.decode (s.stories.query (storyIn uids))).filter fun story =>
    today ≤ story.data.expiryDate

section

variable {α β : Type} {env : ℕ → Option String} {s : Collections} {uid : UID} {uids : List UID}
  {today : Date} {l : FriendsList}

/-- Reading a list: its program goes on with the list read, if the query succeeds. -/
theorem fetchFriendsList_eq (uid : UID) (k : Option FriendsList → Option Error → ReadProg) :
    DatabaseService.fetchFriendsList uid k = .call (.friendsOf uid) fun
      | .error error => k none (some error)
      | .ok snapshot => k (snapshot.filterMap FriendsList.decode).head? none := by
  rw [DatabaseService.fetchFriendsList]
  congr 1
  funext snapshot
  cases snapshot with
  | error error => rfl
  | ok snapshot =>
    cases snapshot with
    | nil => rfl
    | cons d snapshot =>
      simp only [List.isEmpty_cons, Bool.false_eq_true, not_false_eq_true, if_true]
      split
      · rfl
      · rename_i hlen
        rw [List.eq_nil_of_length_eq_zero (Nat.eq_zero_of_not_pos hlen), List.head?_nil]

/-- Where the list of a user cannot be read. -/
theorem exec_fetchFriendsList_of_error {description : String} (h : env 0 = some description)
    (k : Option FriendsList → Option Error → ReadProg) :
    (DatabaseService.fetchFriendsList uid k).exec answer env s =
      (k none (some (.ofQuery description))).exec answer (fun n => env (n + 1)) s := by
  rw [fetchFriendsList_eq, Prog.exec_call, h]
  rfl

/-- Where it can. -/
theorem exec_fetchFriendsList (h : env 0 = none)
    (k : Option FriendsList → Option Error → ReadProg) :
    (DatabaseService.fetchFriendsList uid k).exec answer env s =
      (k (listOf s.friends uid) none).exec answer (fun n => env (n + 1)) s := by
  rw [fetchFriendsList_eq, Prog.exec_call, h]
  rfl

/-- Without users, nothing is fetched, and nothing happens. -/
@[simp] theorem fetchUserModels_nil (k : Option (List Profile) → Option Error → ReadProg) :
    fetchUserModels [] k = .done .silent := rfl

/-- Where the profiles of users cannot be read. -/
theorem exec_fetchUserModels_of_error (huids : uids ≠ []) {description : String}
    (h : env 0 = some description) (k : Option (List Profile) → Option Error → ReadProg) :
    (fetchUserModels uids k).exec answer env s =
      (k none (some (.ofQuery description))).exec answer (fun n => env (n + 1)) s := by
  rw [fetchUserModels, if_pos (List.length_pos_iff.2 huids), Prog.exec_call, h]
  rfl

/-- Where they can. -/
theorem exec_fetchUserModels (huids : uids ≠ []) (h : env 0 = none)
    (k : Option (List Profile) → Option Error → ReadProg) :
    (fetchUserModels uids k).exec answer env s =
      (k (some (profilesIn s uids)) none).exec answer (fun n => env (n + 1)) s := by
  rw [fetchUserModels, if_pos (List.length_pos_iff.2 huids), Prog.exec_call, h]
  rfl

/-- Where the stories of users cannot be read. -/
theorem exec_getStoriesWithUID_of_error {description : String} (h : env 0 = some description)
    (k : Option (List (Doc DocID Story)) → Option Error → ReadProg) :
    (getStoriesWithUID uids today k).exec answer env s =
      (k (some []) (some (.ofQuery description))).exec answer (fun n => env (n + 1)) s := by
  rw [getStoriesWithUID, Prog.exec_call, h]
  rfl

/-- Where they can. -/
theorem exec_getStoriesWithUID (h : env 0 = none)
    (k : Option (List (Doc DocID Story)) → Option Error → ReadProg) :
    (getStoriesWithUID uids today k).exec answer env s =
      (k (some (storiesIn s uids today)) none).exec answer (fun n => env (n + 1)) s := by
  rw [getStoriesWithUID, Prog.exec_call, h]
  rfl

/-- How the request for the list of friends ends. -/
theorem ending_fetchFriendsList (uid : UID) (env : ℕ → Option String) (s : Collections) :
    (Request.fetchFriendsList uid).ending env s =
      match env 0, listOf s.friends uid with
      | some description, _ =>
        .delivered (.fetchError (.localizedDescription (.ofQuery description)))
      | none, none => .delivered (.fetchError FriendService.unableToFetch)
      | none, some l =>
        let friends := shownFriends l.friends
        if friends = [] then .delivered (.fetchError FriendService.unableToFetch)
        else
          match env 1 with
          | some description =>
            .delivered (.fetchError (.localizedDescription (.ofQuery description)))
          | none =>
            match friends.mapM fun friend =>
              (profileOf (profilesIn s (friends.map Friend.uid)) friend.uid).map
                (⟨friend, ·⟩ : _ → MyFriend) with
            | none => .trapped
            | some myFriends =>
              .delivered (.fetchSuccess
                (myFriends.insertionSort fun a b => b.friend.date ≤ a.friend.date)) := by
  rw [Request.ending, Request.prog, FriendService.fetchFriendsList]
  cases h₀ : env 0 with
  | some description => rw [exec_fetchFriendsList_of_error h₀, Prog.exec_done]
  | none =>
    rw [exec_fetchFriendsList h₀]
    cases listOf s.friends uid with
    | none => rfl
    | some l =>
      by_cases hnil : shownFriends l.friends = []
      · simp [hnil]
      · have huids : (shownFriends l.friends).map Friend.uid ≠ [] := by simpa using hnil
        simp only [List.length_pos_iff.2 huids, if_true, if_neg hnil]
        cases h₁ : env 1 with
        | some description => rw [exec_fetchUserModels_of_error huids h₁, Prog.exec_done]
        | none =>
          rw [exec_fetchUserModels huids h₁]
          simp only
          split <;> rfl

/-- How the request for the stories of one's friends ends. -/
theorem ending_fetchMyFriendsStories (uid : UID) (today : Date) (env : ℕ → Option String)
    (s : Collections) :
    (Request.fetchMyFriendsStories uid today).ending env s =
      match env 0, listOf s.friends uid with
      | some description, _ =>
        .delivered (.fetchFriendsStory [] (some (.ofQuery description)))
      | none, none => .silent
      | none, some l =>
        let uids := StoryService.acceptedUIDs l
        if uids = [] then .silent
        else
          match env 1, env 2 with
          | some description, _ =>
            .delivered (.fetchFriendsStory [] (some (.ofQuery description)))
          | none, some description =>
            .delivered (.fetchFriendsStory [] (some (.ofQuery description)))
          | none, none =>
            match StoryService.friendsStory (profilesIn s uids) (storiesIn s uids today) uids with
            | none => .trapped
            | some friendsStory => .delivered (.fetchFriendsStory friendsStory none) := by
  rw [Request.ending, Request.prog, StoryService.fetchMyFriendsStories]
  cases h₀ : env 0 with
  | some description => rw [exec_fetchFriendsList_of_error h₀, Prog.exec_done]
  | none =>
    rw [exec_fetchFriendsList h₀]
    cases listOf s.friends uid with
    | none => rfl
    | some l =>
      by_cases huids : StoryService.acceptedUIDs l = []
      · simp [huids]
      · simp only [if_neg huids]
        cases h₁ : env 1 with
        | some description => rw [exec_fetchUserModels_of_error huids h₁, Prog.exec_done]
        | none =>
          rw [exec_fetchUserModels huids h₁]
          simp only
          cases h₂ : env 2 with
          | some description => rw [exec_getStoriesWithUID_of_error h₂, Prog.exec_done]
          | none =>
            rw [exec_getStoriesWithUID h₂]
            simp only
            split <;> rfl

/-- How the request for the users one may write to ends. -/
theorem ending_getMyFriends (uid : UID) (env : ℕ → Option String) (s : Collections) :
    (Request.getMyFriends uid).ending env s =
      match env 0, listOf s.friends uid with
      | some description, _ =>
        .delivered (.getMyFriendsCompleted none (some (.ofQuery description)))
      | none, none => .silent
      | none, some l =>
        let uids := l.friends.map Friend.uid
        if uids = [] then .silent
        else
          match env 1 with
          | some description =>
            .delivered (.getMyFriendsCompleted none (some (.ofQuery description)))
          | none => .delivered (.getMyFriendsCompleted (some (profilesIn s uids)) none) := by
  rw [Request.ending, Request.prog, MessagingService.getMyFriends]
  cases h₀ : env 0 with
  | some description => rw [exec_fetchFriendsList_of_error h₀, Prog.exec_done]
  | none =>
    rw [exec_fetchFriendsList h₀]
    cases listOf s.friends uid with
    | none => rfl
    | some l =>
      by_cases huids : l.friends.map Friend.uid = []
      · simp [huids]
      · simp only [if_neg huids]
        cases h₁ : env 1 with
        | some description => rw [exec_fetchUserModels_of_error huids h₁, Prog.exec_done]
        | none => rw [exec_fetchUserModels huids h₁, Prog.exec_done]

/-- How the request for the list of conversations ends. -/
theorem ending_fetchChatModels (uid : UID) (env : ℕ → Option String) (s : Collections) :
    (Request.fetchChatModels uid).ending env s =
      match env 0 with
      | some description => .delivered (.fetchChatModels [] (some (.ofQuery description)))
      | none =>
        match decodeMessages (s.messages.query (sentBy uid)) with
        | none => .delivered (.fetchChatModels [] (some .decoding))
        | some sent =>
          match env 1 with
          | some description => .delivered (.fetchChatModels [] (some (.ofQuery description)))
          | none =>
            match decodeMessages (s.messages.query (sentTo uid)) with
            | none => .delivered (.fetchChatModels [] (some .decoding))
            | some received =>
              let uids := ((sent ++ received).map (MessagingService.otherUser uid)).dedup
              if uids = [] then .silent
              else
                match env 2 with
                | some description =>
                  .delivered (.fetchChatModels [] (some (.ofQuery description)))
                | none =>
                  match (profilesIn s uids).mapM
                    (MessagingService.chatModel (sent ++ received)) with
                  | none => .trapped
                  | some chatModels =>
                    .delivered (.fetchChatModels (chatModels.insertionSort fun a b =>
                      b.lastMessageDate ≤ a.lastMessageDate) none) := by
  rw [Request.ending, Request.prog, MessagingService.fetchChatModels,
    DatabaseService.fetchMessagesForChatView, Prog.exec_call]
  cases h₀ : env 0 with
  | some description => rfl
  | none =>
    simp only [answer, snapshotOf]
    cases decodeMessages (s.messages.query (sentBy uid)) with
    | none => rfl
    | some sent =>
      simp only [Prog.exec_call]
      cases h₁ : env 1 with
      | some description => rfl
      | none =>
        simp only [answer, snapshotOf]
        cases decodeMessages (s.messages.query (sentTo uid)) with
        | none => rfl
        | some received =>
          simp only [MessagingService.fetchMessagesForChatView]
          by_cases huids : ((sent ++ received).map (MessagingService.otherUser uid)).dedup = []
          · simp only [huids, fetchUserModels_nil, Prog.exec_done, if_true]
          · simp only [if_neg huids]
            cases h₂ : env 2 with
            | some description => rw [exec_fetchUserModels_of_error huids h₂, Prog.exec_done]
            | none =>
              rw [exec_fetchUserModels huids h₂]
              simp only
              split <;> rfl

/-! ## What is found -/

/-- A loop unwrapping what it finds ends with what there is, if there is all of it. -/
theorem mapM_eq_some_iff {f : α → Option β} {l : List α} {l' : List β} :
    l.mapM f = some l' ↔ l.map f = l'.map some := by
  induction l generalizing l' with
  | nil => cases l' <;> simp
  | cons a l ih =>
    rw [List.mapM_cons, List.map_cons]
    cases ha : f a with
    | none => cases l' <;> simp
    | some b =>
      cases l' with
      | nil => cases l.mapM f <;> simp
      | cons b' l' =>
        have ih := @ih l'
        cases hl : l.mapM f with
        | none => simp_all
        | some l'' => simp_all

/-- It traps exactly if something is missing. -/
theorem mapM_eq_none_iff {f : α → Option β} {l : List α} :
    l.mapM f = none ↔ ∃ a ∈ l, f a = none := by
  induction l with
  | nil => simp
  | cons a l ih =>
    rw [List.mapM_cons]
    cases ha : f a with
    | none => simp [ha]
    | some b => cases hl : l.mapM f <;> simp_all

/-- The user has a profile that decodes. -/
def HasProfile (s : Collections) (uid : UID) : Prop :=
  ∃ d ∈ s.users.docs, ∃ u, UserModel.decode d.data = some u ∧ u.userID = uid

instance (s : Collections) (uid : UID) : Decidable (HasProfile s uid) :=
  decidable_of_iff (∃ d ∈ s.users.docs, ∃ u ∈ UserModel.decode d.data, u.userID = uid) (by
    simp [HasProfile])

theorem mem_decodeAll {decode : α → Option β} {docs : List (Doc DocID α)} {x : Doc DocID β} :
    x ∈ decodeAll decode docs ↔ ∃ d ∈ docs, d.id = x.id ∧ decode d.data = some x.data := by
  rw [decodeAll, List.mem_filterMap]
  refine exists_congr fun d => and_congr_right fun _ => ?_
  rw [Option.map_eq_some_iff]
  constructor
  · rintro ⟨a, ha, rfl⟩
    exact ⟨rfl, ha⟩
  · rintro ⟨hid, ha⟩
    exact ⟨_, ha, by rw [hid]⟩

/-- A profile that decodes is found if its user is asked for. -/
theorem profileIn_iff {d : UserDoc} {u : UserModel} (hu : UserModel.decode d = some u) :
    profileIn uids d ↔ u.userID ∈ uids := by
  simp only [profileIn, List.any_eq_true, DocField.is_iff, UserModel.userID_of_decode hu,
    DocField.value.injEq, exists_eq_right']

theorem mem_profilesIn {p : Profile} : p ∈ profilesIn s uids ↔
    (∃ d ∈ s.users.docs, d.id = p.id ∧ UserModel.decode d.data = some p.data) ∧
      p.data.userID ∈ uids := by
  rw [profilesIn, mem_decodeAll]
  constructor
  · rintro ⟨d, hd, hid, hp⟩
    obtain ⟨hd, hin⟩ := Collection.mem_query.1 hd
    exact ⟨⟨d, hd, hid, hp⟩, (profileIn_iff hp).1 hin⟩
  · rintro ⟨⟨d, hd, hid, hp⟩, huid⟩
    exact ⟨d, Collection.mem_query.2 ⟨hd, (profileIn_iff hp).2 huid⟩, hid, hp⟩

/-- Of a user asked for, no profile is found exactly if he has none. -/
theorem profileOf_eq_none_iff (huid : uid ∈ uids) :
    profileOf (profilesIn s uids) uid = none ↔ ¬ HasProfile s uid := by
  rw [profileOf, List.head?_eq_none_iff, List.filter_eq_nil_iff]
  constructor
  · rintro h ⟨d, hd, u, hu, rfl⟩
    exact h ⟨d.id, u⟩ (mem_profilesIn.2 ⟨⟨d, hd, rfl, hu⟩, huid⟩) (by simp)
  · intro h p hp hpuid
    obtain ⟨⟨d, hd, -, hp⟩, -⟩ := mem_profilesIn.1 hp
    exact h ⟨d, hd, p.data, hp, by simpa using hpuid⟩

/-- In the rows of a list of users, each found in it, no profile is missing
    exactly if every user has one. -/
theorem mapM_profileOf_eq_none_iff {l : List α} {f : α → UID} (hf : ∀ a ∈ l, f a ∈ uids)
    {k : α → Profile → β} :
    (l.mapM fun a => (profileOf (profilesIn s uids) (f a)).map (k a)) = none ↔
      ∃ a ∈ l, ¬ HasProfile s (f a) := by
  rw [mapM_eq_none_iff]
  refine exists_congr fun a => and_congr_right fun ha => ?_
  rw [Option.map_eq_none_iff, profileOf_eq_none_iff (hf a ha)]

/-- The entries of users' stories: no profile is missing exactly if every user has one. -/
theorem friendsStory_eq_none_iff {stories : List (Doc DocID Story)} :
    StoryService.friendsStory (profilesIn s uids) stories uids = none ↔
      ∃ uid ∈ uids, ¬ HasProfile s uid := by
  rw [StoryService.friendsStory, Option.map_eq_none_iff]
  exact mapM_profileOf_eq_none_iff fun _ => id

/-- A profile found is one of the user. -/
theorem of_profileOf {userModels : List Profile} {p : Profile}
    (h : profileOf userModels uid = some p) : p ∈ userModels ∧ p.data.userID = uid := by
  have hmem := List.mem_of_mem_head? h
  rw [List.mem_filter] at hmem
  exact ⟨hmem.1, by simpa using hmem.2⟩

end

end YoYo.Reads
