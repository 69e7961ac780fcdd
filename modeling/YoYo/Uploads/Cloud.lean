import YoYo.Accounts.SigningUp
import YoYo.Profiles.Photo
import YoYo.Stories.Views
import YoYo.Uploads.Programs

/-!
# All that uses the object store

Any number of devices on which stories and messages are posted, and played and
read, users sign up, and change their names and pictures. They share the objects
and the collections, and each of their calls may be answered at any time, and
may fail. Nothing keeps two of them from using the same path.

A story or a message that is saved is on its way from then on, while whoever has
saved it goes on. The store writes it some time later, or rejects it, of which
nobody is told.
-/

namespace YoYo.Uploads

open DocStore Storage Accounts Profiles

/-- A post on its way: what has been posted, and what is left to do. -/
structure Posting (D : Type) where
  post : Post D
  prog : UploadProg D SendEnding

/-- A change of the picture of a user, and how far it has got. -/
structure PictureChange (D : Type) where
  uid : UID
  stage : PhotoStage D

/-- A document on its way to its collection. -/
inductive Write
  | story (story : Story)
  | message (message : Message)
  deriving DecidableEq, Repr

/-- What is stored, with the versions of the collections, the messages on their way
    to be marked as seen and the documents on theirs to be stored, and what is being
    done; and of the devices who is signed in, what is on the forms for signing up,
    and what these have started. -/
structure Cloud (D : Type) where
  objects : Objects D
  accounts : List Account
  users : Versions UsersStore
  stories : StoriesHistory
  messages : Messages
  writes : List Write
  postings : List (Posting D)
  changes : List (PictureChange D)
  renames : List UsersProg
  currentUser : ℕ → Option UID
  forms : Screen → Form D
  alerts : Screen → Option String
  attempts : List (Attempt D)

/-- What happens: something is posted, a story played, messages are marked as seen
    and written, and a change of a picture or a name is started; calls are answered,
    by number, and what is on its way to a collection is written there, or rejected;
    and users sign up. -/
inductive CloudEvent (D : Type)
  | post (post : Post D)
  | answered (i : ℕ) (a : (c : UploadCall D) → UploadAnswer c)
  | written (i : ℕ) (accepted : Bool)
  | addViews (uid : UID) (story : Doc DocID Story)
  | changeMessageStatusToSeen (uid : UID) (messages : List Copy)
  | updateMessageToSeen (uid : UID) (message : Copy)
  | changeProfilePhoto (uid : UID) (imageData : D) (imageURL : String)
  | replied (i : ℕ) (reply : PhotoReply)
  | changeName (uid : UID) (name : String)
  | renamed (i : ℕ) (success : Bool)
  | signingUp (e : SigningUpEvent D)

namespace Cloud

variable {D : Type}

/-- Nothing stored, nothing being done, nobody signed in, and no form filled in. -/
def init : Cloud D where
  objects _ := none
  accounts := []
  users := Versions.init .empty
  stories := .init
  messages := .init
  writes := []
  postings := []
  changes := []
  renames := []
  currentUser _ := none
  forms _ := ⟨"", "", "", "", 0, none⟩
  alerts _ := none
  attempts := []

section

variable (isURL : String → Bool) (same : String → String → Bool)
  (reference : String → List Char) (uids : AutoId UID) (ids : AutoId DocID)

/-- What the next call of a post does, given its answer: one that is answered by
    an error does nothing. -/
def performed (st : Cloud D) (a : (c : UploadCall D) → UploadAnswer c) :
    UploadCall D → Cloud D
  | .putData put =>
    if a (.putData put) = none then
      { st with objects := Function.update st.objects put.path (some put.data) }
    else st
  | .downloadURL _ | .copyCGImage _ => st
  | .saveStory story =>
    if a (.saveStory story) = none then { st with writes := st.writes ++ [.story story] } else st
  | .saveMessage message =>
    if a (.saveMessage message) = none then
      { st with writes := st.writes ++ [.message message] }
    else st

/-- The next call of a post is answered. -/
def answered (st : Cloud D) (i : ℕ) (a : (c : UploadCall D) → UploadAnswer c) : Cloud D :=
  match st.postings[i]? with
  | some ⟨post, .call c k⟩ =>
    let st' := st.performed a c
    { st' with postings := st.postings.set i ⟨post, k (a c)⟩ }
  | some ⟨_, .done _⟩ | none => st

/-- A document is stored. -/
def store (st : Cloud D) : Write → Cloud D
  | .story story =>
    { st with
      stories := st.stories.push (YoYo.DatabaseService.saveStory ids story st.stories.now) }
  | .message message =>
    { st with messages := st.messages.next ids (.sendMessageUsing message) }

/-- A document has got to its collection: it is stored if the store accepts it. -/
def written (st : Cloud D) (i : ℕ) (accepted : Bool) : Cloud D :=
  match st.writes[i]? with
  | some write =>
    let st' := if accepted then st.store ids write else st
    { st' with writes := st.writes.eraseIdx i }
  | none => st

/-- A step of the change of a picture is replied to. -/
def replied (st : Cloud D) (i : ℕ) (reply : PhotoReply) : Cloud D :=
  match st.changes[i]? with
  | some ⟨uid, stage⟩ =>
    let (stage, pictures) :=
      SettingsService.replied reference ids uid ⟨st.objects, st.users.now⟩ stage reply
    { st with
      objects := pictures.objects
      users := st.users.push pictures.users
      changes := st.changes.set i ⟨uid, stage⟩ }
  | none => st

/-- The next call of the change of a name is answered. -/
def renamed (st : Cloud D) (i : ℕ) (success : Bool) : Cloud D :=
  match st.renames[i]? with
  | some (.call c k) =>
    let (a, users) := Call.answer ids profileOfUser success st.users.now c
    { st with users := st.users.push users, renames := st.renames.set i (k a) }
  | some (.done _) | none => st

/-- Those signing up, with what is stored now. -/
def signUps (st : Cloud D) : SigningUp D :=
  ⟨st.accounts, st.users.now, st.objects, st.currentUser, st.forms, st.alerts, st.attempts⟩

/-- Something happens where users sign up. -/
def signingUp (st : Cloud D) (e : SigningUpEvent D) : Cloud D :=
  let signUps := st.signUps.next same uids ids e
  { st with
    objects := signUps.objects
    accounts := signUps.accounts
    users := st.users.push signUps.users
    currentUser := signUps.currentUser
    forms := signUps.forms
    alerts := signUps.alerts
    attempts := signUps.attempts }

/-- The state after an event. -/
def next (st : Cloud D) : CloudEvent D → Cloud D
  | .post post => { st with postings := st.postings ++ [⟨post, post.prog isURL⟩] }
  | .answered i a => st.answered i a
  | .written i accepted => st.written ids i accepted
  | .addViews uid story =>
    { st with stories := st.stories.next ids (.addViews uid story) }
  | .changeMessageStatusToSeen uid messages =>
    { st with messages := st.messages.next ids (.changeMessageStatusToSeen uid messages) }
  | .updateMessageToSeen uid message =>
    { st with messages := st.messages.next ids (.updateMessageToSeen uid message) }
  | .changeProfilePhoto uid imageData imageURL =>
    { st with changes := st.changes ++ [⟨uid, .removingImage imageData imageURL⟩] }
  | .replied i reply => st.replied reference ids i reply
  | .changeName uid name =>
    { st with renames := st.renames ++ [DatabaseService.changeName uid name] }
  | .renamed i success => st.renamed ids i success
  | .signingUp e => st.signingUp same uids ids e

end

/-! ## What is allowed -/

/-- The URL of an object, if there is one, refers to its path. -/
def RefersTo (reference : String → List Char) (path : List Char) :
    Except String (Option String) → Prop
  | .ok (some url) => reference url = path
  | .ok none | .error _ => True

instance (reference : String → List Char) (path : List Char) :
    ∀ url, Decidable (RefersTo reference path url)
  | .ok (some _) => inferInstanceAs (Decidable (_ = _))
  | .ok none | .error _ => .isTrue trivial

/-- So does the one a call is answered by. -/
def AnswersURL (reference : String → List Char) (a : (c : UploadCall D) → UploadAnswer c) :
    Option (Posting D) → Prop
  | some ⟨_, .call (.downloadURL path) _⟩ => RefersTo reference path (a (.downloadURL path))
  | _ => True

instance (reference : String → List Char) (a : (c : UploadCall D) → UploadAnswer c) :
    ∀ posting, Decidable (AnswersURL reference a posting)
  | some ⟨_, .call (.downloadURL path) _⟩ =>
    inferInstanceAs (Decidable (RefersTo reference path (a (.downloadURL path))))
  | some ⟨_, .call (.putData _) _⟩ | some ⟨_, .call (.copyCGImage _) _⟩
  | some ⟨_, .call (.saveStory _) _⟩ | some ⟨_, .call (.saveMessage _) _⟩
  | some ⟨_, .done _⟩ | none => .isTrue trivial

/-- The user whose picture has been put, and whose URL is to be got. -/
def gettingURL : Accounts.Stage D → Option UID
  | .gettingURL uid => some uid
  | _ => none

/-- The path of the picture of a user. -/
def picturePath (uid : UID) : List Char :=
  (Storage.StorageService.uploadImageToStorage () "profile_pic" uid).path

/-- So does the one of a new picture. -/
def RepliesURL (reference : String → List Char) :
    Option (PictureChange D) → PhotoReply → Prop
  | some ⟨uid, .gettingURL⟩, .downloadURL url =>
    RefersTo reference (picturePath uid) (url.map some)
  | _, _ => True

instance (reference : String → List Char) :
    ∀ (change : Option (PictureChange D)) reply, Decidable (RepliesURL reference change reply)
  | some ⟨uid, .gettingURL⟩, .downloadURL url =>
    inferInstanceAs (Decidable (RefersTo reference (picturePath uid) (url.map some)))
  | some ⟨_, .removingImage _ _⟩, .downloadURL _ | some ⟨_, .puttingData _⟩, .downloadURL _
  | some ⟨_, .updatingProfile _⟩, .downloadURL _ | some ⟨_, .uploadImageStatus _ _⟩, .downloadURL _
  | some ⟨_, .trapped⟩, .downloadURL _ | none, _ | some _, .removed _ | some _, .put _
  | some _, .answered _ => .isTrue (by simp [RepliesURL])

/-- And the one of the picture of a new user. -/
def SignsUpWithURL (reference : String → List Char) (stage : Option (Accounts.Stage D)) :
    SignUpReply → Prop
  | .downloadURLCompleted url _ => ∀ uid ∈ stage.bind gettingURL,
      RefersTo reference (picturePath uid) (url.map some)
  | _ => True

instance (reference : String → List Char) (stage : Option (Accounts.Stage D)) :
    ∀ reply, Decidable (SignsUpWithURL reference stage reply)
  | .downloadURLCompleted _ _ => inferInstanceAs (Decidable (∀ uid ∈ (_ : Option UID), _))
  | .createUserCompleted _ | .sendEmailVerificationCompleted _ | .putDataCompleted _ =>
    .isTrue trivial

/-- What may happen where users sign up. -/
def AllowedSignUp (reference : String → List Char) (st : Cloud D) : SigningUpEvent D → Prop
  | .completed i reply => SignsUpWithURL reference (st.attempts[i]?.map Attempt.stage) reply
  | .currentUserChanged _ _ | .edit _ _ | .createButtonTapped _ => True

instance (reference : String → List Char) (st : Cloud D) :
    ∀ e, Decidable (st.AllowedSignUp reference e)
  | .completed _ _ => inferInstanceAs (Decidable (SignsUpWithURL _ _ _))
  | .currentUserChanged _ _ | .edit _ _ | .createButtonTapped _ => .isTrue trivial

/-- URLs refer to the paths they were asked for. Whoever plays a story, marks a
    message as seen or replaces a picture has read it, at any time before. -/
def Allowed (reference : String → List Char) (st : Cloud D) : CloudEvent D → Prop
  | .answered i a => AnswersURL reference a st.postings[i]?
  | .addViews _ story => ∃ s ∈ st.stories.seen, storyOf s story.id = some story.data
  | .changeMessageStatusToSeen _ messages => ∀ message ∈ messages, st.messages.Copied message
  | .updateMessageToSeen uid message => (uid, message) ∈ st.messages.writes
  | .changeProfilePhoto uid _ imageURL =>
    ∃ s ∈ st.users.seen, ∃ p ∈ DatabaseService.fetchUserModel uid s,
      p.data.profilePictureURL = imageURL
  | .replied i reply => RepliesURL reference st.changes[i]? reply
  | .signingUp e => st.AllowedSignUp reference e
  | .post _ | .written _ _ | .changeName _ _ | .renamed _ _ => True

instance (reference : String → List Char) (st : Cloud D) :
    ∀ e, Decidable (st.Allowed reference e)
  | .answered i a => inferInstanceAs (Decidable (AnswersURL reference a st.postings[i]?))
  | .addViews _ story => inferInstanceAs (Decidable (∃ s ∈ st.stories.seen, _ = some story.data))
  | .changeMessageStatusToSeen _ messages =>
    inferInstanceAs (Decidable (∀ message ∈ messages, st.messages.Copied message))
  | .updateMessageToSeen uid message =>
    inferInstanceAs (Decidable ((uid, message) ∈ st.messages.writes))
  | .changeProfilePhoto _ _ _ => inferInstanceAs (Decidable (∃ s ∈ st.users.seen, ∃ p ∈ _, _))
  | .replied i reply => inferInstanceAs (Decidable (RepliesURL reference st.changes[i]? reply))
  | .signingUp e => inferInstanceAs (Decidable (st.AllowedSignUp reference e))
  | .post _ | .written _ _ | .changeName _ _ | .renamed _ _ => .isTrue trivial

end Cloud

end YoYo.Uploads
