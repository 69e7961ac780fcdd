import YoYo.DocStore.Layers
import YoYo.Messages.Media
import YoYo.Stories.Service

/-!
# Posting stories and messages

What a user posts is put into the object store, its URL is got there, and then a
document referring to it is saved: a story from its own screen, a picture or a
video from the screen of a conversation, and a text without any object. Each
layer is a program with the calls of the one below: the screens call the
services, and these the storage service and the database service.
-/

namespace YoYo.Uploads

open DocStore Storage

/-- The calls at the bottom: on the object store, for a picture of a video, and
    on the collections. -/
inductive UploadCall (D : Type)
  | putData (upload : PutData D)
  | downloadURL (path : List Char)
  | copyCGImage (url : String)
  | saveStory (story : Story)
  | saveMessage (message : Message)
  deriving DecidableEq, Repr

/-- Their answers: an error, if there is one, and a URL or data, if there is any. Of
    a document that is saved it is the one of encoding it: the store is not waited for. -/
abbrev UploadAnswer {D : Type} : UploadCall D → Type
  | .putData _ => Option String
  | .downloadURL _ => Except String (Option String)
  | .copyCGImage _ => Except String (Option D)
  | .saveStory _ | .saveMessage _ => Option String

/-- The programs making them. -/
abbrev UploadProg (D ρ : Type) := Prog (UploadCall D) UploadAnswer ρ

variable {D : Type}

/-! ## Services -/

namespace StorageService

/-- Data is put under its path, and the URL of the object is got. -/
def upload (put : PutData D) : UploadProg D (Except String (Option String)) :=
  .call (.putData put) fun
    | some error => .done (.error error)
    | none => .call (.downloadURL put.path) fun url => .done url

/-- The upload of a story. -/
def uploadStory (data : D) (mediaType : MediaType) (fileName : String) (userID : UID) :
    UploadProg D (Except String (Option String)) :=
  upload (Storage.StorageService.uploadStory data mediaType fileName userID)

/-- The upload of the media of a message. -/
def uploadMedia (data : D) (mediaType : MediaType) (fileName : String) (userID : UID) :
    UploadProg D (Except String (Option String)) :=
  upload (Storage.StorageService.uploadMedia data mediaType fileName userID)

end StorageService

namespace DatabaseService

/-- Saving a story: whether it is on its way, which is told as a success, and a text
    about it. -/
def saveStory (story : Story) : UploadProg D (Bool × Option String) :=
  .call (.saveStory story) fun
    | none => .done (true, some "Successfully uploaded.")
    | some error => .done (false, some error)

/-- Saving a message. -/
def saveMessage (message : Message) : UploadProg D (Bool × Option String) :=
  .call (.saveMessage message) fun
    | none => .done (true, some "message saved successfully")
    | some error => .done (false, some error)

end DatabaseService

/-- Uploading a story of the user `uid`, to expire a day after its URL is there. -/
def StoryService.uploadStory (uid : UID) (expiryDate : Date) (uploadAsset : UploadAsset D)
    (title : String) : UploadProg D (Bool × String) :=
  (StorageService.uploadStory uploadAsset.data uploadAsset.mediaType title uid).bind fun
    | .error error => .done (false, error)
    | .ok (some url) =>
      (DatabaseService.saveStory ⟨uid, title, expiryDate, url, [], uploadAsset.mediaType⟩).map
        fun (success, msg) => (success, msg.getD "try again later")
    -- Neither a URL nor an error.
    | .ok none => .done (false, "try again later")

namespace MessagingService

/-- A message that is sent, as it is. -/
def sendMessageUsing (message : Message) : UploadProg D (Bool × Option String) :=
  DatabaseService.saveMessage message

/-- How the calls of the screen sending media are made. -/
def perform : (c : SendCall D) → UploadProg D (SendAnswer c)
  | .uploadMedia data mediaType fileName userID =>
    StorageService.uploadMedia data mediaType fileName userID
  | .copyCGImage url => .call (.copyCGImage url) .done
  | .saveMessage message => (sendMessageUsing message).map Prod.fst

end MessagingService

/-! ## Screens -/

/-- A story is uploaded if there is an asset, and a title that is not empty. -/
def UploadImageStoryViewController.uploadTapped (uid : UID) (expiryDate : Date)
    (assetData : Option (UploadAsset D)) (title : Option String) : UploadProg D SendEnding :=
  match assetData, title with
  | some uploadAsset, some title =>
    if title.length > 0 then
      (StoryService.uploadStory uid expiryDate uploadAsset title).map fun (success, msg) =>
        .presentAlert success msg
    else .done .silent
  | _, _ => .done .silent

/-- A picture or a video is sent, with its calls made by the services. -/
def SendMediaMessageViewController.onSendButtonTapped (isURL : String → Bool) (myUID : UID)
    (now : Date) (uploadAsset : Option (UploadAsset D)) (userModel : Option UserModel)
    (title : String) : UploadProg D SendEnding :=
  (YoYo.SendMediaMessageViewController.onSendButtonTapped isURL myUID now uploadAsset userModel
    title).through MessagingService.perform

/-- A text is sent, and an alert shown if it could not be saved. -/
def MessageViewController.sendButtonTapped (myUID : UID) (now : Date)
    (userModel : Option UserModel) (messageTxt : String) : UploadProg D SendEnding :=
  match userModel with
  | some userModel =>
    if messageTxt.length > 0 then
      (DatabaseService.saveMessage (YoYo.MessagingService.sendMessage myUID (some messageTxt)
          userModel.userID .plain none now)).map fun
        -- The new message is shown by the listener.
        | (true, _) => .silent
        | (false, msg) => .presentAlert false (msg.getD "")
    else .done .silent
  | none => .done .silent

/-- What a user posts: a tap on one of the three buttons, with what its screen holds. -/
inductive Post (D : Type)
  | uploadTapped (uid : UID) (expiryDate : Date) (assetData : Option (UploadAsset D))
    (title : Option String)
  | onSendButtonTapped (myUID : UID) (now : Date) (uploadAsset : Option (UploadAsset D))
    (userModel : Option UserModel) (title : String)
  | sendButtonTapped (myUID : UID) (now : Date) (userModel : Option UserModel)
    (messageTxt : String)

/-- The program of a post. -/
def Post.prog (isURL : String → Bool) : Post D → UploadProg D SendEnding
  | uploadTapped uid expiryDate assetData title =>
    UploadImageStoryViewController.uploadTapped uid expiryDate assetData title
  | onSendButtonTapped myUID now uploadAsset userModel title =>
    SendMediaMessageViewController.onSendButtonTapped isURL myUID now uploadAsset userModel title
  | sendButtonTapped myUID now userModel messageTxt =>
    MessageViewController.sendButtonTapped myUID now userModel messageTxt

/-- Every call succeeds, and a URL is the path it is for. -/
def succeeding : (c : UploadCall ℕ) → UploadAnswer c
  | .putData _ | .saveStory _ | .saveMessage _ => none
  | .downloadURL path => .ok (some (String.ofList path))
  | .copyCGImage _ => .ok (some 0)

end YoYo.Uploads
