import Mathlib.Data.Set.BooleanAlgebra
import Mathlib.Order.CompletePartialOrder
import YoYo.Storage.Assets
import YoYo.Uploads.Cloud

/-!
# Assets are present

What a story or a message refers to is put before its document is saved, and
nothing deletes it: an object is only ever deleted as the old picture of a
profile, at a URL read from the profile, and these have all been got for objects
in the folder of pictures. So whatever is in progress on other devices, and
whatever fails on the way, every copy of a story or a message that anybody has
ever read refers to an object that is there (`assets_present`), under the path
made of what the copy says.
-/

namespace YoYo.Uploads

open DocStore Storage Accounts Profiles

/-! ## References -/

/-- The path is one of the asset of a story or a message. -/
def IsAssetPath (path : List Char) : Prop :=
  ∃ call : StorageCall Unit, call.IsAsset ∧ call.putData.path = path

/-- The path of the asset of a story. -/
def storyPath (story : Story) : List Char :=
  (Storage.StorageService.uploadStory () story.mediaType story.title story.uid).path

/-- The path of what a message carries. -/
def assetPath (m : Message) : List Char :=
  (Storage.StorageService.uploadMedia () (if m.messageType = .image then .image else .video)
    (m.message.getD "") m.receiverID).path

/-- The path of the picture shown of it: of a picture it is the same. -/
def thumbnailPath (m : Message) : List Char :=
  if m.messageType = .image then assetPath m
  else (Storage.StorageService.uploadMedia () .image (m.message.getD "" ++ "_thumbnail")
    m.receiverID).path

/-- The URL refers to this path, one of `paths`. -/
def Refers (reference : String → List Char) (paths : Set (List Char)) (url : String)
    (path : List Char) : Prop := reference url = path ∧ path ∈ paths

/-- The URL of a story refers to its path. -/
def StoryRefers (reference : String → List Char) (paths : Set (List Char)) (story : Story) : Prop :=
  Refers reference paths story.assetURL (storyPath story)

/-- If a message is not a text, its URLs refer to its paths. -/
def MessageRefers (reference : String → List Char) (paths : Set (List Char)) (m : Message) : Prop :=
  m.messageType ≠ .plain →
    (∃ url, m.assetURL = some url ∧ Refers reference paths url (assetPath m)) ∧
      ∃ url, m.thumbnailURL = some url ∧ Refers reference paths url (thumbnailPath m)

/-- The paths of assets that have an object. -/
def Cloud.paths {D : Type} (st : Cloud D) : Set (List Char) :=
  {path | IsAssetPath path ∧ (st.objects path).isSome}

/-- So does what is on its way. -/
def WriteRefers (reference : String → List Char) (paths : Set (List Char)) : Write → Prop
  | .story story => StoryRefers reference paths story
  | .message message => MessageRefers reference paths message

variable {D : Type} {reference : String → List Char} {paths paths' : Set (List Char)}
  {isURL : String → Bool} {same : String → String → Bool} {uids : AutoId UID}
  {ids : AutoId DocID} {url : String} {path : List Char} {story : Story} {m : Message} {uid : UID}

theorem Refers.mono (h : Refers reference paths url path) (hle : paths ≤ paths') :
    Refers reference paths' url path := ⟨h.1, hle h.2⟩

theorem StoryRefers.mono (h : StoryRefers reference paths story) (hle : paths ≤ paths') :
    StoryRefers reference paths' story := Refers.mono h hle

theorem MessageRefers.mono (h : MessageRefers reference paths m) (hle : paths ≤ paths') :
    MessageRefers reference paths' m := fun htype =>
  (h htype).imp (Exists.imp fun _ => .imp_right (·.mono hle))
    (Exists.imp fun _ => .imp_right (·.mono hle))

theorem WriteRefers.mono {write : Write} (h : WriteRefers reference paths write)
    (hle : paths ≤ paths') : WriteRefers reference paths' write := by
  cases write with
  | story story => exact StoryRefers.mono h hle
  | message message => exact MessageRefers.mono h hle

/-- Seeing a message keeps what it refers to. -/
theorem MessageRefers.seen (h : MessageRefers reference paths m) :
    MessageRefers reference paths m.seen := h

theorem messageRefers_of_plain (h : m.messageType = .plain) : MessageRefers reference paths m :=
  fun hne => absurd h hne

/-- The picture of a profile is not under the path of an asset. -/
theorem not_isAssetPath_picturePath (uid : UID) : ¬ IsAssetPath (Cloud.picturePath uid) := by
  rintro ⟨call, hasset, hpath⟩
  have hpicture : ¬ (StorageCall.uploadImageToStorage () "profile_pic" uid).IsAsset := id
  exact StorageCall.path_ne_of_not_isAsset hpicture hasset hpath.symm

/-! ## Programs -/

/-- What the calls of a screen may be answered by. -/
def SendOk (reference : String → List Char) (paths : Set (List Char)) :
    (c : SendCall D) → SendAnswer c → Prop
  | .uploadMedia _ mediaType fileName userID, .ok (some url) =>
    Refers reference paths url
      (Storage.StorageService.uploadMedia () mediaType fileName userID).path
  | .uploadMedia _ _ _ _, .ok none | .uploadMedia _ _ _ _, .error _ => True
  | .copyCGImage _, _ | .saveMessage _, _ => True

/-- What they may save. -/
def SendSafe (reference : String → List Char) (paths : Set (List Char)) : SendCall D → Prop
  | .saveMessage message => MessageRefers reference paths message
  | .uploadMedia _ _ _ _ | .copyCGImage _ => True

/-- What the calls at the bottom may be answered by. -/
def UploadOk (reference : String → List Char) (paths : Set (List Char)) :
    (c : UploadCall D) → UploadAnswer c → Prop
  | .putData put, none => put.path ∈ paths
  | .downloadURL path, url => Cloud.RefersTo reference path url
  | .putData _, some _ | .copyCGImage _, _ | .saveStory _, _ | .saveMessage _, _ => True

/-- What they may put and save. -/
def UploadSafe (reference : String → List Char) (paths : Set (List Char)) : UploadCall D → Prop
  | .putData put => IsAssetPath put.path
  | .saveStory story => StoryRefers reference paths story
  | .saveMessage message => MessageRefers reference paths message
  | .downloadURL _ | .copyCGImage _ => True

/-- The program saves nothing that refers to no object. -/
abbrev Safe {ρ : Type} (reference : String → List Char) (Q : Set (List Char) → ρ → Prop)
    (prog : UploadProg D ρ) (paths : Set (List Char)) : Prop :=
  prog.Along (UploadOk reference) (UploadSafe reference) Q paths

/-- The URL of what has been put refers to it. -/
theorem safe_upload {put : PutData D} (hput : IsAssetPath put.path) :
    Safe reference (fun paths answer => ∀ url, answer = .ok (some url) →
      Refers reference paths url put.path) (StorageService.upload put) paths := by
  refine ⟨hput, fun paths' _ error hmem => ?_⟩
  cases error with
  | some error => exact fun url heq => by cases heq
  | none =>
    refine ⟨trivial, fun paths'' hle answer hrefers url heq => ?_⟩
    subst heq
    exact ⟨hrefers, hle hmem⟩

theorem safe_uploadStory (data : D) (mediaType : MediaType) (fileName : String) (userID : UID) :
    Safe reference (fun paths answer => ∀ url, answer = .ok (some url) →
      Refers reference paths url
        (Storage.StorageService.uploadStory () mediaType fileName userID).path)
      (StorageService.uploadStory data mediaType fileName userID) paths :=
  safe_upload ⟨.uploadStory () mediaType fileName userID, trivial, rfl⟩

variable (reference paths) in
theorem safe_uploadMedia (data : D) (mediaType : MediaType) (fileName : String) (userID : UID) :
    Safe reference (fun paths answer => ∀ url, answer = .ok (some url) →
      Refers reference paths url
        (Storage.StorageService.uploadMedia () mediaType fileName userID).path)
      (StorageService.uploadMedia data mediaType fileName userID) paths :=
  safe_upload ⟨.uploadMedia () mediaType fileName userID, trivial, rfl⟩

theorem safe_saveMessage (h : MessageRefers reference paths m) :
    Safe reference (fun _ _ => True) (DatabaseService.saveMessage (D := D) m) paths := by
  refine ⟨h, fun paths' _ error _ => ?_⟩
  cases error <;> trivial

/-- A story is saved with the URL of what has been put for it. -/
theorem safe_storyService_uploadStory (expiryDate : Date) (uploadAsset : UploadAsset D)
    (title : String) :
    Safe reference (fun _ _ => True) (StoryService.uploadStory uid expiryDate uploadAsset title)
      paths := by
  refine (safe_uploadStory uploadAsset.data uploadAsset.mediaType title uid).bind
    fun paths' _ answer hanswer => ?_
  rcases answer with error | _ | url
  · trivial
  · trivial
  · refine ⟨hanswer url rfl, fun paths'' _ error _ => ?_⟩
    cases error <;> trivial

/-- The calls of the screen sending media, as they are made. -/
theorem safe_perform (c : SendCall D) (hc : SendSafe reference paths c) :
    Safe reference (SendOk reference · c) (MessagingService.perform c) paths := by
  cases c with
  | uploadMedia data mediaType fileName userID =>
    have hupload := safe_uploadMedia reference paths data mediaType fileName userID
    refine ⟨hupload.1, fun paths' hle error hmem => ?_⟩
    have hrest := hupload.2 paths' hle error hmem
    cases error with
    | some error => trivial
    | none =>
      refine ⟨trivial, fun paths'' hle' answer hrefers => ?_⟩
      have hend := hrest.2 paths'' hle' answer hrefers
      rcases answer with error | _ | url
      · trivial
      · trivial
      · exact hend url rfl
  | copyCGImage url => exact ⟨trivial, fun _ _ _ _ => trivial⟩
  | saveMessage message => exact (safe_saveMessage hc).map fun _ _ _ => trivial

/-- What is sent from there refers to what has been put for it. -/
theorem along_onSendButtonTapped (now : Date) (uploadAsset : Option (UploadAsset D))
    (userModel : Option UserModel) (title : String) :
    (YoYo.SendMediaMessageViewController.onSendButtonTapped isURL uid now uploadAsset userModel
      title).Along (SendOk reference) (SendSafe reference) (fun _ _ => True) paths := by
  have hsend : ∀ {m : Message} {paths}, MessageRefers reference paths m →
      (YoYo.SendMediaMessageViewController.sendMessageUsing (D := D) m).Along (SendOk reference)
        (SendSafe reference) (fun _ _ => True) paths := by
    refine fun h => ⟨h, fun _ _ success _ => ?_⟩
    cases success <;> trivial
  cases uploadAsset with
  | none => trivial
  | some uploadAsset =>
    cases userModel with
    | none => trivial
    | some userModel =>
      obtain ⟨data, mediaType⟩ := uploadAsset
      rw [YoYo.SendMediaMessageViewController.onSendButtonTapped]
      by_cases hlen : title.length > 0
      · rw [if_pos hlen]
        refine ⟨trivial, fun paths₁ _ answer hurl => ?_⟩
        rcases answer with error | _ | url
        · trivial
        · trivial
        · cases mediaType with
          | image =>
            -- The asset is its own picture.
            exact hsend fun _ => ⟨⟨url, rfl, hurl⟩, url, rfl, hurl⟩
          | video =>
            simp only [reduceCtorEq, if_false]
            by_cases hisURL : isURL url = true
            · rw [if_pos hisURL]
              refine ⟨trivial, fun paths₂ hle₂ answer _ => ?_⟩
              rcases answer with error | _ | thumbnailData
              · trivial
              · trivial
              · refine ⟨trivial, fun paths₃ hle₃ answer hurl' => ?_⟩
                rcases answer with error | _ | url'
                · trivial
                · trivial
                · exact hsend fun _ =>
                    ⟨⟨url, rfl, Refers.mono hurl (hle₂.trans hle₃)⟩, url', rfl, hurl'⟩
            · rw [if_neg hisURL]
              trivial
      · rw [if_neg hlen]
        trivial

/-- Whatever is posted is safe. -/
theorem safe_prog (post : Post D) :
    Safe reference (fun _ _ => True) (post.prog isURL) paths := by
  cases post with
  | uploadTapped uid expiryDate assetData title =>
    rw [Post.prog, UploadImageStoryViewController.uploadTapped.eq_def]
    split
    · split_ifs
      · exact (safe_storyService_uploadStory _ _ _).map fun _ _ _ => trivial
      · trivial
    · trivial
  | onSendButtonTapped myUID now uploadAsset userModel title =>
    exact (along_onSendButtonTapped now uploadAsset userModel title).through
      fun _ _ c hc => safe_perform c hc
  | sendButtonTapped myUID now userModel messageTxt =>
    rw [Post.prog, MessageViewController.sendButtonTapped.eq_def]
    split
    · split_ifs
      · exact (safe_saveMessage (messageRefers_of_plain rfl)).map fun _ _ _ => trivial
      · trivial
    · trivial

/-! ## Profiles -/

/-- The URL refers to no asset. -/
def NoAsset (reference : String → List Char) (url : String) : Prop := ¬ IsAssetPath (reference url)

/-- No profile has the URL of an asset. -/
def PicturesOnly (reference : String → List Char) (docs : List (Doc DocID UserDoc)) : Prop :=
  ∀ d ∈ docs, ∀ u, UserModel.decode d.data = some u → NoAsset reference u.profilePictureURL

/-- What a change of a profile may be answered by. -/
def UsersOk (reference : String → List Char) : (c : UsersCall) → Answer c → Prop
  | .getDocuments _, some documents => PicturesOnly reference documents
  | .getDocuments _, none | .addDocument _, _ | .setData _ _, _ => True

/-- What it may write. -/
def UsersSafe (reference : String → List Char) : UsersCall → Prop
  | .getDocuments _ => True
  | .addDocument d | .setData _ d =>
    ∀ u, UserModel.decode d = some u → NoAsset reference u.profilePictureURL

/-- A change of a profile that never writes the URL of an asset. -/
abbrev KeepsPictures (reference : String → List Char) (prog : UsersProg) : Prop :=
  prog.AllCalls (UsersOk reference) (UsersSafe reference) fun _ => True

/-- How far the change of a picture has got: it is to delete no asset. -/
def PhotoSafe (reference : String → List Char) : PhotoStage D → Prop
  | .removingImage _ imageURL => NoAsset reference imageURL
  | .updatingProfile prog => KeepsPictures reference prog
  | .puttingData _ | .gettingURL | .uploadImageStatus _ _ | .trapped => True

variable {users : UsersStore} {u : UserModel} {d : UserDoc}

variable (uid) in
theorem noAsset_of_refersTo
    (h : Cloud.RefersTo reference (Cloud.picturePath uid) (.ok (some url))) :
    NoAsset reference url := by
  intro hasset
  have hpath : reference url = Cloud.picturePath uid := h
  exact not_isAssetPath_picturePath uid (hpath ▸ hasset)

/-- A profile that is read from one of these documents. -/
theorem PicturesOnly.of_decodeAll {docs : List (Doc DocID UserDoc)} {p : Doc DocID UserModel}
    (h : PicturesOnly reference docs) (hp : p ∈ decodeAll UserModel.decode docs) :
    NoAsset reference p.data.profilePictureURL := by
  obtain ⟨d, hd, hdecode⟩ := List.mem_filterMap.1 hp
  obtain ⟨u, hu, rfl⟩ := Option.map_eq_some_iff.1 hdecode
  exact h d hd u hu

/-- A change that keeps to pictures what it reads. -/
theorem keeps_updateUserModel {set : UserModel → UserModel}
    (hset : ∀ u, NoAsset reference u.profilePictureURL →
      NoAsset reference (set u).profilePictureURL) (uid : UID) :
    KeepsPictures reference (YoYo.DatabaseService.updateUserModel set uid) := by
  refine ⟨trivial, fun documents hdocuments => ?_⟩
  cases documents with
  | none => trivial
  | some documents =>
    simp only
    split
    · trivial
    · rename_i myProfile hmyProfile
      have htake : PicturesOnly reference (documents.take 1) := fun d hd =>
        hdocuments d (List.mem_of_mem_take hd)
      refine ⟨fun u hu => ?_, fun _ _ => trivial⟩
      rw [UserModel.decode_encode, Option.some.injEq] at hu
      exact hu ▸ hset _ (htake.of_decodeAll (List.mem_of_mem_head? hmyProfile))

theorem PicturesOnly.setData (h : PicturesOnly reference users.docs) (id : DocID)
    (hd : ∀ u, UserModel.decode d = some u → NoAsset reference u.profilePictureURL) :
    PicturesOnly reference (users.setData id d).docs := by
  intro e he
  rcases Collection.mem_setData.1 he with rfl | ⟨he, -⟩
  · exact hd
  · exact h e he

variable (ids) in
/-- What a change of a profile does, and is answered, is of pictures only. -/
theorem PicturesOnly.answer (h : PicturesOnly reference users.docs) (success : Bool)
    {c : UsersCall} (hc : UsersSafe reference c) :
    UsersOk reference c (Call.answer ids profileOfUser success users c).1 ∧
      PicturesOnly reference (Call.answer ids profileOfUser success users c).2.docs := by
  cases c with
  | getDocuments uid =>
    refine ⟨?_, h⟩
    cases success with
    | false => trivial
    | true => exact fun d hd => h d (Collection.mem_query.1 hd).1
  | addDocument d =>
    refine ⟨trivial, ?_⟩
    cases success with
    | false => exact h
    | true => exact h.setData _ hc
  | setData id d =>
    refine ⟨trivial, ?_⟩
    cases success with
    | false => exact h
    | true => exact h.setData id hc

theorem PicturesOnly.saveUserModel (h : PicturesOnly reference users.docs)
    (hu : NoAsset reference u.profilePictureURL) :
    PicturesOnly reference (YoYo.DatabaseService.saveUserModel ids u users).docs := by
  refine h.setData _ fun u' hu' => ?_
  rw [UserModel.decode_encode, Option.some.injEq] at hu'
  exact hu' ▸ hu

/-- A step of the change of a picture, or of signing up, keeps profiles to
    pictures, and does nothing to the objects of assets. -/
structure StepsAside (reference : String → List Char) (objects objects' : Objects D)
    (users' : UsersStore) : Prop where
  objects : ∀ path, IsAssetPath path → objects' path = objects path
  users : PicturesOnly reference users'.docs

/-- A profile is to be updated with a new picture. -/
theorem photoSafe_updatingProfile {prog : UsersProg} (h : KeepsPictures reference prog)
    (error : Option String) :
    PhotoSafe reference (SettingsService.updatingProfile error prog : PhotoStage D) := by
  rw [SettingsService.updatingProfile.eq_def]
  split
  · cases error <;> trivial
  · trivial
  · exact h

/-- An object put under the path of a picture is not that of an asset. -/
theorem update_of_isAssetPath {objects : Objects D} {path path' : List Char} {data : Option D}
    (hpath : ¬ IsAssetPath path) (hpath' : IsAssetPath path') :
    Function.update objects path data path' = objects path' :=
  Function.update_of_ne (fun heq : path' = path => hpath (heq ▸ hpath')) _ _

variable (ids) in
theorem stepsAside_replied (objects : Objects D) {stage : PhotoStage D} {reply : PhotoReply}
    (husers : PicturesOnly reference users.docs) (hstage : PhotoSafe reference stage)
    (hreply : Cloud.RepliesURL reference (some ⟨uid, stage⟩) reply) :
    PhotoSafe reference
        (SettingsService.replied reference ids uid ⟨objects, users⟩ stage reply).1 ∧
      StepsAside reference objects
        (SettingsService.replied reference ids uid ⟨objects, users⟩ stage reply).2.objects
        (SettingsService.replied reference ids uid ⟨objects, users⟩ stage reply).2.users := by
  have hsame : StepsAside reference objects objects users := ⟨fun _ _ => rfl, husers⟩
  rw [SettingsService.replied.eq_def]
  split
  · -- The old picture is deleted, if it is there.
    rename_i imageData imageURL error
    simp only [StorageService.removeImageFromStorage]
    split_ifs
    · exact ⟨trivial, fun path hpath => update_of_isAssetPath hstage hpath, husers⟩
    · exact ⟨trivial, hsame⟩
  · exact ⟨trivial, hsame⟩
  · exact ⟨trivial, fun path hpath =>
      update_of_isAssetPath (not_isAssetPath_picturePath uid) hpath, husers⟩
  · exact ⟨trivial, hsame⟩
  · -- The URL is that of the new picture.
    rename_i url
    have hurl : NoAsset reference url := noAsset_of_refersTo uid hreply
    have hkeeps : KeepsPictures reference (YoYo.DatabaseService.updateProfileURL uid url) :=
      keeps_updateUserModel (fun _ _ => hurl) uid
    exact ⟨hkeeps, hsame⟩
  · rename_i c k error
    obtain ⟨hok, husers'⟩ := husers.answer ids error.isNone hstage.1
    exact ⟨photoSafe_updatingProfile (hstage.2 _ hok) error, fun _ _ => rfl, husers'⟩
  · exact ⟨hstage, hsame⟩

variable (uids ids) in
/-- A step of an attempt to sign up. -/
theorem stepsAside_completed (signUp : SignUp D) {reply : SignUpReply}
    (husers : PicturesOnly reference signUp.users.docs)
    (hreply : Cloud.SignsUpWithURL reference (some signUp.stage) reply) :
    StepsAside reference signUp.objects (signUp.completed uids ids reply).objects
      (signUp.completed uids ids reply).users := by
  have hsame : StepsAside reference signUp.objects signUp.objects signUp.users :=
    ⟨fun _ _ => rfl, husers⟩
  rw [SignUp.completed.eq_def]
  cases reply with
  | createUserCompleted error =>
    simp only
    split
    · exact hsame
    · rw [SignUp.createUser]
      split_ifs <;> exact hsame
    · exact hsame
  | sendEmailVerificationCompleted error =>
    simp only
    split
    · exact hsame
    · rw [SignUp.createUserAccountSuccess]
      split <;> exact hsame
    · exact hsame
  | putDataCompleted error =>
    simp only
    split
    · exact hsame
    · -- The picture is put where no asset is.
      rename_i data uid _
      exact ⟨fun path hpath => update_of_isAssetPath (not_isAssetPath_picturePath uid) hpath,
        husers⟩
    · exact hsame
  | downloadURLCompleted url saveError =>
    simp only
    split
    · exact hsame
    · -- The profile is saved with the URL of the picture.
      rename_i uid url hstage
      have hurl : NoAsset reference url :=
        noAsset_of_refersTo uid (hreply uid (congrArg Cloud.gettingURL hstage))
      rw [SignUp.uploadSuccessFull]
      split
      · exact hsame
      · split
        · exact hsame
        · exact ⟨fun _ _ => rfl, husers.saveUserModel hurl⟩
    · exact hsame

variable (same uids ids) in
/-- Whoever signs up. -/
theorem stepsAside_signingUp (st : Cloud D) {e : SigningUpEvent D}
    (husers : PicturesOnly reference st.users.now.docs) (he : st.AllowedSignUp reference e) :
    StepsAside reference st.objects (st.signUps.next same uids ids e).objects
      (st.signUps.next same uids ids e).users := by
  have hsame : StepsAside reference st.objects st.objects st.users.now := ⟨fun _ _ => rfl, husers⟩
  cases e with
  | currentUserChanged device user => exact hsame
  | edit screen form => exact hsame
  | createButtonTapped screen => exact hsame
  | completed i reply =>
    rw [SigningUp.next, SigningUp.completed]
    split
    · rename_i attempt hattempt
      refine stepsAside_completed uids ids (st.signUps.signUp attempt) husers ?_
      have hstage : st.attempts[i]?.map Attempt.stage = some attempt.stage :=
        congrArg (Option.map Attempt.stage) hattempt
      exact hstage ▸ he
    · exact hsame

/-! ## Runs -/

/-- All messages there have been, and those on their way to be marked, satisfy `P`. -/
structure AllMessages (P : Message → Prop) (w : Messages) : Prop where
  versions : ∀ s ∈ w.history.seen, ∀ id m, messageOf s id = some m → P m
  writes : ∀ uid message, (uid, message) ∈ w.writes → P message.data

namespace AllMessages

variable {P P' : Message → Prop} {w : Messages} {s : MessagesStore} {message : Copy}
  {messages : List Copy}

theorem imp (h : AllMessages P w) (hP : ∀ m, P m → P' m) : AllMessages P' w where
  versions s hs id m hm := hP m (h.versions s hs id m hm)
  writes uid message hmem := hP _ (h.writes uid message hmem)

/-- A property that is kept when a message is seen is one of all copies. -/
theorem of_copied (h : AllMessages P w) (hseen : ∀ m, P m → P m.seen) (hm : w.Copied message) :
    P message.data := by
  obtain ⟨s, hs, m, hstored, hdata⟩ := hm
  have hPm := h.versions s hs message.id m hstored
  rcases hdata with hdata | hdata
  · exact hdata ▸ hPm
  · exact hdata ▸ hseen m hPm

theorem push (h : AllMessages P w) (hs : ∀ id m, messageOf s id = some m → P m) :
    AllMessages P (w.push s) where
  versions s' hs' := by
    rcases Versions.mem_seen_push.1 hs' with rfl | hs'
    · exact hs
    · exact h.versions s' hs'
  writes := h.writes

theorem saveMessage (h : AllMessages P w) (hm : P m) :
    AllMessages P (w.push (YoYo.DatabaseService.saveMessage ids m w.store)) := by
  refine h.push fun id m' hm' => ?_
  rw [messageOf_saveMessage] at hm'
  split_ifs at hm'
  · exact Option.some.inj hm' ▸ hm
  · exact h.versions _ (Versions.now_mem_seen _) id m' hm'

theorem changeMessageStatusToSeen (h : AllMessages P w) (hseen : ∀ m, P m → P m.seen)
    (hmessages : ∀ message ∈ messages, w.Copied message) :
    AllMessages P (w.changeMessageStatusToSeen uid messages) where
  versions := h.versions
  writes uid' message hmem := by
    rcases List.mem_append.1 hmem with hmem | hmem
    · exact h.writes uid' message hmem
    · obtain ⟨message₁, hmem₁, heq⟩ := List.mem_map.1 hmem
      cases heq
      obtain ⟨message₀, hmem₀, rfl⟩ := List.mem_map.1 hmem₁
      exact hseen _ (h.of_copied hseen (hmessages message₀ (List.mem_filter.1 hmem₀).1))

theorem updateMessageToSeen (h : AllMessages P w) (hmem : (uid, message) ∈ w.writes) :
    AllMessages P (w.next ids (.updateMessageToSeen uid message)) := by
  have hpush := h.push (s := YoYo.DatabaseService.updateMessageToSeen message w.store)
    fun id m hm => by
      rw [messageOf_updateMessageToSeen] at hm
      split_ifs at hm
      · exact Option.some.inj hm ▸ h.writes uid message hmem
      · exact h.versions _ (Versions.now_mem_seen _) id m hm
  exact ⟨hpush.versions, fun uid' message' hmem' =>
    hpush.writes uid' message' (List.mem_of_mem_erase hmem')⟩

end AllMessages

namespace Cloud

variable {st : Cloud D}

/-- What the runs keep: whatever has been stored refers to objects, no profile has
    the URL of an asset, and all that is being done keeps it so. -/
structure Sound (reference : String → List Char) (st : Cloud D) : Prop where
  stories : ∀ s ∈ st.stories.seen, ∀ id story, storyOf s id = some story →
    StoryRefers reference st.paths story
  messages : AllMessages (MessageRefers reference st.paths) st.messages
  users : ∀ s ∈ st.users.seen, PicturesOnly reference s.docs
  writes : ∀ write ∈ st.writes, WriteRefers reference st.paths write
  postings : ∀ posting ∈ st.postings, Safe reference (fun _ _ => True) posting.prog st.paths
  changes : ∀ change ∈ st.changes, PhotoSafe reference change.stage
  renames : ∀ prog ∈ st.renames, KeepsPictures reference prog

theorem sound_init : (init : Cloud D).Sound reference where
  stories s hs id story hstory := by
    rw [Versions.mem_seen_init.1 hs] at hstory
    cases hstory
  messages := by
    refine ⟨fun s hs id m hm => ?_, fun _ _ hmem => absurd hmem List.not_mem_nil⟩
    rw [Versions.mem_seen_init.1 hs] at hm
    cases hm
  users s hs := by
    rw [Versions.mem_seen_init.1 hs]
    exact fun d hd => absurd hd List.not_mem_nil
  writes _ hmem := absurd hmem List.not_mem_nil
  postings _ hmem := absurd hmem List.not_mem_nil
  changes _ hmem := absurd hmem List.not_mem_nil
  renames _ hmem := absurd hmem List.not_mem_nil

theorem Sound.usersNow (hI : st.Sound reference) : PicturesOnly reference st.users.now.docs :=
  hI.users _ (Versions.now_mem_seen _)

/-- The objects of assets, once there, stay there, and what refers to them does, too. -/
theorem Sound.setObjects (hI : st.Sound reference) {objects : Objects D}
    (hle : st.paths ≤ { st with objects }.paths) : { st with objects }.Sound reference where
  stories s hs id story hstory := (hI.stories s hs id story hstory).mono hle
  messages := hI.messages.imp fun _ hm => hm.mono hle
  users := hI.users
  writes write hmem := (hI.writes write hmem).mono hle
  postings posting hmem :=
    (hI.postings posting hmem).mono
      (fun c hle hc => by
        cases c with
        | saveStory story => exact StoryRefers.mono hc hle
        | saveMessage message => exact MessageRefers.mono hc hle
        | putData | downloadURL | copyCGImage => exact hc)
      (fun _ _ _ => trivial) hle
  changes := hI.changes
  renames := hI.renames

/-- Steps beside the assets. -/
theorem Sound.stepsAside (hI : st.Sound reference) {objects : Objects D} {users : UsersStore}
    (h : StepsAside reference st.objects objects users) :
    { st with objects, users := st.users.push users }.Sound reference := by
  have hle : st.paths ≤ { st with objects }.paths := fun path hpath =>
    ⟨hpath.1, (congrArg Option.isSome (h.objects path hpath.1)).trans hpath.2⟩
  have hobjects := hI.setObjects hle
  refine ⟨hobjects.stories, hobjects.messages, fun s hs => ?_, hobjects.writes,
    hobjects.postings, hobjects.changes, hobjects.renames⟩
  rcases Versions.mem_seen_push.1 hs with rfl | hs
  · exact h.users
  · exact hI.users s hs

/-- A new version of the stories, all of which refer to objects. -/
theorem Sound.pushStories (hI : st.Sound reference) {s : StoriesStore}
    (hs : ∀ id story, storyOf s id = some story → StoryRefers reference st.paths story) :
    { st with stories := st.stories.push s }.Sound reference := by
  refine ⟨fun s' hs' => ?_, hI.messages, hI.users, hI.writes, hI.postings, hI.changes,
    hI.renames⟩
  rcases Versions.mem_seen_push.1 hs' with rfl | hs'
  · exact hs
  · exact hI.stories s' hs'

theorem Sound.setMessages (hI : st.Sound reference) {messages : Messages}
    (h : AllMessages (MessageRefers reference st.paths) messages) :
    { st with messages }.Sound reference :=
  ⟨hI.stories, h, hI.users, hI.writes, hI.postings, hI.changes, hI.renames⟩

/-- Something else is on its way. -/
theorem Sound.setWrites (hI : st.Sound reference) {writes : List Write}
    (h : ∀ write ∈ writes, WriteRefers reference st.paths write) :
    { st with writes }.Sound reference :=
  ⟨hI.stories, hI.messages, hI.users, h, hI.postings, hI.changes, hI.renames⟩

/-- An object put somewhere takes none away. -/
theorem paths_putData (st : Cloud D) (put : PutData D) :
    st.paths ≤
      { st with objects := Function.update st.objects put.path (some put.data) }.paths := by
  refine fun path hpath => ⟨hpath.1, ?_⟩
  by_cases heq : path = put.path
  · rw [heq]
    exact Option.isSome_iff_exists.2 ⟨put.data, Function.update_self _ _ _⟩
  · exact (congrArg Option.isSome (Function.update_of_ne heq _ _)).trans hpath.2

@[simp] theorem postings_performed (st : Cloud D) (a : (c : UploadCall D) → UploadAnswer c)
    (c : UploadCall D) : (st.performed a c).postings = st.postings := by
  cases c <;> simp only [Cloud.performed] <;> split_ifs <;> rfl

/-- The next call of a post, if it is safe: what it does, and that its answer is
    one to go on with. -/
theorem Sound.performed (hI : st.Sound reference) {a : (c : UploadCall D) → UploadAnswer c}
    {c : UploadCall D} (hc : UploadSafe reference st.paths c)
    (ha : ∀ path, c = .downloadURL path → RefersTo reference path (a (.downloadURL path))) :
    (st.performed a c).Sound reference ∧ st.paths ≤ (st.performed a c).paths ∧
      UploadOk reference (st.performed a c).paths c (a c) := by
  cases c with
  | putData put =>
    rw [Cloud.performed]
    cases hput : a (.putData put) with
    | some error =>
      rw [if_neg (Option.some_ne_none error)]
      exact ⟨hI, le_rfl, trivial⟩
    | none =>
      rw [if_pos rfl]
      have hle := paths_putData st put
      refine ⟨hI.setObjects hle, hle, hc, ?_⟩
      exact Option.isSome_iff_exists.2 ⟨put.data, Function.update_self _ _ _⟩
  | downloadURL path => exact ⟨hI, le_rfl, ha path rfl⟩
  | copyCGImage url => exact ⟨hI, le_rfl, trivial⟩
  | saveStory story =>
    rw [Cloud.performed]
    split_ifs
    · exact ⟨hI.setWrites (List.forall_mem_append.2 ⟨hI.writes, List.forall_mem_singleton.2 hc⟩),
        le_rfl, trivial⟩
    · exact ⟨hI, le_rfl, trivial⟩
  | saveMessage message =>
    rw [Cloud.performed]
    split_ifs
    · exact ⟨hI.setWrites (List.forall_mem_append.2 ⟨hI.writes, List.forall_mem_singleton.2 hc⟩),
        le_rfl, trivial⟩
    · exact ⟨hI, le_rfl, trivial⟩

theorem Sound.answered (hI : st.Sound reference) {i : ℕ}
    {a : (c : UploadCall D) → UploadAnswer c} (ha : AnswersURL reference a st.postings[i]?) :
    (st.answered i a).Sound reference := by
  rw [Cloud.answered.eq_def]
  split
  · rename_i post c k hposting
    have hsafe := hI.postings _ (List.mem_of_getElem? hposting)
    obtain ⟨hperformed, hle, hok⟩ := hI.performed (a := a) hsafe.1 fun path hpath => by
      subst hpath
      rwa [hposting] at ha
    refine ⟨hperformed.stories, hperformed.messages, hperformed.users, hperformed.writes,
      fun posting hmem => ?_, hperformed.changes, hperformed.renames⟩
    rcases List.mem_or_eq_of_mem_set hmem with hmem | rfl
    · refine hperformed.postings posting ?_
      rwa [postings_performed]
    · exact hsafe.2 _ hle _ hok
  · exact hI
  · exact hI

/-- What refers to objects is stored. -/
theorem Sound.store (hI : st.Sound reference) {write : Write}
    (h : WriteRefers reference st.paths write) : (st.store ids write).Sound reference := by
  cases write with
  | story story =>
    refine hI.pushStories fun id story' hstory' => ?_
    rw [storyOf_saveStory] at hstory'
    split_ifs at hstory'
    · exact Option.some.inj hstory' ▸ h
    · exact hI.stories _ (Versions.now_mem_seen _) id story' hstory'
  | message message => exact hI.setMessages (hI.messages.saveMessage h)

theorem Sound.written (hI : st.Sound reference) {i : ℕ} {accepted : Bool} :
    (st.written ids i accepted).Sound reference := by
  rw [Cloud.written]
  split
  · rename_i write hwrite
    have hrest : ∀ write ∈ st.writes.eraseIdx i, WriteRefers reference st.paths write :=
      fun write hmem => hI.writes write (List.mem_of_mem_eraseIdx hmem)
    cases accepted with
    | true =>
      have hstored : (st.store ids write).Sound reference :=
        hI.store (hI.writes write (List.mem_of_getElem? hwrite))
      refine hstored.setWrites ?_
      cases write <;> exact hrest
    | false => exact hI.setWrites hrest
  · exact hI

theorem Sound.replied (hI : st.Sound reference) {i : ℕ} {reply : PhotoReply}
    (hreply : RepliesURL reference st.changes[i]? reply) :
    (st.replied reference ids i reply).Sound reference := by
  rw [Cloud.replied]
  split
  · rename_i uid stage hchange
    rw [hchange] at hreply
    obtain ⟨hstage, haside⟩ := stepsAside_replied ids st.objects hI.usersNow
      (hI.changes _ (List.mem_of_getElem? hchange)) hreply
    have haside := hI.stepsAside haside
    refine ⟨haside.stories, haside.messages, haside.users, haside.writes, haside.postings,
      fun change hmem => ?_, haside.renames⟩
    rcases List.mem_or_eq_of_mem_set hmem with hmem | rfl
    · exact hI.changes change hmem
    · exact hstage
  · exact hI

theorem Sound.renamed (hI : st.Sound reference) {i : ℕ} {success : Bool} :
    (st.renamed ids i success).Sound reference := by
  rw [Cloud.renamed.eq_def]
  split
  · rename_i c k hprog
    have hkeeps := hI.renames _ (List.mem_of_getElem? hprog)
    obtain ⟨hok, husers⟩ := hI.usersNow.answer ids success hkeeps.1
    have hsame : StepsAside reference st.objects st.objects
        (Call.answer ids profileOfUser success st.users.now c).2 := ⟨fun _ _ => rfl, husers⟩
    have haside := hI.stepsAside hsame
    refine ⟨haside.stories, haside.messages, haside.users, haside.writes, haside.postings,
      haside.changes, fun prog hmem => ?_⟩
    rcases List.mem_or_eq_of_mem_set hmem with hmem | rfl
    · exact hI.renames prog hmem
    · exact hkeeps.2 _ hok
  · exact hI
  · exact hI

theorem Sound.signingUp (hI : st.Sound reference) {e : SigningUpEvent D}
    (he : st.AllowedSignUp reference e) : (st.signingUp same uids ids e).Sound reference := by
  have haside := hI.stepsAside (stepsAside_signingUp same uids ids st hI.usersNow he)
  exact ⟨haside.stories, haside.messages, haside.users, haside.writes, haside.postings,
    haside.changes, haside.renames⟩

theorem Sound.next (hI : st.Sound reference) {e : CloudEvent D} (he : st.Allowed reference e) :
    (st.next isURL same reference uids ids e).Sound reference := by
  cases e with
  | post post =>
    refine ⟨hI.stories, hI.messages, hI.users, hI.writes, fun posting hmem => ?_, hI.changes,
      hI.renames⟩
    rcases List.mem_append.1 hmem with hmem | hmem
    · exact hI.postings posting hmem
    · rw [List.mem_singleton.1 hmem]
      exact safe_prog post
  | answered i a => exact hI.answered he
  | written i accepted => exact hI.written
  | addViews uid story =>
    obtain ⟨s, hs, hstory⟩ := he
    have hcopy := hI.stories s hs story.id story.data hstory
    refine hI.pushStories fun id story' hstory' => ?_
    change storyOf (YoYo.StoryService.addViews uid story st.stories.now) id = some story' at hstory'
    rw [YoYo.StoryService.addViews] at hstory'
    split at hstory'
    · -- What is written back differs from the copy by a viewer.
      rename_i updatedStory hviewed
      rw [YoYo.StoryService.viewed] at hviewed
      split_ifs at hviewed
      cases hviewed
      rw [storyOf_updateStory] at hstory'
      split_ifs at hstory'
      · exact Option.some.inj hstory' ▸ hcopy
      · exact hI.stories _ (Versions.now_mem_seen _) id story' hstory'
    · exact hI.stories _ (Versions.now_mem_seen _) id story' hstory'
  | changeMessageStatusToSeen uid messages =>
    exact hI.setMessages (hI.messages.changeMessageStatusToSeen (fun _ hm => hm.seen) he)
  | updateMessageToSeen uid message =>
    exact hI.setMessages (hI.messages.updateMessageToSeen he)
  | changeProfilePhoto uid imageData imageURL =>
    refine ⟨hI.stories, hI.messages, hI.users, hI.writes, hI.postings, fun change hmem => ?_,
      hI.renames⟩
    rcases List.mem_append.1 hmem with hmem | hmem
    · exact hI.changes change hmem
    · -- The old picture is the one of a profile that has been read.
      obtain ⟨s, hs, p, hp, rfl⟩ := he
      rw [List.mem_singleton.1 hmem]
      have hquery : PicturesOnly reference (s.query (profileOfUser uid)) := fun d hd =>
        hI.users s hs d (Collection.mem_query.1 hd).1
      exact hquery.of_decodeAll (List.mem_of_mem_head? hp)
  | replied i reply => exact hI.replied he
  | changeName uid name =>
    refine ⟨hI.stories, hI.messages, hI.users, hI.writes, hI.postings, hI.changes,
      fun prog hmem => ?_⟩
    rcases List.mem_append.1 hmem with hmem | hmem
    · exact hI.renames prog hmem
    · rw [List.mem_singleton.1 hmem, YoYo.DatabaseService.changeName]
      refine keeps_updateUserModel ?_ uid
      exact fun _ hu => hu
  | renamed i success => exact hI.renamed
  | signingUp e => exact hI.signingUp he

end Cloud

/-- **Assets are present**: in every run of any devices, whatever is answered, in
    whatever order, every copy of a story or of a message with media there has
    been, of any version, refers to objects that are there now, under the paths
    made of what it says. -/
theorem assets_present {es : List (CloudEvent D)}
    (h : AllSteps (Cloud.next isURL same reference uids ids) (Cloud.Allowed reference) .init es) :
    (∀ s ∈ (after (Cloud.next isURL same reference uids ids) .init es).stories.seen,
      ∀ id story, storyOf s id = some story → StoryRefers reference
        (after (Cloud.next isURL same reference uids ids) .init es).paths story) ∧
    ∀ message, (after (Cloud.next isURL same reference uids ids) .init es).messages.Copied message →
      MessageRefers reference (after (Cloud.next isURL same reference uids ids) .init es).paths
        message.data := by
  have hI := h.invariant (I := Cloud.Sound reference) (fun _ _ hI he => hI.next he)
    Cloud.sound_init
  exact ⟨hI.stories, fun message hcopied =>
    hI.messages.of_copied (fun _ hm => hm.seen) hcopied⟩

/-- The URL of the picture of a user. -/
def pictureURL (uid : UID) : String := String.ofList (Cloud.picturePath uid)

/-- Ann signs up. -/
def annSignsUp : List (CloudEvent ℕ) :=
  [.signingUp (.edit ⟨0, 0⟩ ⟨"Ann", "ann@yoyo", "aA1$aa", "aA1$aa", 0, some 1⟩),
    .signingUp (.createButtonTapped ⟨0, 0⟩), .signingUp (.completed 0 (.createUserCompleted none)),
    .signingUp (.completed 0 (.sendEmailVerificationCompleted none)),
    .signingUp (.completed 0 (.putDataCompleted none)),
    .signingUp (.completed 0 (.downloadURLCompleted (.ok (pictureURL "u")) none))]

/-- While she uploads a story, she deletes her picture, and puts another one in its place. -/
def annUploads : List (CloudEvent ℕ) :=
  [.post (.uploadTapped "u" 5 (some ⟨2, .image⟩) (some "hi")), .answered 0 succeeding,
    .changeProfilePhoto "u" 3 (pictureURL "u"), .replied 0 (.removed none), .answered 0 succeeding,
    .replied 0 (.put none), .answered 0 succeeding, .written 0 true]

/-- The story she has uploaded. -/
def annsStory : Story :=
  ⟨"u", "hi", 5, String.ofList (storyPath ⟨"u", "hi", 5, "", [], .image⟩), [], .image⟩

/-- Her story refers to an object, whatever has become of her picture. -/
theorem assets_present_annUploads : StoryRefers String.toList
    (after (Cloud.next (fun _ => true) (· == ·) String.toList SignUp.longerUID succId) .init
      (annSignsUp ++ annUploads)).paths annsStory := by
  have hrun : AllSteps (Cloud.next (fun _ => true) (· == ·) String.toList SignUp.longerUID succId)
      (Cloud.Allowed String.toList) .init (annSignsUp ++ annUploads) := by decide +kernel
  have hstory : storyOf
      (after (Cloud.next (fun _ => true) (· == ·) String.toList SignUp.longerUID succId)
        .init (annSignsUp ++ annUploads)).stories.now 1 = some annsStory := by decide +kernel
  exact (assets_present hrun).1 _ (Versions.now_mem_seen _) 1 annsStory hstory

end YoYo.Uploads
