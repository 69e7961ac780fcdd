import YoYo.DocStore.Run
import YoYo.Models
import YoYo.ObjectStore.Path

/-!
# The storage service

Pictures of profiles, stories and the media of messages are uploaded to an
object store, each kind to a folder of its own. The name of an object is made of
the id of a user, a time, and the title given by the user; for the media of a
message, the user is the one receiving it. The time is a constant: the seconds
between two reference dates.

An upload replaces what is stored under its path. One that fails stores
nothing, and is no event here.
-/

namespace YoYo.Storage

open DocStore ObjectStore

/-- Seconds from 1970 to the reference date of 2001, as they are written in a name. -/
def NSTimeIntervalSince1970 : String := "978307200.0"

/-- Data put under a path. -/
structure PutData (D : Type) where
  path : List Char
  data : D
  deriving DecidableEq, Repr

namespace StorageService

/-- The folder of pictures of profiles. -/
def imagesRef : String := "images"

/-- The folder of stories. -/
def storyRef : String := "stories"

/-- The folder of the media of messages. -/
def mediaRef : String := "media"

/-- The path below another one. The one of the root is empty. -/
def child (object path : List Char) : List Char :=
  if path = [] then object
  else standardized '/' (if object = [] then path else object ++ '/' :: path)

variable {D : Type}

/-- Putting data in a folder. -/
def putData (ref : String) (data : D) (fileExtension fileName : String) (userID : UID) :
    PutData D :=
  let name := userID ++ "_" ++ NSTimeIntervalSince1970 ++ "_" ++ fileName ++ "." ++ fileExtension
  ⟨child (child [] ref.toList) name.toList, data⟩

/-- The extension of the name of an asset. -/
def fileExtension (mediaType : MediaType) : String := if mediaType = .image then "jpg" else "mp4"

/-- The upload of the picture of a profile. -/
def uploadImageToStorage (data : D) (fileName : String) (userID : UID) : PutData D :=
  putData imagesRef data "jpg" fileName userID

/-- The upload of a story. -/
def uploadStory (data : D) (mediaType : MediaType) (fileName : String) (userID : UID) :
    PutData D := putData storyRef data (fileExtension mediaType) fileName userID

/-- The upload of the media of a message. -/
def uploadMedia (data : D) (mediaType : MediaType) (fileName : String) (userID : UID) :
    PutData D := putData mediaRef data (fileExtension mediaType) fileName userID

end StorageService

/-- The calls of the storage service. -/
inductive StorageCall (D : Type)
  | uploadImageToStorage (data : D) (fileName : String) (userID : UID)
  | uploadStory (data : D) (mediaType : MediaType) (fileName : String) (userID : UID)
  | uploadMedia (data : D) (mediaType : MediaType) (fileName : String) (userID : UID)
  deriving DecidableEq, Repr

variable {D : Type}

namespace StorageCall

/-- What a call puts where. -/
def putData : StorageCall D → PutData D
  | uploadImageToStorage data fileName userID =>
    StorageService.uploadImageToStorage data fileName userID
  | uploadStory data mediaType fileName userID =>
    StorageService.uploadStory data mediaType fileName userID
  | uploadMedia data mediaType fileName userID =>
    StorageService.uploadMedia data mediaType fileName userID

/-- The call uploads what a story or a message is to refer to. -/
def IsAsset : StorageCall D → Prop
  | uploadImageToStorage _ _ _ => False
  | uploadStory _ _ _ _ | uploadMedia _ _ _ _ => True

end StorageCall

/-- The objects stored: the data under each path, if there is any. -/
abbrev Objects (D : Type) := List Char → Option D

/-- The objects after a call. -/
def nextObjects (s : Objects D) (call : StorageCall D) : Objects D :=
  Function.update s call.putData.path (some call.putData.data)

/-- Deleting the object that a URL refers to: whether it succeeds, which it does not
    if there is none, and the objects then. -/
def StorageService.removeImageFromStorage (reference : String → List Char) (imageURL : String)
    (error : Option String) (s : Objects D) : Bool × Objects D :=
  if error = none ∧ (s (reference imageURL)).isSome then
    (true, Function.update s (reference imageURL) none)
  else (false, s)

/-- A picture or a video to be uploaded. -/
structure UploadAsset (D : Type) where
  data : D
  mediaType : MediaType

/-- The uploads of a story of the user `uid`. -/
def StoryService.uploadStory (uid : UID) (uploadAsset : UploadAsset D) (title : String) :
    List (StorageCall D) :=
  [.uploadStory uploadAsset.data uploadAsset.mediaType title uid]

/-- The uploads of a message to the user `userID`: of what it carries, if it has a
    title, and of a picture for a video, if one is generated. -/
def SendMediaMessageViewController.onSendButtonTapped (uploadAsset : UploadAsset D)
    (thumbnailData : Option D) (title : String) (userID : UID) : List (StorageCall D) :=
  if title.length > 0 then
    .uploadMedia uploadAsset.data uploadAsset.mediaType title userID ::
      match uploadAsset.mediaType, thumbnailData with
      | .video, some thumbnailData =>
        [.uploadMedia thumbnailData .image (title ++ "_thumbnail") userID]
      | _, _ => []
  else []

/-! ## Paths -/

/-- What is left of the id of a user in a path. -/
def userPart (userID : UID) : List Char := collapse '/' (userID.toList.dropWhile (· = '/'))

/-- What is left of a title. -/
def namePart (fileName : String) : List Char := collapse '/' fileName.toList

/-- The time in a path. -/
def timePart : List Char := NSTimeIntervalSince1970.toList

/-- The string is a component of a path. -/
structure IsComponent (s : String) : Prop where
  ne_nil : s.toList ≠ []
  notMem : '/' ∉ s.toList

theorem child_root {ref : String} (href : IsComponent ref) :
    StorageService.child [] ref.toList = ref.toList := by
  rw [StorageService.child, if_neg href.ne_nil, if_pos rfl, standardized,
    List.splitOn_eq_singleton href.notMem, List.filter_cons_of_pos (by simpa using href.ne_nil),
    List.filter_nil, List.intercalate_singleton]

theorem isComponent_fileExtension (mediaType : MediaType) :
    IsComponent (StorageService.fileExtension mediaType) := by
  cases mediaType <;> exact ⟨by decide, by decide⟩

theorem isComponent_imagesRef : IsComponent StorageService.imagesRef := ⟨by decide, by decide⟩

theorem isComponent_storyRef : IsComponent StorageService.storyRef := ⟨by decide, by decide⟩

theorem isComponent_mediaRef : IsComponent StorageService.mediaRef := ⟨by decide, by decide⟩

/-- The path of an upload: between the folder and the extension, the user, the
    time and the title, with one slash for each run of slashes. -/
theorem path_putData {ref fileExtension fileName : String} {data : D} {userID : UID}
    (href : IsComponent ref) (hext : IsComponent fileExtension) :
    (StorageService.putData ref data fileExtension fileName userID).path =
      ref.toList ++ '/' :: (userPart userID ++ '_' :: timePart ++
        '_' :: (namePart fileName ++ '.' :: fileExtension.toList)) := by
  have hname : (userID ++ "_" ++ NSTimeIntervalSince1970 ++ "_" ++ fileName ++ "." ++
      fileExtension).toList = userID.toList ++ ('_' :: timePart ++
        '_' :: (fileName.toList ++ '.' :: fileExtension.toList)) := by
    simp [timePart]
  have hlast : (userID.toList ++ ('_' :: timePart ++
      '_' :: (fileName.toList ++ '.' :: fileExtension.toList))).getLast? ≠ some '/' := by
    intro h
    have hassoc : userID.toList ++ ('_' :: timePart ++ '_' :: (fileName.toList ++
        '.' :: fileExtension.toList)) = (userID.toList ++ ('_' :: timePart ++
          '_' :: (fileName.toList ++ ['.']))) ++ fileExtension.toList := by
      simp
    rw [hassoc, List.getLast?_append_of_ne_nil _ hext.ne_nil] at h
    exact hext.notMem (List.mem_of_getLast? h)
  have hdrop : (userID.toList ++ ('_' :: timePart ++ '_' :: (fileName.toList ++
      '.' :: fileExtension.toList))).dropWhile (· = '/') =
        userID.toList.dropWhile (· = '/') ++ ('_' :: timePart ++ '_' :: (fileName.toList ++
          '.' :: fileExtension.toList)) := by
    rw [List.dropWhile_append]
    split_ifs with hnil
    · rw [List.isEmpty_iff.1 hnil]
      rfl
    · rfl
  have hmark : '/' ∉ '_' :: timePart ++ ['_'] := by decide
  have hdot : '/' ∉ '.' :: fileExtension.toList := by simpa using hext.notMem
  rw [StorageService.putData, hname, child_root href, StorageService.child, if_neg (by simp),
    if_neg href.ne_nil, standardized_append href.ne_nil href.notMem hlast (by simp), hdrop,
    collapse_append (by simp)]
  have hrest : collapse '/' ('_' :: timePart ++ '_' :: (fileName.toList ++
      '.' :: fileExtension.toList)) = '_' :: timePart ++
        '_' :: (namePart fileName ++ '.' :: fileExtension.toList) := by
    rw [List.append_cons (_ :: timePart), collapse_append_of_notMem hmark,
      collapse_append (by simp), collapse_of_notMem hdot, ← List.append_cons]
    rfl
  simp only [hrest, userPart, List.append_assoc]

end YoYo.Storage
