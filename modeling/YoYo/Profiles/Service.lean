import YoYo.DocStore.Prog
import YoYo.Models

/-!
# Profiles

The operations on the profiles of users, on the collection `users`: one is saved
when its user signs up, and read in queries by the id of the user.

A user changes his name or his picture in two steps, as a program calling the
collection: his profile is read (`fetch`), and the whole of it is written back
(`changeName`, `updateProfileURL`). A user without a profile makes them trap.
-/

namespace YoYo

open DocStore

/-- The collection `users`. -/
abbrev UsersStore := Collection DocID UserDoc

/-- The document is the profile of the user: the query for a single profile. -/
def profileOfUser (userID : UID) (d : UserDoc) : Bool := d.userID.is userID

/-- The document is the profile of somebody else: there is a user, another one. -/
def profileOfOther (userID : UID) (d : UserDoc) : Bool :=
  d.userID ≠ .missing && !d.userID.is userID

/-- The calls on the collection `users`. -/
abbrev UsersCall := Call DocID UID UserDoc

/-- How an update of a profile ends for the one performing it. -/
inductive UpdateReport
  | completed (success : Bool)
  | trapped
  deriving DecidableEq, Repr

/-- The programs updating a profile. -/
abbrev UsersProg := Prog UsersCall Answer UpdateReport

namespace DatabaseService

/-- Saving a profile, to a new document. -/
def saveUserModel (g : AutoId DocID) (user : UserModel) (s : UsersStore) : UsersStore :=
  s.addDocument g user.encode

/-- The profile of a user: the first of the documents of the user that decodes, if any does. -/
def fetchUserModel (userID : UID) (s : UsersStore) : Option (Doc DocID UserModel) :=
  (decodeAll UserModel.decode (s.query (profileOfUser userID))).head?

/-- The profiles of the other users that match a search, by their name or their
    e-mail, given how strings are searched. -/
def fetchUserProfiles (lowercased : String → String) (contains : String → String → Bool)
    (uid : UID) (withSearchString : String) (s : UsersStore) : List (Doc DocID UserModel) :=
  (decodeAll UserModel.decode (s.query (profileOfOther uid))).filter fun profile =>
    contains (lowercased profile.data.name) (lowercased withSearchString) ||
      contains profile.data.userEmail (lowercased withSearchString)

/-- Updating the profile of a user: the first document of the user is read, and
    written back with the change `set`. Unwrapping it traps if it does not decode. -/
def updateUserModel (set : UserModel → UserModel) (uid : UID) : UsersProg :=
  .call (.getDocuments uid) fun
    | none => .done (.completed false)
    | some documents =>
      match (decodeAll UserModel.decode (documents.take 1)).head? with
      | none => .done .trapped
      | some myProfile =>
        .call (.setData myProfile.id (set myProfile.data).encode) fun success =>
          .done (.completed success)

/-- Changing the name of a user. -/
def changeName (uid : UID) (name : String) : UsersProg :=
  updateUserModel (fun myProfile => { myProfile with name }) uid

/-- Changing the picture of a user. -/
def updateProfileURL (uid : UID) (imageURL : String) : UsersProg :=
  updateUserModel (fun myProfile => { myProfile with profilePictureURL := imageURL }) uid

end DatabaseService

end YoYo
