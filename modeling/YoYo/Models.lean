import YoYo.DocStore.Collection

/-!
# Models

The data the app keeps in its store: lists of friends, messages, stories and
profiles of users, as the values its code handles, and as the documents these
are written to and decoded from.

A document is its fields, of which any may be missing or malformed. Encoding a
value writes all of its fields but the id, which a decoded value gets from its
document. (A message or a story has an id once it is decoded, and only then: a
decoded one is a `Doc`, the value under its id; so is a profile.)
-/

namespace YoYo

open DocStore

/-- The ids of users. -/
abbrev UID := String

/-- The ids of documents, of which only the order matters. -/
abbrev DocID := ℕ

/-- Points in time. -/
abbrev Date := ℤ

/-- The id generator taking the first number above those in use. -/
def succId : AutoId DocID where
  next ids := ids.foldr max 0 + 1
  next_notMem ids h := by
    have hle : ∀ (ids : List DocID), ∀ id ∈ ids, id ≤ ids.foldr max 0 := by
      intro ids
      induction ids with
      | nil => simp
      | cons a ids ih =>
        intro id hid
        rcases List.mem_cons.1 hid with rfl | hid
        · exact le_max_left _ _
        · exact (ih id hid).trans (le_max_right _ _)
    exact absurd (hle ids _ h) (Nat.not_succ_le_self _)

/-! ## Friends -/

/-- What an entry of a friends list says about its friend. -/
inductive FriendStatus
  | requestSend
  | requested
  | accpeted
  | blocked
  | unblock
  deriving DecidableEq, Repr

/-- An entry of a friends list. -/
structure Friend where
  uid : UID
  date : Date
  status : FriendStatus
  deriving DecidableEq, Repr

/-- The friends list of the user `uid`, under the id of its document if it has one. -/
structure FriendsList where
  id : Option DocID
  uid : UID
  friends : List Friend
  deriving DecidableEq, Repr

/-- The documents of the collection `friends`. -/
structure FriendsDoc where
  uid : DocField UID
  friends : DocField (List Friend)
  deriving DecidableEq, Repr

namespace FriendsList

/-- The document of a friends list. -/
def encode (l : FriendsList) : FriendsDoc := ⟨.value l.uid, .value l.friends⟩

/-- The friends list of a document, if it decodes. -/
def decode (d : Doc DocID FriendsDoc) : Option FriendsList :=
  match d.data.uid.required, d.data.friends.required with
  | some uid, some friends => some ⟨some d.id, uid, friends⟩
  | _, _ => none

@[simp] theorem decode_encode (id : DocID) (l : FriendsList) :
    decode ⟨id, l.encode⟩ = some { l with id := some id } := rfl

/-- A decoded list has the id of its document, and its owner. -/
theorem of_decode {d : Doc DocID FriendsDoc} {l : FriendsList} (h : decode d = some l) :
    l.id = some d.id ∧ d.data.uid = .value l.uid := by
  rw [decode] at h
  split at h
  · rename_i uid friends huid _
    cases h
    refine ⟨rfl, ?_⟩
    cases hd : d.data.uid <;> simp_all [DocField.required]
  · cases h

end FriendsList

/-! ## Messages -/

/-- What a message carries. -/
inductive MessageType
  | plain
  | image
  | video
  | audio
  deriving DecidableEq, Repr

/-- Whether the receiver of a message has seen it. -/
inductive MessageStatus
  | send
  | seen
  deriving DecidableEq, Repr

/-- A message. -/
structure Message where
  senderID : UID
  receiverID : UID
  date : Date
  messageType : MessageType
  messageStatus : MessageStatus
  message : Option String
  assetURL : Option String
  thumbnailURL : Option String
  deriving DecidableEq, Repr

/-- The documents of the collection `messages`. -/
structure MessageDoc where
  senderID : DocField UID
  receiverID : DocField UID
  date : DocField Date
  messageType : DocField MessageType
  messageStatus : DocField MessageStatus
  message : DocField String
  assetURL : DocField String
  thumbnailURL : DocField String
  deriving DecidableEq, Repr

namespace Message

/-- The document of a message. -/
def encode (m : Message) : MessageDoc where
  senderID := .value m.senderID
  receiverID := .value m.receiverID
  date := .value m.date
  messageType := .value m.messageType
  messageStatus := .value m.messageStatus
  message := .ofOption m.message
  assetURL := .ofOption m.assetURL
  thumbnailURL := .ofOption m.thumbnailURL

/-- The message of a document, if it decodes: what it says and what is attached
    to it may be missing. -/
def decode (d : MessageDoc) : Option Message := do
  let senderID ← d.senderID.required
  let receiverID ← d.receiverID.required
  let date ← d.date.required
  let messageType ← d.messageType.required
  let messageStatus ← d.messageStatus.required
  let message ← d.message.optional
  let assetURL ← d.assetURL.optional
  let thumbnailURL ← d.thumbnailURL.optional
  some { senderID, receiverID, date, messageType, messageStatus, message, assetURL, thumbnailURL }

@[simp] theorem decode_encode (m : Message) : decode m.encode = some m := by
  simp [decode, encode]

/-- The message of a document that decodes says who has sent it and to whom, as
    the queries see it. -/
theorem users_of_decode {d : MessageDoc} {m : Message} (hd : decode d = some m) :
    d.senderID = .value m.senderID ∧ d.receiverID = .value m.receiverID := by
  simp only [decode, Option.bind_eq_bind, Option.bind_eq_some_iff, Option.some.injEq] at hd
  obtain ⟨senderID, hsender, receiverID, hreceiver, -, -, -, -, -, -, -, -, -, -, -, -, rfl⟩ := hd
  exact ⟨DocField.required_eq_some_iff.1 hsender, DocField.required_eq_some_iff.1 hreceiver⟩

end Message

/-! ## Stories -/

/-- What a story shows. -/
inductive MediaType
  | image
  | video
  deriving DecidableEq, Repr

/-- A story of the user `uid`. -/
structure Story where
  uid : UID
  title : String
  expiryDate : Date
  assetURL : String
  viewedBy : List UID
  mediaType : MediaType
  deriving DecidableEq, Repr

/-- The documents of the collection `stories`. -/
structure StoryDoc where
  uid : DocField UID
  title : DocField String
  expiryDate : DocField Date
  assetURL : DocField String
  viewedBy : DocField (List UID)
  mediaType : DocField MediaType
  deriving DecidableEq, Repr

namespace Story

/-- The document of a story. -/
def encode (s : Story) : StoryDoc where
  uid := .value s.uid
  title := .value s.title
  expiryDate := .value s.expiryDate
  assetURL := .value s.assetURL
  viewedBy := .value s.viewedBy
  mediaType := .value s.mediaType

/-- The story of a document, if it decodes. -/
def decode (d : StoryDoc) : Option Story := do
  let uid ← d.uid.required
  let title ← d.title.required
  let expiryDate ← d.expiryDate.required
  let assetURL ← d.assetURL.required
  let viewedBy ← d.viewedBy.required
  let mediaType ← d.mediaType.required
  some { uid, title, expiryDate, assetURL, viewedBy, mediaType }

@[simp] theorem decode_encode (s : Story) : decode s.encode = some s := by
  simp [decode, encode]

/-- The story of a document that decodes says whose it is, as the query sees it. -/
theorem uid_of_decode {d : StoryDoc} {a : Story} (hd : decode d = some a) :
    d.uid = .value a.uid := by
  cases huid : d.uid with
  | value uid =>
    rw [decode] at hd
    simp only [huid, DocField.required, Option.bind_eq_bind, Option.bind_some,
      Option.bind_eq_some_iff, Option.some.injEq] at hd
    obtain ⟨_, -, _, -, _, -, _, -, _, -, rfl⟩ := hd
    rfl
  | _ => simp [decode, huid, DocField.required] at hd

end Story

/-! ## Users -/

/-- The profile of the user `userID`. -/
structure UserModel where
  name : String
  dob : Date
  profilePictureURL : String
  userID : UID
  userEmail : String
  deriving DecidableEq, Repr

/-- The documents of the collection `users`. -/
structure UserDoc where
  name : DocField String
  dob : DocField Date
  profilePictureURL : DocField String
  userID : DocField UID
  userEmail : DocField String
  deriving DecidableEq, Repr

namespace UserModel

/-- The document of a profile. -/
def encode (u : UserModel) : UserDoc where
  name := .value u.name
  dob := .value u.dob
  profilePictureURL := .value u.profilePictureURL
  userID := .value u.userID
  userEmail := .value u.userEmail

/-- The profile of a document, if it decodes. -/
def decode (d : UserDoc) : Option UserModel := do
  let name ← d.name.required
  let dob ← d.dob.required
  let profilePictureURL ← d.profilePictureURL.required
  let userID ← d.userID.required
  let userEmail ← d.userEmail.required
  some { name, dob, profilePictureURL, userID, userEmail }

@[simp] theorem decode_encode (u : UserModel) : decode u.encode = some u := by
  simp [decode, encode]

/-- A document that decodes says nothing but what its profile does. -/
theorem encode_of_decode {d : UserDoc} {u : UserModel} (hd : decode d = some u) : u.encode = d := by
  simp only [decode, Option.bind_eq_bind, Option.bind_eq_some_iff, Option.some.injEq,
    DocField.required_eq_some_iff] at hd
  obtain ⟨name, hname, dob, hdob, url, hurl, userID, huid, userEmail, hemail, rfl⟩ := hd
  rw [encode, ← hname, ← hdob, ← hurl, ← huid, ← hemail]

/-- The profile of a document that decodes says whose it is, as the query sees it. -/
theorem userID_of_decode {d : UserDoc} {u : UserModel} (hd : decode d = some u) :
    d.userID = .value u.userID := by
  cases huid : d.userID with
  | value uid =>
    rw [decode] at hd
    simp only [huid, DocField.required, Option.bind_eq_bind, Option.bind_some,
      Option.bind_eq_some_iff, Option.some.injEq] at hd
    obtain ⟨_, -, _, -, _, -, _, -, rfl⟩ := hd
    rfl
  | _ => simp [decode, huid, DocField.required] at hd

end UserModel

/-- Decoding the documents of a snapshot: those that fail to are left out. -/
def decodeAll {α β : Type} (decode : α → Option β) (docs : List (Doc DocID α)) :
    List (Doc DocID β) :=
  docs.filterMap fun d => (decode d.data).map (Doc.mk d.id)

end YoYo
