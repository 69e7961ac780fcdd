import Mathlib.Data.List.Sort
import YoYo.DocStore.Listener
import YoYo.DocStore.Run
import YoYo.Models

/-!
# The messaging service

The operations on messages, on the collection `messages`: a message is saved as
a new document, and whoever it was sent to marks it as seen by writing the whole
of his copy back. The messages of two users are read in two queries, by their
senders.
-/

namespace YoYo

open DocStore

/-- The collection `messages`. -/
abbrev MessagesStore := Collection DocID MessageDoc

/-- A message as it was read: the value under its id. -/
abbrev Copy := Doc DocID Message

/-- A message, seen. -/
def Message.seen (m : Message) : Message := { m with messageStatus := .seen }

theorem Message.seen_of_seen {m : Message} (h : m.messageStatus = .seen) : m.seen = m := by
  cases m
  cases h
  rfl

/-- In the order of their dates. -/
def sortedByDate (messages : List Copy) : List Copy :=
  messages.insertionSort fun a b => a.data.date ≤ b.data.date

/-- The documents of messages sent by the user `uid`: the query of fetches and listeners. -/
def sentBy (uid : UID) (d : MessageDoc) : Bool := d.senderID.is uid

/-- Among the messages of a snapshot, those sent to the user `uid`. -/
def receivedBy (uid : UID) (docs : List (Doc DocID MessageDoc)) : List Copy :=
  (decodeAll Message.decode docs).filter fun message => message.data.receiverID = uid

namespace DatabaseService

/-- Saving a message, to a new document. -/
def saveMessage (g : AutoId DocID) (message : Message) (s : MessagesStore) : MessagesStore :=
  s.addDocument g message.encode

/-- One of the writes of `updateMessageToSeen`: of a message to its document. -/
def updateMessageToSeen (message : Copy) (s : MessagesStore) : MessagesStore :=
  s.setData message.id message.data.encode

/-- The messages of a conversation, given the results of the two queries: those
    `sent` by one of its users, and those `received`, sent by the other. -/
def fetchMessages (sent received : List Copy) : List Copy := sortedByDate (sent ++ received)

/-- What the handler of a listener hands on of the changes: the messages added
    that the user `receiverUID` has received, in the order of their dates, and
    those modified, of which it may hand on the ones seen only. -/
def readChanges (receiverUID : UID) (onlySeen : Bool) (changes : List (Change DocID MessageDoc)) :
    List Copy × List Copy :=
  (sortedByDate (receivedBy receiverUID (documentsOf .added changes)),
    (receivedBy receiverUID (documentsOf .modified changes)).filter fun message =>
      onlySeen → message.data.messageStatus = .seen)

/-- The handler of the listener on one's own messages. -/
def listener1 (friendUID : UID) : List (Change DocID MessageDoc) → List Copy × List Copy :=
  readChanges friendUID true

/-- The handler of the listener on the messages of the friend. -/
def listener2 (myUID : UID) : List (Change DocID MessageDoc) → List Copy × List Copy :=
  readChanges myUID false

end DatabaseService

namespace MessagingService

/-- The message of a user signed in as `uid`, at the time `now`. -/
def sendMessage (uid : UID) (msg : Option String) (receiverID : UID) (messageType : MessageType)
    (assetURL : Option String) (now : Date) : Message where
  senderID := uid
  receiverID := receiverID
  date := now
  messageType := messageType
  messageStatus := .send
  message := msg
  assetURL := assetURL
  thumbnailURL := none

/-- Of the messages given, those the user `uid` has received and not seen yet,
    as seen: they are to be written one by one. -/
def changeMessageStatusToSeen (uid : UID) (messages : List Copy) : List Copy :=
  (messages.filter fun message =>
    message.data.receiverID = uid ∧ message.data.messageStatus = .send).map
      fun message => ⟨message.id, message.data.seen⟩

end MessagingService

end YoYo
