import YoYo.Messages.Receipts
import YoYo.Messages.View

/-!
# Following a conversation

The conversation view of a user: the array it shows, the two listeners it has
while it is visible, and the fetch it starts when it is loaded, which makes one
query after the other and then replies with the results of both. Snapshots of
the listeners are taken and delivered, the queries are answered and the view
disappears and appears again in any order, while any clients save messages and
mark them as seen.

* `Conversation.next`: the view, event by event;
* `Conversation.Sane`: whatever the view shows, the listeners have been
  delivered, or is on its way, are messages of the two users as they once were.
-/

namespace YoYo

open DocStore

/-- The two users of a conversation. -/
structure Parties where
  myUID : UID
  friendUID : UID
  ne : myUID ≠ friendUID

/-- The two listeners. -/
inductive Source
  | listener1
  | listener2
  deriving DecidableEq, Repr

namespace Parties

/-- Whose messages a listener is on. -/
def sender (c : Parties) : Source → UID
  | .listener1 => c.myUID
  | .listener2 => c.friendUID

/-- For whom the messages are that its handler hands on. -/
def receiver (c : Parties) : Source → UID
  | .listener1 => c.friendUID
  | .listener2 => c.myUID

/-- The handler of a listener. -/
def handler (c : Parties) : Source → List (Change DocID MessageDoc) → List Copy × List Copy
  | .listener1 => DatabaseService.listener1 c.friendUID
  | .listener2 => DatabaseService.listener2 c.myUID

/-- The query of a listener. -/
def query (c : Parties) (i : Source) (s : MessagesStore) : List (Doc DocID MessageDoc) :=
  s.query (sentBy (c.sender i))

/-- The message is one of the two users for the other. -/
def Between (c : Parties) (m : Message) : Prop :=
  ∃ i, m.senderID = c.sender i ∧ m.receiverID = c.receiver i

end Parties

/-- How far the fetch has got: before its first query, having the messages of
    the user, having those of both, or completed. -/
inductive Fetch
  | started
  | fetchedMine (myMessages : List Copy)
  | fetched (messages : List Copy)
  | completed
  deriving DecidableEq

/-- What the fetch has read. -/
def Fetch.messages : Fetch → List Copy
  | started | completed => []
  | fetchedMine messages | fetched messages => messages

/-- The fetch has got the messages of both users. -/
def Fetch.isFetched : Fetch → Bool
  | fetched _ => true
  | _ => false

theorem Fetch.exists_of_isFetched {f : Fetch} (h : f.isFetched) :
    ∃ messages, f = .fetched messages := by
  cases f with
  | fetched messages => exact ⟨messages, rfl⟩
  | _ => cases h

/-- The messages of all users, and the view of one conversation. -/
structure Conversation where
  world : Messages
  messages : List Copy
  listeners : Option (Source → Listener DocID MessageDoc)
  fetch : Fetch

/-- What happens to a conversation. -/
inductive ConversationEvent
  | messages (e : MessagesEvent)
  | viewWillAppear
  | viewWillDisappear
  | fetchMine
  | fetchFriends
  | fetchMessagesCompleted
  | snapshot (i : Source)
  | deliver (i : Source)

namespace Conversation

/-- The view is loaded: it shows nothing yet, and its fetch is started. -/
def viewDidLoad (world : Messages) : Conversation := ⟨world, [], none, .started⟩

/-- The store now. -/
abbrev store (st : Conversation) : MessagesStore := st.world.store

/-- Something is delivered to the view: its handler changes the array, and may
    mark the messages in it as seen. -/
def receive (c : Parties) (st : Conversation) (d : Delivery) : Conversation :=
  { st with
    messages := d.shown st.messages
    world :=
      if d.marks then st.world.changeMessageStatusToSeen c.myUID (d.shown st.messages)
      else st.world }

/-- A listener of the view, if it is visible. -/
def listener (st : Conversation) (i : Source) : Option (Listener DocID MessageDoc) :=
  st.listeners.map fun listeners => listeners i

/-- The listener `i` changes. -/
def setListener (st : Conversation) (i : Source) (l : Listener DocID MessageDoc) : Conversation :=
  { st with listeners := st.listeners.map fun listeners => Function.update listeners i l }

/-- The listener `i`, having delivered `delivered`, delivers `docs`, the snapshots
    in `queue` being on their way still: its handler hands on what has changed. -/
def deliver (c : Parties) (st : Conversation) (i : Source)
    (delivered docs : List (Doc DocID MessageDoc)) (queue : List (List (Doc DocID MessageDoc))) :
    Conversation :=
  let (newMessages, modifiedMessages) := c.handler i (documentChanges delivered docs)
  (((st.setListener i ⟨docs, queue⟩).receive c (.newMessageDetected newMessages)).receive c
    (.modifiedMessageDetected modifiedMessages))

/-- The next state. -/
def next (g : AutoId DocID) (c : Parties) (st : Conversation) : ConversationEvent → Conversation
  | .messages e => { st with world := st.world.next g e }
  | .viewWillAppear => { st with listeners := some fun _ => .registered }
  | .viewWillDisappear => { st with listeners := none }
  -- The two queries of a fetch come one after the other, and then its completion.
  | .fetchMine =>
    match st.fetch with
    | .started =>
      { st with fetch := .fetchedMine (receivedBy c.friendUID (c.query .listener1 st.store)) }
    | _ => st
  | .fetchFriends =>
    match st.fetch with
    | .fetchedMine myMessages =>
      let friendMessages := receivedBy c.myUID (c.query .listener2 st.store)
      { st with fetch := .fetched (DatabaseService.fetchMessages myMessages friendMessages) }
    | _ => st
  | .fetchMessagesCompleted =>
    match st.fetch with
    | .fetched messages =>
      receive c { st with fetch := .completed } (.fetchMessagesCompleted messages)
    | _ => st
  | .snapshot i =>
    match st.listener i with
    | some l => st.setListener i (l.snapshot (c.query i st.store))
    | none => st
  | .deliver i =>
    match st.listener i with
    | some ⟨delivered, docs :: queue⟩ => st.deliver c i delivered docs queue
    | _ => st

/-- What happens to the messages is possible, the view appears if it is not
    visible, and the fetch completes once it has got the messages of both. -/
def Allowed (st : Conversation) : ConversationEvent → Prop
  | .messages e => st.world.Allowed e
  | .viewWillAppear => st.listeners.isNone
  | .fetchMessagesCompleted => st.fetch.isFetched
  | _ => True

instance (st : Conversation) : ∀ e, Decidable (st.Allowed e)
  | .messages e => inferInstanceAs (Decidable (st.world.Allowed e))
  | .viewWillAppear => inferInstanceAs (Decidable (_ = true))
  | .fetchMessagesCompleted => inferInstanceAs (Decidable (_ = true))
  | .viewWillDisappear | .fetchMine | .fetchFriends | .snapshot _ | .deliver _ => .isTrue trivial

/-- The view is visible, and everything has been delivered to it. -/
structure Settled (c : Parties) (st : Conversation) : Prop where
  fetch : st.fetch = .completed
  visible : st.listeners.isSome
  upToDate : ∀ i l, st.listener i = some l → l.UpToDate (c.query i st.store)

end Conversation

/-! ## Snapshots -/

section

variable {c : Parties} {g : AutoId DocID} {s s' : MessagesStore} {i : Source}
  {message modified : Copy} {m : Message}
  {old new docs docs' : List (Doc DocID MessageDoc)} {uid uid' : UID}

theorem Message.encode_injective {m m' : Message} (h : m.encode = m'.encode) : m = m' := by
  have := congrArg Message.decode h
  simpa using this

/-- An earlier and a later result of the query for the messages of the user
    `uid`: the documents are those of messages, and stay so, under the same ids. -/
structure SnapshotGrows (uid : UID) (old new : List (Doc DocID MessageDoc)) : Prop where
  sorted : IdSorted old
  later : ∀ d ∈ old, ∃ m m' : Message, d.data = m.encode ∧ m.senderID = uid ∧ Later m m' ∧
    ⟨d.id, m'.encode⟩ ∈ new

theorem SnapshotGrows.trans (h : SnapshotGrows uid docs docs') (h' : SnapshotGrows uid docs' new) :
    SnapshotGrows uid docs new where
  sorted := h.sorted
  later d hd := by
    obtain ⟨m, m', hdata, huid, hlater, hmem⟩ := h.later d hd
    obtain ⟨m₁, m'', hdata', -, hlater', hmem'⟩ := h'.later _ hmem
    cases Message.encode_injective hdata'
    exact ⟨m, m'', hdata, huid, hlater.trans hlater', hmem'⟩

theorem nodup_ids {α : Type} {docs : List (Doc DocID α)} (h : IdSorted docs) :
    (docs.map Doc.id).Nodup :=
  List.pairwise_map.2 (h.imp fun h => h.ne)

theorem SnapshotGrows.nil (docs : List (Doc DocID MessageDoc)) : SnapshotGrows uid [] docs where
  sorted := .nil
  later _ hd := absurd hd List.not_mem_nil

theorem mem_receivedBy {docs : List (Doc DocID MessageDoc)} :
    message ∈ receivedBy uid docs ↔
      (∃ d ∈ docs, d.id = message.id ∧ Message.decode d.data = some message.data) ∧
        message.data.receiverID = uid := by
  rw [receivedBy, decodeAll, List.mem_filter, List.mem_filterMap]
  refine and_congr (exists_congr fun d => and_congr_right fun _ => ?_) (by simp)
  rw [Option.map_eq_some_iff]
  constructor
  · rintro ⟨m, hm, rfl⟩
    exact ⟨rfl, hm⟩
  · rintro ⟨hid, hm⟩
    exact ⟨_, hm, by rw [hid]⟩

/-- All documents of the store are those of messages. -/
def Encoded (s : MessagesStore) : Prop := ∀ d ∈ s.docs, ∃ m : Message, d.data = m.encode

theorem messageOf_eq_some_iff (hs : Encoded s) {id : DocID} :
    messageOf s id = some m ↔ ⟨id, m.encode⟩ ∈ s.docs := by
  rw [messageOf, Option.bind_eq_some_iff]
  constructor
  · rintro ⟨d, hd, hm⟩
    have hmem := Collection.get?_eq_some_iff.1 hd
    obtain ⟨m', rfl : d = m'.encode⟩ := hs _ hmem
    rw [Message.decode_encode, Option.some.injEq] at hm
    exact hm ▸ hmem
  · exact fun h => ⟨_, Collection.get?_eq_some_iff.2 h, Message.decode_encode m⟩

theorem sentBy_encode : sentBy uid m.encode ↔ m.senderID = uid := by
  simp [sentBy, Message.encode]

/-- Results of the query grow with the store. -/
theorem snapshotGrows_query (hs : Encoded s) (hs' : Encoded s') (h : Grows s s') :
    SnapshotGrows uid (s.query (sentBy uid)) (s'.query (sentBy uid)) where
  sorted := s.sorted_query _
  later d hd := by
    obtain ⟨hd, huid⟩ := Collection.mem_query.1 hd
    obtain ⟨m, hm⟩ := hs d hd
    rw [hm, sentBy_encode] at huid
    have hmem : ⟨d.id, m.encode⟩ ∈ s.docs := hm ▸ hd
    obtain ⟨m', hm', hlater⟩ := h _ _ ((messageOf_eq_some_iff hs).2 hmem)
    refine ⟨m, m', hm, huid, hlater, Collection.mem_query.2 ⟨(messageOf_eq_some_iff hs').1 hm', ?_⟩⟩
    exact sentBy_encode.2 (hlater.senderID_eq.trans huid)

/-- The message is one of the conversation, as it was at some time before. -/
def Stored (c : Parties) (s : MessagesStore) (message : Copy) : Prop :=
  ∃ m, messageOf s message.id = some m ∧ Later message.data m ∧ c.Between message.data

theorem Stored.mono (h : Stored c s message) (hs : Grows s s') : Stored c s' message := by
  obtain ⟨m, hm, hlater, hbetween⟩ := h
  obtain ⟨m', hm', hlater'⟩ := hs _ m hm
  exact ⟨m', hm', hlater.trans hlater', hbetween⟩

/-- What a snapshot has for the conversation is stored. -/
theorem stored_of_mem (hs : Encoded s) (hdocs : SnapshotGrows (c.sender i) docs (c.query i s))
    (hmem : message ∈ receivedBy (c.receiver i) docs) : Stored c s message := by
  obtain ⟨⟨d, hd, hid, hdecode⟩, hreceiver⟩ := mem_receivedBy.1 hmem
  obtain ⟨m, m', hdata, hsender, hlater, hmem'⟩ := hdocs.later d hd
  rw [hdata, Message.decode_encode, Option.some.injEq] at hdecode
  subst hdecode
  refine ⟨m', ?_, hlater, i, hsender, hreceiver⟩
  rw [← hid]
  exact (messageOf_eq_some_iff hs).2 (Collection.mem_query.1 hmem').1

/-- A document modified is that of a message seen. -/
theorem seen_of_modified (hold : SnapshotGrows uid old new) (hnew : IdSorted new)
    (hmem : modified ∈ receivedBy uid' (documentsOf .modified (documentChanges old new))) :
    modified.data.messageStatus = .seen := by
  obtain ⟨⟨d, hd, hid, hdecode⟩, -⟩ := mem_receivedBy.1 hmem
  obtain ⟨hd, e, he, heid, hne⟩ := (mem_documentsOf_modified (nodup_ids hold.sorted)).1 hd
  obtain ⟨m, m', hdata, -, hlater, hmem'⟩ := hold.later e he
  have hdm : d = ⟨e.id, m'.encode⟩ := List.inj_on_of_nodup_map (nodup_ids hnew) hd hmem' heid.symm
  subst hdm
  rw [Message.decode_encode, Option.some.injEq] at hdecode
  rcases hlater with rfl | ⟨-, rfl⟩
  · -- Nothing has changed in it.
    exact absurd (by rw [← hdata]) hne
  · rw [← hdecode]
    rfl

/-! ## Steps -/

theorem receivedBy_mono (h : ∀ d ∈ docs, d ∈ docs') (hmem : message ∈ receivedBy uid docs) :
    message ∈ receivedBy uid docs' := by
  rw [mem_receivedBy] at *
  obtain ⟨⟨d, hd, hdata⟩, hreceiver⟩ := hmem
  exact ⟨⟨d, h d hd, hdata⟩, hreceiver⟩

theorem mem_sortedByDate {messages : List Copy} :
    message ∈ sortedByDate messages ↔ message ∈ messages :=
  List.mem_insertionSort _

theorem Parties.handler_added (c : Parties) (i : Source)
    (changes : List (Change DocID MessageDoc)) :
    (c.handler i changes).1 =
      sortedByDate (receivedBy (c.receiver i) (documentsOf .added changes)) := by
  cases i <;> rfl

/-- The fetch completes with messages in the order of their dates. -/
theorem sorted_fetchMessages (myMessages friendMessages messages : List Copy) :
    Delivery.Sorted messages
      (.fetchMessagesCompleted (DatabaseService.fetchMessages myMessages friendMessages)) :=
  dateSorted_sortedByDate _

/-- The handlers of the listeners hand on new messages in the order of their dates. -/
theorem Parties.sorted_handler (c : Parties) (i : Source) (changes : List (Change DocID MessageDoc))
    (messages : List Copy) :
    Delivery.Sorted messages (.newMessageDetected (c.handler i changes).1) := by
  rw [handler_added]
  exact dateSorted_sortedByDate _

theorem Parties.mem_handler_modified {changes : List (Change DocID MessageDoc)}
    (hmem : modified ∈ (c.handler i changes).2) :
    modified ∈ receivedBy (c.receiver i) (documentsOf .modified changes) := by
  cases i <;> exact (List.mem_filter.1 hmem).1

theorem Parties.mem_handler_modified_of_seen {changes : List (Change DocID MessageDoc)}
    (hmem : modified ∈ receivedBy (c.receiver i) (documentsOf .modified changes))
    (hseen : modified.data.messageStatus = .seen) : modified ∈ (c.handler i changes).2 := by
  cases i <;> exact List.mem_filter.2 ⟨hmem, by simp [hseen]⟩

namespace Conversation

variable {st : Conversation}

/-- What the runs keep: all that is shown, delivered or on its way is what was
    stored at some time, earlier things being from earlier times. -/
structure Sane (c : Parties) (st : Conversation) : Prop where
  world : st.world.Sane
  messages : ∀ message ∈ st.messages, Stored c st.store message
  fetched : ∀ message ∈ st.fetch.messages, Stored c st.store message
  listeners : ∀ i l, st.listener i = some l →
    l.Ordered (SnapshotGrows (c.sender i)) (c.query i st.store)

@[simp] theorem store_receive (st : Conversation) (d : Delivery) :
    (st.receive c d).store = st.store := by
  rw [receive, store]
  split_ifs <;> rfl

@[simp] theorem messages_receive (st : Conversation) (d : Delivery) :
    (st.receive c d).messages = d.shown st.messages := rfl

@[simp] theorem store_setListener (st : Conversation) (i : Source) (l : Listener DocID MessageDoc) :
    (st.setListener i l).store = st.store := rfl

@[simp] theorem messages_setListener (st : Conversation) (i : Source)
    (l : Listener DocID MessageDoc) :
    (st.setListener i l).messages = st.messages := rfl

theorem listener_setListener_self {l l' : Listener DocID MessageDoc} (hl : st.listener i = some l) :
    (st.setListener i l').listener i = some l' := by
  obtain ⟨listeners, h, -⟩ := Option.map_eq_some_iff.1 hl
  simp [setListener, listener, h]

theorem listener_setListener_of_ne {j : Source} (hji : j ≠ i) (l : Listener DocID MessageDoc) :
    (st.setListener i l).listener j = st.listener j := by
  simp only [setListener, listener]
  cases st.listeners with
  | none => rfl
  | some listeners => exact congrArg some (Function.update_of_ne hji _ _)

/-! ## What an event does -/

/-- My messages are fetched first, once. -/
theorem next_fetchMine (g : AutoId DocID) (c : Parties) (st : Conversation) :
    st.next g c .fetchMine = st ∨ st.fetch = .started ∧ st.next g c .fetchMine =
      { st with fetch := .fetchedMine (receivedBy c.friendUID (c.query .listener1 st.store)) } := by
  cases hf : st.fetch with
  | started => exact .inr ⟨rfl, by simp only [Conversation.next, hf]⟩
  | _ => exact .inl (by simp only [Conversation.next, hf])

/-- My friend's messages are fetched next. -/
theorem next_fetchFriends (g : AutoId DocID) (c : Parties) (st : Conversation) :
    st.next g c .fetchFriends = st ∨ ∃ myMessages, st.fetch = .fetchedMine myMessages ∧
      st.next g c .fetchFriends =
        { st with
          fetch := .fetched (DatabaseService.fetchMessages myMessages
            (receivedBy c.myUID (c.query .listener2 st.store))) } := by
  cases hf : st.fetch with
  | fetchedMine myMessages => exact .inr ⟨myMessages, rfl, by simp only [Conversation.next, hf]⟩
  | _ => exact .inl (by simp only [Conversation.next, hf])

/-- What has been fetched is received, once. -/
theorem next_fetchMessagesCompleted (g : AutoId DocID) (c : Parties) (st : Conversation) :
    st.next g c .fetchMessagesCompleted = st ∨ ∃ messages, st.fetch = .fetched messages ∧
      st.next g c .fetchMessagesCompleted =
        receive c { st with fetch := .completed } (.fetchMessagesCompleted messages) := by
  cases hf : st.fetch with
  | fetched messages => exact .inr ⟨messages, rfl, by simp only [Conversation.next, hf]⟩
  | _ => exact .inl (by simp only [Conversation.next, hf])

/-- A snapshot is taken for a listener that is registered. -/
theorem next_snapshot (g : AutoId DocID) (c : Parties) (st : Conversation) (i : Source) :
    st.next g c (.snapshot i) = st ∨ ∃ l, st.listener i = some l ∧
      st.next g c (.snapshot i) = st.setListener i (l.snapshot (c.query i st.store)) := by
  cases hl : st.listener i with
  | none => exact .inl (by simp only [Conversation.next, hl])
  | some l => exact .inr ⟨l, rfl, by simp only [Conversation.next, hl]⟩

/-- A listener has a snapshot on its way. -/
def Queued (st : Conversation) (i : Source) : Prop :=
  ∃ delivered docs queue, st.listener i = some ⟨delivered, docs :: queue⟩

/-- The first snapshot on its way is delivered, if there is one. -/
theorem next_deliver (g : AutoId DocID) (c : Parties) (st : Conversation) (i : Source) :
    (¬ st.Queued i ∧ st.next g c (.deliver i) = st) ∨ ∃ delivered docs queue,
      st.listener i = some ⟨delivered, docs :: queue⟩ ∧
        st.next g c (.deliver i) = st.deliver c i delivered docs queue := by
  by_cases h : st.Queued i
  · obtain ⟨delivered, docs, queue, hl⟩ := h
    exact .inr ⟨delivered, docs, queue, hl, by simp only [Conversation.next, hl]⟩
  · refine .inl ⟨h, ?_⟩
    simp only [Conversation.next]
    split
    next delivered docs queue hl => exact absurd ⟨delivered, docs, queue, hl⟩ h
    next => rfl

/-! ## What the runs keep -/

theorem sane_viewDidLoad {w : Messages} (hw : w.Sane) : (viewDidLoad w).Sane c where
  world := hw
  messages _ hmem := absurd hmem List.not_mem_nil
  fetched _ hmem := absurd hmem List.not_mem_nil
  listeners _ _ h := nomatch h

/-- What is stored only grows. -/
theorem Sane.grow (hI : st.Sane c) {w : Messages} (hw : w.Sane) (hgrows : Grows st.store w.store) :
    ({ st with world := w } : Conversation).Sane c where
  world := hw
  messages message hmem := (hI.messages message hmem).mono hgrows
  fetched message hmem := (hI.fetched message hmem).mono hgrows
  listeners i l hl := (hI.listeners i l hl).mono fun _ h =>
    h.trans (snapshotGrows_query hI.world.encoded hw.encoded hgrows)

/-- Something of what is stored is delivered. -/
theorem Sane.receive (hI : st.Sane c) {d : Delivery}
    (h : ∀ message ∈ d.shown st.messages, Stored c st.store message) : (st.receive c d).Sane c := by
  have hworld : (st.receive c d).world.Sane := by
    rw [Conversation.receive]
    split_ifs
    · refine hI.world.changeMessageStatusToSeen fun message hmem _ => ?_
      obtain ⟨m, hm, hlater, -⟩ := h message hmem
      exact ⟨m, hm, hlater⟩
    · exact hI.world
  refine ⟨hworld, fun message hmem => ?_, fun message hmem => ?_, fun i l hl => ?_⟩
  · rw [store_receive]
    exact h message hmem
  · rw [store_receive]
    exact hI.fetched message hmem
  · rw [store_receive]
    exact hI.listeners i l hl

/-- What holds of all listeners still does after one of them changes, if it
    holds of what that one has become. -/
theorem forall_listener_setListener {P : Source → Listener DocID MessageDoc → Prop}
    (hP : ∀ j l, st.listener j = some l → P j l) {l l' : Listener DocID MessageDoc}
    (hl : st.listener i = some l) (hl' : P i l') (j : Source) (l₁ : Listener DocID MessageDoc)
    (h : (st.setListener i l').listener j = some l₁) : P j l₁ := by
  by_cases hji : j = i
  · subst hji
    rw [listener_setListener_self hl, Option.some.injEq] at h
    exact h ▸ hl'
  · rw [listener_setListener_of_ne hji] at h
    exact hP j l₁ h

/-- A listener changes, its snapshots still being ordered. -/
theorem Sane.setListener (hI : st.Sane c) {l l' : Listener DocID MessageDoc}
    (hl : st.listener i = some l)
    (hl' : l'.Ordered (SnapshotGrows (c.sender i)) (c.query i st.store)) :
    (st.setListener i l').Sane c where
  world := hI.world
  messages := hI.messages
  fetched := hI.fetched
  listeners := forall_listener_setListener hI.listeners hl hl'

/-- New messages that a snapshot has are shown. -/
theorem Sane.newMessageDetected (hI : st.Sane c)
    (hdocs : SnapshotGrows (c.sender i) docs (c.query i st.store)) {newMessages : List Copy}
    (hnew : ∀ message ∈ newMessages, message ∈ receivedBy (c.receiver i) docs) :
    (st.receive c (.newMessageDetected newMessages)).Sane c := by
  refine hI.receive fun message hmem => ?_
  rw [Delivery.shown, MessageViewController.newMessageDetected_eq, List.mem_append] at hmem
  rcases hmem with hmem | hmem
  · exact hI.messages message hmem
  · exact stored_of_mem hI.world.encoded hdocs (hnew message hmem)

/-- Messages that have been seen are marked. -/
theorem Sane.modifiedMessageDetected (hI : st.Sane c) {modifiedMessages : List Copy}
    (hmodified : ∀ modified ∈ modifiedMessages, Stored c st.store modified ∧
      modified.data.messageStatus = .seen) :
    (st.receive c (.modifiedMessageDetected modifiedMessages)).Sane c := by
  refine hI.receive fun message hmem => ?_
  obtain ⟨message₀, hmem₀, rfl⟩ := List.mem_map.1 hmem
  obtain ⟨m, hm, hlater, i, hsender, hreceiver⟩ := hI.messages message₀ hmem₀
  split_ifs with hid
  · obtain ⟨modified, hmod, hid⟩ := List.mem_map.1 hid
    obtain ⟨⟨m', hm', hlater', -⟩, hseen⟩ := hmodified modified hmod
    rw [hid, hm, Option.some.injEq] at hm'
    subst hm'
    -- The message stored has been seen, too.
    have hm_seen : m.messageStatus = .seen := by rw [hlater'.eq_of_seen hseen, hseen]
    refine ⟨m, hm, .inl ?_, i, hsender, hreceiver⟩
    rw [← hlater.seen_eq, Message.seen_of_seen hm_seen]
  · exact hI.messages message₀ hmem₀

/-- What a listener delivers as new is stored. -/
theorem Sane.deliver_newMessages (hI : st.Sane c) {delivered docs : List (Doc DocID MessageDoc)}
    {queue : List (List (Doc DocID MessageDoc))}
    (hl : st.listener i = some ⟨delivered, docs :: queue⟩) :
    ((st.setListener i ⟨docs, queue⟩).receive c
      (.newMessageDetected (c.handler i (documentChanges delivered docs)).1)).Sane c := by
  have hord := hI.listeners i _ hl
  have hdocs : SnapshotGrows (c.sender i) docs (c.query i st.store) :=
    hord.rel_of_mem (List.mem_cons_of_mem _ List.mem_cons_self)
  refine (hI.setListener hl (hord.tail rfl)).newMessageDetected hdocs fun message hmem => ?_
  rw [Parties.handler_added, mem_sortedByDate, documentsOf_added] at hmem
  exact receivedBy_mono (fun d hd => (List.mem_filter.1 hd).1) hmem

/-- What a listener delivers is stored. -/
theorem Sane.deliver (hI : st.Sane c) {delivered docs : List (Doc DocID MessageDoc)}
    {queue : List (List (Doc DocID MessageDoc))}
    (hl : st.listener i = some ⟨delivered, docs :: queue⟩) :
    (st.deliver c i delivered docs queue).Sane c := by
  have hord := hI.listeners i _ hl
  have hdocs : SnapshotGrows (c.sender i) docs (c.query i st.store) :=
    hord.rel_of_mem (List.mem_cons_of_mem _ List.mem_cons_self)
  have hold : SnapshotGrows (c.sender i) delivered docs := hord.rel_of_mem_queue List.mem_cons_self
  -- Whatever is handed on as modified is in the snapshot, so that it is, or was, stored.
  have hmodified : ∀ modified ∈ (c.handler i (documentChanges delivered docs)).2,
      modified ∈ receivedBy (c.receiver i) docs ∧ modified.data.messageStatus = .seen := by
    intro modified hmem
    have hmem := Parties.mem_handler_modified hmem
    refine ⟨receivedBy_mono (fun d hd => ?_) hmem, seen_of_modified hold hdocs.sorted hmem⟩
    exact ((mem_documentsOf_modified (nodup_ids hold.sorted)).1 hd).1
  have hnew := hI.deliver_newMessages hl
  refine hnew.modifiedMessageDetected fun modified hmem => ?_
  obtain ⟨hmem, hseen⟩ := hmodified modified hmem
  exact ⟨stored_of_mem hnew.world.encoded (by simpa using hdocs) hmem, hseen⟩

/-- What the runs keep, every step keeps. -/
theorem Sane.next (hI : st.Sane c) {e : ConversationEvent} (he : st.Allowed e) :
    (st.next g c e).Sane c := by
  have hrefl : ∀ i, SnapshotGrows (c.sender i) (c.query i st.store) (c.query i st.store) :=
    fun i => snapshotGrows_query hI.world.encoded hI.world.encoded (.refl _)
  cases e with
  | messages e => exact hI.grow (hI.world.next he) (hI.world.grows_next he)
  | viewWillAppear =>
    -- New listeners start from the empty snapshot.
    refine ⟨hI.world, hI.messages, hI.fetched, fun i l hl => ?_⟩
    cases hl
    exact .registered (.nil _)
  | viewWillDisappear => exact ⟨hI.world, hI.messages, hI.fetched, fun i l hl => nomatch hl⟩
  | fetchMine =>
    rcases next_fetchMine g c st with hnext | ⟨-, hnext⟩
    · rwa [hnext]
    · rw [hnext]
      exact ⟨hI.world, hI.messages, fun message hmem =>
        stored_of_mem hI.world.encoded (hrefl .listener1) hmem, hI.listeners⟩
  | fetchFriends =>
    rcases next_fetchFriends g c st with hnext | ⟨myMessages, hf, hnext⟩
    · rwa [hnext]
    · rw [hnext]
      refine ⟨hI.world, hI.messages, fun message hmem => ?_, hI.listeners⟩
      have hmem := mem_sortedByDate.1 hmem
      -- What was fetched first is an older copy by now, and the rest is what is stored.
      rcases List.mem_append.1 hmem with hmem | hmem
      · exact hI.fetched message (by rwa [hf])
      · exact stored_of_mem hI.world.encoded (hrefl .listener2) hmem
  | fetchMessagesCompleted =>
    rcases next_fetchMessagesCompleted g c st with hnext | ⟨messages, hf, hnext⟩
    · rwa [hnext]
    · rw [hnext]
      have hdone : ({ st with fetch := .completed } : Conversation).Sane c :=
        ⟨hI.world, hI.messages, fun _ hmem => absurd hmem List.not_mem_nil, hI.listeners⟩
      exact hdone.receive fun message hmem => hI.fetched message (by rw [hf]; exact hmem)
  | snapshot i =>
    rcases next_snapshot g c st i with hnext | ⟨l, hl, hnext⟩
    · rwa [hnext]
    · rw [hnext]
      exact hI.setListener hl ((hI.listeners i l hl).snapshot (hrefl i))
  | deliver i =>
    rcases next_deliver g c st i with ⟨-, hnext⟩ | ⟨delivered, docs, queue, hl, hnext⟩
    · rwa [hnext]
    · rw [hnext]
      exact hI.deliver hl

end Conversation

end

end YoYo
