import YoYo.Messages.Opened
import YoYo.Screens.Chats

/-!
# The number of unread messages

While a conversation is open, the list of conversations is requested, which says
how many messages of each user have not been seen. Its three queries are answered
by and by: messages arrive, are shown and marked as seen meanwhile, and profiles
change.

Nevertheless there is a moment between the request and its end such that all
numbers are those of the messages unseen then (`unread_at_moment`): that of its
second query, as what its user has sent does not count. As the store only grows,
a message that has been shown in the conversation when the list is requested is
never counted.
-/

namespace YoYo.Screens

open DocStore Reads Reads.DatabaseService

/-- The messages stored that the user `uid` has sent to the user `myUID`, and that
    have not been seen. -/
def unseen (s : MessagesStore) (uid myUID : UID) : List Copy :=
  (decodeAll Message.decode s.docs).filter fun m =>
    m.data.senderID = uid ∧ m.data.receiverID = myUID ∧ m.data.messageStatus = .send

/-- A conversation that is open, the profiles stored, and a request for the list of
    conversations that is in flight. -/
structure Counting where
  conversation : Conversation
  users : Collection DocID UserDoc
  chain : Chain

/-- What happens: something to the conversation, or to the profiles, and the next
    query of the request is answered, or fails. -/
inductive CountingEvent
  | conversation (e : ConversationEvent)
  | usersChanged (users : Collection DocID UserDoc)
  | answered (failure : Option String)

namespace Counting

variable (g : AutoId DocID) (c : Parties)

/-- The list is requested. -/
def start (conversation : Conversation) (users : Collection DocID UserDoc) : Counting :=
  ⟨conversation, users, .start c.myUID⟩

/-- What the request reads: neither friends nor stories. -/
def collections (st : Counting) : Collections := ⟨.empty, st.users, .empty, st.conversation.store⟩

/-- The state after an event. -/
def next (st : Counting) : CountingEvent → Counting
  | .conversation e => { st with conversation := st.conversation.nextWriting g c e }
  | .usersChanged users => { st with users }
  | .answered failure => { st with chain := st.chain.answered failure st.collections }

/-- What happens to the conversation is possible. -/
def Allowed (st : Counting) : CountingEvent → Prop
  | .conversation e => st.conversation.Allowed e
  | .usersChanged _ | .answered _ => True

instance (st : Counting) : ∀ e, Decidable (st.Allowed e)
  | .conversation e => inferInstanceAs (Decidable (st.conversation.Allowed e))
  | .usersChanged _ | .answered _ => .isTrue trivial

end Counting

variable {g : AutoId DocID} {c : Parties} {s : MessagesStore} {uid myUID : UID}
  {messages sent received : List Copy} {st : Counting} {id : DocID}

/-! ## What is read -/

/-- The messages say of every other user what is unseen of his in the store. -/
def CountsAs (myUID : UID) (s : MessagesStore) (messages : List Copy) : Prop :=
  ∀ uid, uid ≠ myUID →
    (messages.filter fun m => m.data.senderID = uid ∧ m.data.messageStatus = .send).length =
      (unseen s uid myUID).length

/-- A message seen is not unseen. -/
theorem notMem_unseen_of_seenIn (h : SeenIn s id) (uid myUID : UID) :
    id ∉ (unseen s uid myUID).map Doc.id := by
  intro hmem
  obtain ⟨message, hmessage, rfl⟩ := List.mem_map.1 hmem
  obtain ⟨hstored, hunseen⟩ := List.mem_filter.1 hmessage
  obtain ⟨d, hd, hid, hdecode⟩ := mem_decodeAll.1 hstored
  obtain ⟨m, hm, hseen⟩ := h
  -- The document of an id is the only one.
  have hget : s.get? message.id = some d.data := Collection.get?_eq_some_iff.2 (hid ▸ hd)
  rw [messageOf, hget, Option.bind_some, hdecode, Option.some.injEq] at hm
  have hsend : message.data.messageStatus = .send := (of_decide_eq_true hunseen).2.2
  rw [← hm, hsend] at hseen
  cases hseen

/-- The messages that a query finds, among all that are stored. -/
theorem decodeAll_query {p : MessageDoc → Bool} {q : Message → Bool}
    (h : ∀ d m, Message.decode d = some m → p d = q m) (s : MessagesStore) :
    decodeAll Message.decode (s.query p) =
      (decodeAll Message.decode s.docs).filter fun m => q m.data := by
  rw [Collection.query, decodeAll, decodeAll, List.filterMap_filter, List.filter_filterMap]
  refine List.filterMap_congr fun d _ => ?_
  cases hm : Message.decode d.data with
  | none => simp
  | some m =>
    rw [h d.data m hm]
    cases hq : q m <;> simp [hq, Option.filter]

theorem decodeAll_sentTo (s : MessagesStore) (uid : UID) :
    decodeAll Message.decode (s.query (sentTo uid)) =
      (decodeAll Message.decode s.docs).filter fun m => m.data.receiverID = uid := by
  refine decodeAll_query (q := fun m => m.receiverID = uid) (fun d m hm => ?_) s
  rw [sentTo, Bool.eq_iff_iff, DocField.is_iff, (Message.users_of_decode hm).2]
  simp

/-- Whoever's messages are queried has sent what is found. -/
theorem senderID_of_mem_sentBy {message : Copy}
    (h : message ∈ decodeAll Message.decode (s.query (sentBy uid))) :
    message.data.senderID = uid := by
  obtain ⟨d, hd, -, hdecode⟩ := mem_decodeAll.1 h
  have hsent := (Collection.mem_query.1 hd).2
  rwa [sentBy, DocField.is_iff, (Message.users_of_decode hdecode).1, DocField.value.injEq] at hsent

/-- Own messages, of any time, do not count. -/
theorem countsAs_append (hsent : ∀ message ∈ sent, message.data.senderID = myUID)
    (s : MessagesStore) :
    CountsAs myUID s (sent ++ decodeAll Message.decode (s.query (sentTo myUID))) := by
  intro uid huid
  have hnone : (sent.filter fun m => m.data.senderID = uid ∧ m.data.messageStatus = .send) = [] :=
    List.filter_eq_nil_iff.2 fun message hmem hcount =>
      huid ((of_decide_eq_true hcount).1.symm.trans (hsent message hmem))
  rw [List.filter_append, hnone, List.nil_append, decodeAll_sentTo, List.filter_filter, unseen]
  congr 1
  refine List.filter_congr fun m _ => ?_
  rw [← Bool.decide_and]
  refine decide_eq_decide.2 ⟨fun h => ⟨h.1.1, h.2, h.1.2⟩, fun h => ⟨⟨h.1, h.2.2⟩, h.2.1⟩⟩

/-- The rows made of messages count as these do. -/
theorem unSeenMessages_of_countsAs {users : Collection DocID UserDoc}
    (h : CountsAs myUID s messages) {row : ChatModel} (hrow : row ∈ rowsOf myUID users messages)
    (hne : row.userModel.data.userID ≠ myUID) :
    row.unSeenMessages = (unseen s row.userModel.data.userID myUID).length := by
  obtain ⟨-, -, hdigest⟩ := mem_rowsOf.1 hrow
  rw [← h _ hne]
  exact (digest_eq_some_iff.1 hdigest).1.symm

/-! ## The request -/

/-- The rows, if the request has delivered any, count as the store does. -/
def RowsCount (myUID : UID) (s : MessagesStore) (ending : Ending) : Prop :=
  ∀ rows, ending = .delivered (.fetchChatModels rows none) → ∀ row ∈ rows,
    row.userModel.data.userID ≠ myUID →
      row.unSeenMessages = (unseen s row.userModel.data.userID myUID).length

/-- Where the request is: `stores` are those there have been since it was made, and
    one of them is what the messages it has read count as, once it has read all. -/
inductive CountingAt (myUID : UID) (stores : MessagesStore → Prop) : Chain → Prop
  | forSent : CountingAt myUID stores (.start myUID)
  | forReceived (sent : List Copy) (hsent : ∀ message ∈ sent, message.data.senderID = myUID) :
    CountingAt myUID stores ⟨awaitReceived myUID sent, sent⟩
  | forProfiles (messages : List Copy) (hne : messages ≠ []) (s : MessagesStore) (hs : stores s)
    (h : CountsAs myUID s messages) :
    CountingAt myUID stores
      ⟨Reads.MessagingService.fetchMessagesForChatView myUID messages none, messages⟩
  | ended (ending : Ending) (read : List Copy) (s : MessagesStore) (hs : stores s)
    (h : RowsCount myUID s ending) : CountingAt myUID stores ⟨.done ending, read⟩

variable {stores stores' : MessagesStore → Prop} {chain : Chain}

theorem CountingAt.mono (h : CountingAt myUID stores chain) (hle : ∀ s, stores s → stores' s) :
    CountingAt myUID stores' chain := by
  cases h with
  | forSent => exact .forSent
  | forReceived sent hsent => exact .forReceived sent hsent
  | forProfiles messages hne s hs h => exact .forProfiles messages hne s (hle s hs) h
  | ended ending read s hs h => exact .ended ending read s (hle s hs) h

/-- A request that delivers an error delivers no rows. -/
theorem countingAt_error (hs : stores s) (error : Error) (read : List Copy) :
    CountingAt myUID stores ⟨.done (.delivered (.fetchChatModels [] (some error))), read⟩ :=
  .ended _ read s hs fun _ heq => by cases heq

/-- The request goes on with all messages, or ends if there are none. -/
theorem countingAt_messages (hs : stores s) (h : CountsAs myUID s messages) :
    CountingAt myUID stores
      ⟨Reads.MessagingService.fetchMessagesForChatView myUID messages none, messages⟩ := by
  by_cases hne : messages = []
  · subst hne
    exact .ended .silent [] s hs fun _ heq => by cases heq
  · exact .forProfiles messages hne s hs h

/-- An answer, from the store now. -/
theorem CountingAt.answered (h : CountingAt myUID stores chain) (failure : Option String)
    {collections : Collections} (hs : stores collections.messages)
    (hencoded : Encoded collections.messages) :
    CountingAt myUID stores (chain.answered failure collections) := by
  have hdecode : ∀ q, decodeMessages (collections.messages.query q) =
      some (decodeAll Message.decode (collections.messages.query q)) := by
    refine fun q => decodeMessages_eq_some_iff.2 ⟨fun d hd => ?_, rfl⟩
    obtain ⟨m, hm⟩ := hencoded d (Collection.mem_query.1 hd).1
    rw [hm, Message.decode_encode]
    rfl
  cases h with
  | forSent =>
    cases failure with
    | some description => exact countingAt_error hs _ _
    | none =>
      simp only [Chain.answered, Chain.start, Reads.MessagingService.fetchChatModels,
        Reads.DatabaseService.fetchMessagesForChatView, Reads.answer, snapshotOf, Chain.readBy,
        hdecode]
      exact .forReceived _ fun message hmem => senderID_of_mem_sentBy hmem
  | forReceived sent hsent =>
    cases failure with
    | some description => exact countingAt_error hs _ _
    | none =>
      -- This is the moment: what has been received is read.
      simp only [Chain.answered, awaitReceived, Reads.answer, snapshotOf, Chain.readBy, hdecode]
      exact countingAt_messages hs (countsAs_append hsent collections.messages)
  | forProfiles messages hne s hs' h =>
    have huids : (messages.map (Reads.MessagingService.otherUser myUID)).dedup.length > 0 := by
      rw [gt_iff_lt, List.length_pos_iff, Ne, List.dedup_eq_nil, List.map_eq_nil_iff]
      exact hne
    simp only [Chain.answered, Reads.MessagingService.fetchMessagesForChatView, fetchUserModels,
      if_pos huids]
    cases failure with
    | some description => exact countingAt_error hs _ _
    | none =>
      have hrows := mapM_chatModel_eq collections myUID messages
      rw [profilesIn] at hrows
      simp only [Reads.answer, snapshotOf, Chain.readBy, hrows]
      refine .ended _ _ s hs' fun rows heq row hrow hother => ?_
      cases heq
      have hrow' : row ∈ rowsOf myUID collections.users messages := hrow
      exact unSeenMessages_of_countsAs h hrow' hother
  | ended ending read s hs' h => exact .ended ending read s hs' h

/-- Once the request has ended, the rows it has delivered count as one of the stores. -/
theorem CountingAt.of_result (h : CountingAt myUID stores chain) {ending : Ending}
    (hending : chain.prog.result = some ending) : ∃ s, stores s ∧ RowsCount myUID s ending := by
  cases h with
  | forSent => cases hending
  | forReceived => cases hending
  | forProfiles messages hne =>
    have huids : (messages.map (Reads.MessagingService.otherUser myUID)).dedup.length > 0 := by
      rw [gt_iff_lt, List.length_pos_iff, Ne, List.dedup_eq_nil, List.map_eq_nil_iff]
      exact hne
    simp only [Reads.MessagingService.fetchMessagesForChatView, fetchUserModels,
      if_pos huids] at hending
    cases hending
  | ended ending read s hs h =>
    cases hending
    exact ⟨s, hs, h⟩

/-! ## Runs -/

namespace Counting

/-- The stores there have been in the run `es` of a request. -/
def Since (g : AutoId DocID) (c : Parties) (st : Counting) (es : List CountingEvent)
    (s : MessagesStore) : Prop :=
  ∃ es₁ es₂, es = es₁ ++ es₂ ∧ (after (next g c) st es₁).conversation.store = s

theorem Since.append {es : List CountingEvent} (h : Since g c st es s)
    (es' : List CountingEvent) : Since g c st (es ++ es') s := by
  obtain ⟨es₁, es₂, rfl, hs⟩ := h
  exact ⟨es₁, es₂ ++ es', by rw [List.append_assoc], hs⟩

theorem since_after (es : List CountingEvent) :
    Since g c st es (after (next g c) st es).conversation.store :=
  ⟨es, [], (List.append_nil es).symm, rfl⟩

/-- What a run keeps: the conversation is open, its store grows, and the request is
    where it is. -/
structure Run (g : AutoId DocID) (c : Parties) (st₀ : Counting) (es : List CountingEvent)
    (st : Counting) : Prop where
  eq : st = after (next g c) st₀ es
  opened : st.conversation.Opened c
  grows : ∀ s, Since g c st₀ es s → Grows st₀.conversation.store s
  chain : CountingAt c.myUID (Since g c st₀ es) st.chain

theorem run_start {conversation : Conversation} (hopened : conversation.Opened c)
    (users : Collection DocID UserDoc) :
    Run g c (start c conversation users) [] (start c conversation users) where
  eq := rfl
  opened := hopened
  grows s hs := by
    obtain ⟨es₁, es₂, heq, rfl⟩ := hs
    obtain ⟨rfl, -⟩ := List.append_eq_nil_iff.1 heq.symm
    exact .refl _
  chain := .forSent

theorem Run.next {st₀ : Counting} {es : List CountingEvent} (h : Run g c st₀ es st)
    {e : CountingEvent} (he : st.Allowed e) : Run g c st₀ (es ++ [e]) (st.next g c e) := by
  have heq : st.next g c e = after (Counting.next g c) st₀ (es ++ [e]) := by
    rw [after_append, ← h.eq]
    rfl
  have hnow : Since g c st₀ es st.conversation.store := h.eq ▸ since_after es
  have hstep : (st.next g c e).conversation.Opened c ∧
      Grows st.conversation.store (st.next g c e).conversation.store := by
    cases e with
    | conversation e => exact ⟨(h.opened.next he).1, (h.opened.next he).2.1⟩
    | usersChanged users => exact ⟨h.opened, .refl _⟩
    | answered failure => exact ⟨h.opened, .refl _⟩
  refine ⟨heq, hstep.1, ?_, ?_⟩
  · rintro s ⟨es₁, es₂, hes, rfl⟩
    rcases List.append_eq_append_iff.1 hes with ⟨l, rfl, hl⟩ | ⟨l, rfl, rfl⟩
    · -- The store after all of the run, or before its last event.
      cases l with
      | nil => exact h.grows _ ⟨es, [], by simp, by rw [List.append_nil]⟩
      | cons e' l =>
        obtain ⟨rfl, hnil⟩ := List.cons.inj hl
        obtain ⟨rfl, -⟩ := List.append_eq_nil_iff.1 hnil.symm
        rw [← heq]
        exact (h.grows _ hnow).trans hstep.2
    · exact h.grows _ ⟨es₁, l, rfl, rfl⟩
  · have hmono : ∀ s, Since g c st₀ es s → Since g c st₀ (es ++ [e]) s := fun s hs => hs.append [e]
    cases e with
    | conversation e => exact h.chain.mono hmono
    | usersChanged users => exact h.chain.mono hmono
    | answered failure =>
      exact (h.chain.mono hmono).answered failure (hmono _ hnow) h.opened.sane.world.encoded

end Counting

/-- **There is a moment** after the list of conversations has been requested, at
    which the numbers it shows are those of the messages unseen then, of which none
    has been shown in the conversation before. -/
theorem unread_at_moment {history : List MessagesEvent} {es₀ : List ConversationEvent}
    {users : Collection DocID UserDoc} {es : List CountingEvent} {rows : List ChatModel}
    (hhistory : AllSteps (Messages.next g) Messages.Allowed .init history)
    (hes₀ : AllSteps (Conversation.nextWriting g c) Conversation.Allowed (loaded g history) es₀)
    (hes : AllSteps (Counting.next g c) Counting.Allowed
      (.start c (after (Conversation.nextWriting g c) (loaded g history) es₀) users) es)
    (hrows : (after (Counting.next g c)
      (.start c (after (Conversation.nextWriting g c) (loaded g history) es₀) users)
        es).chain.prog.result = some (.delivered (.fetchChatModels rows none))) :
    ∃ s, Counting.Since g c
        (.start c (after (Conversation.nextWriting g c) (loaded g history) es₀) users) es s ∧
      (∀ row ∈ rows, row.userModel.data.userID ≠ c.myUID →
        row.unSeenMessages = (unseen s row.userModel.data.userID c.myUID).length) ∧
      ∀ message ∈ (after (Conversation.nextWriting g c) (loaded g history) es₀).messages,
        message.data.receiverID = c.myUID →
          ∀ uid, message.id ∉ (unseen s uid c.myUID).map Doc.id := by
  have hloaded : (loaded g history).Opened c :=
    ⟨sane_loaded hhistory, fun _ hmem => absurd hmem List.not_mem_nil⟩
  have hopened := hes₀.invariant (fun _ _ hI he => (hI.next he).1) hloaded
  have hrun := hes.invariant_of_run
    (J := Counting.Run g c (.start c (after (Conversation.nextWriting g c) (loaded g history) es₀)
      users)) (fun _ _ _ h he => h.next he) (Counting.run_start hopened users)
  obtain ⟨s, hs, hcount⟩ := hrun.chain.of_result hrows
  refine ⟨s, hs, hcount rows rfl, fun message hmem hreceiver uid => ?_⟩
  exact notMem_unseen_of_seenIn ((hopened.seen message hmem hreceiver).mono (hrun.grows s hs)) uid _

/-- Bob has a profile. -/
def bobsProfile : Collection DocID UserDoc :=
  Collection.empty.setData 1 (UserModel.encode ⟨"Bob", 0, "bob.jpg", "bob", "bob@yoyo"⟩)

/-- Ann, to whom Bob's messages have been shown, requests her list, and he writes again. -/
def writesAgain : List CountingEvent :=
  [.answered none, .conversation (.messages (.sendMessage "bob" (some "?") "ann" .plain none 9)),
    .answered none, .usersChanged bobsProfile, .answered none]

/-- The list says that one message of Bob is unread: the one at some moment since. -/
theorem unread_writesAgain :
    ∃ s, Counting.Since succId annAndBob
        (.start annAndBob (after (Conversation.nextWriting succId annAndBob)
          (loaded succId bobHasWritten) openedTwice) .empty) writesAgain s ∧
      (unseen s "bob" "ann").length = 1 := by
  have hrun : AllSteps (Counting.next succId annAndBob) Counting.Allowed
      (.start annAndBob (after (Conversation.nextWriting succId annAndBob)
        (loaded succId bobHasWritten) openedTwice) .empty) writesAgain := by decide +kernel
  have hrows : (after (Counting.next succId annAndBob)
      (.start annAndBob (after (Conversation.nextWriting succId annAndBob)
        (loaded succId bobHasWritten) openedTwice) .empty) writesAgain).chain.prog.result =
      some (.delivered (.fetchChatModels
        [⟨⟨1, ⟨"Bob", 0, "bob.jpg", "bob", "bob@yoyo"⟩⟩, 1, 9⟩] none)) := by decide +kernel
  obtain ⟨s, hs, hcount, -⟩ := unread_at_moment (by decide) (by decide) hrun hrows
  exact ⟨s, hs, (hcount _ List.mem_cons_self (by decide)).symm⟩

end YoYo.Screens
