import YoYo.Messages.Once

/-!
# Opening a conversation

Whatever is shown for the first time is marked as seen by the handler showing
it, from the copy it is shown with: those of the messages received which that
copy does not have as seen are written back. A copy may have been marked before,
by a modification delivered, without a look at the status of the message
modified. But messages are only ever modified to be seen (`seen_of_modified`),
so that a copy marked is of a message seen.

So where what a handler writes reaches the store at once
(`Conversation.nextWriting`), every message that has ever been shown to the user
it was sent to is stored as seen (`marksSeen`).
-/

namespace YoYo

open DocStore

/-- The message of an id is stored as seen. -/
def SeenIn (s : MessagesStore) (id : DocID) : Prop :=
  ∃ m, messageOf s id = some m ∧ m.messageStatus = .seen

namespace Messages

/-- These writes reach the store, one by one. -/
def writeAll (g : AutoId DocID) (w : Messages) (writes : List (UID × Copy)) : Messages :=
  after (next g) w (writes.map fun write => .updateMessageToSeen write.1 write.2)

end Messages

namespace Conversation

/-- What the handlers of the view write in the step `e`. -/
def written (g : AutoId DocID) (c : Parties) (st : Conversation) : ConversationEvent →
    List (UID × Copy)
  | .messages _ => []
  | e => (st.next g c e).world.writes.drop st.world.writes.length

/-- The next state, where what the handlers of the view write has reached the
    store already. The writes of other clients arrive at any time. -/
def nextWriting (g : AutoId DocID) (c : Parties) (st : Conversation) (e : ConversationEvent) :
    Conversation :=
  let st' := st.next g c e
  { st' with world := st'.world.writeAll g (st.written g c e) }

end Conversation

variable {g : AutoId DocID} {c : Parties} {s s' : MessagesStore} {id : DocID} {message : Copy}

theorem SeenIn.mono (h : SeenIn s id) (hs : Grows s s') : SeenIn s' id := by
  obtain ⟨m, hm, hseen⟩ := h
  obtain ⟨m', hm', hlater⟩ := hs id m hm
  exact ⟨m', hm', by rw [hlater.eq_of_seen hseen, hseen]⟩

/-! ## Writes -/

namespace Messages

variable {w : Messages} {writes : List (UID × Copy)}

theorem writeAll_cons (w : Messages) (write : UID × Copy) (writes : List (UID × Copy)) :
    w.writeAll g (write :: writes) =
      (w.next g (.updateMessageToSeen write.1 write.2)).writeAll g writes := rfl

/-- Writes on their way can be made, and mark as seen what they write. -/
theorem Sane.writeAll (hI : w.Sane) (hwrites : writes.Subperm w.writes) :
    (w.writeAll g writes).Sane ∧ Grows w.store (w.writeAll g writes).store ∧
      ∀ write ∈ writes, SeenIn (w.writeAll g writes).store write.2.id := by
  induction writes generalizing w with
  | nil => exact ⟨hI, .refl _, fun _ hmem => absurd hmem List.not_mem_nil⟩
  | cons write writes ih =>
    have hmem : (write.1, write.2) ∈ w.writes := hwrites.subset List.mem_cons_self
    have hrest : writes.Subperm (w.next g (.updateMessageToSeen write.1 write.2)).writes := by
      have herase := hwrites.erase write
      rwa [List.erase_cons_head] at herase
    obtain ⟨hsane, hgrows, hseen⟩ := ih (hI.updateMessageToSeen (g := g) hmem) hrest
    have hnext := hI.grows_next (g := g) (e := .updateMessageToSeen write.1 write.2) hmem
    rw [writeAll_cons]
    refine ⟨hsane, hnext.trans hgrows, fun write' hmem' => ?_⟩
    rcases List.mem_cons.1 hmem' with rfl | hmem'
    · -- The message has just been written, as seen.
      obtain ⟨-, m, -, hdata⟩ := hI.writes _ _ hmem
      refine SeenIn.mono ⟨write'.2.data, ?_, by rw [hdata]; rfl⟩ hgrows
      exact messageOf_updateMessageToSeen.trans (if_pos rfl)
    · exact hseen write' hmem'

end Messages

/-! ## Handlers -/

namespace Conversation

variable {st st₀ : Conversation}

/-- The view has come from `st₀` by handlers that have written nothing but
    messages of its user, and of those shown have marked all he has received
    that are not stored as seen. -/
structure Marked (c : Parties) (st₀ st : Conversation) : Prop where
  store : st.store = st₀.store
  le : st₀.world.writes.length ≤ st.world.writes.length
  mine : ∀ write ∈ st.world.writes.drop st₀.world.writes.length, write.1 = c.myUID
  shown : ∀ message ∈ st.messages, message.data.receiverID = c.myUID →
    SeenIn st.store message.id ∨
      ∃ write ∈ st.world.writes.drop st₀.world.writes.length, write.2.id = message.id

/-- Whatever a handler shows that is not stored as seen, it marks if it is new. -/
theorem Marked.receive (hst : Marked c st₀ st) {d : Delivery}
    (hstored : ∀ message ∈ d.shown st.messages, Stored c st.store message)
    (hnew : d.marks = false → ∀ message ∈ d.shown st.messages,
      ∃ message₀ ∈ st.messages, message₀.id = message.id ∧
        message₀.data.receiverID = message.data.receiverID) : Marked c st₀ (st.receive c d) := by
  cases hd : d.marks with
  | false =>
    -- Nothing is written: what is shown was shown before, in whatever status.
    have hworld : (st.receive c d).world = st.world := by
      rw [Conversation.receive, hd]
      rfl
    refine ⟨by rw [store_receive, hst.store], by rw [hworld]; exact hst.le,
      by rw [hworld]; exact hst.mine, fun message hmem huid => ?_⟩
    obtain ⟨message₀, hmem₀, hid, hreceiver⟩ := hnew hd message hmem
    rw [store_receive, hworld, ← hid]
    exact hst.shown message₀ hmem₀ (hreceiver.trans huid)
  | true =>
    -- Whatever is shown, is addressed to this client and has not been seen, is written.
    have hworld : (st.receive c d).world =
        st.world.changeMessageStatusToSeen c.myUID (d.shown st.messages) := by
      rw [Conversation.receive, hd]
      rfl
    have hwrites : (st.receive c d).world.writes.drop st₀.world.writes.length =
        st.world.writes.drop st₀.world.writes.length ++
          (MessagingService.changeMessageStatusToSeen c.myUID (d.shown st.messages)).map
            fun message => (c.myUID, message) := by
      rw [hworld]
      exact List.drop_append_of_le_length hst.le
    refine ⟨by rw [store_receive, hst.store], ?_, fun write hmem => ?_, fun message hmem huid => ?_⟩
    · rw [hworld]
      exact hst.le.trans (List.sublist_append_left _ _).length_le
    · rw [hwrites] at hmem
      rcases List.mem_append.1 hmem with hmem | hmem
      · exact hst.mine write hmem
      · obtain ⟨_, -, rfl⟩ := List.mem_map.1 hmem
        rfl
    · obtain ⟨m, hm, hlater, -⟩ := hstored message hmem
      cases hstatus : message.data.messageStatus with
      | seen =>
        -- A copy marked as seen is of a message seen.
        rw [store_receive]
        exact .inl ⟨m, hm, by rw [hlater.eq_of_seen hstatus, hstatus]⟩
      | send =>
        rw [hwrites]
        refine .inr ⟨(c.myUID, ⟨message.id, message.data.seen⟩), ?_, rfl⟩
        refine List.mem_append.2 (.inr (List.mem_map_of_mem (List.mem_map.2 ⟨message, ?_, rfl⟩)))
        exact List.mem_filter.2 ⟨hmem, by simp [huid, hstatus]⟩

/-- What the view does not touch stays marked. -/
theorem Marked.of_eq (hst : Marked c st₀ st) {st' : Conversation} (hworld : st'.world = st.world)
    (hmessages : st'.messages = st.messages) : Marked c st₀ st' := by
  refine ⟨by rw [Conversation.store, hworld]; exact hst.store, by rw [hworld]; exact hst.le,
    by rw [hworld]; exact hst.mine, ?_⟩
  rw [hmessages, Conversation.store, hworld]
  exact hst.shown

/-- New messages are marked together with those already shown. -/
theorem Marked.newMessageDetected (hst : Marked c st₀ st) {newMessages : List Copy}
    (hstored : ∀ message ∈ st.messages ++ newMessages, Stored c st.store message) :
    Marked c st₀ (st.receive c (.newMessageDetected newMessages)) := by
  refine hst.receive (fun message hmem => ?_) fun hnone message hmem => ?_
  · rw [Delivery.shown, MessageViewController.newMessageDetected_eq] at hmem
    exact hstored message hmem
  · have hnil : newMessages = [] := by simpa [Delivery.marks] using hnone
    rw [Delivery.shown, hnil, MessageViewController.newMessageDetected_eq, List.append_nil] at hmem
    exact ⟨message, hmem, rfl, rfl⟩

/-- A modification shows nothing new. -/
theorem Marked.modifiedMessageDetected (hst : Marked c st₀ st) {modifiedMessages : List Copy}
    (hstored : ∀ message ∈ (Delivery.modifiedMessageDetected modifiedMessages).shown st.messages,
      Stored c st.store message) :
    Marked c st₀ (st.receive c (.modifiedMessageDetected modifiedMessages)) := by
  refine hst.receive hstored fun _ message hmem => ?_
  obtain ⟨message₀, hmem₀, rfl⟩ := List.mem_map.1 hmem
  refine ⟨message₀, hmem₀, ?_⟩
  split_ifs
  · exact ⟨rfl, rfl⟩
  · exact ⟨rfl, rfl⟩

/-- The handlers write nothing but the messages they are to mark. -/
theorem Marked.next (hI : st.Sane c) {e : ConversationEvent} (he : st.Allowed e)
    (hnot : ∀ e', e ≠ .messages e') (hst : Marked c st₀ st) : Marked c st₀ (st.next g c e) := by
  have hnext := hI.next (g := g) he
  cases e with
  | messages e => exact absurd rfl (hnot e)
  | viewWillAppear => exact hst.of_eq rfl rfl
  | viewWillDisappear => exact hst.of_eq rfl rfl
  | fetchMine =>
    rcases next_fetchMine g c st with heq | ⟨-, heq⟩
    · rwa [heq]
    · rw [heq]
      exact hst.of_eq rfl rfl
  | fetchFriends =>
    rcases next_fetchFriends g c st with heq | ⟨myMessages, -, heq⟩
    · rwa [heq]
    · rw [heq]
      exact hst.of_eq rfl rfl
  | fetchMessagesCompleted =>
    rcases next_fetchMessagesCompleted g c st with heq | ⟨messages, hf, heq⟩
    · rwa [heq]
    · rw [heq]
      have hdone : Marked c st₀ { st with fetch := .completed } := hst.of_eq rfl rfl
      refine hdone.receive (fun message hmem => ?_) nofun
      exact hI.fetched message (by rw [hf]; exact hmem)
  | snapshot i =>
    rcases next_snapshot g c st i with heq | ⟨l, -, heq⟩
    · rwa [heq]
    · rw [heq]
      exact hst.of_eq rfl rfl
  | deliver i =>
    rcases next_deliver g c st i with ⟨-, heq⟩ | ⟨delivered, docs, queue, hl, heq⟩
    · rwa [heq]
    · rw [heq] at hnext ⊢
      have hset : Marked c st₀ (st.setListener i ⟨docs, queue⟩) := hst.of_eq rfl rfl
      have hadded := hI.deliver_newMessages hl
      have hnew := hset.newMessageDetected fun message hmem => by
        have hstored := hadded.messages message
        rw [messages_receive, Delivery.shown, MessageViewController.newMessageDetected_eq,
          store_receive] at hstored
        exact hstored hmem
      refine hnew.modifiedMessageDetected fun message hmem => ?_
      have hstored := hnext.messages message hmem
      rwa [Conversation.deliver, store_receive] at hstored

/-- A view whose handlers' writes reach the store at once: all it shows to the
    user it was sent to is stored as seen. -/
structure Opened (c : Parties) (st : Conversation) : Prop where
  sane : st.Sane c
  seen : ∀ message ∈ st.messages, message.data.receiverID = c.myUID → SeenIn st.store message.id

/-- A write is of a message stored, to the user of the view, and marks it as seen. -/
def WritesMine (c : Parties) (st : Conversation) (write : UID × Copy) : Prop :=
  ∃ m, messageOf st.store write.2.id = some m ∧ m.receiverID = c.myUID ∧ write.2.data = m.seen

/-- In such a view, a step marks what it shows, and the store only grows. -/
theorem Opened.next (hI : st.Opened c) {e : ConversationEvent} (he : st.Allowed e) :
    (st.nextWriting g c e).Opened c ∧ Grows st.store (st.nextWriting g c e).store ∧
      ∀ write ∈ st.written g c e, st.WritesMine c write := by
  have hsane := hI.sane.next (g := g) he
  by_cases hnot : ∀ e', e ≠ .messages e'
  · have hst : Marked c st st :=
      ⟨rfl, le_rfl, by simp, fun message hmem huid => .inl (hI.seen message hmem huid)⟩
    have hmarked := hst.next (g := g) hI.sane he hnot
    have hwritten : st.written g c e =
        (st.next g c e).world.writes.drop st.world.writes.length := by
      cases e with
      | messages e => exact absurd rfl (hnot e)
      | _ => rfl
    have hsub : (st.written g c e).Subperm (st.next g c e).world.writes :=
      hwritten ▸ (List.drop_sublist _ _).subperm
    obtain ⟨hworld, hgrows, hseen⟩ := hsane.world.writeAll (g := g) hsub
    refine ⟨⟨hsane.grow hworld hgrows, fun message hmem huid => ?_⟩, hmarked.store ▸ hgrows,
      fun write hmem => ?_⟩
    · rcases hmarked.shown message hmem huid with hstored | ⟨write, hmem, hid⟩
      · exact hstored.mono hgrows
      · exact hid ▸ hseen write (hwritten ▸ hmem)
    · obtain ⟨huid, m, hm, hdata⟩ := hsane.world.writes _ _ (hsub.subset hmem)
      refine ⟨m, hmarked.store ▸ hm, ?_, hdata⟩
      rw [← hmarked.mine write (hwritten ▸ hmem), ← huid, hdata]
      rfl
  · push Not at hnot
    obtain ⟨e, rfl⟩ := hnot
    have hgrows := hI.sane.world.grows_next (g := g) he
    exact ⟨⟨hsane, fun message hmem huid => (hI.seen message hmem huid).mono hgrows⟩, hgrows,
      fun _ hmem => absurd hmem List.not_mem_nil⟩

end Conversation

/-! ## Runs -/

/-- In the run `es` from `st`, what has been shown to the user it was sent to is
    stored as seen from then on, and the handlers of the view rewrite nothing
    but messages to its user, each as it is stored, as seen. -/
structure MarksSeen (g : AutoId DocID) (c : Parties) (st : Conversation)
    (es : List ConversationEvent) : Prop where
  seen : ∀ es₁ es₂ es₃, es = es₁ ++ (es₂ ++ es₃) →
    ∀ message ∈ (after (Conversation.nextWriting g c) st es₁).messages,
      message.data.receiverID = c.myUID →
        SeenIn (after (Conversation.nextWriting g c) st (es₁ ++ es₂)).store message.id
  mine : AllSteps (Conversation.nextWriting g c)
    (fun st e => ∀ write ∈ st.written g c e, st.WritesMine c write) st es

/-- From the opening of a conversation after any history of the messages, its
    view marks as seen, in every interleaving, all it shows to the user it was
    sent to, and nothing else. -/
theorem marksSeen {history : List MessagesEvent} {es : List ConversationEvent}
    (hhistory : AllSteps (Messages.next g) Messages.Allowed .init history)
    (hes : AllSteps (Conversation.nextWriting g c) Conversation.Allowed (loaded g history) es) :
    MarksSeen g c (loaded g history) es := by
  have hI : (loaded g history).Opened c :=
    ⟨sane_loaded hhistory, fun _ hmem => absurd hmem List.not_mem_nil⟩
  refine ⟨?_, hes.imp (fun _ _ hI he => (hI.next he).1) (fun _ _ hI he => (hI.next he).2.2) hI⟩
  rintro es₁ es₂ es₃ rfl message hmem huid
  obtain ⟨h₁, h₂⟩ := allSteps_append.1 hes
  have hopened := h₁.invariant (fun _ _ hI he => (hI.next he).1) hI
  -- The store has only grown since the message was shown.
  have hgrows := h₂.prefix.invariant
    (s := after (Conversation.nextWriting g c) (loaded g history) es₁)
    (I := fun st => st.Opened c ∧
      Grows (after (Conversation.nextWriting g c) (loaded g history) es₁).store st.store)
    (fun _ _ hI he => ⟨(hI.1.next he).1, hI.2.trans (hI.1.next he).2.1⟩) ⟨hopened, .refl _⟩
  rw [after_append]
  exact (hopened.seen message hmem huid).mono hgrows.2

/-- Bob has written to ann, who fetches his message and is delivered it, too;
    bob writes again, and another device of ann has it as seen first. -/
def openedTwice : List ConversationEvent :=
  let message : Copy := ⟨2, ⟨"bob", "ann", 6, .plain, .send, some "well", none, none⟩⟩
  [.viewWillAppear, .fetchMine, .snapshot .listener2, .fetchFriends, .fetchMessagesCompleted,
    .deliver .listener2, .snapshot .listener2, .deliver .listener2,
    .messages (.sendMessage "bob" (some "well") "ann" .plain none 6),
    .messages (.changeMessageStatusToSeen "ann" [message]), .snapshot .listener2,
    .messages (.updateMessageToSeen "ann" ⟨2, message.data.seen⟩), .deliver .listener2,
    .snapshot .listener2, .deliver .listener2]

theorem marksSeen_openedTwice :
    MarksSeen succId annAndBob (loaded succId bobHasWritten) openedTwice :=
  marksSeen (by decide) (by decide)

end YoYo
