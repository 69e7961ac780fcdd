import YoYo.Messages.Once

/-!
# Messages seen

That a message has been seen reaches the view as the status it is fetched or
added with, or as a modification, which marks what is in the array then. Nothing
marks it again: a message shown as sent that a listener has already delivered as
seen stays so. This happens where the fetch completes with copies older than
what has been delivered, or a listener registered again adds what has been seen
since; if it does not, the view agrees with the store once everything has been
delivered (`statusAgrees_iff`).
-/

namespace YoYo

open DocStore

namespace Conversation

/-- Every message in the array has the status stored. -/
def StatusAgrees (st : Conversation) : Prop :=
  ∀ shown ∈ st.messages, ∃ m, messageOf st.store shown.id = some m ∧
    m.messageStatus = shown.data.messageStatus

/-- A listener has delivered the message of an id as seen. -/
def DeliveredSeen (c : Parties) (st : Conversation) (id : DocID) : Prop :=
  ∃ i, ∃ message ∈ st.deliveredBy c i, message.id = id ∧ message.data.messageStatus = .seen

/-- The new messages the next snapshot of a listener delivers. -/
def addedNext (c : Parties) (st : Conversation) (i : Source) : List Copy :=
  match st.listener i with
  | some ⟨delivered, docs :: _⟩ => (c.handler i (documentChanges delivered docs)).1
  | _ => []

/-- The fetch does not complete with messages as sent that have been delivered
    as seen, and after it has, no listener adds a message as seen that is shown
    as sent. -/
def Fresh (c : Parties) (st : Conversation) : ConversationEvent → Prop
  | .fetchMessagesCompleted => ∀ message ∈ st.fetch.messages, message.data.messageStatus = .send →
      ¬ st.DeliveredSeen c message.id
  | .deliver i => st.fetch = .completed → ∀ message ∈ st.addedNext c i,
      message.data.messageStatus = .seen → ∀ shown ∈ st.messages, shown.id = message.id →
        shown.data.messageStatus = .seen
  | _ => True

instance (c : Parties) (st : Conversation) (id : DocID) : Decidable (st.DeliveredSeen c id) :=
  decidable_of_iff ((∃ message ∈ st.deliveredBy c .listener1, message.id = id ∧
      message.data.messageStatus = .seen) ∨
    ∃ message ∈ st.deliveredBy c .listener2, message.id = id ∧ message.data.messageStatus = .seen)
    ⟨fun h => h.elim (fun h => ⟨_, h⟩) fun h => ⟨_, h⟩, fun ⟨i, h⟩ => by
      cases i
      · exact .inl h
      · exact .inr h⟩

instance (c : Parties) (st : Conversation) : ∀ e, Decidable (st.Fresh c e)
  | .fetchMessagesCompleted => inferInstanceAs (Decidable (∀ message ∈ _, _ → ¬ _))
  | .deliver _ => inferInstanceAs (Decidable (_ → ∀ message ∈ _, _ → ∀ shown ∈ _, _ → _))
  | .messages _ | .viewWillAppear | .viewWillDisappear | .fetchMine | .fetchFriends | .snapshot _ =>
    .isTrue trivial

/-- No message shown as sent has been delivered as seen. -/
def Good (c : Parties) (st : Conversation) : Prop :=
  ∀ shown ∈ st.messages, shown.data.messageStatus = .send → ¬ st.DeliveredSeen c shown.id

/-- Whatever is delivered of the message of an id, it has been seen. -/
structure Stuck (c : Parties) (st : Conversation) (id : DocID) : Prop where
  stored : ∃ m, messageOf st.store id = some m ∧ m.messageStatus = .seen
  delivered : ∀ i l, st.listener i = some l → ∀ docs ∈ l.delivered :: l.queue,
    ∀ message ∈ receivedBy (c.receiver i) docs, message.id = id → message.data.messageStatus = .seen

/-- The fetch has completed, and a message shown as sent has been seen, and will not be marked. -/
def Bad (c : Parties) (st : Conversation) : Prop :=
  st.fetch = .completed ∧
    ∃ shown ∈ st.messages, shown.data.messageStatus = .send ∧ st.Stuck c shown.id

end Conversation

variable {c : Parties} {g : AutoId DocID} {st : Conversation} {i j : Source}
  {message message' shown : Copy} {docs docs' delivered : List (Doc DocID MessageDoc)}
  {queue : List (List (Doc DocID MessageDoc))} {uid uid' : UID}

/-- There is one message of an id in a snapshot. -/
theorem eq_of_mem_receivedBy (hdocs : IdSorted docs) (h : message ∈ receivedBy uid docs)
    (h' : message' ∈ receivedBy uid docs) (hid : message.id = message'.id) : message = message' :=
  List.inj_on_of_nodup_map (nodup_ids (idSorted_receivedBy uid hdocs)) h h' hid

/-- A message seen in a snapshot is the same in all later ones. -/
theorem mem_receivedBy_of_seen (h : SnapshotGrows uid docs docs')
    (hmem : message ∈ receivedBy uid' docs) (hseen : message.data.messageStatus = .seen) :
    message ∈ receivedBy uid' docs' := by
  obtain ⟨⟨d, hd, hid, hm⟩, hreceiver⟩ := mem_receivedBy.1 hmem
  obtain ⟨m, m', hdata, -, hlater, hmem'⟩ := h.later d hd
  rw [hdata, Message.decode_encode, Option.some.injEq] at hm
  rw [hm] at hlater
  rw [hlater.eq_of_seen hseen, hid] at hmem'
  exact mem_receivedBy.2 ⟨⟨_, hmem', rfl, Message.decode_encode _⟩, hreceiver⟩

/-- What the query has now is stored. -/
theorem messageOf_of_mem_query {s : MessagesStore} (hs : Encoded s)
    (hmem : message ∈ receivedBy uid (c.query i s)) :
    messageOf s message.id = some message.data := by
  obtain ⟨⟨d, hd, hid, hm⟩, -⟩ := mem_receivedBy.1 hmem
  have hd := (Collection.mem_query.1 hd).1
  obtain ⟨m, hdata⟩ := hs d hd
  rw [hdata, Message.decode_encode, Option.some.injEq] at hm
  rw [messageOf_eq_some_iff hs, ← hid, ← hm, ← hdata]
  exact hd

theorem senderID_of_mem_receivedBy (h : SnapshotGrows uid docs docs')
    (hmem : message ∈ receivedBy uid' docs) : message.data.senderID = uid := by
  obtain ⟨⟨d, hd, -, hm⟩, -⟩ := mem_receivedBy.1 hmem
  obtain ⟨m, m', hdata, hsender, -, -⟩ := h.later d hd
  rw [hdata, Message.decode_encode, Option.some.injEq] at hm
  exact hm ▸ hsender

theorem Parties.mem_handler_added {c : Parties} :
    message ∈ (c.handler i (documentChanges delivered docs)).1 ↔
      message ∈ receivedBy (c.receiver i) docs ∧ message.id ∉ delivered.map Doc.id := by
  rw [Parties.handler_added, mem_sortedByDate, documentsOf_added, mem_receivedBy, mem_receivedBy]
  constructor
  · rintro ⟨⟨d, hd, hid, hm⟩, hreceiver⟩
    obtain ⟨hd, hnot⟩ := List.mem_filter.1 hd
    exact ⟨⟨⟨d, hd, hid, hm⟩, hreceiver⟩, hid ▸ by simpa using hnot⟩
  · rintro ⟨⟨⟨d, hd, hid, hm⟩, hreceiver⟩, hnot⟩
    exact ⟨⟨d, List.mem_filter.2 ⟨hd, by simpa [hid] using hnot⟩, hid, hm⟩, hreceiver⟩

/-- What has been modified was there before. -/
theorem Parties.id_mem_of_mem_handler_modified {c : Parties} (hold : IdSorted delivered)
    (hmem : message ∈ (c.handler i (documentChanges delivered docs)).2) :
    message.id ∈ delivered.map Doc.id := by
  obtain ⟨⟨d, hd, hid, -⟩, -⟩ := mem_receivedBy.1 (Parties.mem_handler_modified hmem)
  obtain ⟨-, e, he, heid, -⟩ := (mem_documentsOf_modified (nodup_ids hold)).1 hd
  exact List.mem_map.2 ⟨e, he, heid.trans hid⟩

/-- A message seen that was there before was so before, or has been modified. -/
theorem Parties.mem_or_modified {c : Parties} (hold : IdSorted delivered)
    (hmem : message ∈ receivedBy (c.receiver i) docs) (hseen : message.data.messageStatus = .seen)
    (hid : message.id ∈ delivered.map Doc.id) :
    message ∈ receivedBy (c.receiver i) delivered ∨
      message ∈ (c.handler i (documentChanges delivered docs)).2 := by
  obtain ⟨⟨d, hd, hdid, hm⟩, hreceiver⟩ := mem_receivedBy.1 hmem
  obtain ⟨e, he, heid⟩ := List.mem_map.1 hid
  by_cases hed : e = d
  · exact .inl (mem_receivedBy.2 ⟨⟨e, he, heid, hed ▸ hm⟩, hreceiver⟩)
  · have hmodified := (mem_documentsOf_modified (nodup_ids hold)).2
      ⟨hd, e, he, heid.trans hdid.symm, hed⟩
    exact .inr (Parties.mem_handler_modified_of_seen
      (mem_receivedBy.2 ⟨⟨d, hmodified, hdid, hm⟩, hreceiver⟩) hseen)

/-- A message that has been seen before is not modified. -/
theorem Parties.not_modified_of_seen {c : Parties} {id : DocID}
    (hold : SnapshotGrows uid delivered docs) (hdocs : IdSorted docs)
    (hseen : ∀ message ∈ receivedBy (c.receiver i) delivered,
      message.id = id → message.data.messageStatus = .seen) :
    id ∉ (c.handler i (documentChanges delivered docs)).2.map Doc.id := by
  intro hid
  obtain ⟨modified, hmem, rfl⟩ := List.mem_map.1 hid
  obtain ⟨⟨d, hd, hdid, hm⟩, hreceiver⟩ := mem_receivedBy.1 (Parties.mem_handler_modified hmem)
  obtain ⟨hd, e, he, heid, hne⟩ := (mem_documentsOf_modified (nodup_ids hold.sorted)).1 hd
  obtain ⟨m, m', hdata, -, hlater, hmem'⟩ := hold.later e he
  have hd' : d = ⟨e.id, m'.encode⟩ := List.inj_on_of_nodup_map (nodup_ids hdocs) hd hmem' heid.symm
  rw [hd', Message.decode_encode, Option.some.injEq] at hm
  have hmessage : (⟨e.id, m⟩ : Copy) ∈ receivedBy (c.receiver i) delivered := by
    refine mem_receivedBy.2 ⟨⟨e, he, rfl, by rw [hdata, Message.decode_encode]⟩, ?_⟩
    rw [← hreceiver, ← hm, hlater.receiverID_eq]
  have hm' : m' = m := hlater.eq_of_seen (hseen _ hmessage (heid.trans hdid))
  exact hne (by rw [hd', hm', ← hdata])

theorem Parties.sender_injective (c : Parties) (h : c.sender i = c.sender j) : i = j := by
  cases i <;> cases j
  · rfl
  · exact absurd h c.ne
  · exact absurd h.symm c.ne
  · rfl

namespace Conversation

/-- What two listeners deliver is of different messages. -/
theorem Sane.source_eq (hI : st.Sane c)
    (hdocs : SnapshotGrows (c.sender i) docs (c.query i st.store))
    (hdocs' : SnapshotGrows (c.sender j) docs' (c.query j st.store))
    (hmem : message ∈ receivedBy (c.receiver i) docs)
    (hmem' : message' ∈ receivedBy (c.receiver j) docs') (hid : message.id = message'.id) :
    i = j := by
  obtain ⟨m, hm, hlater, -⟩ := stored_of_mem hI.world.encoded hdocs hmem
  obtain ⟨m', hm', hlater', -⟩ := stored_of_mem hI.world.encoded hdocs' hmem'
  rw [hid, hm', Option.some.injEq] at hm
  subst hm
  refine c.sender_injective ?_
  rw [← senderID_of_mem_receivedBy hdocs hmem, ← senderID_of_mem_receivedBy hdocs' hmem',
    ← hlater.senderID_eq, ← hlater'.senderID_eq]

/-- A message delivered as seen is so wherever it is on its way. -/
theorem Sane.stuck (hI : st.Sane c) {id : DocID} (h : st.DeliveredSeen c id) : st.Stuck c id := by
  obtain ⟨i, message, hmem, rfl, hseen⟩ := h
  obtain ⟨l, hl, hmem⟩ := exists_listener_of_mem_deliveredBy hmem
  have hord := hI.listeners i l hl
  have hdelivered := hord.rel_of_mem List.mem_cons_self
  refine ⟨?_, fun j l' hl' docs hdocs message' hmem' hid => ?_⟩
  · obtain ⟨m, hm, hlater, -⟩ := stored_of_mem hI.world.encoded hdelivered hmem
    exact ⟨m, hm, by rw [hlater.eq_of_seen hseen, hseen]⟩
  · have hdocs' := (hI.listeners j l' hl').rel_of_mem hdocs
    have hji : j = i := hI.source_eq hdocs' hdelivered hmem' hmem hid
    subst hji
    rw [hl, Option.some.injEq] at hl'
    subst hl'
    -- The snapshot has the message as it was delivered.
    have hsame : message ∈ receivedBy (c.receiver j) docs := by
      rcases List.mem_cons.1 hdocs with rfl | hqueue
      · exact hmem
      · exact mem_receivedBy_of_seen (hord.rel_of_mem_queue hqueue) hmem hseen
    rw [eq_of_mem_receivedBy hdocs'.sorted hmem' hsame hid]
    exact hseen

/-- It stays so while a listener changes, if what that one is to deliver has it as seen. -/
theorem Stuck.setListener {id : DocID} (h : st.Stuck c id) {l l' : Listener DocID MessageDoc}
    (hl : st.listener i = some l)
    (hl' : ∀ docs ∈ l'.delivered :: l'.queue, ∀ message ∈ receivedBy (c.receiver i) docs,
      message.id = id → message.data.messageStatus = .seen) :
    (st.setListener i l').Stuck c id :=
  ⟨h.stored, forall_listener_setListener h.delivered hl hl'⟩

theorem Stuck.receive {id : DocID} (h : st.Stuck c id) (d : Delivery) :
    (st.receive c d).Stuck c id :=
  ⟨by rw [store_receive]; exact h.stored, h.delivered⟩

/-- What is shown as sent after a delivery was so before, or is new, and has not been modified. -/
theorem of_mem_deliver (hmem : shown ∈ (st.deliver c i delivered docs queue).messages)
    (hsend : shown.data.messageStatus = .send) :
    (shown ∈ st.messages ∨ shown ∈ (c.handler i (documentChanges delivered docs)).1) ∧
      shown.id ∉ (c.handler i (documentChanges delivered docs)).2.map Doc.id := by
  rw [Conversation.deliver] at hmem
  rw [messages_receive, Delivery.shown, messages_receive, Delivery.shown,
    MessageViewController.newMessageDetected_eq] at hmem
  obtain ⟨shown₀, hmem₀, rfl⟩ := List.mem_map.1 hmem
  split_ifs at hsend ⊢ with hid
  · cases hsend
  · exact ⟨List.mem_append.1 hmem₀, hid⟩

/-- What is in the array and has not been modified stays there. -/
theorem mem_deliver (hmem : shown ∈ st.messages)
    (hid : shown.id ∉ (c.handler i (documentChanges delivered docs)).2.map Doc.id) :
    shown ∈ (st.deliver c i delivered docs queue).messages := by
  rw [Conversation.deliver]
  rw [messages_receive, Delivery.shown, messages_receive, Delivery.shown,
    MessageViewController.newMessageDetected_eq]
  exact List.mem_map.2 ⟨shown, List.mem_append_left _ hmem, if_neg hid⟩

/-- What has the id of a message added has not been modified. -/
theorem id_notMem_of_added (hold : IdSorted delivered)
    (hadded : message ∈ (c.handler i (documentChanges delivered docs)).1)
    (hid : shown.id = message.id) :
    shown.id ∉ (c.handler i (documentChanges delivered docs)).2.map Doc.id := by
  intro hmodified
  obtain ⟨modified, hmodified, hmid⟩ := List.mem_map.1 hmodified
  refine (Parties.mem_handler_added.1 hadded).2 ?_
  rw [← hid, ← hmid]
  exact Parties.id_mem_of_mem_handler_modified hold hmodified

/-- What a listener has in a snapshot, no other one has delivered. -/
theorem Sane.notMem_deliveredBy (hI : st.Sane c) (hji : j ≠ i)
    (hdocs : SnapshotGrows (c.sender i) docs (c.query i st.store))
    (hmem : shown ∈ receivedBy (c.receiver i) docs) (hid : message.id = shown.id) :
    message ∉ st.deliveredBy c j := by
  intro hdelivered
  obtain ⟨l, hl, hdelivered⟩ := exists_listener_of_mem_deliveredBy hdelivered
  exact hji (hI.source_eq ((hI.listeners j l hl).rel_of_mem List.mem_cons_self) hdocs hdelivered
    hmem hid)

/-- A delivery leaves the view good exactly if it adds nothing as seen that is shown as sent. -/
theorem good_deliver_iff (hI : st.Sane c) (hl : st.listener i = some ⟨delivered, docs :: queue⟩)
    (hgood : st.Good c) : (st.deliver c i delivered docs queue).Good c ↔
      ∀ message ∈ (c.handler i (documentChanges delivered docs)).1,
        message.data.messageStatus = .seen → ∀ shown ∈ st.messages, shown.id = message.id →
          shown.data.messageStatus = .seen := by
  have hord := hI.listeners i _ hl
  have hdocs := hord.rel_of_mem (List.mem_cons_of_mem _ List.mem_cons_self)
  have hold := hord.rel_of_mem List.mem_cons_self
  have hself : (st.deliver c i delivered docs queue).deliveredBy c i =
      receivedBy (c.receiver i) docs := deliveredBy_of_listener (listener_setListener_self hl)
  constructor
  · intro hgood' message hmem hseen shown hshown hid
    cases hsend : shown.data.messageStatus with
    | seen => rfl
    | send =>
      have hdelivered : message ∈ receivedBy (c.receiver i) docs :=
        (Parties.mem_handler_added.1 hmem).1
      have hshown' : shown ∈ (st.deliver c i delivered docs queue).messages :=
        mem_deliver hshown (id_notMem_of_added hold.sorted hmem hid)
      exact absurd ⟨i, message, by rwa [hself], hid.symm, hseen⟩ (hgood' shown hshown' hsend)
  · rintro hfresh shown hshown hsend ⟨j, message, hmem, hid, hseen⟩
    obtain ⟨hshown, hnot⟩ := of_mem_deliver hshown hsend
    by_cases hji : j = i
    · subst hji
      rw [hself] at hmem
      by_cases hbefore : message.id ∈ delivered.map Doc.id
      · -- Delivered before, it was seen already, or has been modified.
        rcases Parties.mem_or_modified hold.sorted hmem hseen hbefore with hdelivered | hmodified
        · rcases hshown with hshown | hadded
          · refine hgood shown hshown hsend ⟨j, message, ?_, hid, hseen⟩
            rwa [deliveredBy_of_listener hl]
          · exact (Parties.mem_handler_added.1 hadded).2 (hid ▸ hbefore)
        · exact hnot (List.mem_map.2 ⟨message, hmodified, hid⟩)
      · -- It is added: what is shown was there before, and is fresh, or is the same message.
        rcases hshown with hshown | hadded
        · rw [hfresh message (Parties.mem_handler_added.2 ⟨hmem, hbefore⟩) hseen shown hshown
            hid.symm] at hsend
          cases hsend
        · have hsame := eq_of_mem_receivedBy hdocs.sorted (Parties.mem_handler_added.1 hadded).1
            hmem hid.symm
          rw [hsame, hseen] at hsend
          cases hsend
    · -- Another listener has delivered the message, which is none of this one.
      have hdeliveredBy :
          (st.deliver c i delivered docs queue).deliveredBy c j = st.deliveredBy c j :=
        deliveredBy_congr (listener_setListener_of_ne hji ⟨docs, queue⟩)
      rw [hdeliveredBy] at hmem
      rcases hshown with hshown | hadded
      · exact hgood shown hshown hsend ⟨j, message, hmem, hid, hseen⟩
      · have hadded := (Parties.mem_handler_added.1 hadded).1
        exact hI.notMem_deliveredBy hji hdocs hadded hid hmem

/-- A listener with nothing on its way adds nothing next. -/
theorem addedNext_of_not_queued (h : ¬ st.Queued i) : st.addedNext c i = [] := by
  rw [addedNext]
  split
  next delivered docs queue hl => exact absurd ⟨delivered, docs, queue, hl⟩ h
  next => rfl

/-- A view with the same array, of which no less has been delivered, is as good. -/
theorem Good.congr {st' : Conversation} (h : st.Good c) (hmessages : st'.messages = st.messages)
    (hdelivered : ∀ i, st'.deliveredBy c i = st.deliveredBy c i ∨ st'.deliveredBy c i = []) :
    st'.Good c := by
  rintro shown hshown hsend ⟨i, message, hmem, hid, hseen⟩
  rcases hdelivered i with heq | hnil
  · exact h shown (hmessages ▸ hshown) hsend ⟨i, message, heq ▸ hmem, hid, hseen⟩
  · rw [hnil] at hmem
    exact absurd hmem List.not_mem_nil

/-- The view stays good exactly in the steps that are fresh. -/
theorem good_next_iff (hI : st.Sane c) {e : ConversationEvent} (he : st.Allowed e)
    (hgood : st.fetch = .completed → st.Good c) (hcompleted : (st.next g c e).fetch = .completed) :
    (st.next g c e).Good c ↔ st.Fresh c e := by
  cases e with
  | messages e => exact iff_of_true ((hgood hcompleted).congr rfl fun _ => .inl rfl) trivial
  | viewWillAppear => exact iff_of_true ((hgood hcompleted).congr rfl fun _ => .inr rfl) trivial
  | viewWillDisappear => exact iff_of_true ((hgood hcompleted).congr rfl fun _ => .inr rfl) trivial
  | fetchMine =>
    -- A step of the fetch does not complete it, unless it is the last one.
    rcases next_fetchMine g c st with hnext | ⟨-, hnext⟩
    · rw [hnext] at hcompleted ⊢
      exact iff_of_true (hgood hcompleted) trivial
    · rw [hnext] at hcompleted
      cases hcompleted
  | fetchFriends =>
    rcases next_fetchFriends g c st with hnext | ⟨myMessages, -, hnext⟩
    · rw [hnext] at hcompleted ⊢
      exact iff_of_true (hgood hcompleted) trivial
    · rw [hnext] at hcompleted
      cases hcompleted
  | fetchMessagesCompleted =>
    obtain ⟨messages, hf⟩ := Fetch.exists_of_isFetched he
    simp only [Conversation.next, Fresh, hf]
    exact Iff.rfl
  | snapshot i =>
    rcases next_snapshot g c st i with hnext | ⟨l, hl, hnext⟩
    · rw [hnext] at hcompleted ⊢
      exact iff_of_true (hgood hcompleted) trivial
    · rw [hnext] at hcompleted ⊢
      exact iff_of_true ((hgood hcompleted).congr rfl fun j =>
        .inl (congrFun (deliveredBy_snapshot hl) j)) trivial
  | deliver i =>
    rcases next_deliver g c st i with ⟨hnot, hnext⟩ | ⟨delivered, docs, queue, hl, hnext⟩
    · rw [hnext] at hcompleted ⊢
      refine iff_of_true (hgood hcompleted) fun _ message hmem => ?_
      rw [addedNext_of_not_queued hnot] at hmem
      exact absurd hmem List.not_mem_nil
    · rw [hnext] at hcompleted ⊢
      have hf : st.fetch = .completed := hcompleted
      rw [good_deliver_iff hI hl (hgood hf)]
      simp only [Fresh, hf, forall_const, addedNext, hl]

/-- A step that is not fresh is one after which the fetch has completed. -/
theorem completed_of_not_fresh {e : ConversationEvent} (he : st.Allowed e) (h : ¬ st.Fresh c e) :
    (st.next g c e).fetch = .completed := by
  cases e with
  | fetchMessagesCompleted =>
    obtain ⟨messages, hf⟩ := Fetch.exists_of_isFetched he
    simp only [Conversation.next, hf]
    rfl
  | deliver i =>
    have hf : st.fetch = .completed := by
      by_contra hf
      exact h fun hf' => absurd hf' hf
    rcases next_deliver g c st i with ⟨-, hnext⟩ | ⟨delivered, docs, queue, -, hnext⟩
    · rw [hnext]
      exact hf
    · rw [hnext]
      exact hf
  | _ => exact absurd trivial h

/-- What is not good is bad. -/
theorem bad_of_not_good (hI : st.Sane c) (hf : st.fetch = .completed) (h : ¬ st.Good c) :
    st.Bad c := by
  rw [Good] at h
  push Not at h
  obtain ⟨shown, hshown, hsend, hseen⟩ := h
  exact ⟨hf, shown, hshown, hsend, hI.stuck hseen⟩

/-- What is bad stays so. -/
theorem bad_next (hI : st.Sane c) {e : ConversationEvent} (he : st.Allowed e) (h : st.Bad c) :
    (st.next g c e).Bad c := by
  obtain ⟨hf, shown, hshown, hsend, hstuck⟩ := h
  cases e with
  | messages e =>
    refine ⟨hf, shown, hshown, hsend, ?_, hstuck.delivered⟩
    obtain ⟨m, hm, hseen⟩ := hstuck.stored
    obtain ⟨m', hm', hlater⟩ := hI.world.grows_next (g := g) he _ m hm
    exact ⟨m', hm', by rw [hlater.eq_of_seen hseen, hseen]⟩
  | viewWillAppear =>
    -- The new listeners have nothing but the empty snapshot to compare with.
    refine ⟨hf, shown, hshown, hsend, hstuck.stored, fun i l hl docs hdocs message hmem => ?_⟩
    cases hl
    rw [List.mem_singleton.1 hdocs] at hmem
    exact absurd hmem List.not_mem_nil
  | viewWillDisappear => exact ⟨hf, shown, hshown, hsend, hstuck.stored, fun _ _ hl => nomatch hl⟩
  | fetchMine =>
    -- The fetch has completed, so that none of its steps happens.
    rcases next_fetchMine g c st with hnext | ⟨hf', -⟩
    · rw [hnext]
      exact ⟨hf, shown, hshown, hsend, hstuck⟩
    · cases hf.symm.trans hf'
  | fetchFriends =>
    rcases next_fetchFriends g c st with hnext | ⟨_, hf', -⟩
    · rw [hnext]
      exact ⟨hf, shown, hshown, hsend, hstuck⟩
    · cases hf.symm.trans hf'
  | fetchMessagesCompleted =>
    obtain ⟨messages, hf'⟩ := Fetch.exists_of_isFetched he
    cases hf.symm.trans hf'
  | snapshot i =>
    rcases next_snapshot g c st i with hnext | ⟨l, hl, hnext⟩
    · rw [hnext]
      exact ⟨hf, shown, hshown, hsend, hstuck⟩
    · rw [hnext]
      refine ⟨hf, shown, hshown, hsend,
        hstuck.setListener hl fun docs hdocs message hmem hid => ?_⟩
      rw [Listener.snapshot, ← List.cons_append, List.mem_append, List.mem_singleton] at hdocs
      rcases hdocs with hdocs | rfl
      · exact hstuck.delivered i l hl docs hdocs message hmem hid
      · -- The snapshot has what is stored.
        obtain ⟨m, hm, hseen⟩ := hstuck.stored
        rw [← hid, messageOf_of_mem_query hI.world.encoded hmem, Option.some.injEq] at hm
        rw [hm, hseen]
  | deliver i =>
    rcases next_deliver g c st i with ⟨-, hnext⟩ | ⟨delivered, docs, queue, hl, hnext⟩
    · rw [hnext]
      exact ⟨hf, shown, hshown, hsend, hstuck⟩
    · rw [hnext]
      have hord := hI.listeners i _ hl
      have hdocs := hord.rel_of_mem (List.mem_cons_of_mem _ List.mem_cons_self)
      have hnot := Parties.not_modified_of_seen (hord.rel_of_mem_queue List.mem_cons_self)
        hdocs.sorted (hstuck.delivered i _ hl delivered List.mem_cons_self)
      refine ⟨hf, shown, mem_deliver hshown hnot, hsend, ?_⟩
      -- What is delivered now was on its way before.
      have hset : (st.setListener i ⟨docs, queue⟩).Stuck c shown.id :=
        hstuck.setListener hl fun docs' hdocs' =>
          hstuck.delivered i _ hl docs' (List.mem_cons_of_mem _ hdocs')
      exact (hset.receive _).receive _

/-- A step that is not fresh leads to a bad view. -/
theorem bad_of_not_fresh (hI : st.Sane c) {e : ConversationEvent} (he : st.Allowed e)
    (h : ¬ st.Fresh c e) : (st.next g c e).Bad c := by
  have hcompleted := completed_of_not_fresh (g := g) he h
  by_cases hgood : st.fetch = .completed → st.Good c
  · exact bad_of_not_good (hI.next he) hcompleted fun hgood' =>
      h ((good_next_iff hI he hgood hcompleted).1 hgood')
  · push Not at hgood
    exact bad_next hI he (bad_of_not_good hI hgood.1 hgood.2)

/-- A bad view shows a message with another status than is stored. -/
theorem not_statusAgrees_of_bad (h : st.Bad c) : ¬ st.StatusAgrees := by
  obtain ⟨-, shown, hshown, hsend, hstuck⟩ := h
  intro hagrees
  obtain ⟨m, hm, hstatus⟩ := hagrees shown hshown
  obtain ⟨m', hm', hseen⟩ := hstuck.stored
  rw [hm, Option.some.injEq] at hm'
  subst hm'
  rw [hseen, hsend] at hstatus
  cases hstatus

/-- A good view agrees with the store once everything has been delivered. -/
theorem statusAgrees_of_good (hI : st.Sane c) (h : st.Settled c) (hgood : st.Good c) :
    st.StatusAgrees := by
  intro shown hshown
  obtain ⟨m, hm, hlater, i, hsender, hreceiver⟩ := hI.messages shown hshown
  refine ⟨m, hm, ?_⟩
  rcases hlater with rfl | ⟨hsend, rfl⟩
  · rfl
  · -- Seen since, it has been delivered so.
    refine absurd ⟨i, ⟨shown.id, shown.data.seen⟩, ?_, rfl, rfl⟩ (hgood shown hshown hsend)
    rw [deliveredBy_of_settled h, mem_receivedBy]
    refine ⟨⟨⟨shown.id, _⟩, Collection.mem_query.2 ⟨?_, ?_⟩, rfl, Message.decode_encode _⟩,
      hreceiver⟩
    · exact (messageOf_eq_some_iff hI.world.encoded).1 hm
    · exact sentBy_encode.2 hsender

end Conversation

/-- Whenever the view is visible and everything has been delivered to it, every
    message it shows has the status stored if and only if the fetch completed,
    and the listeners have delivered since, without adding or leaving as sent
    what was delivered as seen. -/
theorem statusAgrees_iff {history : List MessagesEvent} {es : List ConversationEvent}
    (hhistory : AllSteps (Messages.next g) Messages.Allowed .init history)
    (hes : AllSteps (Conversation.next g c) Conversation.Allowed (loaded g history) es)
    (hsettled : (after (Conversation.next g c) (loaded g history) es).Settled c) :
    (after (Conversation.next g c) (loaded g history) es).StatusAgrees ↔
      AllSteps (Conversation.next g c) (Conversation.Fresh c) (loaded g history) es := by
  have hI := sane_loaded (c := c) hhistory
  constructor
  · intro hagrees
    have hor := hes.or_after (Q := Conversation.Fresh c) (I := Conversation.Sane c)
      (B := Conversation.Bad c) (fun _ _ hI he => hI.next he)
      (fun _ _ hI he h => Conversation.bad_of_not_fresh hI he h)
      (fun _ _ hI he h => Conversation.bad_next hI he h) hI
    exact hor.resolve_right fun hbad => Conversation.not_statusAgrees_of_bad hbad hagrees
  · intro hfresh
    have hend := (allSteps_and.2 ⟨hes, hfresh⟩).invariant
      (I := fun st => st.Sane c ∧ (st.fetch = .completed → st.Good c))
      (fun _ _ hI he => ⟨hI.1.next he.1, fun hcompleted =>
        (Conversation.good_next_iff hI.1 he.1 hI.2 hcompleted).2 he.2⟩) ⟨hI, fun h => nomatch h⟩
    exact Conversation.statusAgrees_of_good hend.1 hsettled (hend.2 hsettled.fetch)

/-- Ann has written to bob. -/
def annHasWritten : List MessagesEvent := [.sendMessage "ann" (some "hello") "bob" .plain none 5]

/-- The message of ann as it was sent. -/
def sentByAnn : Copy := ⟨1, ⟨"ann", "bob", 5, .plain, .send, some "hello", none, none⟩⟩

/-- Bob sees it after her fetch has completed and while her listeners are registered. -/
def seenWhileVisible : List ConversationEvent :=
  [.fetchMine, .fetchFriends, .fetchMessagesCompleted, .viewWillAppear, .snapshot .listener1,
    .deliver .listener1, .messages (.changeMessageStatusToSeen "bob" [sentByAnn]),
    .messages (.updateMessageToSeen "bob" ⟨1, sentByAnn.data.seen⟩), .snapshot .listener1,
    .snapshot .listener2, .deliver .listener1, .deliver .listener2]

theorem statusAgrees_seenWhileVisible :
    (after (Conversation.next succId annAndBob) (loaded succId annHasWritten)
      seenWhileVisible).StatusAgrees := by
  refine (statusAgrees_iff (c := annAndBob) (by decide) (by decide)
    ⟨rfl, rfl, fun i l hl => ?_⟩).2 ?_
  · cases i <;> cases hl <;> exact ⟨rfl, by decide⟩
  · decide

/-- Bob sees it while her view is not visible. -/
def seenWhileHidden : List ConversationEvent :=
  [.fetchMine, .fetchFriends, .fetchMessagesCompleted, .viewWillAppear, .viewWillDisappear,
    .messages (.changeMessageStatusToSeen "bob" [sentByAnn]),
    .messages (.updateMessageToSeen "bob" ⟨1, sentByAnn.data.seen⟩), .viewWillAppear,
    .snapshot .listener1, .snapshot .listener2, .deliver .listener1, .deliver .listener2]

/-- Her message stays shown as sent. -/
theorem not_statusAgrees_seenWhileHidden :
    let st :=
      after (Conversation.next succId annAndBob) (loaded succId annHasWritten) seenWhileHidden
    AllSteps (Conversation.next succId annAndBob) Conversation.Allowed (loaded succId annHasWritten)
      seenWhileHidden ∧ st.Settled annAndBob ∧ ¬ st.StatusAgrees := by
  refine ⟨by decide, ⟨rfl, rfl, fun i l hl => ?_⟩, fun h => ?_⟩
  · cases i <;> cases hl <;> exact ⟨rfl, by decide⟩
  · obtain ⟨m, hm, hstatus⟩ := h sentByAnn (by decide)
    cases hm
    cases hstatus

end YoYo
