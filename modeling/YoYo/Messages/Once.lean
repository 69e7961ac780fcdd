import YoYo.Messages.Conversation

/-!
# Each message once

The reply to the fetch replaces the array of the view, and every listener
delivers all messages there are as new, which are appended to it, also when it
has been registered again. So from when the view has last appeared or its fetch
has completed, the array has what the listeners have delivered since exactly if
it had then (`balanced_next`): once everything has been delivered, it has each
message once exactly if, then, it was empty or what was fetched is what the
listeners had delivered before (`exactlyOnce_iff`).
-/

namespace YoYo

open DocStore

namespace Conversation

/-- The array has each message of the conversation, and none twice. -/
structure ExactlyOnce (c : Parties) (st : Conversation) : Prop where
  nodup : (st.messages.map Doc.id).Nodup
  all : ∀ id m, messageOf st.store id = some m → c.Between m → id ∈ st.messages.map Doc.id

/-- The messages of the conversation a listener has delivered. -/
def deliveredBy (c : Parties) (st : Conversation) (i : Source) : List Copy :=
  match st.listener i with
  | some l => receivedBy (c.receiver i) l.delivered
  | none => []

/-- The ids of those both have. -/
def deliveredIDs (c : Parties) (st : Conversation) : List DocID :=
  (st.deliveredBy c .listener1 ++ st.deliveredBy c .listener2).map Doc.id

/-- The array has what the listeners have delivered. -/
def Balanced (c : Parties) (st : Conversation) : Prop :=
  (st.messages.map Doc.id).Perm (st.deliveredIDs c)

end Conversation

/-- The events from which the array is followed. -/
def ConversationEvent.Rebases : ConversationEvent → Prop
  | viewWillAppear | fetchMessagesCompleted => True
  | _ => False

/-- The view appears with an empty array, or the fetch completes with what the
    listeners have delivered. -/
def Conversation.Agreeing (c : Parties) (st : Conversation) : ConversationEvent → Prop
  | .viewWillAppear => st.messages = []
  | .fetchMessagesCompleted => (st.fetch.messages.map Doc.id).Perm (st.deliveredIDs c)
  | _ => True

instance : ∀ e : ConversationEvent, Decidable e.Rebases
  | .viewWillAppear | .fetchMessagesCompleted => .isTrue trivial
  | .messages _ | .viewWillDisappear | .fetchMine | .fetchFriends | .snapshot _ | .deliver _ =>
    .isFalse id

instance (c : Parties) (st : Conversation) : ∀ e, Decidable (st.Agreeing c e)
  | .viewWillAppear => inferInstanceAs (Decidable (st.messages = []))
  | .fetchMessagesCompleted => inferInstanceAs (Decidable (List.Perm _ _))
  | .messages _ | .viewWillDisappear | .fetchMine | .fetchFriends | .snapshot _ | .deliver _ =>
    .isTrue trivial

variable {c : Parties} {g : AutoId DocID} {st : Conversation} {i : Source} {uid uid' : UID}
  {old new docs : List (Doc DocID MessageDoc)} {id : DocID}

theorem mem_ids_receivedBy : id ∈ (receivedBy uid docs).map Doc.id ↔
    ∃ m, (∃ d ∈ docs, d.id = id ∧ Message.decode d.data = some m) ∧ m.receiverID = uid := by
  rw [List.mem_map]
  constructor
  · rintro ⟨message, hmem, rfl⟩
    exact ⟨message.data, mem_receivedBy.1 hmem⟩
  · rintro ⟨m, hd, hreceiver⟩
    exact ⟨⟨id, m⟩, mem_receivedBy.2 ⟨hd, hreceiver⟩, rfl⟩

theorem idSorted_receivedBy (uid : UID) (hdocs : IdSorted docs) :
    IdSorted (receivedBy uid docs) := by
  refine (List.Pairwise.filterMap _ (fun d e hde a ha b hb => ?_) hdocs).filter _
  obtain ⟨_, -, rfl⟩ := Option.map_eq_some_iff.1 ha
  obtain ⟨_, -, rfl⟩ := Option.map_eq_some_iff.1 hb
  exact hde

/-- The messages of a snapshot are those of the one before, and those added. -/
theorem perm_receivedBy (hold : SnapshotGrows uid old new) (hnew : IdSorted new) (uid' : UID) :
    ((receivedBy uid' new).map Doc.id).Perm ((receivedBy uid' old).map Doc.id ++
      (receivedBy uid' (documentsOf .added (documentChanges old new))).map Doc.id) := by
  rw [documentsOf_added]
  have hadded : ∀ id ∈ (receivedBy uid' (new.filter fun d => d.id ∉ old.map Doc.id)).map Doc.id,
      id ∉ old.map Doc.id := by
    intro id hid
    obtain ⟨m, ⟨d, hd, rfl, -⟩, -⟩ := mem_ids_receivedBy.1 hid
    simpa using (List.mem_filter.1 hd).2
  refine (List.perm_ext_iff_of_nodup (nodup_ids (idSorted_receivedBy uid' hnew)) ?_).2 fun id => ?_
  · refine (nodup_ids (idSorted_receivedBy uid' hold.sorted)).append
      (nodup_ids (idSorted_receivedBy uid' (hnew.filter _))) fun id hid hid' => hadded id hid' ?_
    obtain ⟨m, ⟨d, hd, rfl, -⟩, -⟩ := mem_ids_receivedBy.1 hid
    exact List.mem_map_of_mem hd
  · rw [List.mem_append, mem_ids_receivedBy, mem_ids_receivedBy, mem_ids_receivedBy]
    constructor
    · rintro ⟨m, ⟨d, hd, rfl, hm⟩, hreceiver⟩
      by_cases hid : d.id ∈ old.map Doc.id
      · -- The document was there before, and its message had the same receiver.
        obtain ⟨e, he, hid⟩ := List.mem_map.1 hid
        obtain ⟨m₀, m₁, hdata, -, hlater, hmem⟩ := hold.later e he
        have hd' : d = ⟨e.id, m₁.encode⟩ :=
          List.inj_on_of_nodup_map (nodup_ids hnew) hd hmem hid.symm
        rw [hd', Message.decode_encode, Option.some.injEq] at hm
        refine .inl ⟨m₀, ⟨e, he, hid, by rw [hdata, Message.decode_encode]⟩, ?_⟩
        rw [← hlater.receiverID_eq, hm, hreceiver]
      · exact .inr ⟨m, ⟨d, List.mem_filter.2 ⟨hd, by simpa using hid⟩, rfl, hm⟩, hreceiver⟩
    · rintro (⟨m, ⟨e, he, rfl, hm⟩, hreceiver⟩ | ⟨m, ⟨d, hd, hm⟩, hreceiver⟩)
      · obtain ⟨m₀, m₁, hdata, -, hlater, hmem⟩ := hold.later e he
        rw [hdata, Message.decode_encode, Option.some.injEq] at hm
        subst hm
        exact ⟨m₁, ⟨_, hmem, rfl, Message.decode_encode m₁⟩, hlater.receiverID_eq.trans hreceiver⟩
      · exact ⟨m, ⟨d, (List.mem_filter.1 hd).1, hm⟩, hreceiver⟩

/-! ## Steps -/

theorem ids_modifiedMessageDetected (modifiedMessages messages : List Copy) :
    (MessageViewController.modifiedMessageDetected modifiedMessages messages).map Doc.id =
      messages.map Doc.id := by
  rw [MessageViewController.modifiedMessageDetected, List.map_map]
  refine List.map_congr_left fun message _ => ?_
  simp only [Function.comp_apply]
  split_ifs <;> rfl

namespace Conversation

theorem deliveredBy_of_listener {l : Listener DocID MessageDoc} (hl : st.listener i = some l) :
    st.deliveredBy c i = receivedBy (c.receiver i) l.delivered := by
  rw [deliveredBy, hl]

theorem deliveredBy_congr {st' : Conversation} (h : st'.listener i = st.listener i) :
    st'.deliveredBy c i = st.deliveredBy c i := by
  rw [deliveredBy, deliveredBy, h]

theorem exists_listener_of_mem_deliveredBy {message : Copy} (hmem : message ∈ st.deliveredBy c i) :
    ∃ l, st.listener i = some l ∧ message ∈ receivedBy (c.receiver i) l.delivered := by
  cases hl : st.listener i with
  | none =>
    rw [deliveredBy, hl] at hmem
    exact absurd hmem List.not_mem_nil
  | some l => exact ⟨l, rfl, by rwa [deliveredBy_of_listener hl] at hmem⟩

/-- What has been delivered grows by what is added, up to the order. -/
theorem perm_deliveredIDs {st' : Conversation} {ids : List DocID}
    (hself : ((st'.deliveredBy c i).map Doc.id).Perm ((st.deliveredBy c i).map Doc.id ++ ids))
    (hother : ∀ j, j ≠ i → st'.deliveredBy c j = st.deliveredBy c j) :
    (st'.deliveredIDs c).Perm (st.deliveredIDs c ++ ids) := by
  simp only [deliveredIDs]
  rw [List.map_append, List.map_append]
  cases i with
  | listener1 =>
    rw [hother .listener2 (by decide)]
    refine (hself.append_right _).trans ?_
    rw [List.append_assoc, List.append_assoc]
    exact List.perm_append_comm.append_left _
  | listener2 =>
    rw [hother .listener1 (by decide), List.append_assoc]
    exact hself.append_left _

/-- A delivery appends to the array what it adds to what has been delivered. -/
theorem balanced_deliver (hI : st.Sane c) {delivered : List (Doc DocID MessageDoc)}
    {queue : List (List (Doc DocID MessageDoc))}
    (hl : st.listener i = some ⟨delivered, docs :: queue⟩) :
    (st.deliver c i delivered docs queue).Balanced c ↔ st.Balanced c := by
  have hord := hI.listeners i _ hl
  have hdocs : IdSorted docs := (hord.rel_of_mem (List.mem_cons_of_mem _ List.mem_cons_self)).sorted
  have hold : SnapshotGrows (c.sender i) delivered docs := hord.rel_of_mem_queue List.mem_cons_self
  have hset : (st.deliver c i delivered docs queue).listener i = some ⟨docs, queue⟩ :=
    listener_setListener_self hl
  have hself : (((st.deliver c i delivered docs queue).deliveredBy c i).map Doc.id).Perm
      ((st.deliveredBy c i).map Doc.id ++ (receivedBy (c.receiver i)
        (documentsOf .added (documentChanges delivered docs))).map Doc.id) := by
    rw [deliveredBy_of_listener hset, deliveredBy_of_listener hl]
    exact perm_receivedBy hold hdocs (c.receiver i)
  have hdelivered := perm_deliveredIDs hself fun j hji =>
    deliveredBy_congr (listener_setListener_of_ne hji ⟨docs, queue⟩)
  have hshown : ((st.deliver c i delivered docs queue).messages.map Doc.id).Perm
      (st.messages.map Doc.id ++ (receivedBy (c.receiver i)
        (documentsOf .added (documentChanges delivered docs))).map Doc.id) := by
    rw [Conversation.deliver, messages_receive, Delivery.shown, ids_modifiedMessageDetected,
      messages_receive, Delivery.shown, MessageViewController.newMessageDetected_eq,
      List.map_append, Parties.handler_added]
    exact ((List.perm_insertionSort _ _).map _).append_left _
  simp only [Balanced]
  rw [hshown.congr_left, hdelivered.congr_right, List.perm_append_right_iff]

/-- Taking a snapshot delivers nothing. -/
theorem deliveredBy_snapshot {l : Listener DocID MessageDoc} (hl : st.listener i = some l) :
    (st.setListener i (l.snapshot docs)).deliveredBy c = st.deliveredBy c := by
  funext j
  by_cases hji : j = i
  · subst hji
    rw [deliveredBy_of_listener (listener_setListener_self hl), deliveredBy_of_listener hl]
    rfl
  · exact deliveredBy_congr (listener_setListener_of_ne hji _)

/-- Between rebases, while the view is visible, the array stays balanced, or unbalanced. -/
theorem balanced_next (hI : st.Sane c) {e : ConversationEvent} (he : ¬ e.Rebases)
    (hvisible : (st.next g c e).listeners.isSome) : (st.next g c e).Balanced c ↔ st.Balanced c := by
  cases e with
  | messages e => exact Iff.rfl
  | viewWillAppear => exact absurd trivial he
  | viewWillDisappear => cases hvisible
  | fetchMine =>
    rcases next_fetchMine g c st with hnext | ⟨-, hnext⟩
    · rw [hnext]
    · rw [hnext]
      exact Iff.rfl
  | fetchFriends =>
    rcases next_fetchFriends g c st with hnext | ⟨myMessages, -, hnext⟩
    · rw [hnext]
    · rw [hnext]
      exact Iff.rfl
  | fetchMessagesCompleted => exact absurd trivial he
  | snapshot i =>
    rcases next_snapshot g c st i with hnext | ⟨l, hl, hnext⟩
    · rw [hnext]
    · rw [hnext, Balanced, Balanced, deliveredIDs, deliveredIDs, deliveredBy_snapshot hl,
        messages_setListener]
  | deliver i =>
    rcases next_deliver g c st i with ⟨-, hnext⟩ | ⟨delivered, docs, queue, hl, hnext⟩
    · rw [hnext]
    · rw [hnext]
      exact balanced_deliver hI hl

/-- After a rebase, the array is balanced exactly if it agreed. -/
theorem balanced_rebase {e : ConversationEvent} (he : e.Rebases) (hallowed : st.Allowed e) :
    (st.next g c e).Balanced c ↔ st.Agreeing c e := by
  cases e with
  | viewWillAppear =>
    change (st.messages.map Doc.id).Perm [] ↔ st.messages = []
    rw [List.perm_nil, List.map_eq_nil_iff]
  | fetchMessagesCompleted =>
    obtain ⟨messages, hf⟩ := Fetch.exists_of_isFetched hallowed
    simp only [Conversation.next, Agreeing, hf]
    exact Iff.rfl
  | _ => exact he.elim

/-- Without appearing, a view that is not visible stays so. -/
theorem hidden_after {es : List ConversationEvent} (hes : ∀ e ∈ es, ¬ e.Rebases)
    (hhidden : st.listeners = none) : (after (Conversation.next g c) st es).listeners = none := by
  induction es generalizing st with
  | nil => exact hhidden
  | cons e es ih =>
    refine ih (fun e he => hes e (List.mem_cons_of_mem _ he)) ?_
    have hl : ∀ i, st.listener i = none := fun i => by rw [listener, hhidden]; rfl
    cases e with
    | viewWillAppear => exact absurd trivial (hes _ List.mem_cons_self)
    | fetchMine =>
      rcases next_fetchMine g c st with hnext | ⟨-, hnext⟩ <;> rw [hnext] <;> exact hhidden
    | fetchFriends =>
      rcases next_fetchFriends g c st with hnext | ⟨_, -, hnext⟩ <;> rw [hnext] <;> exact hhidden
    | fetchMessagesCompleted =>
      rcases next_fetchMessagesCompleted g c st with hnext | ⟨_, -, hnext⟩ <;> rw [hnext] <;>
        exact hhidden
    | snapshot i => simpa only [Conversation.next, hl] using hhidden
    | deliver i => simpa only [Conversation.next, hl] using hhidden
    | messages e => exact hhidden
    | viewWillDisappear => rfl

/-- From the last rebase on, the array stays balanced, or unbalanced. -/
theorem balanced_after {es : List ConversationEvent} (hI : st.Sane c)
    (hallowed : AllSteps (Conversation.next g c) Conversation.Allowed st es)
    (hes : ∀ e ∈ es, ¬ e.Rebases)
    (hvisible : (after (Conversation.next g c) st es).listeners.isSome) :
    (after (Conversation.next g c) st es).Balanced c ↔ st.Balanced c := by
  induction es generalizing st with
  | nil => exact Iff.rfl
  | cons e es ih =>
    have hes' : ∀ e ∈ es, ¬ e.Rebases := fun e he => hes e (List.mem_cons_of_mem _ he)
    -- The view is visible at the end, and nothing makes it appear: it is visible now.
    have hnext : (st.next g c e).listeners.isSome := by
      by_contra hhidden
      rw [after_cons, hidden_after hes' (Option.not_isSome_iff_eq_none.1 hhidden)] at hvisible
      cases hvisible
    rw [after_cons, ih (hI.next hallowed.1) hallowed.2 hes' hvisible]
    exact balanced_next hI (hes e List.mem_cons_self) hnext

/-! ## Once everything has been delivered -/

theorem deliveredBy_of_settled (h : st.Settled c) (i : Source) :
    st.deliveredBy c i = receivedBy (c.receiver i) (c.query i st.store) := by
  obtain ⟨listeners, hl⟩ := Option.isSome_iff_exists.1 h.visible
  have hi : st.listener i = some (listeners i) := by rw [listener, hl]; rfl
  rw [deliveredBy_of_listener hi, (h.upToDate i _ hi).2]

theorem mem_ids_query {s : MessagesStore} (hs : Encoded s) :
    id ∈ (receivedBy (c.receiver i) (c.query i s)).map Doc.id ↔
      ∃ m, messageOf s id = some m ∧ m.senderID = c.sender i ∧ m.receiverID = c.receiver i := by
  rw [mem_ids_receivedBy]
  constructor
  · rintro ⟨m, ⟨d, hd, rfl, hm⟩, hreceiver⟩
    obtain ⟨hd, hsender⟩ := Collection.mem_query.1 hd
    obtain ⟨m₀, hm₀⟩ := hs d hd
    rw [hm₀, Message.decode_encode, Option.some.injEq] at hm
    subst hm
    rw [hm₀, sentBy_encode] at hsender
    exact ⟨m₀, (messageOf_eq_some_iff hs).2 (hm₀ ▸ hd), hsender, hreceiver⟩
  · rintro ⟨m, hm, hsender, hreceiver⟩
    refine ⟨m, ⟨⟨id, m.encode⟩, Collection.mem_query.2 ⟨?_, ?_⟩, rfl, Message.decode_encode m⟩,
      hreceiver⟩
    · exact (messageOf_eq_some_iff hs).1 hm
    · exact sentBy_encode.2 hsender

/-- The listeners have delivered all messages of the conversation. -/
theorem mem_deliveredIDs (hI : st.Sane c) (h : st.Settled c) :
    id ∈ st.deliveredIDs c ↔ ∃ m, messageOf st.store id = some m ∧ c.Between m := by
  rw [deliveredIDs, List.map_append, List.mem_append, deliveredBy_of_settled h,
    deliveredBy_of_settled h, mem_ids_query hI.world.encoded, mem_ids_query hI.world.encoded]
  constructor
  · rintro (⟨m, hm, hsender, hreceiver⟩ | ⟨m, hm, hsender, hreceiver⟩)
    · exact ⟨m, hm, .listener1, hsender, hreceiver⟩
    · exact ⟨m, hm, .listener2, hsender, hreceiver⟩
  · rintro ⟨m, hm, i, hsender, hreceiver⟩
    cases i with
    | listener1 => exact .inl ⟨m, hm, hsender, hreceiver⟩
    | listener2 => exact .inr ⟨m, hm, hsender, hreceiver⟩

/-- None of them is one of both. -/
theorem nodup_deliveredIDs (hI : st.Sane c) (h : st.Settled c) : (st.deliveredIDs c).Nodup := by
  have hnodup : ∀ i, ((receivedBy (c.receiver i) (c.query i st.store)).map Doc.id).Nodup :=
    fun i => nodup_ids (idSorted_receivedBy _ (st.store.sorted_query _))
  rw [deliveredIDs, List.map_append, deliveredBy_of_settled h, deliveredBy_of_settled h]
  refine (hnodup _).append (hnodup _) fun id hid hid' => ?_
  obtain ⟨m, hm, hsender, -⟩ := (mem_ids_query hI.world.encoded).1 hid
  obtain ⟨m', hm', hsender', -⟩ := (mem_ids_query hI.world.encoded).1 hid'
  rw [hm, Option.some.injEq] at hm'
  subst hm'
  exact c.ne (hsender.symm.trans hsender')

theorem exactlyOnce_iff_balanced (hI : st.Sane c) (h : st.Settled c) :
    st.ExactlyOnce c ↔ st.Balanced c := by
  constructor
  · intro honce
    refine (List.perm_ext_iff_of_nodup honce.nodup (nodup_deliveredIDs hI h)).2 fun id => ?_
    rw [mem_deliveredIDs hI h]
    constructor
    · intro hid
      obtain ⟨message, hmem, rfl⟩ := List.mem_map.1 hid
      obtain ⟨m, hm, hlater, i, hsender, hreceiver⟩ := hI.messages message hmem
      exact ⟨m, hm, i, hlater.senderID_eq.trans hsender, hlater.receiverID_eq.trans hreceiver⟩
    · rintro ⟨m, hm, hbetween⟩
      exact honce.all id m hm hbetween
  · intro hperm
    refine ⟨hperm.nodup_iff.2 (nodup_deliveredIDs hI h), fun id m hm hbetween => ?_⟩
    exact hperm.mem_iff.2 ((mem_deliveredIDs hI h).2 ⟨m, hm, hbetween⟩)

end Conversation

/-- The last time in the run `es` that the view has appeared, or its fetch
    completed, it agreed with what the listeners had delivered. -/
def LastAgrees (g : AutoId DocID) (c : Parties) (st : Conversation) (es : List ConversationEvent) :
    Prop :=
  ∃ es₁ e es₂, es = es₁ ++ e :: es₂ ∧ e.Rebases ∧ (∀ e' ∈ es₂, ¬ e'.Rebases) ∧
    (after (Conversation.next g c) st es₁).Agreeing c e

/-- The view, loaded after any history of the messages. -/
def loaded (g : AutoId DocID) (history : List MessagesEvent) : Conversation :=
  .viewDidLoad (after (Messages.next g) .init history)

theorem sane_loaded {history : List MessagesEvent}
    (h : AllSteps (Messages.next g) Messages.Allowed .init history) : (loaded g history).Sane c :=
  Conversation.sane_viewDidLoad (h.invariant (fun _ _ hI he => hI.next he) Messages.sane_init)

/-- Whenever the view is visible and everything has been delivered to it, it
    shows each message of the conversation exactly once if and only if, when it
    has last appeared or its fetch has completed, its array was empty or what
    was fetched was what the listeners had delivered. -/
theorem exactlyOnce_iff {history : List MessagesEvent} {es : List ConversationEvent}
    (hhistory : AllSteps (Messages.next g) Messages.Allowed .init history)
    (hes : AllSteps (Conversation.next g c) Conversation.Allowed (loaded g history) es)
    (hsettled : (after (Conversation.next g c) (loaded g history) es).Settled c) :
    (after (Conversation.next g c) (loaded g history) es).ExactlyOnce c ↔
      LastAgrees g c (loaded g history) es := by
  have hI := sane_loaded (c := c) hhistory
  have hrun : ∀ {es : List ConversationEvent},
      AllSteps (Conversation.next g c) Conversation.Allowed (loaded g history) es →
        (after (Conversation.next g c) (loaded g history) es).Sane c :=
    fun h => h.invariant (fun _ _ hI he => hI.next he) hI
  rw [Conversation.exactlyOnce_iff_balanced (hrun hes) hsettled]
  -- After the last rebase, the array is balanced exactly if it agreed then.
  have hlast : ∀ es₁ e es₂, es = es₁ ++ e :: es₂ → e.Rebases → (∀ e' ∈ es₂, ¬ e'.Rebases) →
      ((after (Conversation.next g c) (loaded g history) es).Balanced c ↔
        (after (Conversation.next g c) (loaded g history) es₁).Agreeing c e) := by
    rintro es₁ e es₂ rfl he hes₂
    obtain ⟨h₁, hallowed, h₂⟩ := allSteps_append.1 hes
    have hvisible := hsettled.visible
    rw [after_append, after_cons] at hvisible ⊢
    rw [Conversation.balanced_after ((hrun h₁).next hallowed) h₂ hes₂ hvisible]
    exact Conversation.balanced_rebase he hallowed
  constructor
  · intro hbalanced
    obtain ⟨es₁, e, es₂, heq, he, hes₂⟩ : ∃ es₁ e es₂, es = es₁ ++ e :: es₂ ∧
        ConversationEvent.Rebases e ∧ ∀ e' ∈ es₂, ¬ ConversationEvent.Rebases e' := by
      refine exists_last ?_
      -- A view that has never appeared is not visible.
      by_contra hnone
      push Not at hnone
      have hhidden : (after (Conversation.next g c) (loaded g history) es).listeners = none :=
        Conversation.hidden_after hnone rfl
      have hvisible := hsettled.visible
      rw [hhidden] at hvisible
      cases hvisible
    exact ⟨es₁, e, es₂, heq, he, hes₂, (hlast es₁ e es₂ heq he hes₂).1 hbalanced⟩
  · rintro ⟨es₁, e, es₂, heq, he, hes₂, hagreeing⟩
    exact (hlast es₁ e es₂ heq he hes₂).2 hagreeing

/-- Ann and bob. -/
def annAndBob : Parties := ⟨"ann", "bob", by decide⟩

/-- Bob has written to ann. -/
def bobHasWritten : List MessagesEvent := [.sendMessage "bob" (some "hi") "ann" .plain none 5]

/-- The listeners of ann deliver before her fetch completes, and she answers. -/
def listenersFirst : List ConversationEvent :=
  [.viewWillAppear, .fetchMine, .snapshot .listener1, .snapshot .listener2, .deliver .listener2,
    .deliver .listener1, .fetchFriends, .fetchMessagesCompleted,
    .messages (.sendMessage "ann" (some "hello") "bob" .plain none 6), .snapshot .listener1,
    .deliver .listener1]

theorem exactlyOnce_listenersFirst :
    (after (Conversation.next succId annAndBob) (loaded succId bobHasWritten)
      listenersFirst).ExactlyOnce annAndBob := by
  refine (exactlyOnce_iff (by decide) (by decide) ⟨rfl, rfl, fun i l hl => ?_⟩).2 ?_
  · cases i <;> cases hl <;> exact ⟨rfl, by decide⟩
  · exact ⟨listenersFirst.take 7, .fetchMessagesCompleted, listenersFirst.drop 8, rfl, trivial,
      by decide, by decide⟩

/-- Her fetch completes first. -/
def fetchFirst : List ConversationEvent :=
  [.viewWillAppear, .fetchMine, .fetchFriends, .fetchMessagesCompleted, .snapshot .listener1,
    .deliver .listener1, .snapshot .listener2, .deliver .listener2]

/-- The message of bob is shown twice. -/
theorem not_exactlyOnce_fetchFirst :
    let st := after (Conversation.next succId annAndBob) (loaded succId bobHasWritten) fetchFirst
    AllSteps (Conversation.next succId annAndBob) Conversation.Allowed (loaded succId bobHasWritten)
      fetchFirst ∧ st.Settled annAndBob ∧ ¬ st.ExactlyOnce annAndBob := by
  refine ⟨by decide, ⟨rfl, rfl, fun i l hl => ?_⟩, fun h => absurd h.nodup (by decide)⟩
  cases i <;> cases hl <;> exact ⟨rfl, by decide⟩

end YoYo
