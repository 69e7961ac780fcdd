import YoYo.Messages.Service

/-!
# Read receipts

Any number of clients, each holding copies of messages from any time before,
save messages and mark those they have received as seen, by writes reaching the
store one by one, in any order. Although each writes the whole of a message,
from a copy that may be old, nothing but the status of a message ever changes,
once, and by a client of the user it was sent to (`readReceipts`).
-/

namespace YoYo

open DocStore

/-- The message stored under an id, if there is one. -/
def messageOf (s : MessagesStore) (id : DocID) : Option Message := (s.get? id).bind Message.decode

/-- The versions of the store there have been, and the writes on their way to
    it, each with the user signed in where it comes from. -/
structure Messages where
  history : Versions MessagesStore
  writes : List (UID × Copy)

/-- What happens to messages. -/
inductive MessagesEvent
  | sendMessage (uid : UID) (msg : Option String) (receiverID : UID) (messageType : MessageType)
    (assetURL : Option String) (now : Date)
  | sendMessageUsing (message : Message)
  | changeMessageStatusToSeen (uid : UID) (messages : List Copy)
  | updateMessageToSeen (uid : UID) (message : Copy)

namespace Messages

/-- No messages, and nothing before. -/
def init : Messages := ⟨.init .empty, []⟩

/-- The store now. -/
abbrev store (w : Messages) : MessagesStore := w.history.now

/-- A new version of the store. -/
def push (w : Messages) (s : MessagesStore) : Messages := { w with history := w.history.push s }

/-- The user `uid` marks messages as seen: his writes are on their way. -/
def changeMessageStatusToSeen (w : Messages) (uid : UID) (messages : List Copy) : Messages :=
  { w with writes := w.writes ++
      (MessagingService.changeMessageStatusToSeen uid messages).map fun message => (uid, message) }

/-- The next state. -/
def next (g : AutoId DocID) (w : Messages) : MessagesEvent → Messages
  | .sendMessage uid msg receiverID messageType assetURL now =>
    w.push (DatabaseService.saveMessage g
      (MessagingService.sendMessage uid msg receiverID messageType assetURL now) w.store)
  | .sendMessageUsing message => w.push (DatabaseService.saveMessage g message w.store)
  | .changeMessageStatusToSeen uid messages => w.changeMessageStatusToSeen uid messages
  | .updateMessageToSeen uid message =>
    { w.push (DatabaseService.updateMessageToSeen message w.store) with
      writes := w.writes.erase (uid, message) }

/-- A copy of a message is as it was in some version, or marked as seen since. -/
def Copied (w : Messages) (message : Copy) : Prop :=
  ∃ s ∈ w.history.seen, ∃ m ∈ messageOf s message.id, message.data = m ∨ message.data = m.seen

instance (w : Messages) (message : Copy) : Decidable (w.Copied message) :=
  inferInstanceAs (Decidable (∃ s ∈ _, ∃ m ∈ _, _))

/-- A message is saved as sent, those marked are copies, and those written are on their way. -/
def Allowed (w : Messages) : MessagesEvent → Prop
  | .sendMessage _ _ _ _ _ _ => True
  | .sendMessageUsing message => message.messageStatus = .send
  | .changeMessageStatusToSeen _ messages => ∀ message ∈ messages, w.Copied message
  | .updateMessageToSeen uid message => (uid, message) ∈ w.writes

instance (w : Messages) : ∀ e, Decidable (w.Allowed e)
  | .sendMessage _ _ _ _ _ _ => .isTrue trivial
  | .sendMessageUsing message => inferInstanceAs (Decidable (message.messageStatus = .send))
  | .changeMessageStatusToSeen _ messages => inferInstanceAs (Decidable (∀ message ∈ messages, _))
  | .updateMessageToSeen uid message => inferInstanceAs (Decidable ((uid, message) ∈ w.writes))

end Messages

/-- The message `m'` is `m`, unless it has been seen since. -/
def Later (m m' : Message) : Prop := m' = m ∨ m.messageStatus = .send ∧ m' = m.seen

namespace Later

variable {m m' m'' : Message}

@[refl] theorem refl (m : Message) : Later m m := .inl rfl

theorem trans (h : Later m m') (h' : Later m' m'') : Later m m'' := by
  rcases h with rfl | ⟨hm, rfl⟩
  · exact h'
  · rcases h' with rfl | ⟨-, rfl⟩
    · exact .inr ⟨hm, rfl⟩
    · exact .inr ⟨hm, rfl⟩

/-- A message seen is not changed any more. -/
theorem eq_of_seen (h : Later m m') (hm : m.messageStatus = .seen) : m' = m := by
  rcases h with rfl | ⟨hsend, -⟩
  · rfl
  · rw [hm] at hsend
    cases hsend

theorem seen_eq (h : Later m m') : m'.seen = m.seen := by
  rcases h with rfl | ⟨-, rfl⟩ <;> rfl

theorem to_seen (m : Message) : Later m m.seen := by
  cases hm : m.messageStatus with
  | send => exact .inr ⟨hm, rfl⟩
  | seen => exact .inl (Message.seen_of_seen hm)

theorem receiverID_eq (h : Later m m') : m'.receiverID = m.receiverID := by
  rcases h with rfl | ⟨-, rfl⟩ <;> rfl

theorem senderID_eq (h : Later m m') : m'.senderID = m.senderID := by
  rcases h with rfl | ⟨-, rfl⟩ <;> rfl

end Later

/-! ## Steps -/

section

variable {g : AutoId DocID} {s s' s'' : MessagesStore} {id : DocID} {m m' : Message}
  {message : Copy}

theorem messageOf_next (g : AutoId DocID) : messageOf s (g.next s.ids) = none := by
  rw [messageOf, Collection.get?_next]
  rfl

theorem messageOf_saveMessage (g : AutoId DocID) (m : Message) :
    messageOf (DatabaseService.saveMessage g m s) id =
      if id = g.next s.ids then some m else messageOf s id := by
  rw [messageOf, DatabaseService.saveMessage, Collection.get?_addDocument]
  split_ifs
  · exact Message.decode_encode _
  · rfl

/-- Saving a message changes no other one. -/
theorem eq_of_messageOf_saveMessage {m₀ : Message} (hm : messageOf s id = some m)
    (hm' : messageOf (DatabaseService.saveMessage g m₀ s) id = some m') : m' = m := by
  rw [messageOf_saveMessage] at hm'
  split_ifs at hm' with hid
  · rw [hid, messageOf_next] at hm
    cases hm
  · rw [hm, Option.some.injEq] at hm'
    exact hm'.symm

/-- A new message is the one saved. -/
theorem eq_of_messageOf_saveMessage_of_none {m₀ : Message} (hm : messageOf s id = none)
    (hm' : messageOf (DatabaseService.saveMessage g m₀ s) id = some m') : m' = m₀ := by
  rw [messageOf_saveMessage] at hm'
  split_ifs at hm'
  · exact (Option.some.inj hm').symm
  · rw [hm] at hm'
    cases hm'

theorem messageOf_updateMessageToSeen :
    messageOf (DatabaseService.updateMessageToSeen message s) id =
    if id = message.id then some message.data else messageOf s id := by
  rw [messageOf, DatabaseService.updateMessageToSeen, Collection.get?_setData]
  split_ifs
  · exact Message.decode_encode _
  · rfl

/-- The messages of `s` are still in `s'`, unless they have been seen since. -/
def Grows (s s' : MessagesStore) : Prop :=
  ∀ id m, messageOf s id = some m → ∃ m', messageOf s' id = some m' ∧ Later m m'

theorem Grows.refl (s : MessagesStore) : Grows s s := fun _ m h => ⟨m, h, .refl m⟩

theorem Grows.trans (h : Grows s s') (h' : Grows s' s'') : Grows s s'' := by
  intro id m hm
  obtain ⟨m', hm', hlater⟩ := h id m hm
  obtain ⟨m'', hm'', hlater'⟩ := h' id m' hm'
  exact ⟨m'', hm'', hlater.trans hlater'⟩

theorem grows_saveMessage (g : AutoId DocID) (m : Message) :
    Grows s (DatabaseService.saveMessage g m s) := by
  intro id m' hm'
  rw [messageOf_saveMessage, if_neg]
  · exact ⟨m', hm', .refl m'⟩
  · rintro rfl
    rw [messageOf_next] at hm'
    cases hm'

theorem grows_updateMessageToSeen (hm : messageOf s message.id = some m)
    (hdata : message.data = m.seen) :
    Grows s (DatabaseService.updateMessageToSeen message s) := by
  intro id m' hm'
  rw [messageOf_updateMessageToSeen]
  split_ifs with hid
  · subst hid
    rw [hm, Option.some.injEq] at hm'
    exact ⟨_, rfl, hm' ▸ hdata ▸ .to_seen m⟩
  · exact ⟨m', hm', .refl m'⟩

namespace Messages

variable {w : Messages} {uid : UID} {messages : List Copy}

/-- What the runs keep: the versions grow, and what is written is the message
    stored, as seen, by the user it was sent to. -/
structure Sane (w : Messages) : Prop where
  encoded : ∀ d ∈ w.store.docs, ∃ m : Message, d.data = m.encode
  grows : ∀ s ∈ w.history.seen, Grows s w.store
  writes : ∀ uid message, (uid, message) ∈ w.writes → message.data.receiverID = uid ∧
    ∃ m, messageOf w.store message.id = some m ∧ message.data = m.seen

theorem sane_init : init.Sane where
  encoded _ hd := absurd hd List.not_mem_nil
  grows s hs := by
    rw [Versions.mem_seen_init.1 hs]
    exact .refl _
  writes _ _ h := absurd h List.not_mem_nil

/-- The store grows to a new version. -/
theorem Sane.push (hI : w.Sane) (hs : Grows w.store s)
    (hencoded : ∀ d ∈ s.docs, ∃ m : Message, d.data = m.encode) : (w.push s).Sane where
  encoded := hencoded
  grows s' hs' := by
    rcases Versions.mem_seen_push.1 hs' with rfl | hs'
    · exact .refl _
    · exact (hI.grows s' hs').trans hs
  writes uid message h := by
    obtain ⟨huid, m, hm, hdata⟩ := hI.writes uid message h
    obtain ⟨m', hm', hlater⟩ := hs _ m hm
    exact ⟨huid, m', hm', hdata.trans hlater.seen_eq.symm⟩

theorem Sane.saveMessage (hI : w.Sane) (g : AutoId DocID) (m : Message) :
    (w.push (DatabaseService.saveMessage g m w.store)).Sane := by
  refine hI.push (grows_saveMessage g m) fun d hd => ?_
  rcases Collection.mem_addDocument.1 hd with rfl | hd
  · exact ⟨m, rfl⟩
  · exact hI.encoded d hd

/-- A copy not marked as seen is of a message stored. -/
theorem Sane.later_of_copied (hI : w.Sane) (h : w.Copied message)
    (hsend : message.data.messageStatus = .send) :
    ∃ m, messageOf w.store message.id = some m ∧ Later message.data m := by
  obtain ⟨s, hs, m, hm, hdata⟩ := h
  obtain ⟨m', hm', hlater⟩ := hI.grows s hs _ m hm
  refine ⟨m', hm', ?_⟩
  rcases hdata with hdata | hdata
  · rwa [hdata]
  · rw [hdata] at hsend
    cases hsend

/-- Marking copies of the messages stored. -/
theorem Sane.changeMessageStatusToSeen (hI : w.Sane)
    (h : ∀ message ∈ messages, message.data.messageStatus = .send →
      ∃ m, messageOf w.store message.id = some m ∧ Later message.data m) :
    (w.changeMessageStatusToSeen uid messages).Sane where
  encoded := hI.encoded
  grows := hI.grows
  writes uid' message hmem := by
    rcases List.mem_append.1 hmem with hmem | hmem
    · exact hI.writes uid' message hmem
    · obtain ⟨message₁, hmem₁, heq⟩ := List.mem_map.1 hmem
      cases heq
      obtain ⟨message₀, hmem₀, rfl⟩ := List.mem_map.1 hmem₁
      obtain ⟨hmem, hfilter⟩ := List.mem_filter.1 hmem₀
      obtain ⟨huid, hsend⟩ :
          message₀.data.receiverID = uid ∧ message₀.data.messageStatus = .send := by
        simpa using hfilter
      obtain ⟨m, hm, hlater⟩ := h message₀ hmem hsend
      exact ⟨huid, m, hm, hlater.seen_eq.symm⟩

theorem Sane.updateMessageToSeen (hI : w.Sane) (h : (uid, message) ∈ w.writes) :
    (w.next g (.updateMessageToSeen uid message)).Sane := by
  obtain ⟨-, m, hm, hdata⟩ := hI.writes uid message h
  have hpush := hI.push (grows_updateMessageToSeen hm hdata) fun d hd => by
    rcases Collection.mem_setData.1 hd with rfl | ⟨hd, -⟩
    · exact ⟨message.data, rfl⟩
    · exact hI.encoded d hd
  exact ⟨hpush.encoded, hpush.grows, fun uid' message' h' =>
    hpush.writes uid' message' (List.mem_of_mem_erase h')⟩

theorem Sane.next (hI : w.Sane) {e : MessagesEvent} (he : w.Allowed e) : (w.next g e).Sane := by
  cases e with
  | sendMessage uid msg receiverID messageType assetURL now => exact hI.saveMessage g _
  | sendMessageUsing message => exact hI.saveMessage g _
  | changeMessageStatusToSeen uid messages =>
    exact hI.changeMessageStatusToSeen fun message hmem => hI.later_of_copied (he message hmem)
  | updateMessageToSeen uid message => exact hI.updateMessageToSeen he

/-- The store grows in every step. -/
theorem Sane.grows_next (hI : w.Sane) {e : MessagesEvent} (he : w.Allowed e) :
    Grows w.store (w.next g e).store := by
  cases e with
  | sendMessage => exact grows_saveMessage g _
  | sendMessageUsing => exact grows_saveMessage g _
  | changeMessageStatusToSeen => exact .refl _
  | updateMessageToSeen uid message =>
    obtain ⟨-, m, hm, hdata⟩ := hI.writes uid message he
    exact grows_updateMessageToSeen hm hdata

/-- The status of a message changes only as written by a client of the user it was sent to. -/
def ChangedByReceiver (g : AutoId DocID) (w : Messages) (e : MessagesEvent) : Prop :=
  ∀ id m m', messageOf w.store id = some m → messageOf (w.next g e).store id = some m' →
    m'.messageStatus ≠ m.messageStatus →
      ∃ message, e = .updateMessageToSeen m.receiverID message ∧ message.id = id

/-- Messages are created as sent. -/
def CreatedAsSent (g : AutoId DocID) (w : Messages) (e : MessagesEvent) : Prop :=
  ∀ id m, messageOf w.store id = none → messageOf (w.next g e).store id = some m →
    m.messageStatus = .send

theorem Sane.changedByReceiver (hI : w.Sane) {e : MessagesEvent} (he : w.Allowed e) :
    w.ChangedByReceiver g e := by
  intro id m m' hm hm' hne
  cases e with
  | sendMessage => exact absurd (congrArg _ (eq_of_messageOf_saveMessage hm hm')) hne
  | sendMessageUsing => exact absurd (congrArg _ (eq_of_messageOf_saveMessage hm hm')) hne
  | changeMessageStatusToSeen =>
    have heq : m = m' := Option.some.inj (hm.symm.trans hm')
    exact absurd (heq ▸ rfl) hne
  | updateMessageToSeen uid message =>
    change messageOf (DatabaseService.updateMessageToSeen message w.store) id = some m' at hm'
    rw [messageOf_updateMessageToSeen] at hm'
    split_ifs at hm' with hid
    · -- What is written is on its way from the user the message was sent to.
      obtain ⟨huid, m₀, hm₀, hdata⟩ := hI.writes uid message he
      rw [← hid, hm, Option.some.injEq] at hm₀
      subst hm₀
      rw [hdata] at huid
      have huid : m.receiverID = uid := huid
      exact ⟨message, huid ▸ rfl, hid.symm⟩
    · rw [hm, Option.some.injEq] at hm'
      exact absurd (hm' ▸ rfl) hne

theorem Sane.createdAsSent (hI : w.Sane) {e : MessagesEvent} (he : w.Allowed e) :
    w.CreatedAsSent g e := by
  intro id m hm hm'
  cases e with
  | sendMessage => rw [eq_of_messageOf_saveMessage_of_none hm hm']; rfl
  | sendMessageUsing => rw [eq_of_messageOf_saveMessage_of_none hm hm']; exact he
  | changeMessageStatusToSeen =>
    change messageOf w.store id = some m at hm'
    rw [hm] at hm'
    cases hm'
  | updateMessageToSeen uid message =>
    obtain ⟨-, m₀, hm₀, -⟩ := hI.writes uid message he
    change messageOf (DatabaseService.updateMessageToSeen message w.store) id = some m at hm'
    rw [messageOf_updateMessageToSeen] at hm'
    split_ifs at hm' with hid
    · rw [hid, hm₀] at hm
      cases hm
    · rw [hm] at hm'
      cases hm'

end Messages

/-! ## Runs -/

/-- In the run `es`, messages are created as sent, and from then on nothing but
    their status changes, once, to seen, as written by a client of the user they
    were sent to. -/
structure ReadReceipts (g : AutoId DocID) (es : List MessagesEvent) : Prop where
  later : ∀ es₁ es₂ es₃, es = es₁ ++ (es₂ ++ es₃) → ∀ id m,
    messageOf (after (Messages.next g) .init es₁).store id = some m →
    ∃ m', messageOf (after (Messages.next g) .init (es₁ ++ es₂)).store id = some m' ∧ Later m m'
  changed : AllSteps (Messages.next g) (Messages.ChangedByReceiver g) .init es
  created : AllSteps (Messages.next g) (Messages.CreatedAsSent g) .init es

/-- The store grows over a run. -/
theorem Messages.Sane.grows_after {w : Messages} (hI : w.Sane) {es : List MessagesEvent}
    (h : AllSteps (Messages.next g) Messages.Allowed w es) :
    Grows w.store (after (Messages.next g) w es).store :=
  (h.invariant (I := fun w' => w'.Sane ∧ Grows w.store w'.store)
    (fun _ _ hI' he => ⟨hI'.1.next he, hI'.2.trans (hI'.1.grows_next he)⟩) ⟨hI, .refl _⟩).2

/-- From no messages at all, in every interleaving of what any clients do with
    copies of any age, messages change only from sent to seen, and only by the
    users they were sent to. -/
theorem readReceipts {es : List MessagesEvent}
    (h : AllSteps (Messages.next g) Messages.Allowed .init es) : ReadReceipts g es where
  later := by
    rintro es₁ es₂ es₃ rfl id m hm
    obtain ⟨h₁, h₂⟩ := allSteps_append.1 h
    have hI := h₁.invariant (fun _ _ hI he => hI.next he) Messages.sane_init
    rw [after_append]
    exact hI.grows_after h₂.prefix id m hm
  changed := h.imp (fun _ _ hI he => hI.next he) (fun _ _ hI he => hI.changedByReceiver he)
    Messages.sane_init
  created := h.imp (fun _ _ hI he => hI.next he) (fun _ _ hI he => hI.createdAsSent he)
    Messages.sane_init

/-- Ann writes to bob, who has the message on two devices, each of which marks it as seen. -/
def seenTwice : List MessagesEvent :=
  let message : Copy := ⟨1, ⟨"ann", "bob", 5, .plain, .send, some "hello", none, none⟩⟩
  [.sendMessage "ann" (some "hello") "bob" .plain none 5,
    .changeMessageStatusToSeen "bob" [message], .changeMessageStatusToSeen "bob" [message],
    .updateMessageToSeen "bob" ⟨1, message.data.seen⟩,
    .sendMessage "bob" (some "hi") "ann" .plain none 4,
    .updateMessageToSeen "bob" ⟨1, message.data.seen⟩]

theorem readReceipts_seenTwice : ReadReceipts succId seenTwice := readReceipts (by decide)

end

end YoYo
