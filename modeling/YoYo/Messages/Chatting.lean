import YoYo.Messages.Opened

/-!
# Chatting

Any number of conversation views, on the devices of any users, over the same
messages. Each follows its conversation on its own, and marks what it shows; the
writes reach the store one by one, at any time, or never.

What is marked as seen are the messages received that the array of a view has,
and nothing else writes a status. So a message is seen, or about to be, exactly if
a view of the user it was sent to has had it in its array, and whatever any view
shows as seen is (`receipts_exact`).
-/

namespace YoYo

open DocStore

/-- A conversation view: whose it is, what it shows, its listeners and its fetch. -/
structure ConversationView where
  parties : Parties
  messages : List Copy
  listeners : Option (Source → Listener DocID MessageDoc)
  fetch : Fetch

namespace ConversationView

/-- The view, over the messages there are. -/
def conversation (v : ConversationView) (w : Messages) : Conversation :=
  ⟨w, v.messages, v.listeners, v.fetch⟩

/-- The view of a conversation. -/
def ofConversation (c : Parties) (st : Conversation) : ConversationView :=
  ⟨c, st.messages, st.listeners, st.fetch⟩

end ConversationView

/-- The messages of all users, and the views there have been. -/
structure Chatting where
  world : Messages
  views : List ConversationView

/-- What happens: messages are saved, and marked by writes on their way, and views
    are loaded, and follow their conversations. -/
inductive ChattingEvent
  | messages (e : MessagesEvent)
  | viewDidLoad (c : Parties)
  | view (i : ℕ) (e : ConversationEvent)

namespace Chatting

/-- No messages, and no views. -/
def init : Chatting := ⟨.init, []⟩

/-- The next state. -/
def next (g : AutoId DocID) (st : Chatting) : ChattingEvent → Chatting
  | .messages e => { st with world := st.world.next g e }
  | .viewDidLoad c =>
    { st with views := st.views ++ [.ofConversation c (.viewDidLoad st.world)] }
  | .view i e =>
    match st.views[i]? with
    | some v =>
      let st' := (v.conversation st.world).next g v.parties e
      ⟨st'.world, st.views.set i (.ofConversation v.parties st')⟩
    | none => st

/-- It marks messages as seen, or comes from elsewhere than the view. -/
def IsElsewhere : ConversationEvent → Prop
  | .messages _ => True
  | _ => False

/-- Nothing but a view marks messages as seen. -/
def Marks : MessagesEvent → Prop
  | .changeMessageStatusToSeen _ _ => True
  | _ => False

instance : ∀ e, Decidable (IsElsewhere e)
  | .messages _ => .isTrue trivial
  | .viewWillAppear | .viewWillDisappear | .fetchMine | .fetchFriends | .fetchMessagesCompleted
  | .snapshot _ | .deliver _ => .isFalse id

instance : ∀ e, Decidable (Marks e)
  | .changeMessageStatusToSeen _ _ => .isTrue trivial
  | .sendMessage _ _ _ _ _ _ | .sendMessageUsing _ | .updateMessageToSeen _ _ => .isFalse id

/-- Messages are marked by views alone, and what happens to these is possible. -/
def Allowed (st : Chatting) : ChattingEvent → Prop
  | .messages e => st.world.Allowed e ∧ ¬ Marks e
  | .viewDidLoad _ => True
  | .view i e => ¬ IsElsewhere e ∧
      ∀ v ∈ st.views[i]?, (v.conversation st.world).Allowed e

instance (st : Chatting) : ∀ e, Decidable (st.Allowed e)
  | .messages _ => inferInstanceAs (Decidable (_ ∧ ¬ _))
  | .viewDidLoad _ => .isTrue trivial
  | .view _ _ => inferInstanceAs (Decidable (_ ∧ ∀ v ∈ _, _))

/-- A view of the user the message was sent to has it in its array. -/
def Shows (st : Chatting) (id : DocID) : Prop :=
  ∃ v ∈ st.views, ∃ message ∈ v.messages,
    message.id = id ∧ message.data.receiverID = v.parties.myUID

end Chatting

/-- The message is stored as seen, or a write that marks it is on its way. -/
def Messages.Receipted (w : Messages) (id : DocID) : Prop :=
  SeenIn w.store id ∨ ∃ write ∈ w.writes, write.2.id = id

variable {g : AutoId DocID} {w : Messages} {c : Parties} {st : Conversation} {id : DocID}

/-! ## Receipts -/

namespace Messages

/-- What has been written as seen stays so, while the store grows. -/
theorem Receipted.push (h : w.Receipted id) {s : MessagesStore} (hs : Grows w.store s) :
    (w.push s).Receipted id :=
  h.imp_left fun hseen => hseen.mono hs

theorem Receipted.changeMessageStatusToSeen (h : w.Receipted id) (uid : UID)
    (messages : List Copy) : (w.changeMessageStatusToSeen uid messages).Receipted id :=
  h.imp_right fun ⟨write, hmem, hid⟩ => ⟨write, List.mem_append_left _ hmem, hid⟩

/-- A message about to be seen is seen in the end. -/
theorem Receipted.next (h : w.Receipted id) (hI : w.Sane) {e : MessagesEvent} (he : w.Allowed e) :
    (w.next g e).Receipted id := by
  cases e with
  | sendMessage => exact h.push (grows_saveMessage g _)
  | sendMessageUsing => exact h.push (grows_saveMessage g _)
  | changeMessageStatusToSeen uid messages => exact h.changeMessageStatusToSeen uid messages
  | updateMessageToSeen uid message =>
    obtain ⟨-, m, hm, hdata⟩ := hI.writes uid message he
    by_cases hid : id = message.id
    · -- It is written now.
      refine .inl ⟨message.data, ?_, by rw [hdata]; rfl⟩
      exact messageOf_updateMessageToSeen.trans (if_pos hid)
    · rcases h.push (grows_updateMessageToSeen hm hdata) with hseen | ⟨write, hmem, hwrite⟩
      · exact .inl hseen
      · refine .inr ⟨write, (List.mem_erase_of_ne ?_).2 hmem, hwrite⟩
        rintro rfl
        exact hid hwrite.symm

/-- Nothing but marking messages makes them seen. -/
theorem receipted_of_next (hI : w.Sane) {e : MessagesEvent} (he : w.Allowed e)
    (hmarks : ¬ Chatting.Marks e) (h : (w.next g e).Receipted id) : w.Receipted id := by
  rcases h with ⟨m', hm', hseen⟩ | ⟨write, hmem, hid⟩
  · cases hm : messageOf w.store id with
    | none =>
      have hsend := hI.createdAsSent (g := g) he id m' hm hm'
      rw [hseen] at hsend
      cases hsend
    | some m =>
      by_cases hstatus : m'.messageStatus = m.messageStatus
      · exact .inl ⟨m, hm, hstatus.symm.trans hseen⟩
      · -- It was changed by a write that had been on its way.
        obtain ⟨message, rfl, hid⟩ := hI.changedByReceiver (g := g) he id m m' hm hm' hstatus
        exact .inr ⟨_, he, hid⟩
  · cases e with
    | sendMessage => exact .inr ⟨write, hmem, hid⟩
    | sendMessageUsing => exact .inr ⟨write, hmem, hid⟩
    | changeMessageStatusToSeen uid messages => exact absurd trivial hmarks
    | updateMessageToSeen uid message => exact .inr ⟨write, List.mem_of_mem_erase hmem, hid⟩

end Messages

namespace Conversation

/-- All that the view shows to the user it was sent to is seen, or about to be. -/
def Noted (c : Parties) (st : Conversation) : Prop :=
  ∀ message ∈ st.messages, message.data.receiverID = c.myUID → st.world.Receipted message.id

/-- The view has the message in its array, and it was sent to its user. -/
def Has (c : Parties) (st : Conversation) (id : DocID) : Prop :=
  ∃ message ∈ st.messages, message.id = id ∧ message.data.receiverID = c.myUID

/-- What a view does: it keeps what is seen, makes seen nothing but what it shows,
    and leaves nothing that it shows. -/
structure Notes (c : Parties) (st st' : Conversation) : Prop where
  store : st'.store = st.store
  keeps : ∀ id, st.world.Receipted id → st'.world.Receipted id
  marks : ∀ id, st'.world.Receipted id → st.world.Receipted id ∨ st'.Has c id
  noted : st'.Noted c

/-- Nothing is written, and nothing shown. -/
theorem Noted.notes (h : st.Noted c) {st' : Conversation} (hworld : st'.world = st.world)
    (hmessages : st'.messages = st.messages) : st.Notes c st' where
  store := by rw [Conversation.store, hworld]
  keeps id hid := by rwa [hworld]
  marks id hid := .inl (by rwa [hworld] at hid)
  noted message hmem huid := by
    rw [hworld]
    exact h message (by rwa [hmessages] at hmem) huid

/-- Something is delivered, and all that is shown is marked, unless it is seen. -/
theorem notes_receive {d : Delivery} (hmarks : d.marks = true)
    (hstored : ∀ message ∈ d.shown st.messages, Stored c st.store message) :
    st.Notes c (st.receive c d) := by
  have hworld : (st.receive c d).world =
      st.world.changeMessageStatusToSeen c.myUID (d.shown st.messages) := by
    rw [receive, hmarks]
    rfl
  refine ⟨store_receive st d, fun id h => ?_, fun id h => ?_, fun message hmem huid => ?_⟩
  · rw [hworld]
    exact h.changeMessageStatusToSeen _ _
  · rw [hworld] at h
    rcases h with hseen | ⟨write, hmem, hid⟩
    · exact .inl (.inl hseen)
    · rcases List.mem_append.1 hmem with hmem | hmem
      · exact .inl (.inr ⟨write, hmem, hid⟩)
      · obtain ⟨message₁, hmem₁, rfl⟩ := List.mem_map.1 hmem
        obtain ⟨message, hmem₀, rfl⟩ := List.mem_map.1 hmem₁
        obtain ⟨hshown, hfilter⟩ := List.mem_filter.1 hmem₀
        exact .inr ⟨message, hshown, hid, (of_decide_eq_true hfilter).1⟩
  · rw [hworld]
    obtain ⟨m, hm, hlater, -⟩ := hstored message hmem
    cases hstatus : message.data.messageStatus with
    | seen =>
      -- A copy that says it has been seen is of a message that has.
      exact .inl ⟨m, hm, by rw [hlater.eq_of_seen hstatus, hstatus]⟩
    | send =>
      refine .inr ⟨(c.myUID, ⟨message.id, message.data.seen⟩), ?_, rfl⟩
      refine List.mem_append_right _ (List.mem_map_of_mem (List.mem_map.2 ⟨message, ?_, rfl⟩))
      exact List.mem_filter.2 ⟨hmem, by simp [huid, hstatus]⟩

/-- What is shown otherwise has been shown before. -/
theorem Noted.notes_of_not_marks (h : st.Noted c) {d : Delivery} (hmarks : d.marks = false)
    (hold : ∀ message ∈ d.shown st.messages, ∃ message₀ ∈ st.messages,
      message₀.id = message.id ∧ message₀.data.receiverID = message.data.receiverID) :
    st.Notes c (st.receive c d) := by
  have hworld : (st.receive c d).world = st.world := by
    rw [receive, hmarks]
    rfl
  refine ⟨store_receive st d, fun id hid => by rwa [hworld],
    fun id hid => .inl (by rwa [hworld] at hid), fun message hmem huid => ?_⟩
  obtain ⟨message₀, hmem₀, hid, hreceiver⟩ := hold message hmem
  rw [hworld, ← hid]
  exact h message₀ hmem₀ (hreceiver.trans huid)

/-- New messages are marked together with those already shown. -/
theorem Noted.newMessageDetected (h : st.Noted c) {newMessages : List Copy}
    (hsane : (st.receive c (.newMessageDetected newMessages)).Sane c) :
    st.Notes c (st.receive c (.newMessageDetected newMessages)) := by
  cases newMessages with
  | nil =>
    refine h.notes_of_not_marks rfl fun message hmem => ⟨message, ?_, rfl, rfl⟩
    rw [Delivery.shown, MessageViewController.newMessageDetected_eq, List.append_nil] at hmem
    exact hmem
  | cons message newMessages =>
    refine notes_receive rfl fun message hmem => ?_
    have hstored := hsane.messages message hmem
    rwa [store_receive] at hstored

/-- A modification shows nothing new. -/
theorem Noted.modifiedMessageDetected (h : st.Noted c) (modifiedMessages : List Copy) :
    st.Notes c (st.receive c (.modifiedMessageDetected modifiedMessages)) := by
  refine h.notes_of_not_marks rfl fun message hmem => ?_
  obtain ⟨message₀, hmem₀, rfl⟩ := List.mem_map.1 hmem
  refine ⟨message₀, hmem₀, ?_⟩
  split_ifs <;> exact ⟨rfl, rfl⟩

/-- Nor does it show less. -/
theorem Has.modifiedMessageDetected (h : st.Has c id) (modifiedMessages : List Copy) :
    (st.receive c (.modifiedMessageDetected modifiedMessages)).Has c id := by
  obtain ⟨message, hmem, hid, huid⟩ := h
  refine ⟨_, List.mem_map_of_mem hmem, ?_⟩
  split_ifs <;> exact ⟨hid, huid⟩

/-- A step of a view, of anything but the messages elsewhere. -/
theorem Noted.next (h : st.Noted c) (hI : st.Sane c) {e : ConversationEvent} (he : st.Allowed e)
    (hview : ¬ Chatting.IsElsewhere e) : st.Notes c (st.next g c e) := by
  have hnext := hI.next (g := g) he
  cases e with
  | messages e => exact absurd trivial hview
  | viewWillAppear => exact h.notes rfl rfl
  | viewWillDisappear => exact h.notes rfl rfl
  | fetchMine =>
    rcases next_fetchMine g c st with heq | ⟨-, heq⟩ <;> rw [heq] <;> exact h.notes rfl rfl
  | fetchFriends =>
    rcases next_fetchFriends g c st with heq | ⟨myMessages, -, heq⟩ <;> rw [heq] <;>
      exact h.notes rfl rfl
  | fetchMessagesCompleted =>
    rcases next_fetchMessagesCompleted g c st with heq | ⟨messages, hf, heq⟩
    · rw [heq]
      exact h.notes rfl rfl
    · rw [heq]
      have hnotes : Notes c { st with fetch := .completed }
          (receive c { st with fetch := .completed } (.fetchMessagesCompleted messages)) :=
        notes_receive rfl fun message hmem => hI.fetched message (by rw [hf]; exact hmem)
      exact ⟨hnotes.store, hnotes.keeps, hnotes.marks, hnotes.noted⟩
  | snapshot i =>
    rcases next_snapshot g c st i with heq | ⟨l, -, heq⟩ <;> rw [heq] <;> exact h.notes rfl rfl
  | deliver i =>
    rcases next_deliver g c st i with ⟨-, heq⟩ | ⟨delivered, docs, queue, hl, heq⟩
    · rw [heq]
      exact h.notes rfl rfl
    · rw [heq]
      -- First what is new is shown, and then what has been modified.
      have hset : (st.setListener i ⟨docs, queue⟩).Noted c := h
      have hadded := hset.newMessageDetected (hI.deliver_newMessages hl)
      have hmodified := hadded.noted.modifiedMessageDetected
        (c.handler i (documentChanges delivered docs)).2
      refine ⟨hmodified.store.trans hadded.store,
        fun id hid => hmodified.keeps id (hadded.keeps id hid), fun id hid => ?_, hmodified.noted⟩
      rcases hmodified.marks id hid with hid | hhas
      · rcases hadded.marks id hid with hid | hhas
        · exact .inl hid
        · exact .inr (hhas.modifiedMessageDetected _)
      · exact .inr hhas

end Conversation

/-! ## Runs -/

namespace Chatting

variable {st : Chatting}

/-- What the runs keep: the views show what is stored, and note what they show. -/
structure Sane (st : Chatting) : Prop where
  world : st.world.Sane
  views : ∀ v ∈ st.views, (v.conversation st.world).Sane v.parties
  noted : ∀ v ∈ st.views, (v.conversation st.world).Noted v.parties

theorem sane_init : init.Sane where
  world := Messages.sane_init
  views _ hmem := absurd hmem List.not_mem_nil
  noted _ hmem := absurd hmem List.not_mem_nil

/-- What is seen, and noted, and shown, before a step is so after it, and nothing else
    is seen but what is shown then. -/
structure Follows (st st' : Chatting) : Prop where
  sane : st'.Sane
  keeps : ∀ id, st.world.Receipted id → st'.world.Receipted id
  marks : ∀ id, st'.world.Receipted id → st.world.Receipted id ∨ st'.Shows id

/-- What is shown is noted. -/
theorem Sane.receipted_of_shows (hI : st.Sane) (h : st.Shows id) : st.world.Receipted id := by
  obtain ⟨v, hv, message, hmem, rfl, huid⟩ := h
  exact hI.noted v hv message hmem huid

/-- The messages change: the views follow. -/
theorem Sane.follows_messages (hI : st.Sane) {e : MessagesEvent} (he : st.world.Allowed e)
    (hmarks : ¬ Marks e) : st.Follows (st.next g (.messages e)) := by
  have hkeeps : ∀ id, st.world.Receipted id → (st.world.next g e).Receipted id :=
    fun id h => h.next hI.world he
  refine ⟨⟨hI.world.next he, fun v hv => ?_, fun v hv message hmem huid => ?_⟩, hkeeps,
    fun id h => .inl (Messages.receipted_of_next hI.world he hmarks h)⟩
  · exact (hI.views v hv).grow (hI.world.next he) (hI.world.grows_next he)
  · exact hkeeps _ (hI.noted v hv message hmem huid)

/-- One view follows its conversation: the others do. -/
theorem Sane.follows_view (hI : st.Sane) {i : ℕ} {v : ConversationView} (hv : st.views[i]? = some v)
    {e : ConversationEvent} (he : (v.conversation st.world).Allowed e) (hview : ¬ IsElsewhere e) :
    st.Follows (st.next g (.view i e)) := by
  have hmem := List.mem_of_getElem? hv
  have hsane := (hI.views v hmem).next (g := g) he
  have hnotes := (hI.noted v hmem).next (g := g) (hI.views v hmem) he hview
  have hgrows : Grows st.world.store ((v.conversation st.world).next g v.parties e).store := by
    rw [hnotes.store]
    exact .refl _
  simp only [Chatting.next, hv]
  refine ⟨⟨hsane.world, fun v' hv' => ?_, fun v' hv' => ?_⟩, hnotes.keeps, fun id h => ?_⟩
  · rcases List.mem_or_eq_of_mem_set hv' with hv' | rfl
    · exact (hI.views v' hv').grow hsane.world hgrows
    · exact hsane
  · rcases List.mem_or_eq_of_mem_set hv' with hv' | rfl
    · exact fun message hmem huid => hnotes.keeps _ (hI.noted v' hv' message hmem huid)
    · exact hnotes.noted
  · rcases hnotes.marks id h with h | ⟨message, hmessage, hid⟩
    · exact .inl h
    · refine .inr ⟨.ofConversation v.parties ((v.conversation st.world).next g v.parties e), ?_,
        message, hmessage, hid⟩
      exact List.mem_set (List.getElem?_eq_some_iff.1 hv).1 _

/-- A step, of whatever happens. -/
theorem Sane.follows_next (hI : st.Sane) {e : ChattingEvent} (he : st.Allowed e) :
    st.Follows (st.next g e) := by
  cases e with
  | messages e => exact hI.follows_messages he.1 he.2
  | viewDidLoad c =>
    -- A new view shows nothing yet.
    refine ⟨⟨hI.world, fun v hv => ?_, fun v hv => ?_⟩, fun _ h => h, fun _ h => .inl h⟩
    · rcases List.mem_append.1 hv with hv | hv
      · exact hI.views v hv
      · rw [List.mem_singleton.1 hv]
        exact Conversation.sane_viewDidLoad hI.world
    · rcases List.mem_append.1 hv with hv | hv
      · exact hI.noted v hv
      · rw [List.mem_singleton.1 hv]
        exact fun message hmem => absurd hmem List.not_mem_nil
  | view i e =>
    cases hv : st.views[i]? with
    | some v => exact hI.follows_view hv (he.2 v hv) he.1
    | none =>
      simp only [Chatting.next, hv]
      exact ⟨hI, fun _ h => h, fun _ h => .inl h⟩

/-- What has been shown, at some moment of the run, to the user it was sent to. -/
def HasShown (g : AutoId DocID) (es : List ChattingEvent) (id : DocID) : Prop :=
  ∃ es₁, es₁ <+: es ∧ (after (Chatting.next g) .init es₁).Shows id

/-- What a run keeps. -/
structure Follow (g : AutoId DocID) (es : List ChattingEvent) (st : Chatting) : Prop where
  eq : st = after (Chatting.next g) .init es
  sane : st.Sane
  receipted : ∀ id, st.world.Receipted id ↔ HasShown g es id

theorem Follow.next {es : List ChattingEvent} (hI : Follow g es st) {e : ChattingEvent}
    (he : st.Allowed e) : Follow g (es ++ [e]) (st.next g e) := by
  have hfollows := hI.sane.follows_next (g := g) he
  have heq : st.next g e = after (Chatting.next g) .init (es ++ [e]) := by
    rw [after_append, ← hI.eq]
    rfl
  refine ⟨heq, hfollows.sane, fun id => ⟨fun h => ?_, ?_⟩⟩
  · rcases hfollows.marks id h with h | h
    · obtain ⟨es₁, hprefix, hshows⟩ := (hI.receipted id).1 h
      exact ⟨es₁, hprefix.trans (List.prefix_append es [e]), hshows⟩
    · exact ⟨es ++ [e], List.prefix_refl _, heq ▸ h⟩
  · rintro ⟨es₁, hprefix, hshows⟩
    rcases List.prefix_concat_iff.1 hprefix with rfl | hprefix
    · rw [← heq] at hshows
      exact hfollows.sane.receipted_of_shows hshows
    · exact hfollows.keeps id ((hI.receipted id).2 ⟨es₁, hprefix, hshows⟩)

end Chatting

/-- **Receipts are exact**: in every interleaving of what happens on any devices, a
    message is stored as seen, or about to be, exactly if a view of the user it was
    sent to has had it in its array by then; and what any view shows as seen is
    stored so. -/
theorem receipts_exact {es : List ChattingEvent}
    (h : AllSteps (Chatting.next g) Chatting.Allowed .init es) :
    (∀ id, (after (Chatting.next g) .init es).world.Receipted id ↔ Chatting.HasShown g es id) ∧
    ∀ v ∈ (after (Chatting.next g) .init es).views, ∀ message ∈ v.messages,
      message.data.messageStatus = .seen →
        SeenIn (after (Chatting.next g) .init es).world.store message.id := by
  have hI := h.invariant_of_run (J := Chatting.Follow g) (fun _ _ _ hI he => hI.next he)
    ⟨rfl, Chatting.sane_init, fun id => ⟨fun h => ?_, fun h => ?_⟩⟩
  · refine ⟨hI.receipted, fun v hv message hmem hseen => ?_⟩
    obtain ⟨m, hm, hlater, -⟩ := (hI.sane.views v hv).messages message hmem
    exact ⟨m, hm, by rw [hlater.eq_of_seen hseen, hseen]⟩
  · rcases h with ⟨m, hm, -⟩ | ⟨write, hmem, -⟩
    · cases hm
    · cases hmem
  · obtain ⟨es₁, hprefix, v, hv, -⟩ := h
    rw [List.prefix_nil.1 hprefix] at hv
    cases hv

/-- The two of a conversation, as the friend sees them. -/
def Parties.swap (c : Parties) : Parties := ⟨c.friendUID, c.myUID, c.ne.symm⟩

/-- Bob writes to ann, whose view is delivered his message, and marks it. Her write
    arrives, and then reaches his view. -/
def annReads : List ChattingEvent :=
  [.viewDidLoad annAndBob, .viewDidLoad annAndBob.swap,
    .view 0 .viewWillAppear, .view 1 .viewWillAppear,
    .messages (.sendMessage "bob" (some "hi") "ann" .plain none 5),
    .view 1 (.snapshot .listener1), .view 1 (.deliver .listener1),
    .view 0 (.snapshot .listener2), .view 0 (.deliver .listener2),
    .messages (.updateMessageToSeen "ann" ⟨1, ⟨"bob", "ann", 5, .plain, .seen, some "hi", none,
      none⟩⟩),
    .view 1 (.snapshot .listener1), .view 1 (.deliver .listener1)]

/-- What he is shown as seen then, she has been shown. -/
theorem receipts_exact_annReads : Chatting.HasShown succId annReads 1 := by
  have hrun : AllSteps (Chatting.next succId) Chatting.Allowed .init annReads := by
    decide +kernel
  have hshown : ∃ v ∈ (after (Chatting.next succId) .init annReads).views,
      v.parties.myUID = "bob" ∧ ∃ message ∈ v.messages, message.id = 1 ∧
        message.data.messageStatus = .seen := by
    decide +kernel
  obtain ⟨v, hv, -, message, hmem, hid, hseen⟩ := hshown
  have hstored := (receipts_exact hrun).2 v hv message hmem hseen
  exact ((receipts_exact hrun).1 1).1 (.inl (hid ▸ hstored))

end YoYo
