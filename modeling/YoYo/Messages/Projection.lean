import YoYo.Messages.Chatting
import YoYo.Messages.SeenStatus

/-!
# The levels of chatting

The views on all devices write what they mark to one store. Of this, the store
sees clients with copies of messages, and each view sees other clients: a step of
any view is one of the store, which marks copies of messages, or none, and to
another view it is the same step of its surroundings. So what happens to the
messages is a run of the store with its clients, and what happens to each view is
a run of that view alone (`chatting_refines`).
-/

namespace YoYo

open DocStore

variable {g : AutoId DocID} {w : Messages} {c : Parties} {st : Conversation} {message : Copy}

theorem Messages.Copied.mono (h : w.Copied message) {w' : Messages}
    (hle : ∀ s ∈ w.history.seen, s ∈ w'.history.seen) : w'.Copied message := by
  obtain ⟨s, hs, hm⟩ := h
  exact ⟨s, hle s hs, hm⟩

/-- A copy marked as seen is one still. -/
theorem Messages.Copied.seen (h : w.Copied message) :
    w.Copied ⟨message.id, message.data.seen⟩ := by
  obtain ⟨s, hs, m, hm, hdata⟩ := h
  refine ⟨s, hs, m, hm, .inr ?_⟩
  rcases hdata with hdata | hdata
  · rw [hdata]
  · rw [hdata]
    rfl

/-- Versions are only ever added. -/
theorem Messages.seen_subset_next (w : Messages) (e : MessagesEvent) :
    ∀ s ∈ w.history.seen, s ∈ (w.next g e).history.seen := by
  intro s hs
  cases e with
  | changeMessageStatusToSeen uid messages => exact hs
  | _ => exact Versions.mem_seen_push.2 (.inr hs)

namespace Conversation

/-- All that is shown, fetched, delivered or on its way are copies. -/
structure Copies (st : Conversation) : Prop where
  messages : ∀ message ∈ st.messages, st.world.Copied message
  fetched : ∀ message ∈ st.fetch.messages, st.world.Copied message
  listeners : ∀ i l, st.listener i = some l → ∀ docs ∈ l.delivered :: l.queue, ∀ uid,
    ∀ message ∈ receivedBy uid docs, st.world.Copied message

theorem copies_viewDidLoad (w : Messages) : (viewDidLoad w).Copies where
  messages _ hmem := absurd hmem List.not_mem_nil
  fetched _ hmem := absurd hmem List.not_mem_nil
  listeners _ _ h := nomatch h

/-- What the queries have now are copies. -/
theorem copied_of_mem_query (hw : Encoded st.store) {i : Source} {uid : UID}
    (hmem : message ∈ receivedBy uid (c.query i st.store)) : st.world.Copied message :=
  ⟨st.store, Versions.now_mem_seen _, message.data, messageOf_of_mem_query hw hmem, .inl rfl⟩

/-- More versions keep copies. -/
theorem Copies.grow (h : st.Copies) {w : Messages}
    (hle : ∀ s ∈ st.world.history.seen, s ∈ w.history.seen) :
    ({ st with world := w } : Conversation).Copies where
  messages message hmem := (h.messages message hmem).mono hle
  fetched message hmem := (h.fetched message hmem).mono hle
  listeners i l hl docs hdocs uid message hmem :=
    (h.listeners i l hl docs hdocs uid message hmem).mono hle

/-- A step of a view, as the store sees it: nothing, or copies are marked. -/
def MarksCopies (c : Parties) (st st' : Conversation) : Prop :=
  st'.world = st.world ∨ ∃ messages, (∀ message ∈ messages, st.world.Copied message) ∧
    st'.world = st.world.changeMessageStatusToSeen c.myUID messages

/-- Copies are delivered: they may be marked. -/
theorem Copies.receive (h : st.Copies) {d : Delivery}
    (hshown : ∀ message ∈ d.shown st.messages, st.world.Copied message) :
    MarksCopies c st (st.receive c d) ∧ (st.receive c d).Copies := by
  rw [Conversation.receive]
  split_ifs
  · exact ⟨.inr ⟨_, hshown, rfl⟩, hshown, h.fetched, h.listeners⟩
  · exact ⟨.inl rfl, hshown, h.fetched, h.listeners⟩

/-- A listener changes, to one of copies. -/
theorem Copies.setListener (h : st.Copies) {i : Source} {l l' : Listener DocID MessageDoc}
    (hl : st.listener i = some l) (hl' : ∀ docs ∈ l'.delivered :: l'.queue, ∀ uid,
      ∀ message ∈ receivedBy uid docs, st.world.Copied message) :
    (st.setListener i l').Copies where
  messages := h.messages
  fetched := h.fetched
  listeners := forall_listener_setListener (P := fun _ l => ∀ docs ∈ l.delivered :: l.queue, ∀ uid,
    ∀ message ∈ receivedBy uid docs, st.world.Copied message) h.listeners hl hl'

/-- What a listener delivers are copies, and so is what is shown after it. -/
theorem Copies.deliver (h : st.Copies) {i : Source} {delivered docs : List (Doc DocID MessageDoc)}
    {queue : List (List (Doc DocID MessageDoc))}
    (hl : st.listener i = some ⟨delivered, docs :: queue⟩) :
    MarksCopies c st (st.deliver c i delivered docs queue) ∧
      (st.deliver c i delivered docs queue).Copies := by
  have hlistener := h.listeners i _ hl
  have hset : (st.setListener i ⟨docs, queue⟩).Copies :=
    h.setListener hl fun docs' hdocs' => hlistener docs' (List.mem_cons_of_mem _ hdocs')
  obtain ⟨hmarks, hadded⟩ := hset.receive (c := c)
    (d := .newMessageDetected (c.handler i (documentChanges delivered docs)).1)
    fun message hmem => by
      rw [Delivery.shown, MessageViewController.newMessageDetected_eq, List.mem_append] at hmem
      rcases hmem with hmem | hmem
      · exact hset.messages message hmem
      · exact hlistener docs (List.mem_cons_of_mem _ List.mem_cons_self) _ message
          (Parties.mem_handler_added.1 hmem).1
  -- Nothing is marked when a modification is delivered.
  have hmodified := hadded.receive (c := c)
    (d := .modifiedMessageDetected (c.handler i (documentChanges delivered docs)).2)
    fun message hmem => by
      obtain ⟨message₀, hmem₀, rfl⟩ := List.mem_map.1 hmem
      split_ifs
      · exact (hadded.messages message₀ hmem₀).seen
      · exact hadded.messages message₀ hmem₀
  exact ⟨hmarks, hmodified.2⟩

/-- A step of a view. -/
theorem Copies.next (h : st.Copies) (hw : Encoded st.store) {e : ConversationEvent}
    (hview : ¬ Chatting.IsElsewhere e) :
    MarksCopies c st (st.next g c e) ∧ (st.next g c e).Copies := by
  have hsame : MarksCopies c st st ∧ st.Copies := ⟨.inl rfl, h⟩
  cases e with
  | messages e => exact absurd trivial hview
  | viewWillAppear =>
    refine ⟨.inl rfl, h.messages, h.fetched, fun i l hl docs hdocs uid message hmem => ?_⟩
    cases hl
    rw [List.mem_singleton.1 hdocs] at hmem
    cases hmem
  | viewWillDisappear => exact ⟨.inl rfl, h.messages, h.fetched, fun _ _ hl => nomatch hl⟩
  | fetchMine =>
    -- The first query; only what it has read is new.
    rcases next_fetchMine g c st with heq | ⟨-, heq⟩
    · rwa [heq]
    · rw [heq]
      exact ⟨.inl rfl, h.messages, fun message hmem => copied_of_mem_query hw hmem, h.listeners⟩
  | fetchFriends =>
    rcases next_fetchFriends g c st with heq | ⟨myMessages, hf, heq⟩
    · rwa [heq]
    · rw [heq]
      refine ⟨.inl rfl, h.messages, fun message hmem => ?_, h.listeners⟩
      -- What is handed on was read by the first query, or by this one.
      rcases List.mem_append.1 (mem_sortedByDate.1 hmem) with hmem | hmem
      · exact h.fetched message (by rwa [hf])
      · exact copied_of_mem_query hw hmem
  | fetchMessagesCompleted =>
    rcases next_fetchMessagesCompleted g c st with heq | ⟨messages, hf, heq⟩
    · rwa [heq]
    · rw [heq]
      have hdone : Copies { st with fetch := .completed } :=
        ⟨h.messages, fun _ hmem => absurd hmem List.not_mem_nil, h.listeners⟩
      exact hdone.receive fun message hmem => h.fetched message (by rw [hf]; exact hmem)
  | snapshot i =>
    rcases next_snapshot g c st i with heq | ⟨l, hl, heq⟩
    · rwa [heq]
    · rw [heq]
      refine ⟨.inl rfl, h.setListener hl fun docs hdocs uid message hmem => ?_⟩
      -- One more snapshot is on its way.
      rw [Listener.snapshot, ← List.cons_append] at hdocs
      rcases List.mem_append.1 hdocs with hdocs | hdocs
      · exact h.listeners i l hl docs hdocs uid message hmem
      · rw [List.mem_singleton.1 hdocs] at hmem
        exact copied_of_mem_query hw hmem
  | deliver i =>
    rcases next_deliver g c st i with ⟨-, heq⟩ | ⟨delivered, docs, queue, hl, heq⟩
    · rwa [heq]
    · rw [heq]
      exact h.deliver hl

end Conversation

/-! ## Levels -/

/-- A run of the store, with its clients, leads here. -/
def Messages.Reached (g : AutoId DocID) (w : Messages) : Prop :=
  Reaches (Messages.next g) Messages.Allowed .init w

/-- A run of the view alone, after one of the store, leads here. -/
def Conversation.Reached (g : AutoId DocID) (c : Parties) (st : Conversation) : Prop :=
  ∃ w : Messages, w.Reached g ∧
    Reaches (Conversation.next g c) Conversation.Allowed (.viewDidLoad w) st

namespace Chatting

variable {st : Chatting}

/-- What the runs keep: what is shown are copies, and all has come about at the
    other levels, too. -/
structure Layered (g : AutoId DocID) (st : Chatting) : Prop where
  world : st.world.Reached g
  copies : ∀ v ∈ st.views, (v.conversation st.world).Copies
  views : ∀ v ∈ st.views, (v.conversation st.world).Reached g v.parties

theorem layered_init : init.Layered g where
  world := .refl _
  copies _ hmem := absurd hmem List.not_mem_nil
  views _ hmem := absurd hmem List.not_mem_nil

/-- Something happens to the messages: for the views, elsewhere. -/
theorem Layered.grow (hI : st.Layered g) {e : MessagesEvent} (he : st.world.Allowed e) :
    { st with world := st.world.next g e }.Layered g where
  world := hI.world.step he
  copies v hv := (hI.copies v hv).grow (st.world.seen_subset_next e)
  views v hv := by
    obtain ⟨w, hw, hv⟩ := hI.views v hv
    exact ⟨w, hw, hv.step (e := .messages e) he⟩

/-- A view does something: for the store and for the other views, copies are
    marked, or nothing happens. -/
theorem Layered.follow (hI : st.Layered g) (hw : Encoded st.world.store) {i : ℕ}
    {v : ConversationView} (hv : st.views[i]? = some v) {e : ConversationEvent}
    (he : (v.conversation st.world).Allowed e) (hview : ¬ IsElsewhere e) :
    (st.next g (.view i e)).Layered g := by
  have hmem := List.mem_of_getElem? hv
  obtain ⟨hmarks, hcopies⟩ := (hI.copies v hmem).next (g := g) (c := v.parties) hw hview
  obtain ⟨w, hw, hreached⟩ := hI.views v hmem
  have hothers : Layered g
      { st with world := ((v.conversation st.world).next g v.parties e).world } := by
    -- To the others, the view's step is one of the messages, or none.
    rcases hmarks with hworld | ⟨messages, hcopied, hworld⟩
    · rw [hworld]
      exact hI
    · rw [hworld]
      exact hI.grow (e := .changeMessageStatusToSeen v.parties.myUID messages) hcopied
  simp only [Chatting.next, hv]
  refine ⟨hothers.world, fun v' hv' => ?_, fun v' hv' => ?_⟩
  · rcases List.mem_or_eq_of_mem_set hv' with hv' | rfl
    · exact hothers.copies v' hv'
    · exact hcopies
  · rcases List.mem_or_eq_of_mem_set hv' with hv' | rfl
    · exact hothers.views v' hv'
    · exact ⟨w, hw, hreached.step he⟩

theorem Layered.next (hI : st.Layered g) (hsane : st.Sane) {e : ChattingEvent}
    (he : st.Allowed e) : (st.next g e).Layered g := by
  cases e with
  | messages e => exact hI.grow he.1
  | viewDidLoad c =>
    refine ⟨hI.world, fun v hv => ?_, fun v hv => ?_⟩
    · rcases List.mem_append.1 hv with hv | hv
      · exact hI.copies v hv
      · rw [List.mem_singleton.1 hv]
        exact Conversation.copies_viewDidLoad st.world
    · rcases List.mem_append.1 hv with hv | hv
      · exact hI.views v hv
      · rw [List.mem_singleton.1 hv]
        exact ⟨st.world, hI.world, .refl _⟩
  | view i e =>
    cases hv : st.views[i]? with
    | some v => exact hI.follow hsane.world.encoded hv (he.2 v hv) he.1
    | none =>
      simp only [Chatting.next, hv]
      exact hI

end Chatting

/-- **The devices refine the store and each view**: in every interleaving of what
    happens on any devices, the messages have come about by a run of the store with
    clients that hold copies, and each view by a run of it alone, opened after
    such a run, among others. -/
theorem chatting_refines {es : List ChattingEvent}
    (h : AllSteps (Chatting.next g) Chatting.Allowed .init es) :
    (after (Chatting.next g) .init es).world.Reached g ∧
    ∀ v ∈ (after (Chatting.next g) .init es).views,
      (v.conversation (after (Chatting.next g) .init es).world).Reached g v.parties := by
  have hI := h.invariant (I := fun st => st.Sane ∧ st.Layered g)
    (fun _ _ hI he => ⟨(hI.1.follows_next he).sane, hI.2.next hI.1 he⟩)
    ⟨Chatting.sane_init, Chatting.layered_init⟩
  exact ⟨hI.2.world, hI.2.views⟩

/-- Bob's view, to which ann's write has come, is one he could have alone. -/
theorem chatting_refines_annReads : ∃ v ∈ (after (Chatting.next succId) .init annReads).views,
    v.parties.myUID = "bob" ∧
      (v.conversation (after (Chatting.next succId) .init annReads).world).Reached succId
        v.parties := by
  have hrun : AllSteps (Chatting.next succId) Chatting.Allowed .init annReads := by
    decide +kernel
  have hview : ∃ v ∈ (after (Chatting.next succId) .init annReads).views,
      v.parties.myUID = "bob" := by
    decide +kernel
  obtain ⟨v, hv, huid⟩ := hview
  exact ⟨v, hv, huid, (chatting_refines hrun).2 v hv⟩

end YoYo
