import YoYo.Messages.Service

/-!
# The conversation view

The array of messages `MessageViewController` shows, and what is delivered to
it: the reply to its fetch, which replaces the array, batches of new messages,
which are appended to it, and modified messages, which are marked as seen in it.

The reply and the batches are in the order of their dates. The array is so, too,
exactly if no batch has a message from before one already shown
(`shownInOrder_iff`).
-/

namespace YoYo

open DocStore

namespace MessageViewController

/-- The reply to the fetch. -/
def fetchMessagesCompleted (messages : List Copy) (_ : List Copy) : List Copy := messages

/-- New messages. -/
def newMessageDetected (newMessages : List Copy) (messages : List Copy) : List Copy :=
  if newMessages.length > 0 then messages ++ newMessages else messages

/-- Modified messages: whatever has been modified, it is marked as seen. -/
def modifiedMessageDetected (modifiedMessages : List Copy) (messages : List Copy) : List Copy :=
  let modifiedMessageIDs := modifiedMessages.map Doc.id
  messages.map fun message =>
    if message.id ∈ modifiedMessageIDs then ⟨message.id, message.data.seen⟩ else message

theorem newMessageDetected_eq (newMessages messages : List Copy) :
    newMessageDetected newMessages messages = messages ++ newMessages := by
  rw [newMessageDetected]
  split_ifs with hlen
  · rfl
  · rw [List.eq_nil_of_length_eq_zero (Nat.eq_zero_of_not_pos hlen), List.append_nil]

end MessageViewController

open MessageViewController

/-- What is delivered to the view. -/
inductive Delivery
  | fetchMessagesCompleted (messages : List Copy)
  | newMessageDetected (newMessages : List Copy)
  | modifiedMessageDetected (modifiedMessages : List Copy)

namespace Delivery

/-- The array after a delivery. -/
def shown (messages : List Copy) : Delivery → List Copy
  | fetchMessagesCompleted messages' =>
    MessageViewController.fetchMessagesCompleted messages' messages
  | newMessageDetected newMessages => MessageViewController.newMessageDetected newMessages messages
  | modifiedMessageDetected modifiedMessages =>
    MessageViewController.modifiedMessageDetected modifiedMessages messages

/-- Whether its handler goes on to mark the messages in the array as seen, for their sender. -/
def marks : Delivery → Bool
  | fetchMessagesCompleted _ => true
  | newMessageDetected newMessages => newMessages.length > 0
  | modifiedMessageDetected _ => false

end Delivery

/-- In the order of their dates. -/
def DateSorted (messages : List Copy) : Prop :=
  messages.Pairwise fun a b => a.data.date ≤ b.data.date

instance (messages : List Copy) : Decidable (DateSorted messages) :=
  inferInstanceAs (Decidable (List.Pairwise _ _))

theorem dateSorted_sortedByDate (messages : List Copy) : DateSorted (sortedByDate messages) := by
  have : Std.Total fun a b : Copy => a.data.date ≤ b.data.date := ⟨fun _ _ => le_total _ _⟩
  have : IsTrans Copy fun a b => a.data.date ≤ b.data.date := ⟨fun _ _ _ => le_trans⟩
  exact List.pairwise_insertionSort _ messages

/-- What arrives in one delivery is in the order of the dates. -/
def Delivery.Sorted (_ : List Copy) : Delivery → Prop
  | fetchMessagesCompleted messages => DateSorted messages
  | newMessageDetected newMessages => DateSorted newMessages
  | modifiedMessageDetected _ => True

/-- The array is in the order of the dates after the delivery. -/
def ShownInOrder (messages : List Copy) (d : Delivery) : Prop := DateSorted (d.shown messages)

/-- No new message is from before one already shown. -/
def NoneLate (messages : List Copy) : Delivery → Prop
  | .newMessageDetected newMessages =>
    ∀ new ∈ newMessages, ∀ message ∈ messages, message.data.date ≤ new.data.date
  | _ => True

instance (messages : List Copy) : ∀ d, Decidable (NoneLate messages d)
  | .newMessageDetected _ => inferInstanceAs (Decidable (∀ new ∈ _, ∀ message ∈ _, _))
  | .fetchMessagesCompleted _ => .isTrue trivial
  | .modifiedMessageDetected _ => .isTrue trivial

/-- Marking messages as seen leaves them where they are. -/
theorem dateSorted_modifiedMessageDetected (modifiedMessages messages : List Copy) :
    DateSorted (modifiedMessageDetected modifiedMessages messages) ↔ DateSorted messages := by
  simp only [DateSorted, modifiedMessageDetected]
  rw [List.pairwise_map]
  have hdate : ∀ message : Copy,
      (if message.id ∈ modifiedMessages.map Doc.id then (⟨message.id, message.data.seen⟩ : Copy)
        else message).data.date = message.data.date := by
    intro message
    split_ifs <;> rfl
  simp only [hdate]

theorem shownInOrder_step {messages : List Copy} (hm : DateSorted messages) {d : Delivery}
    (hd : d.Sorted messages) : ShownInOrder messages d ↔ NoneLate messages d := by
  cases d with
  | fetchMessagesCompleted messages' => exact iff_of_true hd trivial
  | newMessageDetected newMessages =>
    change DateSorted (newMessageDetected newMessages messages) ↔ _
    rw [newMessageDetected_eq, DateSorted, List.pairwise_append]
    exact ⟨fun h new hnew message hmem => h.2.2 message hmem new hnew,
      fun h => ⟨hm, hd, fun message hmem new hnew => h new hnew message hmem⟩⟩
  | modifiedMessageDetected modifiedMessages =>
    exact iff_of_true ((dateSorted_modifiedMessageDetected _ _).2 hm) trivial

/-- The array is in the order of the dates after every delivery exactly if no
    delivery has a new message from before one already shown. -/
theorem shownInOrder_iff {ds : List Delivery}
    (hds : AllSteps Delivery.shown Delivery.Sorted [] ds) :
    AllSteps Delivery.shown ShownInOrder [] ds ↔ AllSteps Delivery.shown NoneLate [] ds :=
  allSteps_iff (I := DateSorted) (fun _ _ hm hd h => (shownInOrder_step hm hd).2 h)
    (fun _ _ hm hd => shownInOrder_step hm hd) .nil hds

instance (messages : List Copy) : ∀ d, Decidable (Delivery.Sorted messages d)
  | .fetchMessagesCompleted _ => inferInstanceAs (Decidable (DateSorted _))
  | .newMessageDetected _ => inferInstanceAs (Decidable (DateSorted _))
  | .modifiedMessageDetected _ => .isTrue trivial

/-- The reply to the fetch, and messages of the two users in the order of their dates. -/
def inOrder : List Delivery :=
  [.fetchMessagesCompleted [⟨1, ⟨"ann", "bob", 5, .plain, .send, some "hello", none, none⟩⟩],
    .newMessageDetected [⟨2, ⟨"bob", "ann", 6, .plain, .send, some "hi", none, none⟩⟩],
    .modifiedMessageDetected [⟨1, ⟨"ann", "bob", 5, .plain, .seen, some "hello", none, none⟩⟩],
    .newMessageDetected [⟨3, ⟨"ann", "bob", 6, .plain, .send, some "well", none, none⟩⟩]]

theorem shownInOrder_inOrder : AllSteps Delivery.shown ShownInOrder [] inOrder :=
  (shownInOrder_iff (by decide)).2 (by decide)

/-- The clock of bob is late: what he writes comes before what he answers. -/
def lateClock : List Delivery :=
  [.fetchMessagesCompleted [⟨1, ⟨"ann", "bob", 5, .plain, .send, some "hello", none, none⟩⟩],
    .newMessageDetected [⟨2, ⟨"bob", "ann", 4, .plain, .send, some "hi", none, none⟩⟩]]

theorem not_shownInOrder_lateClock : AllSteps Delivery.shown Delivery.Sorted [] lateClock ∧
    ¬ AllSteps Delivery.shown ShownInOrder [] lateClock := by
  refine ⟨by decide, fun h => ?_⟩
  have hlast : DateSorted (after Delivery.shown [] lateClock) := h.2.1
  revert hlast
  decide

end YoYo
