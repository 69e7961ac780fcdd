import YoYo.Messages.Once
import YoYo.Reads.ChatList

/-!
# The two paths of a conversation

The messages of two users are read twice: fetched, in two queries, one after the
other, and listened to, by two listeners, whose handlers go through the changes
of a snapshot one by one, telling the delegate of any document that does not
decode, and of the messages they have collected at the end.

* `registerForMessageCollection`: the handlers, report by report, of which
  `Parties.handler` is what they have collected;
* `fetchMessages`: the queries, with their errors;
* `fetch_eq_listeners`: both paths deliver the same messages, those between the
  two users, and what changes later is reported by the listener it belongs to.
-/

namespace YoYo.Reads

open DocStore Reads.DatabaseService
open YoYo.DatabaseService (readChanges)

/-- What the handlers of the listeners tell the delegate. -/
inductive Report
  | newMessagesAdded (messages : List Copy) (msg : ErrorText)
  | modifiedMessagesDetected (modifiedMessages : List Copy) (msg : ErrorText)
  deriving DecidableEq, Repr

namespace Report

/-- The messages reported as new. -/
def newMessages : Report → List Copy
  | newMessagesAdded messages _ => messages
  | modifiedMessagesDetected _ _ => []

/-- The messages reported. -/
def messages : Report → List Copy
  | newMessagesAdded messages _ => messages
  | modifiedMessagesDetected modifiedMessages _ => modifiedMessages

end Report

/-- What a handler has collected, and told already. -/
structure Handled where
  newMessages : List Copy
  modifiedMessages : List Copy
  reports : List Report
  deriving DecidableEq, Repr

namespace DatabaseService

/-- One turn of the loop of a handler. -/
def handleChange (receiverUID : UID) (onlySeen : Bool) (handled : Handled)
    (documentChange : Change DocID MessageDoc) : Handled :=
  let document := documentChange.document
  match documentChange.type with
  | .added =>
    match Message.decode document.data with
    | some message =>
      if message.receiverID = receiverUID then
        { handled with newMessages := handled.newMessages ++ [⟨document.id, message⟩] }
      else handled
    | none =>
      { handled with
        reports := handled.reports ++ [.newMessagesAdded [] (.localizedDescription .decoding)] }
  | .modified =>
    match Message.decode document.data with
    | some message =>
      if message.receiverID = receiverUID ∧ (onlySeen → message.messageStatus = .seen) then
        { handled with modifiedMessages := handled.modifiedMessages ++ [⟨document.id, message⟩] }
      else handled
    | none =>
      { handled with
        reports :=
          handled.reports ++ [.modifiedMessagesDetected [] (.localizedDescription .decoding)] }
  | .removed => handled

/-- The handler of a listener: an error is told as new messages, of which there are none. -/
def handle (receiverUID : UID) (onlySeen : Bool) (msg : String) :
    Except Error (List (Change DocID MessageDoc)) → List Report
  | .error error => [.newMessagesAdded [] (.localizedDescription error)]
  | .ok documentChanges =>
    let handled := documentChanges.foldl (handleChange receiverUID onlySeen) ⟨[], [], []⟩
    handled.reports ++
      [.newMessagesAdded (sortedByDate handled.newMessages) (.text "fetched successfully"),
        .modifiedMessagesDetected handled.modifiedMessages (.text msg)]

/-- The handlers of the two listeners. -/
def registerForMessageCollection (myUID friendUID : UID) :
    Source → Except Error (List (Change DocID MessageDoc)) → List Report
  | .listener1 => handle friendUID true "successful"
  | .listener2 => handle myUID false "successfull"

/-- The messages of two users, in the order of their dates. -/
def fetchMessages {ρ : Type} (myUID receiverUID : UID)
    (completionHandler : List Copy → Option Error → Prog ReadCall ReadAnswer ρ) :
    Prog ReadCall ReadAnswer ρ :=
  .call (.messagesFrom myUID) fun
    | .error error => completionHandler [] (some error)
    | .ok snapshot =>
      let myMessages := receivedBy receiverUID snapshot
      .call (.messagesFrom receiverUID) fun
        | .error error => completionHandler [] (some error)
        | .ok snapshot =>
          let friendMessages := receivedBy myUID snapshot
          completionHandler (YoYo.DatabaseService.fetchMessages myMessages friendMessages) none

end DatabaseService

variable {receiverUID : UID} {onlySeen : Bool} {handled : Handled} {msg : String} {c : Parties}
  {i j : Source} {old new : MessagesStore} {s : Collections} {id : DocID} {m : Message}
  {changes : List (Change DocID MessageDoc)}

/-! ## What a handler collects -/

theorem receivedBy_append (docs docs' : List (Doc DocID MessageDoc)) :
    receivedBy receiverUID (docs ++ docs') =
      receivedBy receiverUID docs ++ receivedBy receiverUID docs' := by
  rw [receivedBy, decodeAll, List.filterMap_append, List.filter_append]
  rfl

theorem readChanges_append (changes changes' : List (Change DocID MessageDoc)) :
    (readChanges receiverUID onlySeen (changes ++ changes')).2 =
      (readChanges receiverUID onlySeen changes).2 ++
        (readChanges receiverUID onlySeen changes').2 := by
  simp only [readChanges, documentsOf_append, receivedBy_append, List.filter_append]

/-- One turn of the loop collects what its change has. -/
theorem newMessages_handleChange (handled : Handled) (change : Change DocID MessageDoc) :
    (handleChange receiverUID onlySeen handled change).newMessages =
      handled.newMessages ++ receivedBy receiverUID (documentsOf .added [change]) := by
  obtain ⟨type, document⟩ := change
  cases hm : Message.decode document.data with
  | none => cases type <;> simp [handleChange, receivedBy, decodeAll, documentsOf, hm]
  | some message =>
    cases type with
    | added =>
      by_cases hreceiver : message.receiverID = receiverUID <;>
        simp [handleChange, receivedBy, decodeAll, documentsOf, hm, hreceiver]
    | modified =>
      simp only [handleChange, hm]
      split_ifs <;> simp [receivedBy, decodeAll, documentsOf]
    | removed => simp [handleChange, receivedBy, decodeAll, documentsOf]

theorem modifiedMessages_handleChange (handled : Handled) (change : Change DocID MessageDoc) :
    (handleChange receiverUID onlySeen handled change).modifiedMessages =
      handled.modifiedMessages ++ (readChanges receiverUID onlySeen [change]).2 := by
  obtain ⟨type, document⟩ := change
  cases hm : Message.decode document.data with
  | none => cases type <;> simp [handleChange, readChanges, receivedBy, decodeAll, documentsOf, hm]
  | some message =>
    cases type with
    | added =>
      simp only [handleChange, hm]
      split_ifs <;> simp [readChanges, receivedBy, decodeAll, documentsOf]
    | modified =>
      have hin : (readChanges receiverUID onlySeen [⟨.modified, document⟩]).2 =
          if message.receiverID = receiverUID ∧ (onlySeen → message.messageStatus = .seen) then
            [⟨document.id, message⟩] else [] := by
        by_cases hreceiver : message.receiverID = receiverUID <;>
          simp [readChanges, receivedBy, decodeAll, documentsOf, hm, hreceiver,
            List.filter_singleton, imp_iff_not_or]
      rw [hin]
      simp only [handleChange, hm]
      split_ifs <;> simp
    | removed => simp [handleChange, readChanges, receivedBy, decodeAll, documentsOf]

/-- What it tells of is a document, not a message. -/
theorem messages_of_mem_handleChange {change : Change DocID MessageDoc} {report : Report}
    (h : report ∈ (handleChange receiverUID onlySeen handled change).reports) :
    report ∈ handled.reports ∨ report.messages = [] := by
  have hset : ∀ (report' : Report), report'.messages = [] →
      report ∈ handled.reports ++ [report'] → report ∈ handled.reports ∨ report.messages = [] := by
    intro report' hnil hmem
    rcases List.mem_append.1 hmem with hmem | hmem
    · exact .inl hmem
    · exact .inr (List.mem_singleton.1 hmem ▸ hnil)
  obtain ⟨type, document⟩ := change
  cases type with
  | removed => exact .inl h
  | added =>
    cases hm : Message.decode document.data with
    | none =>
      simp only [handleChange, hm] at h
      exact hset _ rfl h
    | some message =>
      simp only [handleChange, hm] at h
      split_ifs at h <;> exact .inl h
  | modified =>
    cases hm : Message.decode document.data with
    | none =>
      simp only [handleChange, hm] at h
      exact hset _ rfl h
    | some message =>
      simp only [handleChange, hm] at h
      split_ifs at h <;> exact .inl h

/-- What the loop has collected in the end. -/
theorem newMessages_foldl (changes : List (Change DocID MessageDoc)) (handled : Handled) :
    (changes.foldl (handleChange receiverUID onlySeen) handled).newMessages =
      handled.newMessages ++ receivedBy receiverUID (documentsOf .added changes) := by
  induction changes generalizing handled with
  | nil => simp [documentsOf, receivedBy, decodeAll]
  | cons change changes ih =>
    rw [List.foldl_cons, ih, newMessages_handleChange, List.append_assoc, ← receivedBy_append,
      ← documentsOf_append, List.singleton_append]

theorem modifiedMessages_foldl (changes : List (Change DocID MessageDoc)) (handled : Handled) :
    (changes.foldl (handleChange receiverUID onlySeen) handled).modifiedMessages =
      handled.modifiedMessages ++ (readChanges receiverUID onlySeen changes).2 := by
  induction changes generalizing handled with
  | nil => simp [readChanges, documentsOf, receivedBy, decodeAll]
  | cons change changes ih =>
    rw [List.foldl_cons, ih, modifiedMessages_handleChange, List.append_assoc,
      ← readChanges_append, List.singleton_append]

theorem messages_of_mem_foldl {report : Report}
    (h : report ∈ (changes.foldl (handleChange receiverUID onlySeen) handled).reports) :
    report ∈ handled.reports ∨ report.messages = [] := by
  induction changes generalizing handled with
  | nil => exact .inl h
  | cons change changes ih =>
    rcases ih h with hmem | hnil
    · exact messages_of_mem_handleChange hmem
    · exact .inr hnil

/-- What a handler reports as new. -/
theorem newMessages_handle (changes : List (Change DocID MessageDoc)) :
    (handle receiverUID onlySeen msg (.ok changes)).flatMap Report.newMessages =
      sortedByDate (receivedBy receiverUID (documentsOf .added changes)) := by
  have hnil : ∀ report ∈ (changes.foldl (handleChange receiverUID onlySeen) ⟨[], [], []⟩).reports,
      report.newMessages = [] := by
    intro report hmem
    have hmessages := (messages_of_mem_foldl hmem).resolve_left List.not_mem_nil
    cases report with
    | newMessagesAdded messages _ => exact hmessages
    | modifiedMessagesDetected _ _ => rfl
  rw [handle, List.flatMap_append, List.flatMap_eq_nil_iff.2 hnil, newMessages_foldl]
  simp [Report.newMessages]

/-- All that it reports. -/
theorem messages_handle (changes : List (Change DocID MessageDoc)) :
    (handle receiverUID onlySeen msg (.ok changes)).flatMap Report.messages =
      sortedByDate (receivedBy receiverUID (documentsOf .added changes)) ++
        (readChanges receiverUID onlySeen changes).2 := by
  have hnil : ∀ report ∈ (changes.foldl (handleChange receiverUID onlySeen) ⟨[], [], []⟩).reports,
      report.messages = [] :=
    fun report hmem => (messages_of_mem_foldl hmem).resolve_left List.not_mem_nil
  rw [handle, List.flatMap_append, List.flatMap_eq_nil_iff.2 hnil, newMessages_foldl,
    modifiedMessages_foldl]
  simp [Report.messages]

/-- What a listener reports, given what it has delivered before. -/
def reports (c : Parties) (i : Source) (delivered docs : List (Doc DocID MessageDoc)) :
    List Report :=
  registerForMessageCollection c.myUID c.friendUID i (.ok (documentChanges delivered docs))

/-- The reports have what the view of the conversation is handed. -/
theorem newMessages_reports (c : Parties) (i : Source)
    (delivered docs : List (Doc DocID MessageDoc)) :
    (reports c i delivered docs).flatMap Report.newMessages =
      (c.handler i (documentChanges delivered docs)).1 := by
  cases i <;> exact newMessages_handle _

theorem messages_reports (c : Parties) (i : Source) (delivered docs : List (Doc DocID MessageDoc)) :
    (reports c i delivered docs).flatMap Report.messages =
      (c.handler i (documentChanges delivered docs)).1 ++
        (c.handler i (documentChanges delivered docs)).2 := by
  cases i <;> exact messages_handle _

/-! ## What is read -/

instance (c : Parties) (m : Message) : Decidable (c.Between m) :=
  decidable_of_iff
    ((m.senderID = c.myUID ∧ m.receiverID = c.friendUID) ∨
      (m.senderID = c.friendUID ∧ m.receiverID = c.myUID)) (by
    constructor
    · rintro (h | h)
      · exact ⟨.listener1, h⟩
      · exact ⟨.listener2, h⟩
    · rintro ⟨_ | _, h⟩
      · exact .inl h
      · exact .inr h)

/-- The messages stored of a conversation: those that decode. -/
def conversation (c : Parties) (s : MessagesStore) : List Copy :=
  (decodeAll Message.decode s.docs).filter fun message => c.Between message.data

/-- The messages one of two users has sent to the other. -/
theorem receivedBy_query (uid uid' : UID) (s : MessagesStore) :
    receivedBy uid (s.query (sentBy uid')) =
      (decodeAll Message.decode s.docs).filter fun message =>
        message.data.senderID = uid' ∧ message.data.receiverID = uid := by
  rw [receivedBy, Collection.query, decodeAll, decodeAll, List.filterMap_filter,
    List.filter_filterMap, List.filter_filterMap]
  refine List.filterMap_congr fun d _ => ?_
  cases hm : Message.decode d.data with
  | none => simp
  | some m =>
    have hsender := (Message.users_of_decode hm).1
    by_cases huid : m.senderID = uid' <;> simp [sentBy, hsender, huid, Option.filter]

/-- Together, those of both are the conversation. -/
theorem perm_conversation (c : Parties) (s : MessagesStore) :
    (receivedBy (c.receiver .listener1) (c.query .listener1 s) ++
      receivedBy (c.receiver .listener2) (c.query .listener2 s)).Perm (conversation c s) := by
  rw [Parties.query, Parties.query, receivedBy_query, receivedBy_query]
  have hne : ∀ message ∈ decodeAll Message.decode s.docs,
      decide (message.data.senderID = c.sender .listener1 ∧
        message.data.receiverID = c.receiver .listener1) →
      decide (message.data.senderID = c.sender .listener2 ∧
        message.data.receiverID = c.receiver .listener2) = false := by
    intro message _ h
    refine decide_eq_false fun h' => c.ne ?_
    exact (of_decide_eq_true h).1.symm.trans h'.1
  refine (filter_append_filter_perm hne).trans (.of_eq ?_)
  refine List.filter_congr fun message _ => ?_
  rw [← Bool.decide_or]
  refine decide_eq_decide.2 ⟨?_, ?_⟩
  · rintro (h | h)
    · exact ⟨.listener1, h⟩
    · exact ⟨.listener2, h⟩
  · rintro ⟨_ | _, h⟩
    · exact .inl h
    · exact .inr h

/-- The first snapshots of the listeners report the conversation as new. -/
theorem perm_firstReports (c : Parties) (s : MessagesStore) :
    ((reports c .listener1 [] (c.query .listener1 s) ++
      reports c .listener2 [] (c.query .listener2 s)).flatMap Report.newMessages).Perm
        (conversation c s) := by
  have hfirst : ∀ i, ((reports c i [] (c.query i s)).flatMap Report.newMessages).Perm
      (receivedBy (c.receiver i) (c.query i s)) := by
    intro i
    rw [newMessages_reports, Parties.handler_added, documentsOf_added,
      List.filter_eq_self.2 (by simp)]
    exact List.perm_insertionSort _ _
  rw [List.flatMap_append]
  exact ((hfirst _).append (hfirst _)).trans (perm_conversation c s)

/-- How a fetch ends, given the errors of its queries. -/
def fetched (c : Parties) (env : ℕ → Option String) (s : Collections) : List Copy × Option Error :=
  ((fetchMessages c.myUID c.friendUID fun messages error => .done (messages, error)).exec
    answer env s).1

theorem fetched_eq (c : Parties) (env : ℕ → Option String) (s : Collections) :
    fetched c env s =
      match env 0, env 1 with
      | some description, _ | none, some description => ([], some (.ofQuery description))
      | none, none =>
        (YoYo.DatabaseService.fetchMessages
          (receivedBy (c.receiver .listener1) (c.query .listener1 s.messages))
          (receivedBy (c.receiver .listener2) (c.query .listener2 s.messages)), none) := by
  rw [fetched, fetchMessages, Prog.exec_call]
  cases h₀ : env 0 with
  | some description => rfl
  | none =>
    simp only [answer, snapshotOf, Prog.exec_call]
    cases h₁ : env 1 with
    | some description => rfl
    | none => rfl

/-- A fetch none of whose queries fails delivers the conversation. -/
theorem perm_fetched (c : Parties) (s : Collections) :
    (fetched c (fun _ => none) s).1.Perm (conversation c s.messages) := by
  rw [fetched_eq]
  exact (List.perm_insertionSort _ _).trans (perm_conversation c s.messages)

/-! ## What changes later -/

theorem messageOf_iff {s : MessagesStore} :
    messageOf s id = some m ↔ ∃ d ∈ s.docs, d.id = id ∧ Message.decode d.data = some m := by
  rw [messageOf, Option.bind_eq_some_iff]
  constructor
  · rintro ⟨d, hd, hm⟩
    exact ⟨⟨id, d⟩, Collection.get?_eq_some_iff.1 hd, rfl, hm⟩
  · rintro ⟨d, hd, rfl, hm⟩
    exact ⟨d.data, Collection.get?_eq_some_iff.2 hd, hm⟩

/-- The messages a listener reports of what has changed since its last snapshot. -/
def reported (c : Parties) (i : Source) (old new : MessagesStore) : List Copy :=
  (reports c i (c.query i old) (c.query i new)).flatMap Report.messages

/-- They are stored now, and those of one user for the other. -/
theorem of_mem_reported {message : Copy} (h : message ∈ reported c i old new) :
    messageOf new message.id = some message.data ∧ message.data.senderID = c.sender i ∧
      message.data.receiverID = c.receiver i := by
  have hdocs : ∀ {type}, message ∈ receivedBy (c.receiver i)
      (documentsOf type (documentChanges (c.query i old) (c.query i new))) →
        type ≠ .removed → message ∈ receivedBy (c.receiver i) (c.query i new) := by
    intro type hmem htype
    refine receivedBy_mono (fun d hd => ?_) hmem
    cases type with
    | added =>
      rw [documentsOf_added] at hd
      exact (List.mem_filter.1 hd).1
    | modified => exact ((mem_documentsOf_modified (nodup_ids (old.sorted_query _))).1 hd).1
    | removed => exact absurd rfl htype
  have hmem : message ∈ receivedBy (c.receiver i) (c.query i new) := by
    rw [reported, messages_reports, Parties.handler_added] at h
    rcases List.mem_append.1 h with h | h
    · exact hdocs (mem_sortedByDate.1 h) (by decide)
    · exact hdocs (Parties.mem_handler_modified h) (by decide)
  obtain ⟨⟨d, hd, hid, hm⟩, hreceiver⟩ := mem_receivedBy.1 hmem
  obtain ⟨hd, hsender⟩ := Collection.mem_query.1 hd
  rw [sentBy, DocField.is_iff, (Message.users_of_decode hm).1, DocField.value.injEq] at hsender
  exact ⟨messageOf_iff.2 ⟨d, hd, hid, hm⟩, hsender, hreceiver⟩

/-- A document that is not a message of the conversation is reported by neither listener. -/
theorem notMem_reported (h : ∀ m, messageOf new id = some m → ¬ c.Between m) (i : Source) :
    id ∉ (reported c i old new).map Doc.id := by
  intro hid
  obtain ⟨message, hmem, rfl⟩ := List.mem_map.1 hid
  obtain ⟨hm, husers⟩ := of_mem_reported hmem
  exact h _ hm ⟨i, husers⟩

/-- A message added is reported, as new and once, by the listener on its sender. -/
theorem count_reported (hold : id ∉ old.ids) (hm : messageOf new id = some m)
    (hsender : m.senderID = c.sender i) (hreceiver : m.receiverID = c.receiver i) :
    ((reported c i old new).map Doc.id).count id = 1 := by
  obtain ⟨d, hd, rfl, hdecode⟩ := messageOf_iff.1 hm
  have hnew : d ∈ c.query i new := by
    refine Collection.mem_query.2 ⟨hd, ?_⟩
    rw [sentBy, DocField.is_iff, (Message.users_of_decode hdecode).1, hsender]
  have hnot : d.id ∉ (c.query i old).map Doc.id := by
    intro hmem
    obtain ⟨e, he, hid⟩ := List.mem_map.1 hmem
    exact hold (hid ▸ Collection.mem_ids_of_mem (Collection.mem_query.1 he).1)
  -- Among the new messages, it is there, and ids are distinct.
  have hadded : (((c.handler i (documentChanges (c.query i old) (c.query i new))).1).map
      Doc.id).count d.id = 1 := by
    rw [Parties.handler_added, documentsOf_added]
    refine List.count_eq_one_of_mem ?_ ?_
    · refine ((List.perm_insertionSort _ _).map _).nodup_iff.2 ?_
      exact nodup_ids (idSorted_receivedBy _ ((new.sorted_query _).filter _))
    · refine List.mem_map.2 ⟨⟨d.id, m⟩, mem_sortedByDate.2 (mem_receivedBy.2 ?_), rfl⟩
      exact ⟨⟨d, List.mem_filter.2 ⟨hnew, by simpa using hnot⟩, rfl, hdecode⟩, hreceiver⟩
  -- Whatever is modified was there before.
  have hmodified : (((c.handler i (documentChanges (c.query i old) (c.query i new))).2).map
      Doc.id).count d.id = 0 := by
    refine List.count_eq_zero.2 fun hmem => hnot ?_
    obtain ⟨message, hmem, hid⟩ := List.mem_map.1 hmem
    obtain ⟨⟨e, he, heid, -⟩, -⟩ := mem_receivedBy.1 (Parties.mem_handler_modified hmem)
    obtain ⟨-, e', he', heid', -⟩ :=
      (mem_documentsOf_modified (nodup_ids (old.sorted_query _))).1 he
    exact List.mem_map.2 ⟨e', he', heid'.trans (heid.trans hid)⟩
  rw [reported, messages_reports, List.map_append, List.count_append, hadded, hmodified]

/-- Fetching and listening deliver the same: on any contents of the store, the
    first snapshots of the listeners have the messages a fetch delivers, those
    of the conversation. Later, whatever is not a message of the conversation is
    reported by neither listener, and one that is added by exactly one. -/
theorem fetch_eq_listeners (c : Parties) (s : Collections) :
    ∃ messages, fetched c (fun _ => none) s = (messages, none) ∧
      ((reports c .listener1 [] (c.query .listener1 s.messages) ++
        reports c .listener2 [] (c.query .listener2 s.messages)).flatMap
          Report.newMessages).Perm messages ∧
      messages.Perm (conversation c s.messages) ∧
      (∀ i old new id, (∀ m, messageOf new id = some m → ¬ c.Between m) →
        id ∉ (reported c i old new).map Doc.id) ∧
      ∀ id m, c.Between m → ∃ i,
        (∀ old new, id ∉ old.ids → messageOf new id = some m →
          ((reported c i old new).map Doc.id).count id = 1) ∧
        ∀ j, j ≠ i → ∀ old new, messageOf new id = some m →
          id ∉ (reported c j old new).map Doc.id := by
  have hfetched := perm_fetched c s
  refine ⟨_, by rw [fetched_eq], ?_, by rwa [fetched_eq] at hfetched,
    fun i old new id h => notMem_reported h i, ?_⟩
  · rw [fetched_eq] at hfetched
    exact (perm_firstReports c s.messages).trans hfetched.symm
  · rintro id m ⟨i, hsender, hreceiver⟩
    refine ⟨i, fun old new hold hm => count_reported hold hm hsender hreceiver, ?_⟩
    intro j hji old new hm hid
    obtain ⟨message, hmem, rfl⟩ := List.mem_map.1 hid
    obtain ⟨hm', hsender', -⟩ := of_mem_reported hmem
    rw [hm, Option.some.injEq] at hm'
    subst hm'
    have hne : ∀ i j, i ≠ j → c.sender i ≠ c.sender j := by
      rintro (_ | _) (_ | _) hij
      · exact absurd rfl hij
      · exact c.ne
      · exact c.ne.symm
      · exact absurd rfl hij
    exact hne i j hji.symm (hsender.symm.trans hsender')

end YoYo.Reads
