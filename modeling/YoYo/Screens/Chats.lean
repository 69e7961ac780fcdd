import YoYo.Reads.ChatList

/-!
# The list of conversations while messages change

Whenever it is told of a change, the list of conversations starts a chain of
three queries: for the messages its user has sent, for those he has received,
and for the profiles of the users of these. Any number of chains may be in
flight, each of whose queries reads what is stored when it is answered, and the
list shows what was delivered last.

So what is shown is what is stored exactly if the messages read by the chain
that has delivered last (`Chats.lastRead`, found from the events) say the same of
every conversation (`settled_iff`): a chain started before may be the one. The
queries are taken to be accepted, which the one for profiles is for ten users at
most (`YoYo.Reads.Limits`).
-/

namespace YoYo.Screens

open DocStore Reads Reads.DatabaseService

/-! ## Chains -/

/-- A chain in flight: the request that is left, and the messages read so far.
    (The source does not keep the latter.) -/
structure Chain where
  prog : ReadProg
  read : List Copy

namespace Chain

/-- A chain that is started. -/
def start (uid : UID) : Chain := ⟨Reads.MessagingService.fetchChatModels uid, []⟩

/-- The messages read once another answer is there. -/
def readBy (read : List Copy) : (c : ReadCall) → ReadAnswer c → List Copy
  | .messagesFrom _, .ok snapshot | .messagesTo _, .ok snapshot =>
    read ++ (decodeMessages snapshot).getD []
  | .messagesFrom _, .error _ | .messagesTo _, .error _ => read
  | .friendsOf _, _ | .usersIn _, _ | .storiesIn _, _ | .listenToStoriesIn _, _ => read

/-- A chain whose next query is answered. -/
def answered (failure : Option String) (s : Collections) (chain : Chain) : Chain :=
  match chain.prog with
  | .done _ => chain
  | .call c k => ⟨k (Reads.answer failure s c).1, readBy chain.read c (Reads.answer failure s c).1⟩

end Chain

/-! ## The list -/

/-- The list of conversations: what is stored, the chains in flight, and the rows shown. -/
structure Chats where
  collections : Collections
  inFlight : List Chain
  chatModels : List ChatModel

/-- What happens to the list: messages change, it is told of a change, or the
    next query of a chain is answered, or fails. -/
inductive ChatsEvent
  | changed (messages : MessagesStore)
  | chatModelChanged (success : Bool) (error : Option Error)
  | answered (chain : ℕ) (failure : Option String)

namespace Chats

/-- The list once it is loaded: a first chain is in flight. -/
def viewDidLoad (uid : UID) (collections : Collections) : Chats :=
  ⟨collections, [.start uid], []⟩

/-- The list is told of a change, or of an error. -/
def chatModelChanged (uid : UID) (success : Bool) (error : Option Error) (s : Chats) : Chats :=
  match error with
  | some _ => s
  | none => if success then { s with inFlight := s.inFlight ++ [.start uid] } else s

/-- Rows are delivered, or an error. -/
def fetchChatModels (chatModels : List ChatModel) (error : Option Error) (s : Chats) : Chats :=
  match error with
  | some _ => s
  | none => { s with chatModels }

/-- A chain has ended. -/
def ended (s : Chats) : Ending → Option Chats
  | .delivered (.fetchChatModels chatModels error) => some (s.fetchChatModels chatModels error)
  | .delivered _ | .silent => some s
  | .trapped => none

/-- What an event does, unless it traps. -/
def handle (uid : UID) (s : Chats) : ChatsEvent → Option Chats
  | .changed messages => some { s with collections := { s.collections with messages } }
  | .chatModelChanged success error => some (s.chatModelChanged uid success error)
  | .answered i failure =>
    match s.inFlight[i]? with
    | none => some s
    | some chain =>
      let chain := chain.answered failure s.collections
      match chain.prog.result with
      | none => some { s with inFlight := s.inFlight.set i chain }
      | some ending => { s with inFlight := s.inFlight.eraseIdx i }.ended ending

/-- The state after an event, unless one has trapped. -/
def next (uid : UID) (s : Option Chats) (e : ChatsEvent) : Option Chats :=
  s.bind fun s => s.handle uid e

/-- The messages read by the chain that delivers rows with an event, if one does. -/
def delivers (s : Chats) : ChatsEvent → Option (List Copy)
  | .answered i failure =>
    (s.inFlight[i]?.map (Chain.answered failure s.collections)).bind fun chain =>
      match chain.prog.result with
      | some (.delivered (.fetchChatModels _ none)) => some chain.read
      | _ => none
  | .changed _ | .chatModelChanged _ _ => none

/-- The messages read by the chain that has delivered rows last: none before any has. -/
def lastRead (uid : UID) (collections : Collections) (es : List ChatsEvent) : List Copy :=
  (yielded (next uid) (fun s e => s.bind fun s => s.delivers e)
    (some (viewDidLoad uid collections)) es).getLastD []

/-- The rows shown are those made of what is stored now: none without any messages. -/
def Settled (uid : UID) (s : Chats) : Prop :=
  match (Request.fetchChatModels uid).ending (fun _ => none) s.collections with
  | .delivered (.fetchChatModels chatModels none) => s.chatModels = chatModels
  | .silent => s.chatModels = []
  | _ => False

/-- What messages say of the conversation with a user, if any of them is of it. -/
def digestOf (myUID : UID) (messages : List Copy) (uid : UID) : Option (ℕ × Date) :=
  if uid ∈ messages.map (Reads.MessagingService.otherUser myUID) then digest messages uid else none

/-- The messages read say what those stored do, of every user with a profile. -/
def UpToDate (uid : UID) (read : List Copy) (s : Chats) : Prop :=
  ∃ sent received, decodeMessages (s.collections.messages.query (sentBy uid)) = some sent ∧
    decodeMessages (s.collections.messages.query (sentTo uid)) = some received ∧
    ∀ p ∈ decodeAll UserModel.decode s.collections.users.docs,
      digestOf uid read p.data.userID = digestOf uid (sent ++ received) p.data.userID

end Chats

variable {uid : UID} {s s' : Chats} {e : ChatsEvent} {messages : List Copy} {chain : Chain}
  {users : Collection DocID UserDoc}

/-! ## Where a chain is -/

/-- A chain that has read the messages its user has sent. -/
def awaitReceived (uid : UID) (sent : List Copy) : ReadProg :=
  .call (.messagesTo uid) fun
    | .error error => Reads.MessagingService.fetchMessagesForChatView uid [] (some error)
    | .ok snapshot =>
      match decodeMessages snapshot with
      | none => Reads.MessagingService.fetchMessagesForChatView uid [] (some .decoding)
      | some received =>
        Reads.MessagingService.fetchMessagesForChatView uid (sent ++ received) none

/-- A chain waits for an answer to one of its queries, of which the last is about
    the users of the messages it has read. -/
inductive Waiting (uid : UID) : Chain → Prop
  | forSent : Waiting uid (.start uid)
  | forReceived (sent : List Copy) : Waiting uid ⟨awaitReceived uid sent, sent⟩
  | forProfiles (messages : List Copy) (h : messages ≠ []) :
    Waiting uid ⟨Reads.MessagingService.fetchMessagesForChatView uid messages none, messages⟩

/-- A chain that has ended has delivered the rows of the messages it has read, or an error. -/
inductive Ended (uid : UID) (users : Collection DocID UserDoc) : List Copy → Ending → Prop
  | error (read : List Copy) (error : Error) :
    Ended uid users read (.delivered (.fetchChatModels [] (some error)))
  | silent (read : List Copy) : Ended uid users read .silent
  | rows (read : List Copy) :
    Ended uid users read (.delivered (.fetchChatModels (rowsOf uid users read) none))

/-- A chain waits or has ended. -/
def InOrder (uid : UID) (users : Collection DocID UserDoc) (chain : Chain) : Prop :=
  match chain.prog.result with
  | none => Waiting uid chain
  | some ending => Ended uid users chain.read ending

/-- The chain goes on with the messages it has read: without any, it ends. -/
theorem inOrder_messages (uid : UID) (users : Collection DocID UserDoc) (messages : List Copy) :
    InOrder uid users
      ⟨Reads.MessagingService.fetchMessagesForChatView uid messages none, messages⟩ := by
  by_cases h : messages = []
  · subst h
    exact .silent []
  · have huids : (messages.map (Reads.MessagingService.otherUser uid)).dedup.length > 0 := by
      rw [gt_iff_lt, List.length_pos_iff, Ne, List.dedup_eq_nil, List.map_eq_nil_iff]
      exact h
    have hwait : Waiting uid _ := .forProfiles messages h
    rw [Reads.MessagingService.fetchMessagesForChatView, fetchUserModels, if_pos huids] at hwait ⊢
    exact hwait

/-- An answer leaves a chain in order. -/
theorem Waiting.answered (h : Waiting uid chain) (failure : Option String) (s : Collections) :
    InOrder uid s.users (chain.answered failure s) := by
  cases h with
  | forSent =>
    cases failure with
    | some description => exact .error _ _
    | none =>
      simp only [Chain.answered, Chain.start, Reads.MessagingService.fetchChatModels,
        Reads.DatabaseService.fetchMessagesForChatView, Reads.answer, snapshotOf, Chain.readBy]
      cases decodeMessages (s.messages.query (sentBy uid)) with
      | none => exact Ended.error _ _
      | some sent => exact Waiting.forReceived sent
  | forReceived sent =>
    cases failure with
    | some description => exact .error _ _
    | none =>
      simp only [Chain.answered, awaitReceived, Reads.answer, snapshotOf, Chain.readBy]
      cases decodeMessages (s.messages.query (sentTo uid)) with
      | none => exact Ended.error _ _
      | some received => exact inOrder_messages uid s.users (sent ++ received)
  | forProfiles messages h =>
    have huids : (messages.map (Reads.MessagingService.otherUser uid)).dedup.length > 0 := by
      rw [gt_iff_lt, List.length_pos_iff, Ne, List.dedup_eq_nil, List.map_eq_nil_iff]
      exact h
    simp only [Chain.answered, Reads.MessagingService.fetchMessagesForChatView, fetchUserModels,
      if_pos huids]
    cases failure with
    | some description => exact .error _ _
    | none =>
      have hrows := mapM_chatModel_eq s uid messages
      rw [profilesIn] at hrows
      simp only [Reads.answer, snapshotOf, Chain.readBy, hrows]
      exact Ended.rows messages

/-! ## Runs -/

/-- The rows shown are those of the messages read by the chain that has delivered
    last, and the chains in flight wait. -/
structure Sound (uid : UID) (read : List Copy) (s : Chats) : Prop where
  rows : s.chatModels = rowsOf uid s.collections.users read
  waiting : ∀ chain ∈ s.inFlight, Waiting uid chain

theorem sound_viewDidLoad (uid : UID) (collections : Collections) :
    Sound uid [] (.viewDidLoad uid collections) where
  rows := by simp [Chats.viewDidLoad, rowsOf]
  waiting := fun chain hchain => List.mem_singleton.1 hchain ▸ .forSent

/-- The list stays sound, and no unwrapping traps. -/
theorem Sound.handle {read : List Copy} (hs : Sound uid read s) (e : ChatsEvent) :
    ∃ s', s.handle uid e = some s' ∧ Sound uid ((s.delivers e).getD read) s' := by
  cases e with
  | changed messages => exact ⟨_, rfl, hs.rows, hs.waiting⟩
  | chatModelChanged success error =>
    refine ⟨_, rfl, ?_⟩
    rw [Chats.chatModelChanged.eq_def]
    split
    · exact hs
    · split
      · refine ⟨hs.rows, fun chain hchain => ?_⟩
        rcases List.mem_append.1 hchain with hchain | hchain
        · exact hs.waiting chain hchain
        · exact List.mem_singleton.1 hchain ▸ .forSent
      · exact hs
  | answered i failure =>
    rw [Chats.handle, Chats.delivers]
    cases hi : s.inFlight[i]? with
    | none => exact ⟨s, rfl, hs⟩
    | some chain =>
      have horder := (hs.waiting chain (List.mem_of_getElem? hi)).answered failure s.collections
      have herase : ∀ chain ∈ s.inFlight.eraseIdx i, Waiting uid chain :=
        fun chain hchain => hs.waiting chain (List.mem_of_mem_eraseIdx hchain)
      rw [InOrder] at horder
      rw [Option.map_some, Option.bind_some]
      simp only
      generalize chain.answered failure s.collections = chain at horder ⊢
      cases hresult : chain.prog.result with
      | none =>
        rw [hresult] at horder
        refine ⟨_, rfl, hs.rows, fun chain' hchain' => ?_⟩
        rcases List.mem_or_eq_of_mem_set hchain' with hchain' | rfl
        · exact hs.waiting chain' hchain'
        · exact horder
      | some ending =>
        rw [hresult] at horder
        simp only at horder ⊢
        generalize chain.read = read' at horder ⊢
        cases horder with
        | error error => exact ⟨_, rfl, hs.rows, herase⟩
        | silent => exact ⟨_, rfl, hs.rows, herase⟩
        | rows => exact ⟨_, rfl, rfl, herase⟩

/-! ## What is shown -/

theorem digestOf_eq_some_iff {myUID : UID} {d : ℕ × Date} :
    Chats.digestOf myUID messages uid = some d ↔
      uid ∈ messages.map (Reads.MessagingService.otherUser myUID) ∧
        digest messages uid = some d := by
  rw [Chats.digestOf, Option.ite_none_right_eq_some]

/-- The rows made of messages are determined by what these say of each user with a profile. -/
theorem rowsOf_eq_iff {read : List Copy} :
    rowsOf uid users read = rowsOf uid users messages ↔
      ∀ p ∈ decodeAll UserModel.decode users.docs,
        Chats.digestOf uid read p.data.userID = Chats.digestOf uid messages p.data.userID := by
  constructor
  · intro h p hp
    -- What is said of a user is what the row of his profile says, if there is one.
    have hmem : ∀ (messages : List Copy) (d : ℕ × Date),
        Chats.digestOf uid messages p.data.userID = some d ↔
          ⟨p, d.1, d.2⟩ ∈ rowsOf uid users messages := fun messages d => by
      rw [digestOf_eq_some_iff, mem_rowsOf]
      exact (and_iff_right hp).symm
    ext d
    rw [hmem, hmem, h]
  · intro h
    have hrows : ∀ messages : List Copy, ((decodeAll UserModel.decode users.docs).filter
        fun p => p.data.userID ∈ messages.map (Reads.MessagingService.otherUser uid)).filterMap
          (Reads.MessagingService.chatModel messages) =
        (decodeAll UserModel.decode users.docs).filterMap fun p =>
          (Chats.digestOf uid messages p.data.userID).map fun d => (⟨p, d.1, d.2⟩ : ChatModel) := by
      intro messages
      rw [List.filterMap_filter]
      refine List.filterMap_congr fun p _ => ?_
      rw [chatModel_eq, Chats.digestOf]
      by_cases hp : p.data.userID ∈ messages.map (Reads.MessagingService.otherUser uid)
      · simp only [hp, decide_true, if_true]
      · simp only [hp, decide_false, if_false, Bool.false_eq_true, Option.map_none]
    rw [rowsOf, rowsOf, hrows, hrows]
    congr 1
    exact List.filterMap_congr fun p hp => by rw [h p hp]

/-- What is stored now are rows, if all messages decode. -/
theorem settled_iff_rows :
    s.Settled uid ↔ ∃ sent received,
      decodeMessages (s.collections.messages.query (sentBy uid)) = some sent ∧
      decodeMessages (s.collections.messages.query (sentTo uid)) = some received ∧
      s.chatModels = rowsOf uid s.collections.users (sent ++ received) := by
  rw [Chats.Settled]
  cases hsent : decodeMessages (s.collections.messages.query (sentBy uid)) with
  | none => simp [ending_fetchChatModels, hsent]
  | some sent =>
    cases hreceived : decodeMessages (s.collections.messages.query (sentTo uid)) with
    | none => simp [ending_fetchChatModels, hsent, hreceived]
    | some received =>
      simp only [Option.some.injEq, exists_and_left, exists_eq_left']
      by_cases hne : sent ++ received = []
      · have hsilent : (Request.fetchChatModels uid).ending (fun _ => none) s.collections =
            .silent := by
          rw [ending_fetchChatModels]
          simp [hsent, hreceived, hne]
        rw [hsilent, hne]
        simp [rowsOf]
      · rw [ending_fetchChatModels_of_decode hsent hreceived hne]

namespace Chats

/-- **The list shows what is stored** in exactly the states in which the messages
    read by the chain that has delivered last say of every conversation what
    those stored do. No unwrapping ever traps. -/
theorem settled_iff (uid : UID) (collections : Collections) (es : List ChatsEvent) :
    ∃ s, after (next uid) (some (viewDidLoad uid collections)) es = some s ∧
      (s.Settled uid ↔ s.UpToDate uid (lastRead uid collections es)) := by
  have hsound : ∃ s, after (next uid) (some (viewDidLoad uid collections)) es = some s ∧
      Sound uid (lastRead uid collections es) s := by
    refine AllSteps.invariant_yielded (P := fun _ _ => True) (l := [])
      (J := fun reads s => ∃ s', s = some s' ∧ Sound uid (reads.getLastD []) s')
      (fun reads s e hs _ => ?_) ⟨_, rfl, sound_viewDidLoad uid collections⟩
      (allSteps_iff_forall.2 fun _ _ _ _ => trivial)
    obtain ⟨s', rfl, hs'⟩ := hs
    obtain ⟨s'', hhandle, hs''⟩ := hs'.handle e
    refine ⟨s'', hhandle, ?_⟩
    rw [Option.bind_some]
    cases hdelivers : s'.delivers e with
    | none =>
      rw [hdelivers] at hs''
      simpa using hs''
    | some read =>
      rw [hdelivers] at hs''
      simpa using hs''
  obtain ⟨s, hafter, hs⟩ := hsound
  refine ⟨s, hafter, ?_⟩
  rw [settled_iff_rows, UpToDate]
  refine exists_congr fun sent => exists_congr fun received => ?_
  rw [hs.rows, rowsOf_eq_iff]

/-- Bob has a profile, and has written to Ann once. -/
def bobsMessage : Collections where
  friends := .empty
  users := Collection.empty.setData 1 (UserModel.encode ⟨"Bob", 0, "bob.jpg", "bob", "bob@yoyo"⟩)
  stories := .empty
  messages := Collection.empty.setData 1
    (Message.encode ⟨"bob", "ann", 5, .plain, .send, some "hi", none, none⟩)

/-- Then he writes again. -/
def bobsMessages : MessagesStore := bobsMessage.messages.setData 2
  (Message.encode ⟨"bob", "ann", 6, .plain, .send, some "there?", none, none⟩)

/-- The first chain reads the messages before he does, and its last query is
    answered after those of the chain started then. -/
def overtaken : List ChatsEvent :=
  [.answered 0 none, .answered 0 none, .changed bobsMessages, .chatModelChanged true none,
    .answered 1 none, .answered 1 none, .answered 1 none, .answered 0 none]

/-- Everything has been answered, and his second message is not shown. -/
theorem not_settled_overtaken :
    ∃ s, after (next "ann") (some (viewDidLoad "ann" bobsMessage)) overtaken = some s ∧
      s.inFlight = [] ∧ s.collections.messages = bobsMessages ∧ ¬ s.Settled "ann" := by
  refine ⟨_, rfl, rfl, rfl, fun h => ?_⟩
  have hunseen : [1] = [2] := congrArg (List.map ChatModel.unSeenMessages) h
  exact absurd hunseen (by decide)

end Chats

end YoYo.Screens
