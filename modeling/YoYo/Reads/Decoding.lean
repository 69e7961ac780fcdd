import YoYo.Player.Refresh
import YoYo.Profiles.Service
import YoYo.Reads.Paths

/-!
# Documents that do not decode

What a query returns is decoded by the reader that has made it, and any of the
documents may fail to. A reader is to go on as if these had not been returned:
to make the same calls, and to hand on the same; and it is not to trap
(`Reader.Robust`).

Most readers leave out what does not decode. But the messages for the list of
conversations are read all or none, and an update of a profile unwraps the only
document it reads. `robust_iff` tells exactly which answers these two withstand.
-/

namespace YoYo.Reads

open DocStore Player Reads.DatabaseService

/-! ## Searching profiles -/

/-- The query of a search: for the profiles of all users but one. -/
inductive SearchCall
  | usersOtherThan (uid : UID)
  deriving DecidableEq, Repr

/-- Its answer: an error or a snapshot. -/
abbrev SearchAnswer : SearchCall → Type
  | .usersOtherThan _ => Except Error (List (Doc DocID UserDoc))

namespace DatabaseService

/-- The profiles that match a search, given how strings are searched. -/
def fetchUserProfiles {ρ : Type} (lowercased : String → String)
    (contains : String → String → Bool) (uid : UID) (withSearchString : String)
    (completionHandler : Option (List Profile) → Option Error → Prog SearchCall SearchAnswer ρ) :
    Prog SearchCall SearchAnswer ρ :=
  .call (.usersOtherThan uid) fun
    | .error error => completionHandler none (some error)
    | .ok snapshot =>
      let profiles := decodeAll UserModel.decode snapshot
      completionHandler (some (profiles.filter fun profile =>
        contains (lowercased profile.data.name) (lowercased withSearchString) ||
          contains profile.data.userEmail (lowercased withSearchString))) none

end DatabaseService

variable {lowercased : String → String} {contains : String → String → Bool}

/-- The answer of a collection has the profiles found there. -/
theorem resume_fetchUserProfiles {ρ : Type} (uid : UID) (withSearchString : String)
    (k : Option (List Profile) → Option Error → Prog SearchCall SearchAnswer ρ) (s : UsersStore) :
    (fetchUserProfiles lowercased contains uid withSearchString k).resume (fun
      | .usersOtherThan uid => .ok (s.query (profileOfOther uid))) =
      k (some (YoYo.DatabaseService.fetchUserProfiles lowercased contains uid withSearchString s))
        none := rfl

/-! ## What decodes -/

/-- The documents that decode. -/
def decodable {α β : Type} (decode : Doc DocID α → Option β) (docs : List (Doc DocID α)) :
    List (Doc DocID α) :=
  docs.filter fun d => (decode d).isSome

/-- Whatever is read of the documents one by one is read of those that decode. -/
@[simp] theorem filterMap_decodable {α β : Type} (decode : Doc DocID α → Option β)
    (docs : List (Doc DocID α)) :
    (decodable decode docs).filterMap decode = docs.filterMap decode := by
  rw [decodable, List.filterMap_filter]
  refine List.filterMap_congr fun d _ => ?_
  cases decode d <;> rfl

@[simp] theorem decodeAll_decodable {α β : Type} (decode : α → Option β)
    (docs : List (Doc DocID α)) :
    decodeAll decode (decodable (fun d => decode d.data) docs) = decodeAll decode docs := by
  rw [decodeAll, decodable, List.filterMap_filter, decodeAll]
  refine List.filterMap_congr fun d _ => ?_
  cases decode d.data <;> rfl

/-- The answers with those documents only that decode. -/
def ReadCall.decodable : (c : ReadCall) → ReadAnswer c → ReadAnswer c
  | .friendsOf _, answer => answer.map (Reads.decodable FriendsList.decode)
  | .usersIn _, answer => answer.map (Reads.decodable fun d => UserModel.decode d.data)
  | .storiesIn _, answer => answer.map (Reads.decodable fun d => Story.decode d.data)
  | .messagesFrom _, answer | .messagesTo _, answer =>
    answer.map (Reads.decodable fun d => Message.decode d.data)
  | .listenToStoriesIn _, answer => answer

/-- So for a search. -/
def SearchCall.decodable : (c : SearchCall) → SearchAnswer c → SearchAnswer c
  | .usersOtherThan _, answer => answer.map (Reads.decodable fun d => UserModel.decode d.data)

/-- So for the read of an update, which returns one document at most. -/
def usersDecodable : (c : UsersCall) → Answer c → Answer c
  | .getDocuments _, answer =>
    answer.map fun documents => decodable (fun d => UserModel.decode d.data) (documents.take 1)
  | .addDocument _, success | .setData _ _, success => success

/-! ## Readers -/

/-- The readers, each with its arguments, at the time it reads. -/
inductive Reader
  | fetchUserProfiles (uid : UID) (withSearchString : String)
  | fetchFriendsList (uid : UID)
  | fetchUserModels (withUIDs : List UID)
  | fetchMessages (myUID receiverUID : UID)
  | fetchMessagesForChatView (myUID : UID)
  | getStoryWithUID (uid : UID) (today : Date)
  | getStoriesWithUID (uid : List UID) (today : Date)
  | changeName (uid : UID) (name : String)
  | updateProfileURL (uid : UID) (imageURL : String)
  deriving DecidableEq, Repr

/-- Those who are handed what is read: they do not trap themselves. -/
abbrev Handler (α : Type) := α → Option Error → { ending : Ending // ending ≠ .trapped }

/-- The program goes on as it does on the documents that decode, and ends well. -/
def Unharmed {C : Type} {A : C → Type} {ρ : Type} (decodable : (c : C) → A c → A c)
    (ok : ρ → Prop) (answers : ℕ → (c : C) → A c) (p : Prog C A ρ) : Prop :=
  p.run answers = p.run (fun n c => decodable c (answers n c)) ∧ ok (p.run answers).2

namespace Reader

/-- What the queries of a reader may return: anything. -/
def Answers : Reader → Type
  | fetchUserProfiles _ _ => ℕ → (c : SearchCall) → SearchAnswer c
  | changeName _ _ | updateProfileURL _ _ => ℕ → (c : UsersCall) → Answer c
  | fetchFriendsList _ | fetchUserModels _ | fetchMessages _ _ | fetchMessagesForChatView _
  | getStoryWithUID _ _ | getStoriesWithUID _ _ => ℕ → (c : ReadCall) → ReadAnswer c

/-- The documents that do not decode make no difference, whoever is handed the
    others, and the reader does not trap. -/
def Robust (lowercased : String → String) (contains : String → String → Bool) :
    (r : Reader) → r.Answers → Prop
  | fetchUserProfiles uid withSearchString, answers =>
    ∀ h : Handler (Option (List Profile)),
      Unharmed SearchCall.decodable (· ≠ Ending.trapped) answers
        (DatabaseService.fetchUserProfiles lowercased contains uid withSearchString
          fun profiles error => .done (h profiles error))
  | fetchFriendsList uid, answers =>
    ∀ h : Handler (Option FriendsList), Unharmed ReadCall.decodable (· ≠ .trapped) answers
      (DatabaseService.fetchFriendsList uid fun friendsList error => .done (h friendsList error))
  | fetchUserModels withUIDs, answers =>
    ∀ h : Handler (Option (List Profile)), Unharmed ReadCall.decodable (· ≠ .trapped) answers
      (DatabaseService.fetchUserModels withUIDs fun userModels error =>
        .done (h userModels error))
  | fetchMessages myUID receiverUID, answers =>
    ∀ h : Handler (List Copy), Unharmed ReadCall.decodable (· ≠ Ending.trapped) answers
      (DatabaseService.fetchMessages myUID receiverUID fun messages error =>
        .done (h messages error))
  | fetchMessagesForChatView myUID, answers =>
    ∀ h : Handler (List Copy), Unharmed ReadCall.decodable (· ≠ .trapped) answers
      (DatabaseService.fetchMessagesForChatView myUID fun messages error =>
        .done (h messages error))
  | getStoryWithUID uid today, answers =>
    Unharmed ReadCall.decodable (· ≠ .friends .trapped) answers (Player.getStoryWithUID uid today)
  | getStoriesWithUID uid today, answers =>
    ∀ h : Handler (Option (List (Doc DocID Story))),
      Unharmed ReadCall.decodable (· ≠ .trapped) answers
        (DatabaseService.getStoriesWithUID uid today fun stories error =>
          .done (h stories error))
  | changeName uid name, answers =>
    Unharmed usersDecodable (· ≠ .trapped) answers (YoYo.DatabaseService.changeName uid name)
  | updateProfileURL uid imageURL, answers =>
    Unharmed usersDecodable (· ≠ .trapped) answers
      (YoYo.DatabaseService.updateProfileURL uid imageURL)

/-- The documents of an answer decode, unless the query has failed. -/
def AllDecode (answer : Except Error (List (Doc DocID MessageDoc))) : Prop :=
  ∀ snapshot, answer = .ok snapshot → ∀ d ∈ snapshot, (Message.decode d.data).isSome

/-- There is a first document, and it decodes, unless the query has failed. -/
def FirstDecodes (answer : Option (List (Doc DocID UserDoc))) : Prop :=
  ∀ documents, answer = some documents →
    ∃ d, documents.head? = some d ∧ (UserModel.decode d.data).isSome

/-- What a reader withstands: anything, unless it reads the messages for the list
    of conversations, or a profile to be updated. -/
def Withstands : (r : Reader) → r.Answers → Prop
  | fetchMessagesForChatView myUID, answers =>
    AllDecode (answers 0 (.messagesFrom myUID)) ∧
      ((∃ snapshot, answers 0 (.messagesFrom myUID) = .ok snapshot) →
        AllDecode (answers 1 (.messagesTo myUID)))
  | changeName uid _, answers | updateProfileURL uid _, answers =>
    FirstDecodes (answers 0 (.getDocuments uid))
  | fetchUserProfiles _ _, _ | fetchFriendsList _, _ | fetchUserModels _, _
  | fetchMessages _ _, _ | getStoryWithUID _ _, _ | getStoriesWithUID _ _, _ => True

end Reader

/-! ## Readers that leave out what does not decode -/

section Skip

variable {C : Type} {A : C → Type} {ρ : Type} {e : (c : C) → A c → A c} {ok : ρ → Prop}
  {answers : ℕ → (c : C) → A c} {p : Prog C A ρ}

/-- A reader that ignores what does not decode is unharmed by it. -/
theorem unharmed_of_ignores (hignores : p.Ignores e) (hends : p.Ends ok) :
    Unharmed e ok answers p := ⟨hignores.run_eq.symm, hends.run⟩

end Skip

theorem ignores_fetchUserProfiles {ρ : Type} (uid : UID) (withSearchString : String)
    (handed : Option (List Profile) → Option Error → ρ) :
    (fetchUserProfiles lowercased contains uid withSearchString fun profiles error =>
      .done (handed profiles error)).Ignores SearchCall.decodable := by
  rw [fetchUserProfiles, Prog.ignores_call]
  rintro (error | snapshot)
  · exact ⟨rfl, trivial⟩
  · refine ⟨?_, trivial⟩
    simp only [SearchCall.decodable, Except.map, decodeAll_decodable]

theorem ignores_fetchFriendsList (uid : UID) (handed : Option FriendsList → Option Error → Ending) :
    (fetchFriendsList uid fun friendsList error =>
      .done (handed friendsList error)).Ignores ReadCall.decodable := by
  rw [fetchFriendsList_eq, Prog.ignores_call]
  rintro (error | snapshot)
  · exact ⟨rfl, trivial⟩
  · refine ⟨?_, trivial⟩
    simp only [ReadCall.decodable, Except.map, filterMap_decodable]

theorem ignores_fetchUserModels (withUIDs : List UID)
    (handed : Option (List Profile) → Option Error → Ending) :
    (fetchUserModels withUIDs fun userModels error =>
      .done (handed userModels error)).Ignores ReadCall.decodable := by
  rw [fetchUserModels]
  split_ifs
  · rw [Prog.ignores_call]
    rintro (error | snapshot)
    · exact ⟨rfl, trivial⟩
    · refine ⟨?_, trivial⟩
      simp only [ReadCall.decodable, Except.map, decodeAll_decodable]
  · exact Prog.ignores_done _

theorem ignores_getStoryWithUID (uid : UID) (today : Date) :
    (getStoryWithUID uid today).Ignores ReadCall.decodable := by
  rw [getStoryWithUID, Prog.ignores_call]
  rintro (error | snapshot)
  · exact ⟨rfl, trivial⟩
  · refine ⟨?_, trivial⟩
    simp only [ReadCall.decodable, Except.map, decodeAll_decodable]

theorem ignores_getStoriesWithUID (uid : List UID) (today : Date)
    (handed : Option (List (Doc DocID Story)) → Option Error → Ending) :
    (getStoriesWithUID uid today fun stories error =>
      .done (handed stories error)).Ignores ReadCall.decodable := by
  rw [getStoriesWithUID, Prog.ignores_call]
  rintro (error | snapshot)
  · exact ⟨rfl, trivial⟩
  · refine ⟨?_, trivial⟩
    simp only [ReadCall.decodable, Except.map, decodeAll_decodable]

/-- The messages for a user are among those that decode. -/
@[simp] theorem receivedBy_decodable (uid : UID) (snapshot : List (Doc DocID MessageDoc)) :
    receivedBy uid (decodable (fun d => Message.decode d.data) snapshot) =
      receivedBy uid snapshot := by
  rw [receivedBy, receivedBy, decodeAll_decodable]

theorem ignores_fetchMessages {ρ : Type} (myUID receiverUID : UID)
    (handed : List Copy → Option Error → ρ) :
    (fetchMessages myUID receiverUID fun messages error =>
      .done (handed messages error)).Ignores ReadCall.decodable := by
  rw [fetchMessages, Prog.ignores_call]
  rintro (error | sent)
  · exact ⟨rfl, trivial⟩
  · -- The second query is made with what is left of the answer to the first one.
    refine ⟨?_, ?_⟩
    · simp only [ReadCall.decodable, Except.map, receivedBy_decodable]
    · rw [Prog.ignores_call]
      rintro (error | received)
      · exact ⟨rfl, trivial⟩
      · refine ⟨?_, trivial⟩
        simp only [ReadCall.decodable, Except.map, receivedBy_decodable]

/-! ## Messages read all or none -/

theorem decodeMessages_of_decodable {snapshot : List (Doc DocID MessageDoc)} :
    decodeMessages (decodable (fun d => Message.decode d.data) snapshot) =
      some (decodeAll Message.decode snapshot) := by
  refine decodeMessages_eq_some_iff.2 ⟨fun d hd => (List.mem_filter.1 hd).2, ?_⟩
  rw [decodeAll_decodable]

theorem decodeMessages_eq_none {snapshot : List (Doc DocID MessageDoc)}
    (h : ¬ ∀ d ∈ snapshot, (Message.decode d.data).isSome) : decodeMessages snapshot = none := by
  refine Option.eq_none_iff_forall_ne_some.2 fun messages hmessages => h ?_
  exact (decodeMessages_eq_some_iff.1 hmessages).1

variable {answers : ℕ → (c : ReadCall) → ReadAnswer c}

/-- What the reader of the list of conversations comes to. -/
theorem run_fetchMessagesForChatView (myUID : UID) (handed : List Copy → Option Error → Ending) :
    (fetchMessagesForChatView myUID fun messages error => .done (handed messages error)).run
        answers =
      match answers 0 (.messagesFrom myUID) with
      | .error error => ([.messagesFrom myUID], handed [] (some error))
      | .ok sent =>
        match decodeMessages sent with
        | none => ([.messagesFrom myUID], handed [] (some .decoding))
        | some sendMessages =>
          ([.messagesFrom myUID, .messagesTo myUID],
            match answers 1 (.messagesTo myUID) with
            | .error error => handed [] (some error)
            | .ok received =>
              match decodeMessages received with
              | none => handed [] (some .decoding)
              | some receiveMessages => handed (sendMessages ++ receiveMessages) none) := by
  rw [fetchMessagesForChatView, Prog.run_call]
  cases answers 0 (.messagesFrom myUID) with
  | error error => rfl
  | ok sent =>
    dsimp only
    cases decodeMessages sent with
    | none => rfl
    | some sendMessages =>
      dsimp only
      rw [Prog.run_call]
      cases answers 1 (.messagesTo myUID) with
      | error error => rfl
      | ok received =>
        dsimp only
        cases decodeMessages received <;> rfl

theorem ends_fetchMessagesForChatView (myUID : UID) (h : Handler (List Copy)) :
    (fetchMessagesForChatView myUID fun messages error => .done (h messages error)).Ends
      (· ≠ .trapped) := by
  rw [fetchMessagesForChatView, Prog.ends_call]
  rintro (error | sent)
  · exact (h _ _).2
  · dsimp only
    cases decodeMessages sent with
    | none => exact (h _ _).2
    | some sendMessages =>
      rintro (error | received)
      · exact (h _ _).2
      · dsimp only
        cases decodeMessages received <;> exact (h _ _).2

/-- A handler that is silent about documents that do not decode, and nothing else. -/
def silentIfDecoding : Handler (List Copy) := fun _ error =>
  if error = some .decoding then ⟨.silent, Ending.noConfusion⟩
  else ⟨.delivered .registerForStories, Ending.noConfusion⟩

namespace Reader

@[simp] theorem allDecode_error (error : Error) : AllDecode (.error error) := by
  simp [AllDecode]

@[simp] theorem allDecode_ok {snapshot : List (Doc DocID MessageDoc)} :
    AllDecode (.ok snapshot) ↔ ∀ d ∈ snapshot, (Message.decode d.data).isSome := by
  simp [AllDecode]

/-- The list of conversations goes on as it does on the messages that decode exactly
    if all that it reads do. -/
theorem robust_fetchMessagesForChatView_iff (myUID : UID) :
    Robust lowercased contains (fetchMessagesForChatView myUID) answers ↔
      Withstands (fetchMessagesForChatView myUID) answers := by
  have hunharmed : Robust lowercased contains (fetchMessagesForChatView myUID) answers ↔
      ∀ h : Handler (List Copy),
        (DatabaseService.fetchMessagesForChatView myUID fun messages error =>
          .done (h messages error)).run answers =
        (DatabaseService.fetchMessagesForChatView myUID fun messages error =>
          .done (h messages error)).run fun n c => c.decodable (answers n c) :=
    forall_congr' fun h => and_iff_left (ends_fetchMessagesForChatView myUID h).run
  rw [hunharmed]
  simp only [run_fetchMessagesForChatView, Withstands, ReadCall.decodable]
  cases answers 0 (.messagesFrom myUID) with
  | error error => simp [Except.map]
  | ok sent =>
    simp only [Except.map, decodeMessages_of_decodable, allDecode_ok, Except.ok.injEq, exists_eq',
      forall_const]
    by_cases hsent : ∀ d ∈ sent, (Message.decode d.data).isSome
    · rw [decodeMessages_eq_some_iff.2 ⟨hsent, rfl⟩]
      cases answers 1 (.messagesTo myUID) with
      | error error => simpa using hsent
      | ok received =>
        simp only [decodeMessages_of_decodable, allDecode_ok, iff_true_intro hsent, true_and]
        constructor
        · intro h
          by_contra hreceived
          have hne := h silentIfDecoding
          rw [decodeMessages_eq_none hreceived] at hne
          simp [silentIfDecoding] at hne
        · intro hreceived h
          rw [decodeMessages_eq_some_iff.2 ⟨hreceived, rfl⟩]
    · -- The second query is not made.
      rw [decodeMessages_eq_none hsent]
      refine iff_of_false (fun h => ?_) fun h => hsent h.1
      have hcalls := congrArg Prod.fst (h silentIfDecoding)
      simp at hcalls

/-! ## Profiles that are updated -/

section Update

variable {answers : ℕ → (c : UsersCall) → Answer c} (set : UserModel → UserModel) (uid : UID)

/-- An update goes on as it does on the profile that decodes, in any case. -/
theorem ignores_updateUserModel :
    (YoYo.DatabaseService.updateUserModel set uid).Ignores usersDecodable := by
  rw [YoYo.DatabaseService.updateUserModel, Prog.ignores_call]
  rintro (_ | documents)
  · exact ⟨rfl, trivial⟩
  · refine ⟨?_, ?_⟩
    · have htake : (decodable (fun d => UserModel.decode d.data) (documents.take 1)).take 1 =
          decodable (fun d => UserModel.decode d.data) (documents.take 1) :=
        List.take_of_length_le ((List.length_filter_le _ _).trans (List.length_take_le _ _))
      simp only [usersDecodable, Option.map, htake, decodeAll_decodable]
    · dsimp only
      cases (decodeAll UserModel.decode (documents.take 1)).head? with
      | none => trivial
      | some myProfile => exact fun success => ⟨rfl, trivial⟩

/-- It traps unless there is a first document that decodes. -/
theorem trapped_updateUserModel_iff :
    ((YoYo.DatabaseService.updateUserModel set uid).run answers).2 ≠ .trapped ↔
      FirstDecodes (answers 0 (.getDocuments uid)) := by
  rw [YoYo.DatabaseService.updateUserModel, Prog.run_call]
  cases answers 0 (.getDocuments uid) with
  | none => simp [FirstDecodes]
  | some documents =>
    cases documents with
    | nil => simp [FirstDecodes, decodeAll]
    | cons d documents =>
      cases hd : UserModel.decode d.data with
      | none => simp [FirstDecodes, decodeAll, hd]
      | some user => simp [FirstDecodes, decodeAll, hd, Prog.run_call]

theorem unharmed_updateUserModel_iff :
    Unharmed usersDecodable (· ≠ .trapped) answers
        (YoYo.DatabaseService.updateUserModel set uid) ↔
      FirstDecodes (answers 0 (.getDocuments uid)) := by
  rw [Unharmed, trapped_updateUserModel_iff]
  exact and_iff_right (ignores_updateUserModel set uid).run_eq.symm

end Update

/-! ## All readers -/

/-- Whatever documents a reader is returned, those that do not decode make no
    difference to it, and it does not trap, exactly if, where it reads the messages
    for the list of conversations, all of them decode, and, where it updates a
    profile, there is one that decodes. -/
theorem robust_iff (lowercased : String → String) (contains : String → String → Bool)
    (r : Reader) (answers : r.Answers) :
    r.Robust lowercased contains answers ↔ r.Withstands answers := by
  cases r with
  | fetchUserProfiles uid withSearchString =>
    refine iff_true_intro fun h => unharmed_of_ignores (ignores_fetchUserProfiles _ _ _) ?_
    rintro (error | snapshot) <;> exact (h _ _).2
  | fetchFriendsList uid =>
    refine iff_true_intro fun h => unharmed_of_ignores (ignores_fetchFriendsList _ _) ?_
    rw [Reads.fetchFriendsList_eq]
    rintro (error | snapshot) <;> exact (h _ _).2
  | fetchUserModels withUIDs =>
    refine iff_true_intro fun h => unharmed_of_ignores (ignores_fetchUserModels _ _) ?_
    rw [DatabaseService.fetchUserModels]
    split_ifs
    · rintro (error | snapshot) <;> exact (h _ _).2
    · exact Ending.noConfusion
  | fetchMessages myUID receiverUID =>
    refine iff_true_intro fun h => unharmed_of_ignores (ignores_fetchMessages _ _ _) ?_
    rintro (error | sent)
    · exact (h _ _).2
    · rintro (error | received) <;> exact (h _ _).2
  | fetchMessagesForChatView myUID => exact robust_fetchMessagesForChatView_iff myUID
  | getStoryWithUID uid today =>
    have hends : (Player.getStoryWithUID uid today).Ends (· ≠ .friends .trapped) := by
      rintro (error | snapshot) <;> exact Fetched.noConfusion
    have hunharmed : Unharmed ReadCall.decodable (· ≠ .friends .trapped) answers
        (Player.getStoryWithUID uid today) :=
      unharmed_of_ignores (ignores_getStoryWithUID uid today) hends
    exact iff_true_intro hunharmed
  | getStoriesWithUID uid today =>
    refine iff_true_intro fun h => unharmed_of_ignores (ignores_getStoriesWithUID _ _ _) ?_
    rintro (error | snapshot) <;> exact (h _ _).2
  | changeName uid name => exact unharmed_updateUserModel_iff _ uid
  | updateProfileURL uid imageURL => exact unharmed_updateUserModel_iff _ uid

/-- A message Ann has written to Bob, twice: once without its date. -/
def annToBob : List (Doc DocID MessageDoc) :=
  let message : Message := ⟨"ann", "bob", 5, .plain, .send, some "hi", none, none⟩
  [⟨1, message.encode⟩, ⟨2, { message.encode with date := .missing }⟩]

/-- What the messages of Ann are read from. -/
def annAnswers : (fetchMessagesForChatView "ann").Answers
  | _, .messagesFrom _ => .ok annToBob
  | _, .messagesTo _ => .ok []
  | _, .friendsOf _ | _, .usersIn _ | _, .storiesIn _ => .ok []
  | _, .listenToStoriesIn _ => ()

/-- Instead of the message that decodes, an error is handed on. -/
theorem not_robust_annToBob :
    ((DatabaseService.fetchMessagesForChatView "ann" fun messages error =>
      .done (silentIfDecoding messages error)).run annAnswers).2 = .silent ∧
      ¬ (fetchMessagesForChatView "ann").Robust String.toLower (fun s text => s.contains text)
        annAnswers := by
  have hrun : ((DatabaseService.fetchMessagesForChatView "ann" fun messages error =>
      .done (silentIfDecoding messages error)).run annAnswers).2 = .silent := by rfl
  refine ⟨hrun, fun h => ?_⟩
  have hne := (congrArg Prod.snd (h silentIfDecoding).1).symm.trans hrun
  exact absurd hne (by decide)

end Reader

end YoYo.Reads
