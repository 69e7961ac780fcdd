import Mathlib.Data.Finset.Card
import YoYo.Friends.Screen
import YoYo.Reads.Service

/-!
# The arrays of queries

A query for the documents with a field among given values takes from one to ten
of these, and throws otherwise, so that the app terminates. The arrays the
requests pass are as long as what is stored: of all their queries, only those
for profiles are checked, and only for being given users. So the queries of a
request are accepted exactly as long as it reads ten of them at most
(`accepted_iff`).

What the app runs is thus the program of a request with its calls checked
(`Request.checked`): it ends as the request does if it is within these numbers,
and terminates the app otherwise (`outcome_of_within`,
`outcome_of_not_within`).
-/

namespace YoYo.Reads

open DocStore Reads.DatabaseService

/-- What the store accepts as the values of a field. -/
def ValidDisjunctiveFilterElements (values : List UID) : Prop :=
  values ≠ [] ∧ values.length ≤ 10

instance (values : List UID) : Decidable (ValidDisjunctiveFilterElements values) :=
  inferInstanceAs (Decidable (_ ∧ _))

/-- The store accepts the call. -/
def ReadCall.Valid : ReadCall → Prop
  | usersIn uids | storiesIn uids | listenToStoriesIn uids => ValidDisjunctiveFilterElements uids
  | friendsOf _ | messagesFrom _ | messagesTo _ => True

instance : ∀ c : ReadCall, Decidable c.Valid
  | .usersIn uids | .storiesIn uids | .listenToStoriesIn uids =>
    inferInstanceAs (Decidable (ValidDisjunctiveFilterElements uids))
  | .friendsOf _ | .messagesFrom _ | .messagesTo _ => .isTrue trivial

namespace Request

/-- The store accepts every call of the request. -/
def Accepted (env : ℕ → Option String) (s : Collections) (r : Request) : Prop :=
  ∀ call ∈ r.calls env s, call.Valid

instance (env : ℕ → Option String) (s : Collections) (r : Request) : Decidable (r.Accepted env s) :=
  inferInstanceAs (Decidable (∀ call ∈ r.calls env s, call.Valid))

/-- The request is about ten users at most, if it reads about whom it is: the
    friends shown, those accepted, or all of them, with the user himself where
    he listens to their stories; those he has written to or heard from; and
    those who have viewed a story. -/
def Within (env : ℕ → Option String) (s : Collections) : Request → Prop
  | fetchFriendsList uid => env 0 = none → ∀ l, listOf s.friends uid = some l →
    (shownFriends l.friends).length ≤ 10
  | fetchMyFriendsStories uid _ => env 0 = none → ∀ l, listOf s.friends uid = some l →
    (StoryService.acceptedUIDs l).length ≤ 10
  | registerForStories uid => env 0 = none → ∀ l, listOf s.friends uid = some l →
    l.friends.length + 1 ≤ 10
  | getMyFriends uid => env 0 = none → ∀ l, listOf s.friends uid = some l →
    l.friends.length ≤ 10
  | fetchChatModels uid => env 0 = none → env 1 = none → ∀ sent received,
    decodeMessages (s.messages.query (sentBy uid)) = some sent →
    decodeMessages (s.messages.query (sentTo uid)) = some received →
    ((sent ++ received).map (MessagingService.otherUser uid)).toFinset.card ≤ 10
  | fetchUserModels viewedByUIDS => ∀ uids, viewedByUIDS = some uids → uids.length ≤ 10

end Request

/-! ## Calls -/

section

variable {env : ℕ → Option String} {s : Collections} {uid : UID} {uids : List UID} {today : Date}

/-- Where the list of a user is read first, and nothing is called without it. -/
theorem valid_calls_fetchFriendsList {k : Option FriendsList → Option Error → ReadProg}
    (hk : ∀ error env, (k none error).calls answer env s = []) :
    (∀ call ∈ (DatabaseService.fetchFriendsList uid k).calls answer env s, call.Valid) ↔
      (env 0 = none → ∀ l, listOf s.friends uid = some l →
        ∀ call ∈ (k (some l) none).calls answer (fun n => env (n + 1)) s, call.Valid) := by
  rw [fetchFriendsList_eq, Prog.calls_call, List.forall_mem_cons]
  refine (and_iff_right trivial).trans ?_
  cases h : env 0 with
  | some description => simp [answer, snapshotOf, hk]
  | none =>
    simp only [answer, snapshotOf, forall_const]
    rw [← listOf]
    cases listOf s.friends uid <;> simp [hk]

/-- Where profiles are read, and nothing is called without them. -/
theorem valid_calls_fetchUserModels {k : Option (List Profile) → Option Error → ReadProg}
    (hk : ∀ error env, (k none error).calls answer env s = []) :
    (∀ call ∈ (fetchUserModels uids k).calls answer env s, call.Valid) ↔
      (uids ≠ [] → uids.length ≤ 10 ∧ (env 0 = none →
        ∀ call ∈ (k (some (profilesIn s uids)) none).calls answer (fun n => env (n + 1)) s,
          call.Valid)) := by
  by_cases huids : uids = []
  · simp [huids]
  · rw [fetchUserModels, if_pos (List.length_pos_iff.2 huids), Prog.calls_call,
      List.forall_mem_cons]
    have hvalid : (ReadCall.usersIn uids).Valid ↔ uids.length ≤ 10 := and_iff_right huids
    rw [hvalid, imp_iff_right huids]
    refine and_congr_right fun _ => ?_
    cases h : env 0 with
    | some description => simp [answer, snapshotOf, hk]
    | none =>
      rw [imp_iff_right rfl]
      exact Iff.rfl

/-- Where they are all that is read. -/
theorem valid_calls_fetchUserModels_of_done
    {k : Option (List Profile) → Option Error → ReadProg}
    (hk : ∀ userModels error env, (k userModels error).calls answer env s = []) :
    (∀ call ∈ (fetchUserModels uids k).calls answer env s, call.Valid) ↔ uids.length ≤ 10 := by
  rw [valid_calls_fetchUserModels (hk none)]
  simp only [hk, List.not_mem_nil, false_imp_iff, implies_true, and_true]
  by_cases huids : uids = [] <;> simp [huids]

/-- Where stories are all that is read. -/
theorem valid_calls_getStoriesWithUID
    {k : Option (List (Doc DocID Story)) → Option Error → ReadProg}
    (hk : ∀ stories error env, (k stories error).calls answer env s = []) :
    (∀ call ∈ (getStoriesWithUID uids today k).calls answer env s, call.Valid) ↔
      ValidDisjunctiveFilterElements uids := by
  rw [getStoriesWithUID, Prog.calls_call, List.forall_mem_cons]
  refine and_iff_left ?_
  cases h : env 0 <;> simp [answer, snapshotOf, hk]

/-! ## Requests -/

/-- The request for the list of friends, whose profiles are all that is read of them. -/
theorem accepted_fetchFriendsList :
    (Request.fetchFriendsList uid).Accepted env s ↔
      (Request.fetchFriendsList uid).Within env s := by
  rw [Request.Accepted, Request.calls, Request.prog, FriendService.fetchFriendsList,
    valid_calls_fetchFriendsList]
  · refine imp_congr_right fun _ => forall₂_congr fun l _ => ?_
    by_cases hnil : shownFriends l.friends = []
    · simp [hnil]
    · simp only
      rw [if_pos (by simpa [List.length_pos_iff] using hnil),
        valid_calls_fetchUserModels_of_done, List.length_map]
      intro userModels error env
      cases error <;> cases userModels <;> simp only [Prog.calls_done]
      split <;> rfl
  · intro error env
    cases error <;> rfl

/-- The request for stories, which are asked for of the same users as the profiles. -/
theorem accepted_fetchMyFriendsStories :
    (Request.fetchMyFriendsStories uid today).Accepted env s ↔
      (Request.fetchMyFriendsStories uid today).Within env s := by
  rw [Request.Accepted, Request.calls, Request.prog, StoryService.fetchMyFriendsStories,
    valid_calls_fetchFriendsList]
  · refine imp_congr_right fun _ => forall₂_congr fun l _ => ?_
    simp only
    rw [valid_calls_fetchUserModels]
    · simp only
      rw [valid_calls_getStoriesWithUID]
      · by_cases huids : StoryService.acceptedUIDs l = []
        · simp [huids]
        · rw [imp_iff_right huids]
          exact and_iff_left_of_imp fun hlen _ => ⟨huids, hlen⟩
      · intro stories error env
        cases error <;> cases stories <;> simp only [Prog.calls_done]
        split <;> rfl
    · intro error env
      cases error <;> rfl
  · intro error env
    cases error <;> rfl

/-- The list of conversations, for whose messages both queries are always accepted. -/
theorem accepted_fetchChatModels :
    (Request.fetchChatModels uid).Accepted env s ↔ (Request.fetchChatModels uid).Within env s := by
  rw [Request.Accepted, Request.calls, Request.prog, MessagingService.fetchChatModels,
    DatabaseService.fetchMessagesForChatView, Prog.calls_call, List.forall_mem_cons,
    Request.Within]
  refine (and_iff_right trivial).trans ?_
  cases env 0 with
  | some description => simp [answer, snapshotOf, MessagingService.fetchMessagesForChatView]
  | none =>
    simp only [answer, snapshotOf, forall_const]
    cases decodeMessages (s.messages.query (sentBy uid)) with
    | none => simp [MessagingService.fetchMessagesForChatView]
    | some sent =>
      simp only
      rw [Prog.calls_call, List.forall_mem_cons]
      refine (and_iff_right trivial).trans ?_
      cases env 1 with
      | some description => simp [answer, snapshotOf, MessagingService.fetchMessagesForChatView]
      | none =>
        simp only [answer, snapshotOf, forall_const]
        cases decodeMessages (s.messages.query (sentTo uid)) with
        | none => simp [MessagingService.fetchMessagesForChatView]
        | some received =>
          simp only [MessagingService.fetchMessagesForChatView, Option.some.injEq]
          rw [valid_calls_fetchUserModels_of_done, ← List.card_toFinset]
          · refine ⟨?_, fun h => h sent received rfl rfl⟩
            rintro h sent received rfl rfl
            exact h
          · intro userModels error env
            cases error <;> cases userModels <;> simp only [Prog.calls_done]
            split <;> rfl

end

/-- The store accepts every call of a request exactly if it is about ten users at most. -/
theorem accepted_iff (env : ℕ → Option String) (s : Collections) (r : Request) :
    r.Accepted env s ↔ r.Within env s := by
  rw [Request.Accepted, Request.calls]
  cases r with
  | fetchFriendsList uid => exact accepted_fetchFriendsList
  | fetchMyFriendsStories uid today => exact accepted_fetchMyFriendsStories
  | registerForStories uid =>
    rw [Request.prog, StoryService.registerForStories, valid_calls_fetchFriendsList fun _ _ => rfl]
    refine imp_congr_right fun _ => forall₂_congr fun l _ => ?_
    simp [Prog.calls_call, ReadCall.Valid, ValidDisjunctiveFilterElements]
  | getMyFriends uid =>
    rw [Request.prog, MessagingService.getMyFriends, valid_calls_fetchFriendsList]
    · refine imp_congr_right fun _ => forall₂_congr fun l _ => ?_
      simp only
      rw [valid_calls_fetchUserModels_of_done, List.length_map]
      exact fun _ _ _ => rfl
    · intro error env
      cases error <;> rfl
  | fetchChatModels uid => exact accepted_fetchChatModels
  | fetchUserModels viewedByUIDS =>
    cases viewedByUIDS with
    | none => simp [Request.Within, Request.prog, StoryViewByViewController.fetchUserModels]
    | some uids =>
      simp only [Request.Within, Request.prog, StoryViewByViewController.fetchUserModels,
        Option.some.injEq, forall_eq']
      rw [valid_calls_fetchUserModels_of_done]
      exact fun _ _ _ => rfl

/-! ## Runs -/

namespace Request

/-- The program the app runs for a request: a call that is not accepted throws. -/
def checked (r : Request) : ReadProg := r.prog.checked ReadCall.Valid .trapped

/-- How it ends, given the errors the queries return. -/
def outcome (r : Request) (env : ℕ → Option String) (s : Collections) : Ending :=
  (r.checked.exec answer env s).1

end Request

section

variable {env : ℕ → Option String} {s : Collections} {r : Request}

/-- Within the numbers of users, a request ends as it does with every call accepted. -/
theorem outcome_of_within (h : r.Within env s) : r.outcome env s = r.ending env s := by
  rw [Request.outcome, Request.checked, Prog.exec_checked]
  exact if_pos ((accepted_iff env s r).2 h)

/-- Beyond them, it terminates the app. -/
theorem outcome_of_not_within (h : ¬ r.Within env s) : r.outcome env s = .trapped := by
  rw [Request.outcome, Request.checked, Prog.exec_checked]
  exact if_neg (mt (accepted_iff env s r).1 h)

/-- Two collections make no difference if they make none to the numbers, nor, within
    these, to how it ends. -/
theorem outcome_congr {s' : Collections} (hwithin : r.Within env s ↔ r.Within env s')
    (hending : r.Within env s → r.ending env s = r.ending env s') :
    r.outcome env s = r.outcome env s' := by
  by_cases h : r.Within env s
  · rw [outcome_of_within h, outcome_of_within (hwithin.1 h), hending h]
  · rw [outcome_of_not_within h, outcome_of_not_within (mt hwithin.2 h)]

end

/-! ## Answer by answer -/

section

variable {uid : UID} {uids : List UID} {today : Date}

/-- The list of friends is there after one answer. -/
theorem resume_fetchFriendsList (failure : Option String) (c : Collections)
    (k : Option FriendsList → Option Error → ReadProg) :
    ((DatabaseService.fetchFriendsList uid k).checked ReadCall.Valid .trapped).resume
        (fun call => (answer failure c call).1) =
      match failure with
      | some description =>
        (k none (some (.ofQuery description))).checked ReadCall.Valid .trapped
      | none => (k (listOf c.friends uid) none).checked ReadCall.Valid .trapped := by
  have hvalid : (ReadCall.friendsOf uid).Valid := trivial
  rw [fetchFriendsList_eq, Prog.checked_call_of_valid hvalid, Prog.resume]
  cases failure <;> rfl

/-- So are the profiles of users, if there are any, and no more than are accepted. -/
theorem resume_fetchUserModels (huids : uids ≠ []) (hlen : uids.length ≤ 10)
    (failure : Option String) (c : Collections)
    (k : Option (List Profile) → Option Error → ReadProg) :
    ((DatabaseService.fetchUserModels uids k).checked ReadCall.Valid .trapped).resume
        (fun call => (answer failure c call).1) =
      match failure with
      | some description =>
        (k none (some (.ofQuery description))).checked ReadCall.Valid .trapped
      | none => (k (some (profilesIn c uids)) none).checked ReadCall.Valid .trapped := by
  have hvalid : (ReadCall.usersIn uids).Valid := ⟨huids, hlen⟩
  rw [DatabaseService.fetchUserModels, if_pos (List.length_pos_iff.2 huids),
    Prog.checked_call_of_valid hvalid, Prog.resume]
  cases failure <;> rfl

/-- And their stories. -/
theorem resume_getStoriesWithUID (huids : uids ≠ []) (hlen : uids.length ≤ 10)
    (failure : Option String) (c : Collections)
    (k : Option (List (Doc DocID Story)) → Option Error → ReadProg) :
    ((DatabaseService.getStoriesWithUID uids today k).checked ReadCall.Valid
        .trapped).resume (fun call => (answer failure c call).1) =
      match failure with
      | some description =>
        (k (some []) (some (.ofQuery description))).checked ReadCall.Valid .trapped
      | none => (k (some (storiesIn c uids today)) none).checked ReadCall.Valid .trapped := by
  have hvalid : (ReadCall.storiesIn uids).Valid := ⟨huids, hlen⟩
  rw [DatabaseService.getStoriesWithUID, Prog.checked_call_of_valid hvalid, Prog.resume]
  cases failure <;> rfl

end

/-- Ann sends a request to each of eleven users. -/
def elevenRequests : List FriendOp :=
  ["bob", "cem", "dan", "eve", "fay", "gus", "hal", "ida", "joe", "kim", "leo"].map fun uid =>
    .sendFriendRequest "ann" uid 1 2

/-- Then the query for the profiles of her friends is not accepted. -/
theorem not_accepted_elevenRequests :
    ¬ ∀ r : Request, r.Accepted (fun _ => none)
      ⟨after (nextStore succId) .empty elevenRequests, .empty, .empty, .empty⟩ := by
  intro h
  have haccepted := h (.fetchFriendsList "ann")
  revert haccepted
  decide

end YoYo.Reads
