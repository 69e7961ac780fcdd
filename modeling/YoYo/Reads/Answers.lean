import Mathlib.Data.List.Dedup
import YoYo.Friends.Frame
import YoYo.Reads.Service

/-!
# Requests answered once

Every callback of a request ends in a query, or in a delivery; but some have no
branch for a list that is missing, and the helper fetching profiles calls back
only if it is given users. A request is answered by one result, whichever of
its calls fail, but for these cases, and for those in which it traps
(`answersOnce_iff`).
-/

namespace YoYo

open DocStore DatabaseService FriendService

/-- The number of results an operation reports. -/
def Report.results : Report → ℕ
  | .reported _ => 1
  | .silent | .trapped => 0

/-! ## Operations -/

section

variable {g : AutoId DocID} {s s' : FriendsStore} {uid : UID} {ok : ℕ → Bool} {l : List Friend}
  {f : Option (List Friend) → Except Report (List Friend)} {k : Bool → FriendsProg} {x y : UID}
  {action : FriendAction}

/-- A half whose continuation reports reports once, unless its query succeeds
    and what it reads ends it otherwise. -/
theorem results_half (hk : ∀ success ok s, ((k success).exec (answer g) ok s).1.results = 1) :
    ((FriendOp.half f uid k).exec (answer g) ok s).1.results =
      if ok 0 then
        match f (book s uid) with
        | .error r => r.results
        | .ok _ => 1
      else 1 := by
  rw [FriendOp.half, fetchFriendsList_eq, Prog.exec_call]
  cases ok 0 with
  | false => rfl
  | true =>
    simp only [Call.answer, if_true]
    rw [← listOf, ← book]
    cases f (book s uid) with
    | error r => rfl
    | ok friends =>
      obtain ⟨ok', hexec | ⟨s', -, hexec⟩⟩ :=
        exec_updateFriendsList (g := g) (.rewritten (listOf s uid) uid friends) k
          (fun n => ok (n + 1)) s
      · rw [hexec]
        exact hk _ _ _
      · rw [hexec]
        exact hk _ _ _

/-- A list that is there is written back in two calls, or fails to be in one or two. -/
theorem exec_half_of_some (hl : book s uid = some l) {friends : List Friend}
    (hf : f (some l) = .ok friends) (hok : ok 0) :
    ∃ s', book s' = Function.update (book s) uid (some friends) ∧
      (FriendOp.half f uid k).exec (answer g) ok s =
        if ok 1 then
          if ok 2 then (k true).exec (answer g) (fun n => ok (n + 3)) s'
          else (k false).exec (answer g) (fun n => ok (n + 3)) s
        else (k false).exec (answer g) (fun n => ok (n + 2)) s := by
  obtain ⟨fl, hfl, rfl⟩ := Option.map_eq_some_iff.1 hl
  obtain ⟨huid, d, hd, hid, -⟩ := of_listOf hfl
  have hread := rewritten_readBack s uid friends
  have hwrite : write g s (.rewritten (listOf s uid) uid friends) =
      some (s.setData d.id (FriendsList.rewritten (listOf s uid) uid friends).encode) := by
    rw [write, rewritten_uid, if_neg fun hnil => List.ne_nil_of_mem hd (List.isEmpty_iff.1 hnil),
      rewritten_id, hfl, Option.bind_some, hid, Option.map_some]
  refine ⟨_, by rw [book_write hread hwrite, rewritten_uid, rewritten_friends], ?_⟩
  have hne : ((s.query (ofUser (FriendsList.rewritten (listOf s uid) uid friends).uid)).take
      1).isEmpty = false := by
    rw [rewritten_uid]
    cases hq : s.query (ofUser uid) with
    | nil => exact absurd (hq ▸ hd) List.not_mem_nil
    | cons e docs => rfl
  have hdoc : (FriendsList.rewritten (listOf s uid) uid friends).id = some d.id := by
    rw [rewritten_id, hfl, Option.bind_some, hid]
  rw [FriendOp.half, fetchFriendsList_eq, Prog.exec_call, hok]
  simp only [Call.answer, if_true]
  rw [← listOf, ← book, hl, hf]
  simp only [updateFriendsList, Prog.exec_call]
  cases ok 1 with
  | false => rfl
  | true =>
    simp only [Call.answer, if_true, hne, hdoc, Bool.false_eq_true, if_false, Prog.exec_call]
    cases ok 2 <;> rfl

/-- An action leaves a list of one entry less, if it removes one. -/
theorem length_performAction {l l' : List Friend} {blockedByMe : Bool}
    (hl' : performAction l uid action blockedByMe = some l') :
    l'.length = if action.removes then l.length - 1 else l.length := by
  cases hrem : action.removes with
  | false =>
    rw [performAction_of_not_removes hrem, Option.some.injEq] at hl'
    simp [← hl']
  | true =>
    rw [performAction, if_neg (by cases action <;> simp_all [FriendAction.removes])] at hl'
    simp only at hl'
    split_ifs at hl' with hlt
    cases hl'
    rw [List.length_eraseIdx_of_lt hlt, if_pos rfl]

/-- The second half of an action has a result, unless it succeeds in reading
    that the friend has no list, or the empty one to remove from. -/
theorem results_rest_performActionForFriend (success : Bool) :
    (((FriendOp.performActionForFriend x y action).rest success).exec (answer g) ok s).1.results =
        1 ↔
      (ok 0 → ∃ m, book s y = some m ∧ (action.removes → m ≠ [])) := by
  rw [FriendOp.rest, results_half fun _ _ _ => rfl]
  cases ok 0 with
  | false => simp
  | true =>
    simp only [if_true, forall_const, FriendOp.friendUID]
    cases hm : book s y with
    | none => simp [FriendOp.friendHalf, Report.results]
    | some m =>
      have hnone := performAction_eq_none_iff m x action false
      simp only [FriendOp.friendHalf, Option.some.injEq, exists_eq_left']
      cases hm' : performAction m x action false with
      | none =>
        obtain ⟨hrem, hnil⟩ := hnone.1 hm'
        simp [hrem, hnil, Report.results]
      | some m' =>
        refine iff_of_true rfl fun hrem hnil => ?_
        rw [hnone.2 ⟨hrem, hnil⟩] at hm'
        cases hm'

/-- An action has a result, if it fails to read a list of the user, or it finds
    none; and otherwise if there is something in the list to remove, and in that
    of the friend too, if there is one and it does not fail to be read. -/
theorem results_performActionForFriend :
    ((FriendOp.performActionForFriend x y action).execWith g ok s).1.results = 1 ↔
      (ok 0 → ∀ l, book s x = some l → (action.removes → l ≠ []) ∧
        (ok (if ok 1 then 3 else 2) → ∃ m, book s y = some m ∧
          (action.removes → (if x = y ∧ ok 1 ∧ ok 2 then 1 else 0) < m.length))) := by
  rw [FriendOp.execWith, FriendOp.prog_eq]
  simp only [FriendOp.myUID]
  cases hok : ok 0 with
  | false =>
    -- The list of the user cannot be read.
    rw [FriendOp.half, fetchFriendsList_eq, Prog.exec_call, hok]
    simp [Call.answer, Report.results]
  | true =>
    simp only [forall_const]
    cases hl : book s x with
    | none =>
      -- There is none, which is reported as a failure.
      rw [exec_half_of_error hok (by rw [hl]; rfl)]
      simp [Report.results]
    | some l =>
      simp only [Option.some.injEq, forall_eq']
      cases hmine : performAction l y action (action = .block) with
      | none =>
        -- Removing from the empty list traps.
        obtain ⟨hrem, hnil⟩ := (performAction_eq_none_iff l y action _).1 hmine
        rw [exec_half_of_error hok (by rw [hl, FriendOp.myHalf, hmine])]
        simp [Report.results, hrem, hnil]
      | some l' =>
        have hne : action.removes → l ≠ [] := fun hrem hnil => by
          rw [(performAction_eq_none_iff l y action _).2 ⟨hrem, hnil⟩] at hmine
          cases hmine
        have hhalf : (FriendOp.performActionForFriend x y action).myHalf (some l) = .ok l' := by
          simp only [FriendOp.myHalf, hmine]
        obtain ⟨s', hs', hexec⟩ := exec_half_of_some (g := g)
          (k := (FriendOp.performActionForFriend x y action).rest) hl hhalf hok
        rw [hexec, and_iff_right hne]
        -- The write takes two calls, or one if it fails at the first; the next one reads again.
        cases h₁ : ok 1 with
        | false => simp [results_rest_performActionForFriend, List.length_pos_iff]
        | true =>
          cases h₂ : ok 2 with
          | false => simp [results_rest_performActionForFriend, List.length_pos_iff]
          | true =>
            simp only [if_true, results_rest_performActionForFriend, hs', and_true]
            by_cases hxy : x = y
            · -- The second half is on the list the first one has written.
              subst hxy
              have hlen := length_performAction hmine
              simp only [Function.update_self, hl, Option.some.injEq, exists_eq_left', if_true,
                ← List.length_pos_iff]
              refine forall_congr' fun _ => forall_congr' fun hrem => ?_
              rw [if_pos hrem] at hlen
              omega
            · simp [Function.update_of_ne (Ne.symm hxy), hxy, List.length_pos_iff]

/-- A friend request always has a result. -/
theorem results_sendFriendRequest (sent received : Date) :
    ((FriendOp.sendFriendRequest x y sent received).execWith g ok s).1.results = 1 := by
  rw [FriendOp.execWith, FriendOp.prog_eq, results_half]
  · simp [FriendOp.myHalf]
  · intro success ok s
    rw [FriendOp.rest, results_half fun _ _ _ => rfl]
    simp [FriendOp.friendHalf]

end

end YoYo

namespace YoYo.Reads

open DocStore

/-- The requests of the services. -/
inductive ServiceRequest
  | performActionForFriend (myUID friendUID : UID) (action : FriendAction)
  | sendFriendRequest (myUID friendUID : UID) (sent received : Date)
  | fetchFriendsList (uid : UID)
  | fetchMyFriendsStories (uid : UID) (today : Date)
  | getMyFriends (uid : UID)
  | fetchChatModels (uid : UID)
  deriving DecidableEq, Repr

/-- The number of results a request delivers. -/
def Ending.results : Ending → ℕ
  | .delivered _ => 1
  | .silent | .trapped => 0

namespace ServiceRequest

/-- The number of results, given the errors the calls return. -/
def results (g : AutoId DocID) (env : ℕ → Option String) (s : Collections) : ServiceRequest → ℕ
  | performActionForFriend x y action =>
    ((FriendOp.performActionForFriend x y action).execWith g (fun n => (env n).isNone)
      s.friends).1.results
  | sendFriendRequest x y sent received =>
    ((FriendOp.sendFriendRequest x y sent received).execWith g (fun n => (env n).isNone)
      s.friends).1.results
  | fetchFriendsList uid => ((Request.fetchFriendsList uid).ending env s).results
  | fetchMyFriendsStories uid today =>
    ((Request.fetchMyFriendsStories uid today).ending env s).results
  | getMyFriends uid => ((Request.getMyFriends uid).ending env s).results
  | fetchChatModels uid => ((Request.fetchChatModels uid).ending env s).results

/-- The request has exactly one result. That for stories has the empty list, if
    no query fails and the user has no friend whose request is accepted. -/
def AnsweredOnce (g : AutoId DocID) (env : ℕ → Option String) (s : Collections)
    (r : ServiceRequest) : Prop :=
  r.results g env s = 1 ∧
    match r with
    | fetchMyFriendsStories uid today => (∀ n, env n = none) →
      (∀ l, listOf s.friends uid = some l → StoryService.acceptedUIDs l = []) →
        (Request.fetchMyFriendsStories uid today).ending env s =
          .delivered (.fetchFriendsStory [] none)
    | _ => True

/-- What a request needs to find, if it reads what it needs to know it:

* an action, something to remove in the list of the user, if it removes an entry
  and there is such a list, and then a list of the friend, with something to
  remove in it, also after the first half if the friend is the user himself;
* the request for the list of friends, a profile of each of those it shows;
* that for their stories, a list with an accepted friend, and a profile of each;
* that for the users one may write to, a list with somebody in it;
* that for the conversations, a message, unless a message does not decode. -/
def Answerable (env : ℕ → Option String) (s : Collections) : ServiceRequest → Prop
  | performActionForFriend x y action => env 0 = none → ∀ l, book s.friends x = some l →
    (action.removes → l ≠ []) ∧
      (env (if env 1 = none then 3 else 2) = none → ∃ m, book s.friends y = some m ∧
        (action.removes → (if x = y ∧ env 1 = none ∧ env 2 = none then 1 else 0) < m.length))
  | sendFriendRequest _ _ _ _ => True
  | fetchFriendsList uid => env 0 = none → env 1 = none → ∀ l, listOf s.friends uid = some l →
    ∀ friend ∈ shownFriends l.friends, HasProfile s friend.uid
  | fetchMyFriendsStories uid _ => env 0 = none → ∃ l, listOf s.friends uid = some l ∧
    StoryService.acceptedUIDs l ≠ [] ∧ (env 1 = none → env 2 = none →
      ∀ uid' ∈ StoryService.acceptedUIDs l, HasProfile s uid')
  | getMyFriends uid => env 0 = none → ∃ l, listOf s.friends uid = some l ∧ l.friends ≠ []
  | fetchChatModels uid => env 0 = none → env 1 = none →
    DatabaseService.decodeMessages (s.messages.query (sentBy uid)) = some [] →
    DatabaseService.decodeMessages (s.messages.query (sentTo uid)) ≠ some []

end ServiceRequest

open ServiceRequest

variable {g : AutoId DocID} {env : ℕ → Option String} {s : Collections} {uid : UID} {today : Date}

/-- The request for the list of friends, which traps on a friend without a profile. -/
theorem results_fetchFriendsList :
    ((Request.fetchFriendsList uid).ending env s).results = 1 ↔
      (fetchFriendsList uid).Answerable env s := by
  rw [ending_fetchFriendsList, Answerable]
  cases env 0 with
  | some description => simp [Ending.results]
  | none =>
    cases listOf s.friends uid with
    | none => simp [Ending.results]
    | some l =>
      by_cases hnil : shownFriends l.friends = []
      · simp [hnil, Ending.results]
      · cases env 1 with
        | some description => simp [hnil, Ending.results]
        | none =>
          have hnone := mapM_profileOf_eq_none_iff (s := s) (k := MyFriend.mk)
            (fun friend => List.mem_map_of_mem (f := Friend.uid) (l := shownFriends l.friends))
          simp only [if_neg hnil, forall_const, Option.some.injEq, forall_eq']
          split
          · rename_i htrapped
            simpa [Ending.results] using hnone.1 htrapped
          · rename_i myFriends hsome
            refine iff_of_true rfl ?_
            simpa [hsome] using hnone

/-- That for their stories, which is silent without a list, or an accepted friend. -/
theorem results_fetchMyFriendsStories :
    ((Request.fetchMyFriendsStories uid today).ending env s).results = 1 ↔
      (fetchMyFriendsStories uid today).Answerable env s := by
  rw [ending_fetchMyFriendsStories, Answerable]
  cases env 0 with
  | some description => simp [Ending.results]
  | none =>
    cases listOf s.friends uid with
    | none => simp [Ending.results]
    | some l =>
      by_cases hnil : StoryService.acceptedUIDs l = []
      · simp [hnil, Ending.results]
      · cases env 1 with
        | some description => simp [hnil, Ending.results]
        | none =>
          cases env 2 with
          | some description => simp [hnil, Ending.results]
          | none =>
            simp only [if_neg hnil, forall_const, Option.some.injEq, exists_eq_left',
              and_iff_right (show StoryService.acceptedUIDs l ≠ [] from hnil)]
            have hnone := @friendsStory_eq_none_iff s (StoryService.acceptedUIDs l)
              (storiesIn s (StoryService.acceptedUIDs l) today)
            split
            · rename_i htrapped
              simpa [Ending.results] using hnone.1 htrapped
            · rename_i friendsStory hsome
              refine iff_of_true rfl ?_
              simpa [hsome] using hnone

/-- That for the users one may write to, silent without any. -/
theorem results_getMyFriends :
    ((Request.getMyFriends uid).ending env s).results = 1 ↔
      (getMyFriends uid).Answerable env s := by
  rw [ending_getMyFriends, Answerable]
  cases env 0 with
  | some description => simp [Ending.results]
  | none =>
    simp only [forall_const]
    cases listOf s.friends uid with
    | none => simp [Ending.results]
    | some l =>
      by_cases huids : l.friends = []
      · simp [huids, Ending.results]
      · cases env 1 <;> simp [huids, Ending.results]

/-- The conversation with the other user of a message has a latest one. -/
theorem chatModel_ne_none {messages : List Copy} {p : Profile}
    (hp : p.data.userID ∈ messages.map (MessagingService.otherUser uid)) :
    MessagingService.chatModel messages p ≠ none := by
  intro hnone
  obtain ⟨m, hm, hother⟩ := List.mem_map.1 hp
  have hof : m.data.senderID = p.data.userID ∨ m.data.receiverID = p.data.userID := by
    rw [← hother, MessagingService.otherUser]
    split
    · exact .inl rfl
    · exact .inr rfl
  rw [MessagingService.chatModel, Option.map_eq_none_iff, List.max?_eq_none_iff,
    List.map_eq_nil_iff, List.filter_eq_nil_iff] at hnone
  exact hnone m hm (by simpa using hof)

/-- The rows of the users of messages, each of which is a message of his. -/
theorem mapM_chatModel_ne_none {messages : List Copy} :
    (profilesIn s (messages.map (MessagingService.otherUser uid)).dedup).mapM
      (MessagingService.chatModel messages) ≠ none := by
  rw [Ne, mapM_eq_none_iff]
  rintro ⟨p, hp, hnone⟩
  exact chatModel_ne_none (List.mem_dedup.1 (mem_profilesIn.1 hp).2) hnone

/-- That for the conversations, silent without any: it never traps, as each profile
    it finds is of a user with a message. -/
theorem results_fetchChatModels :
    ((Request.fetchChatModels uid).ending env s).results = 1 ↔
      (fetchChatModels uid).Answerable env s := by
  rw [ending_fetchChatModels, Answerable]
  cases env 0 with
  | some description => simp [Ending.results]
  | none =>
    cases DatabaseService.decodeMessages (s.messages.query (sentBy uid)) with
    | none => simp [Ending.results]
    | some sent =>
      cases env 1 with
      | some description => simp [Ending.results]
      | none =>
        cases DatabaseService.decodeMessages (s.messages.query (sentTo uid)) with
        | none => simp [Ending.results]
        | some received =>
          simp only [forall_const, Option.some.injEq, ne_eq, ← not_and, ← List.append_eq_nil_iff]
          by_cases hnil : sent ++ received = []
          · simp only [hnil, List.map_nil, List.dedup_nil, if_true]
            simp [Ending.results]
          · have huids : ((sent ++ received).map (MessagingService.otherUser uid)).dedup ≠ [] := by
              simpa only [ne_eq, List.dedup_eq_nil, List.map_eq_nil_iff] using hnil
            simp only [if_neg huids]
            refine iff_of_true ?_ hnil
            cases env 2 with
            | some description => rfl
            | none =>
              simp only
              split
              · rename_i htrapped
                exact absurd htrapped mapM_chatModel_ne_none
              · rfl

/-- A request is answered by exactly one result, and the request for stories by
    none of them if there are no friends, if and only if it finds what it needs. -/
theorem answersOnce_iff (g : AutoId DocID) (env : ℕ → Option String) (s : Collections)
    (r : ServiceRequest) : r.AnsweredOnce g env s ↔ r.Answerable env s := by
  cases r with
  | performActionForFriend x y action =>
    refine (and_iff_left trivial).trans ?_
    rw [results, results_performActionForFriend, Answerable]
    simp only [Option.isNone_iff_eq_none]
  | sendFriendRequest x y sent received =>
    exact iff_of_true ⟨results_sendFriendRequest sent received, trivial⟩ trivial
  | fetchFriendsList uid => exact (and_iff_left trivial).trans results_fetchFriendsList
  | fetchMyFriendsStories uid today =>
    refine (and_congr_left' results_fetchMyFriendsStories).trans ?_
    refine and_iff_left_of_imp fun h henv hnone => ?_
    obtain ⟨l, hl, hne, -⟩ := h (henv 0)
    exact absurd (hnone l hl) hne
  | getMyFriends uid => exact (and_iff_left trivial).trans results_getMyFriends
  | fetchChatModels uid => exact (and_iff_left trivial).trans results_fetchChatModels

/-- Ann and Bob become friends, and she unfriends him. -/
def lastFriendRemoved : List FriendOp :=
  [.sendFriendRequest "ann" "bob" 1 2, .performActionForFriend "bob" "ann" .accept,
    .performActionForFriend "ann" "bob" .unfriend]

/-- Then her request for stories is not answered, and she goes on seeing his. -/
theorem not_answeredOnce_lastFriendRemoved :
    ¬ ∀ r : ServiceRequest, r.AnsweredOnce succId (fun _ => none)
      ⟨after (nextStore succId) .empty lastFriendRemoved, .empty, .empty, .empty⟩ := by
  intro h
  have hresults := (h (.fetchMyFriendsStories "ann" 0)).1
  revert hresults
  decide

end YoYo.Reads
