import YoYo.Reads.Limits

/-!
# What a blocked user obtains

The entry of somebody who has blocked one is in one's list still, as a blocked
one. The screens of friends and of stories leave these entries out; but the one
for composing a message, and the listener to stories, take the users of all
entries: too many of them, and the app terminates. So what they obtain depends
on the blocked entries, unless nothing is read of these, or the others are too
many anyway (`unaffected_iff`).
-/

namespace YoYo.Reads

open DocStore Reads.DatabaseService

/-- The requests of a user that read his list. -/
inductive ListRequest
  | fetchFriendsList
  | fetchMyFriendsStories (today : Date)
  | getMyFriends
  | registerForStories
  deriving DecidableEq, Repr

/-- What a client obtains: how its request ends, and the users it listens to the stories of. -/
@[ext]
structure Obtained where
  ending : Ending
  subscribed : List (List UID)
  deriving DecidableEq, Repr

/-- The users a call listens to the stories of. -/
def ReadCall.subscribed : ReadCall → Option (List UID)
  | listenToStoriesIn uids => some uids
  | friendsOf _ | usersIn _ | storiesIn _ | messagesFrom _ | messagesTo _ => none

namespace ListRequest

/-- The request of a user. -/
def request (uid : UID) : ListRequest → Request
  | fetchFriendsList => .fetchFriendsList uid
  | fetchMyFriendsStories today => .fetchMyFriendsStories uid today
  | getMyFriends => .getMyFriends uid
  | registerForStories => .registerForStories uid

/-- What the client of a user obtains by a request. -/
def obtained (uid : UID) (env : ℕ → Option String) (s : Collections) (r : ListRequest) :
    Obtained where
  ending := (r.request uid).outcome env s
  subscribed := ((r.request uid).checked.calls answer env s).filterMap ReadCall.subscribed

/-- The request reads nothing of the blocked entries of the list. That for the
    users to write to, as long as either it does not read the list, or some other
    entry is there, and the users found of the blocked ones, if they are read, have
    another entry: for up to ten entries, and beyond that, if even the others are
    too many. The listener, as long as it does not read the list, or there is no
    such entry, or the others, with the user himself, are too many. -/
def Blind (env : ℕ → Option String) (s : Collections) (friends : List Friend) : ListRequest → Prop
  | fetchFriendsList | fetchMyFriendsStories _ => True
  | getMyFriends => env 0 = none →
    (friends.length ≤ 10 ∧ (friends ≠ [] → shownFriends friends ≠ []) ∧
      (env 1 = none → ∀ friend ∈ friends, HasProfile s friend.uid →
        friend.uid ∈ (shownFriends friends).map Friend.uid)) ∨
    10 < (shownFriends friends).length
  | registerForStories => env 0 = none →
    (∀ friend ∈ friends, friend.status ≠ .blocked) ∨ 10 ≤ (shownFriends friends).length

end ListRequest

variable {env : ℕ → Option String} {s : Collections} {uid : UID} {uids uids' : List UID}

/-! ## Listening -/

/-- The program listens to nothing. -/
def ListensToNone (p : ReadProg) : Prop :=
  p.AllCalls (fun _ _ => True) (·.subscribed = none) fun _ => True

/-- So do those reading the list of a user first. -/
theorem listensToNone_fetchFriendsList {k : Option FriendsList → Option Error → ReadProg}
    (hk : ∀ friendsList error, ListensToNone (k friendsList error)) :
    ListensToNone (DatabaseService.fetchFriendsList uid k) := by
  rw [fetchFriendsList_eq]
  refine ⟨rfl, fun a _ => ?_⟩
  cases a with
  | error error => exact hk _ _
  | ok snapshot => exact hk _ _

/-- And those reading profiles. -/
theorem listensToNone_fetchUserModels {k : Option (List Profile) → Option Error → ReadProg}
    (hk : ∀ userModels error, ListensToNone (k userModels error)) :
    ListensToNone (fetchUserModels uids k) := by
  rw [fetchUserModels]
  split
  · refine ⟨rfl, fun a _ => ?_⟩
    cases a with
    | error error => exact hk _ _
    | ok snapshot => exact hk _ _
  · trivial

theorem listensToNone_prog {r : ListRequest} (hr : r ≠ .registerForStories) :
    ListensToNone (r.request uid).prog := by
  cases r with
  | fetchFriendsList =>
    rw [ListRequest.request, Request.prog, FriendService.fetchFriendsList]
    refine listensToNone_fetchFriendsList fun friendsList error => ?_
    cases error <;> cases friendsList <;> simp only [ListensToNone, Prog.AllCalls]
    split
    · refine listensToNone_fetchUserModels fun userModels error => ?_
      cases error <;> cases userModels <;> simp only [ListensToNone, Prog.AllCalls]
      split <;> trivial
    · trivial
  | fetchMyFriendsStories today =>
    rw [ListRequest.request, Request.prog, StoryService.fetchMyFriendsStories]
    refine listensToNone_fetchFriendsList fun friendsList error => ?_
    cases error <;> cases friendsList <;> simp only [ListensToNone, Prog.AllCalls]
    refine listensToNone_fetchUserModels fun userModels error => ?_
    cases error <;> cases userModels <;> simp only [ListensToNone, Prog.AllCalls]
    refine ⟨rfl, fun a _ => ?_⟩
    cases a <;> simp only [Prog.AllCalls]
    split <;> trivial
  | getMyFriends =>
    rw [ListRequest.request, Request.prog, MessagingService.getMyFriends]
    refine listensToNone_fetchFriendsList fun friendsList error => ?_
    cases error <;> cases friendsList <;> simp only [ListensToNone, Prog.AllCalls]
    exact listensToNone_fetchUserModels fun _ _ => trivial
  | registerForStories => exact absurd rfl hr

/-- Unless it listens, how a request ends is all its client obtains. -/
theorem obtained_eq_iff {r : ListRequest} (hr : r ≠ .registerForStories) {s' : Collections} :
    r.obtained uid env s = r.obtained uid env s' ↔
      (r.request uid).outcome env s = (r.request uid).outcome env s' := by
  have hnone : ∀ s, (r.obtained uid env s).subscribed = [] := by
    intro s
    rw [ListRequest.obtained, Request.checked, Prog.calls_checked, List.filterMap_eq_nil_iff]
    intro c hc
    exact (listensToNone_prog hr).forall_mem_calls (fun _ _ _ => trivial) c
      (List.takeWhile_subset _ hc)
  rw [Obtained.ext_iff, hnone, hnone, and_iff_left rfl]
  rfl

/-- The listener is registered, as long as the users of the list, with the user
    himself, are no more than the store accepts. -/
theorem obtained_registerForStories :
    ListRequest.registerForStories.obtained uid env s =
      match env 0, listOf s.friends uid with
      | none, some l =>
        if l.friends.length + 1 ≤ 10 then
          ⟨.delivered .registerForStories, [l.friends.map Friend.uid ++ [uid]]⟩
        else ⟨.trapped, []⟩
      | _, _ => ⟨.silent, []⟩ := by
  have hfirst : (ReadCall.friendsOf uid).Valid := trivial
  rw [ListRequest.obtained, ListRequest.request, Request.outcome, Request.checked, Request.prog,
    StoryService.registerForStories, fetchFriendsList_eq, Prog.checked_call_of_valid hfirst,
    Prog.exec_call, Prog.calls_call]
  cases env 0 with
  | some description => rfl
  | none =>
    simp only [answer, snapshotOf]
    rw [← listOf]
    cases listOf s.friends uid with
    | none => rfl
    | some l =>
      simp only
      have hvalid : (ReadCall.listenToStoriesIn (l.friends.map Friend.uid ++ [uid])).Valid ↔
          l.friends.length + 1 ≤ 10 := by
        simp [ReadCall.Valid, ValidDisjunctiveFilterElements]
      by_cases hlen : l.friends.length + 1 ≤ 10
      · rw [Prog.checked_call_of_valid (hvalid.2 hlen), if_pos hlen]
        rfl
      · rw [Prog.checked_call_of_not_valid (mt hvalid.1 hlen), if_neg hlen]
        rfl

/-! ## Without the blocked entries -/

/-- Nothing is unwrapped for the users one may write to. -/
theorem ending_getMyFriends_ne_trapped (s : Collections) :
    (Request.getMyFriends uid).ending env s ≠ .trapped := by
  rw [ending_getMyFriends]
  split
  · simp
  · simp
  · simp only
    split
    · simp
    · split <;> simp

/-- Of more users, the same profiles are found exactly if none of them is of the others. -/
theorem profilesIn_eq_iff (hsub : uids' ⊆ uids) :
    profilesIn s uids = profilesIn s uids' ↔ ∀ uid ∈ uids, HasProfile s uid → uid ∈ uids' := by
  constructor
  · rintro h uid huid ⟨d, hd, u, hu, rfl⟩
    have hmem : ⟨d.id, u⟩ ∈ profilesIn s uids := mem_profilesIn.2 ⟨⟨d, hd, rfl, hu⟩, huid⟩
    rw [h] at hmem
    exact (mem_profilesIn.1 hmem).2
  · intro h
    rw [profilesIn, profilesIn, decodeAll, decodeAll, Collection.query, Collection.query,
      List.filterMap_filter, List.filterMap_filter]
    refine List.filterMap_congr fun d hd => ?_
    cases hu : UserModel.decode d.data with
    | none => simp
    | some u =>
      have hiff : profileIn uids d.data = profileIn uids' d.data := by
        rw [Bool.eq_iff_iff, profileIn_iff hu, profileIn_iff hu]
        exact ⟨fun huid => h _ huid ⟨d, hd, u, hu, rfl⟩, fun huid => hsub huid⟩
      rw [hiff]

/-- Without blocked entries, the screen of friends shows all of them. -/
theorem shownFriends_shownFriends (friends : List Friend) :
    shownFriends (shownFriends friends) = shownFriends friends := by
  rw [shownFriends, shownFriends, List.filter_filter]
  simp

/-- An accepted entry is no blocked one. -/
theorem acceptedUIDs_of_shownFriends {l l' : FriendsList}
    (hfriends : l'.friends = shownFriends l.friends) :
    StoryService.acceptedUIDs l' = StoryService.acceptedUIDs l := by
  rw [StoryService.acceptedUIDs, StoryService.acceptedUIDs, hfriends, shownFriends,
    List.filter_filter]
  congr 1
  refine List.filter_congr fun friend _ => ?_
  cases friend.status <;> rfl

section

variable {friends' : FriendsStore} {l l' : FriendsList} (hl : listOf s.friends uid = some l)
  (hl' : listOf friends' uid = some l') (hfriends : l'.friends = shownFriends l.friends)

include hl hl' hfriends

theorem outcome_fetchFriendsList :
    (Request.fetchFriendsList uid).outcome env s =
      (Request.fetchFriendsList uid).outcome env { s with friends := friends' } := by
  have hwithin : (Request.fetchFriendsList uid).Within env s ↔
      (Request.fetchFriendsList uid).Within env { s with friends := friends' } := by
    simp only [Request.Within, hl, hl', Option.some.injEq, forall_eq', hfriends,
      shownFriends_shownFriends]
  refine outcome_congr hwithin fun _ => ?_
  simp only [ending_fetchFriendsList, hl, hl']
  cases env 0 with
  | some description => rfl
  | none =>
    simp only [hfriends, shownFriends_shownFriends]
    rfl

theorem outcome_fetchMyFriendsStories (today : Date) :
    (Request.fetchMyFriendsStories uid today).outcome env s =
      (Request.fetchMyFriendsStories uid today).outcome env { s with friends := friends' } := by
  have hwithin : (Request.fetchMyFriendsStories uid today).Within env s ↔
      (Request.fetchMyFriendsStories uid today).Within env { s with friends := friends' } := by
    simp only [Request.Within, hl, hl', Option.some.injEq, forall_eq',
      acceptedUIDs_of_shownFriends hfriends]
  refine outcome_congr hwithin fun _ => ?_
  simp only [ending_fetchMyFriendsStories, hl, hl']
  cases env 0 with
  | some description => rfl
  | none =>
    simp only [acceptedUIDs_of_shownFriends hfriends]
    rfl

/-- The users one may write to are read from all entries: for no more than the
    store accepts, the same are found if these are empty or not together, and the
    blocked ones add no profile. -/
theorem ending_getMyFriends_iff :
    (Request.getMyFriends uid).ending env s =
        (Request.getMyFriends uid).ending env { s with friends := friends' } ↔
      (env 0 = none → (l.friends ≠ [] → shownFriends l.friends ≠ []) ∧
        (env 1 = none → ∀ friend ∈ l.friends, HasProfile s friend.uid →
          friend.uid ∈ (shownFriends l.friends).map Friend.uid)) := by
  have hsub : (shownFriends l.friends).map Friend.uid ⊆ l.friends.map Friend.uid :=
    List.map_subset _ (List.filter_subset_self _)
  simp only [ending_getMyFriends, hl, hl']
  cases env 0 with
  | some description => simp
  | none =>
    simp only [hfriends, List.map_eq_nil_iff, forall_const]
    by_cases hnil : l.friends = []
    · simp [hnil, shownFriends]
    · by_cases hshown : shownFriends l.friends = []
      · -- Nothing is obtained if all entries are blocked, but a reply if they are there.
        simp only [if_neg hnil, if_pos hshown]
        cases env 1 <;> simp [hnil, hshown]
      · simp only [if_neg hnil, if_neg hshown]
        cases env 1 with
        | some description => simp [hshown]
        | none =>
          have hprofiles := profilesIn_eq_iff (s := s) hsub
          rw [List.forall_mem_map] at hprofiles
          simp only [Ending.delivered.injEq, Reply.getMyFriendsCompleted.injEq, and_true,
            Option.some.injEq, forall_const, and_iff_right (fun _ => hshown)]
          exact hprofiles

/-- Beyond what it accepts, nothing is found unless the blocked entries are left out. -/
theorem obtained_getMyFriends_iff :
    ListRequest.getMyFriends.obtained uid env s =
        ListRequest.getMyFriends.obtained uid env { s with friends := friends' } ↔
      ListRequest.getMyFriends.Blind env s l.friends := by
  have hlen : (shownFriends l.friends).length ≤ l.friends.length := List.length_filter_le _ _
  rw [obtained_eq_iff (by decide), ListRequest.request, ListRequest.Blind]
  cases h₀ : env 0 with
  | some description =>
    rw [outcome_of_within (by simp [Request.Within, h₀]),
      outcome_of_within (by simp [Request.Within, h₀]), ending_getMyFriends_iff hl hl' hfriends,
      h₀]
    simp
  | none =>
    have hwithin : (Request.getMyFriends uid).Within env s ↔ l.friends.length ≤ 10 := by
      simp [Request.Within, h₀, hl]
    have hwithin' : (Request.getMyFriends uid).Within env { s with friends := friends' } ↔
        (shownFriends l.friends).length ≤ 10 := by
      simp [Request.Within, h₀, hl', hfriends]
    rw [imp_iff_right rfl]
    by_cases hten : l.friends.length ≤ 10
    · rw [outcome_of_within (hwithin.2 hten), outcome_of_within (hwithin'.2 (hlen.trans hten)),
        ending_getMyFriends_iff hl hl' hfriends, h₀, imp_iff_right rfl,
        or_iff_left (by omega), and_iff_right hten]
    · rw [outcome_of_not_within (mt hwithin.1 hten), or_iff_right fun h => hten h.1]
      by_cases hshown : (shownFriends l.friends).length ≤ 10
      · rw [outcome_of_within (hwithin'.2 hshown)]
        exact iff_of_false (Ne.symm (ending_getMyFriends_ne_trapped _)) (by omega)
      · rw [outcome_of_not_within (mt hwithin'.1 hshown)]
        exact iff_of_true rfl (by omega)

/-- The listener is to the users of all entries, as long as these are not too many. -/
theorem obtained_registerForStories_iff :
    ListRequest.registerForStories.obtained uid env s =
        ListRequest.registerForStories.obtained uid env { s with friends := friends' } ↔
      ListRequest.registerForStories.Blind env s l.friends := by
  have hlen : (shownFriends l.friends).length ≤ l.friends.length := List.length_filter_le _ _
  simp only [obtained_registerForStories, hl, hl', ListRequest.Blind]
  cases env 0 with
  | some description => simp
  | none =>
    simp only [forall_const, hfriends]
    have hblocked : shownFriends l.friends = l.friends ↔
        ∀ friend ∈ l.friends, friend.status ≠ .blocked := by
      rw [shownFriends, List.filter_eq_self]
      simp
    rw [← hblocked]
    by_cases hten : l.friends.length + 1 ≤ 10
    · rw [if_pos hten, if_pos (by omega), or_iff_left (by omega)]
      simp only [Obtained.mk.injEq, true_and, List.cons.injEq, and_true,
        List.append_cancel_right_eq]
      constructor
      · intro h
        -- Leaving out an entry leaves fewer of them.
        have hsame := congrArg List.length h
        rw [List.length_map, List.length_map] at hsame
        exact List.filter_eq_self.2 (List.length_filter_eq_length_iff.1 hsame.symm)
      · intro h
        rw [h]
    · rw [if_neg hten]
      by_cases hshown : (shownFriends l.friends).length + 1 ≤ 10
      · rw [if_pos hshown]
        refine iff_of_false (by simp) ?_
        rintro (h | h)
        · rw [h] at hshown
          exact hten hshown
        · omega
      · rw [if_neg hshown]
        exact iff_of_true rfl (.inr (by omega))

end

/-- What a user obtains is the same without the blocked entries of his list
    exactly if the request reads nothing of these. -/
theorem unaffected_iff {s : Collections} {friends' : FriendsStore} {uid : UID}
    {l l' : FriendsList} (hl : listOf s.friends uid = some l)
    (hl' : listOf friends' uid = some l')
    (hfriends : l'.friends = l.friends.filter fun friend => friend.status ≠ .blocked)
    (env : ℕ → Option String) (r : ListRequest) :
    r.obtained uid env s = r.obtained uid env { s with friends := friends' } ↔
      r.Blind env s l.friends := by
  rw [← shownFriends] at hfriends
  cases r with
  | fetchFriendsList =>
    rw [obtained_eq_iff (by decide)]
    exact iff_of_true (outcome_fetchFriendsList hl hl' hfriends) trivial
  | fetchMyFriendsStories today =>
    rw [obtained_eq_iff (by simp)]
    exact iff_of_true (outcome_fetchMyFriendsStories hl hl' hfriends today) trivial
  | getMyFriends => exact obtained_getMyFriends_iff hl hl' hfriends
  | registerForStories => exact obtained_registerForStories_iff hl hl' hfriends

/-- Ann and Bob become friends, and he blocks her. -/
def blockedByBob : List FriendOp :=
  [.sendFriendRequest "ann" "bob" 1 2, .performActionForFriend "bob" "ann" .accept,
    .performActionForFriend "bob" "ann" .block]

/-- The collections then, with a profile of Bob. -/
def afterBlock : Collections :=
  ⟨after (nextStore succId) .empty blockedByBob,
    Collection.empty.setData 1 (UserModel.encode ⟨"Bob", 0, "bob.jpg", "bob", "bob@yoyo"⟩),
    .empty, .empty⟩

/-- The lists then, without the entry for Bob in that of Ann. -/
def entryDeleted : FriendsStore := afterBlock.friends.setData 1 ⟨.value "ann", .value []⟩

/-- The friends screen of Ann shows the same. -/
theorem unaffected_afterBlock :
    ListRequest.fetchFriendsList.obtained "ann" (fun _ => none) afterBlock =
      ListRequest.fetchFriendsList.obtained "ann" (fun _ => none)
        { afterBlock with friends := entryDeleted } :=
  (@unaffected_iff afterBlock entryDeleted "ann" ⟨some 1, "ann", [⟨"bob", 1, .blocked⟩]⟩
    ⟨some 1, "ann", []⟩ (by decide) (by decide) (by decide) _ _).2 trivial

/-- The screen for composing a message offers her to write to him. -/
theorem not_unaffected_afterBlock :
    ¬ ∀ r : ListRequest, r.obtained "ann" (fun _ => none) afterBlock =
      r.obtained "ann" (fun _ => none) { afterBlock with friends := entryDeleted } := by
  intro h
  have hfriends := h .getMyFriends
  revert hfriends
  decide

end YoYo.Reads
