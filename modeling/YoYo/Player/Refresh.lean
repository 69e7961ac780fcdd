import YoYo.Player.Expiry
import YoYo.Reads.ChatList

/-!
# Refreshing the stories

Whenever it is told of a change, the stories screen starts two fetches: of the
stories of its user, by one query, and of those of his friends, by three. Their
answers arrive in any order, and any of them may be an error. What a fetch has
come to is to be told by the answers to its own queries (`mineOutcome`,
`friendsOutcome`): if one has failed, the list is to stay as it is, and an alert
to be presented, and otherwise the list is to be replaced.

The screen is refreshed so exactly if the query for the user's own stories does
not fail, nothing is shown of friends if there are none, there are no more of
them than the store accepts, and every friend has a profile (`refreshed_iff`).
-/

namespace YoYo.Player

open DocStore Reads

/-- The answer to the next query of a fetch arrives: its error, if it fails, what
    is stored by then, and the time. -/
structure Arrival where
  failure : Option String
  collections : Collections
  now : Date

/-- The fetch once its next query is answered. -/
def Fetch.answered (p : Fetch) (r : Arrival) : Fetch := fun today =>
  (p today).resume fun c => (Reads.answer r.failure r.collections c).1

/-- The fetches of a refresh. -/
inductive Pipeline
  | mine
  | friends
  deriving DecidableEq, Repr

/-- The stories screen with its button, which is enabled or not, and the alerts presented. -/
structure StoriesScreen extends StoriesViewController where
  showMyStoryButton : Bool
  alerts : List (String × Error)
  deriving DecidableEq, Repr

namespace StoriesScreen

/-- An alert is presented. -/
def presentAlert (title : String) (error : Error) (s : StoriesScreen) : StoriesScreen :=
  { s with alerts := s.alerts ++ [(title, error)] }

/-- The button is enabled or disabled. -/
def toggleMyStory (status : Bool) (s : StoriesScreen) : StoriesScreen :=
  { s with showMyStoryButton := status }

/-- The stories of friends arrive: an error is looked at first. -/
def fetchFriendsStory (stories : Option (List FriendStory)) (error : Option Error)
    (s : StoriesScreen) : StoriesScreen :=
  match error, stories with
  | some error, _ => s.presentAlert "Stories" error
  | none, some stories =>
    { s with
      toStoriesViewController := s.toStoriesViewController.fetchFriendsStory stories none }
  | none, none => s

/-- One's own stories arrive: an error is looked at if there are none at all. -/
def fetchMyStory (stories : Option (List (Doc DocID Story))) (error : Option Error)
    (s : StoriesScreen) : StoriesScreen :=
  match stories, error with
  | some stories, _ =>
    { s.toggleMyStory (stories.length > 0) with
      toStoriesViewController := s.toStoriesViewController.fetchMyStory (some stories) }
  | none, some error => s.presentAlert "My Stories" error
  | none, none => s

/-- What a fetch has come to arrives, unless it terminates the app. -/
def deliver (s : StoriesScreen) : Fetched → Option StoriesScreen
  | .friends (.delivered (.fetchFriendsStory stories error)) =>
    some (s.fetchFriendsStory (some stories) error)
  | .friends .trapped => none
  | .friends _ => some s
  | .mine stories error => some (s.fetchMyStory stories error)

/-- The lists are those of the screen without the button. -/
theorem toStoriesViewController_deliver (s : StoriesScreen) (fetched : Fetched) :
    (s.deliver fetched).map toStoriesViewController =
      s.toStoriesViewController.deliver fetched := by
  match fetched with
  | .friends (.delivered (.fetchFriendsStory _ (some _)))
  | .friends (.delivered (.fetchFriendsStory _ none)) => rfl
  | .friends (.delivered (.fetchSuccess _)) | .friends (.delivered (.fetchError _))
  | .friends (.delivered (.getMyFriendsCompleted _ _)) => rfl
  | .friends (.delivered (.fetchChatModels _ _)) | .friends (.delivered .registerForStories)
  | .friends (.delivered (.fetchUserModels _ _)) => rfl
  | .friends .silent | .friends .trapped => rfl
  | .mine none none | .mine none (some _) | .mine (some _) _ => rfl

end StoriesScreen

/-- A refresh: the screen, and those of its fetches that have not ended. -/
structure Refresh where
  screen : StoriesScreen
  fetches : Pipeline → Option Fetch

/-- The fetches of a user. -/
def Pipeline.fetch (uid : UID) : Pipeline → Fetch
  | mine => fetchMyStories uid
  | friends => fetchMyFriendsStories uid

/-- The screen of a user is told of a change. -/
def StoriesScreen.changeDetected (uid : UID) (status : Bool) (s : StoriesScreen) : Refresh :=
  ⟨s, fun i => if status then some (i.fetch uid) else none⟩

namespace Refresh

/-- The answer to the next query of a fetch, which may be its last, unless it
    terminates the app. -/
def answered (i : Pipeline) (r : Arrival) (s : Refresh) : Option Refresh :=
  match s.fetches i with
  | none => some s
  | some p =>
    match (p.answered r r.now).result with
    | none => some { s with fetches := Function.update s.fetches i (some (p.answered r)) }
    | some fetched =>
      (s.screen.deliver fetched).map fun screen =>
        ⟨screen, Function.update s.fetches i none⟩

/-- The state after an answer, as long as the app runs. -/
def next (s : Option Refresh) (e : Pipeline × Arrival) : Option Refresh :=
  s.bind fun s => s.answered e.1 e.2

end Refresh

/-! ## Outcomes -/

/-- What has come of a fetch: nothing yet, an error, or a result. -/
inductive Outcome (α : Type)
  | pending
  | failed (error : Error)
  | succeeded (result : α)
  deriving DecidableEq, Repr

namespace Outcome

variable {α : Type}

/-- What was shown before is shown after, and the error of a fetch that has failed
    is presented; what a fetch has come to, if it has succeeded, is shown instead. -/
def Shows (before after : α) (presented : List Error) : Outcome α → Prop
  | pending => after = before
  | failed error => after = before ∧ error ∈ presented
  | succeeded result => after = result

/-- The next answer is awaited, and then what comes of it, if it is not an error. -/
def await (k : Arrival → List Arrival → Outcome α) : List Arrival → Outcome α
  | [] => pending
  | r :: rs =>
    match r.failure with
    | some description => failed (.ofQuery description)
    | none => k r rs

end Outcome

/-- The stories of a user are to be those stored that have not expired, with the
    button enabled if there are any. -/
def mineOutcome (uid : UID) : List Arrival → Outcome (List (Doc DocID Story) × Bool) :=
  .await fun r _ =>
    let stories := storiesIn r.collections [uid] r.now
    .succeeded (stories, stories.length > 0)

/-- The friends of a user: none without a list. -/
def friendsIn (s : Collections) (uid : UID) : List UID :=
  ((listOf s.friends uid).map StoryService.acceptedUIDs).getD []

/-- The stories of the users having a profile, and stories. -/
def storiesByUser (userModels : List Profile) (stories : List (Doc DocID Story))
    (uids : List UID) : List FriendStory :=
  (uids.filterMap fun uid => (profileOf userModels uid).map fun userModel =>
    (⟨userModel, some (stories.filter fun story => story.data.uid = uid)⟩ : FriendStory)).filter
      fun friendStory => (friendStory.stories.map List.length).getD 0 > 0

/-- The stories of friends are to be those stored that have not expired: none without friends. -/
def friendsOutcome (uid : UID) : List Arrival → Outcome (List FriendStory) :=
  .await fun r₀ =>
    let uids := friendsIn r₀.collections uid
    if uids = [] then fun _ => .succeeded []
    else
      .await fun r₁ => .await fun r₂ _ =>
        .succeeded (storiesByUser (profilesIn r₁.collections uids)
          (storiesIn r₂.collections uids r₂.now) uids)

/-- The answers that arrive for a fetch. -/
def arrivals (i : Pipeline) (es : List (Pipeline × Arrival)) : List Arrival :=
  es.filterMap fun e => if e.1 = i then some e.2 else none

/-- The errors presented under a title. -/
def errorsOf (title : String) (alerts : List (String × Error)) : List Error :=
  alerts.filterMap fun alert => if alert.1 = title then some alert.2 else none

/-- After the answers so far, the app runs, and the screen is as the outcomes of
    the fetches say. -/
def Refreshed (uid : UID) (s : StoriesScreen) (es : List (Pipeline × Arrival)) : Prop :=
  ∃ s' presented, after Refresh.next (some (s.changeDetected uid true)) es = some s' ∧
    s'.screen.alerts = s.alerts ++ presented ∧
    (mineOutcome uid (arrivals .mine es)).Shows (s.myStories, s.showMyStoryButton)
      (s'.screen.myStories, s'.screen.showMyStoryButton) (errorsOf "My Stories" presented) ∧
    (friendsOutcome uid (arrivals .friends es)).Shows s.tableStories s'.screen.tableStories
      (errorsOf "Stories" presented)

/-- If the next answer is there and not an error, what follows holds. -/
def IfAnswered (k : Arrival → List Arrival → Prop) : List Arrival → Prop
  | [] => True
  | r :: rs => r.failure = none → k r rs

/-- The query for one's own stories does not fail. -/
def MineAnswered (rs : List Arrival) : Prop := ∀ r ∈ rs.head?, r.failure = none

/-- Without friends, no stories of friends are shown; with friends, these are ten at
    most; and if the queries for their profiles and stories succeed, all of them
    have profiles. -/
def FriendsComplete (uid : UID) (tableStories : List FriendStory) : List Arrival → Prop :=
  IfAnswered fun r₀ =>
    let uids := friendsIn r₀.collections uid
    if uids = [] then fun _ => tableStories = []
    else fun rs =>
      uids.length ≤ 10 ∧ IfAnswered (fun r₁ => IfAnswered fun _ _ =>
        ∀ friendUID ∈ uids, HasProfile r₁.collections friendUID) rs

variable {uid : UID} {r r₀ r₁ r₂ : Arrival} {rs : List Arrival} {today : Date} {s : StoriesScreen}
  {uids : List UID}

/-! ## Fetches -/

/-- What a fetch ends with, and when, given the answers that arrive for it. -/
def Fetch.ends (p : Fetch) : List Arrival → Option (Fetched × Date)
  | [] => none
  | r :: rs =>
    match (p.answered r r.now).result with
    | none => (p.answered r).ends rs
    | some fetched => some (fetched, r.now)

/-- One's own stories after an answer: none, if that is an error. -/
def mineArrived (uid : UID) (r : Arrival) : List (Doc DocID Story) :=
  match r.failure with
  | some _ => []
  | none => storiesIn r.collections [uid] r.now

/-- They are there after one answer. -/
theorem result_mine (uid : UID) (r : Arrival) :
    ((fetchMyStories uid).answered r r.now).result =
      some (.mine (some (mineArrived uid r)) (r.failure.map .ofQuery)) := by
  cases h : r.failure <;>
    simp [Fetch.answered, fetchMyStories, getStoryWithUID, Prog.resume, Reads.answer, snapshotOf, h,
      Prog.result, storiesIn, mineArrived]

/-- After the first answer, the fetch of the stories of friends has failed, or
    ended for want of friends, or with too many of them, or goes on. -/
theorem result_first (uid : UID) (r₀ : Arrival) (today : Date) :
    ((fetchMyFriendsStories uid).answered r₀ today).result =
      match r₀.failure with
      | some description =>
        some (.friends (.delivered (.fetchFriendsStory [] (some (.ofQuery description)))))
      | none =>
        if friendsIn r₀.collections uid = [] then some (.friends .silent)
        else if (friendsIn r₀.collections uid).length ≤ 10 then none
        else some (.friends .trapped) := by
  rw [Fetch.answered, fetchMyFriendsStories, Request.checked, Request.prog,
    StoryService.fetchMyFriendsStories, Prog.resume_map, resume_fetchFriendsList, Prog.result_map,
    friendsIn]
  cases r₀.failure with
  | some description => rfl
  | none =>
    cases listOf r₀.collections.friends uid with
    | none => rfl
    | some l =>
      simp only [Option.map_some, Option.getD_some]
      by_cases huids : StoryService.acceptedUIDs l = []
      · simp [huids, Prog.result]
      · rw [if_neg huids, Reads.DatabaseService.fetchUserModels,
          if_pos (List.length_pos_iff.2 huids)]
        by_cases hlen : (StoryService.acceptedUIDs l).length ≤ 10
        · have hvalid : (ReadCall.usersIn (StoryService.acceptedUIDs l)).Valid := ⟨huids, hlen⟩
          rw [Prog.checked_call_of_valid hvalid, if_pos hlen]
          rfl
        · have hvalid : ¬ (ReadCall.usersIn (StoryService.acceptedUIDs l)).Valid :=
            fun h => hlen h.2
          rw [Prog.checked_call_of_not_valid hvalid, if_neg hlen]
          rfl

section

variable (h₀ : r₀.failure = none) (huids : friendsIn r₀.collections uid ≠ [])
  (hlen : (friendsIn r₀.collections uid).length ≤ 10)

include h₀ huids hlen

/-- After the second one, it has failed, or goes on. -/
theorem result_second (r₁ : Arrival) (today : Date) :
    (((fetchMyFriendsStories uid).answered r₀).answered r₁ today).result =
      r₁.failure.map fun description =>
        .friends (.delivered (.fetchFriendsStory [] (some (.ofQuery description)))) := by
  rw [friendsIn] at huids hlen
  simp only [Fetch.answered, fetchMyFriendsStories, Request.checked, Request.prog,
    StoryService.fetchMyFriendsStories, Prog.resume_map, resume_fetchFriendsList, Prog.result_map,
    h₀]
  cases hl : listOf r₀.collections.friends uid with
  | none => exact absurd (by rw [hl]; rfl) huids
  | some l =>
    rw [hl] at huids hlen
    have huids : StoryService.acceptedUIDs l ≠ [] := huids
    have hlen : (StoryService.acceptedUIDs l).length ≤ 10 := hlen
    simp only [resume_fetchUserModels huids hlen]
    cases r₁.failure with
    | some description => rfl
    | none =>
      have hvalid : (ReadCall.storiesIn (StoryService.acceptedUIDs l)).Valid := ⟨huids, hlen⟩
      simp only
      rw [Reads.DatabaseService.getStoriesWithUID, Prog.checked_call_of_valid hvalid]
      rfl

/-- After the third one, it has failed, trapped, or has the stories. -/
theorem result_third (h₁ : r₁.failure = none) (r₂ : Arrival) (today : Date) :
    ((((fetchMyFriendsStories uid).answered r₀).answered r₁).answered r₂ today).result =
      some (.friends (match r₂.failure with
        | some description => .delivered (.fetchFriendsStory [] (some (.ofQuery description)))
        | none =>
          match StoryService.friendsStory
            (profilesIn r₁.collections (friendsIn r₀.collections uid))
            (storiesIn r₂.collections (friendsIn r₀.collections uid) today)
            (friendsIn r₀.collections uid) with
          | none => .trapped
          | some stories => .delivered (.fetchFriendsStory stories none))) := by
  rw [friendsIn] at *
  simp only [Fetch.answered, fetchMyFriendsStories, Request.checked, Request.prog,
    StoryService.fetchMyFriendsStories, Prog.resume_map, resume_fetchFriendsList, Prog.result_map,
    h₀]
  cases hl : listOf r₀.collections.friends uid with
  | none => exact absurd (by rw [hl]; rfl) huids
  | some l =>
    rw [hl] at huids hlen
    have huids : StoryService.acceptedUIDs l ≠ [] := huids
    have hlen : (StoryService.acceptedUIDs l).length ≤ 10 := hlen
    simp only [resume_fetchUserModels huids hlen, h₁, resume_getStoriesWithUID huids hlen,
      Option.map_some, Option.getD_some]
    cases r₂.failure with
    | some description => rfl
    | none =>
      generalize StoryService.friendsStory _ _ _ = stories
      cases stories <;> rfl

end

/-! ## What is shown -/

/-- What is shown of one's own stories after some answers, if a fetch of them is
    outstanding, and what was shown before otherwise. -/
def mineAfter (uid : UID) (before : List (Doc DocID Story) × Bool) :
    Option Fetch → List Arrival → List (Doc DocID Story) × Bool
  | some _, r :: _ => (mineArrived uid r, (mineArrived uid r).length > 0)
  | _, _ => before

/-- How an outstanding fetch of the stories of friends ends, if it does. -/
def friendsEnding : Option Fetch → List Arrival → Option Ending
  | none, _ => none
  | some p, rs =>
    match p.ends rs with
    | some (.friends ending, _) => some ending
    | _ => none

/-- What is shown of the stories of friends then. -/
def tableAfter (before : List FriendStory) : Option Ending → List FriendStory
  | some (.delivered (.fetchFriendsStory stories none)) => stories
  | _ => before

/-- The alerts presented. -/
def alertsAfter : Option Ending → List (String × Error)
  | some (.delivered (.fetchFriendsStory _ (some error))) => [("Stories", error)]
  | _ => []

@[simp] theorem friendsEnding_none (rs : List Arrival) : friendsEnding none rs = none := rfl

@[simp] theorem tableAfter_none (before : List FriendStory) : tableAfter before none = before := rfl

@[simp] theorem alertsAfter_none : alertsAfter none = [] := rfl

/-- Unless the fetch of the stories of friends has trapped, what it has come to is
    shown, and nothing else is. -/
theorem StoriesScreen.deliver_friends (s : StoriesScreen) {ending : Ending}
    (h : ending ≠ .trapped) :
    ∃ s', s.deliver (.friends ending) = some s' ∧
      s'.tableStories = tableAfter s.tableStories (some ending) ∧
      s'.alerts = s.alerts ++ alertsAfter (some ending) ∧
      (s'.myStories, s'.showMyStoryButton) = (s.myStories, s.showMyStoryButton) := by
  cases ending with
  | trapped => exact absurd rfl h
  | silent => exact ⟨s, rfl, rfl, (List.append_nil _).symm, rfl⟩
  | delivered reply =>
    cases reply with
    | fetchFriendsStory stories error =>
      cases error with
      | some error => exact ⟨_, rfl, rfl, rfl, rfl⟩
      | none => exact ⟨_, rfl, rfl, (List.append_nil _).symm, rfl⟩
    | _ => exact ⟨s, rfl, rfl, (List.append_nil _).symm, rfl⟩

/-- What has come of one's own stories is shown, whatever the error, and nothing else is. -/
theorem StoriesScreen.deliver_mine (s : StoriesScreen) (stories : List (Doc DocID Story))
    (error : Option Error) :
    ∃ s', s.deliver (.mine (some stories) error) = some s' ∧
      s'.tableStories = s.tableStories ∧ s'.alerts = s.alerts ∧
      (s'.myStories, s'.showMyStoryButton) = (stories, decide (stories.length > 0)) :=
  ⟨_, rfl, rfl, rfl, rfl⟩

namespace Refresh

variable {s : Refresh} {es : List (Pipeline × Arrival)}

theorem after_none (es : List (Pipeline × Arrival)) : after next none es = none := by
  induction es with
  | nil => rfl
  | cons e es ih => exact ih

/-- Each fetch delivers what it is for, one's own after one answer. -/
structure Own (uid : UID) (s : Refresh) : Prop where
  mine : ∀ p, s.fetches .mine = some p → p = fetchMyStories uid
  friends : ∀ p, s.fetches .friends = some p →
    ∀ today, (p today).Ends fun fetched => ∃ ending, fetched = .friends ending

theorem own_changeDetected (uid : UID) (s : StoriesScreen) :
    (s.changeDetected uid true).Own uid where
  mine p hp := (Option.some.inj hp).symm
  friends p hp today := by
    rw [← Option.some.inj hp]
    exact Prog.ends_map.2 (Prog.Ends.of_forall (fun ending => ⟨ending, rfl⟩) _)

/-- The fetch of one's own stories has ended. -/
theorem Own.update_mine (hs : s.Own uid) (screen : StoriesScreen) :
    (⟨screen, Function.update s.fetches .mine none⟩ : Refresh).Own uid where
  mine p hp := absurd hp (by simp)
  friends p hp := hs.friends p (by simpa using hp)

/-- That of the stories of friends has ended, or goes on. -/
theorem Own.update_friends (hs : s.Own uid) (screen : StoriesScreen) {f : Option Fetch}
    (hf : ∀ p, f = some p →
      ∀ today, (p today).Ends fun fetched => ∃ ending, fetched = .friends ending) :
    (⟨screen, Function.update s.fetches .friends f⟩ : Refresh).Own uid where
  mine p hp := hs.mine p (by simpa using hp)
  friends p hp := hf p (by simpa using hp)

/-- What is shown and presented. -/
def shown (s : Refresh) :
    List FriendStory × List (String × Error) × List (Doc DocID Story) × Bool :=
  (s.screen.tableStories, s.screen.alerts, s.screen.myStories, s.screen.showMyStoryButton)

/-- What will be after the answers to the fetches that are outstanding, unless one traps. -/
def forecast (uid : UID) (s : Refresh) (mine friends : List Arrival) :
    Option (List FriendStory × List (String × Error) × List (Doc DocID Story) × Bool) :=
  let ending := friendsEnding (s.fetches .friends) friends
  if ending = some .trapped then none
  else
    some (tableAfter s.screen.tableStories ending, s.screen.alerts ++ alertsAfter ending,
      mineAfter uid (s.screen.myStories, s.screen.showMyStoryButton) (s.fetches .mine) mine)

theorem forecast_nil (s : Refresh) : s.forecast uid [] [] = some s.shown := by
  have hending : friendsEnding (s.fetches .friends) [] = none := by
    cases s.fetches .friends <;> rfl
  have hmine : mineAfter uid (s.screen.myStories, s.screen.showMyStoryButton) (s.fetches .mine) [] =
      (s.screen.myStories, s.screen.showMyStoryButton) := by
    cases s.fetches .mine <;> rfl
  simp only [forecast, hending, hmine, reduceCtorEq, if_false, tableAfter_none, alertsAfter_none,
    List.append_nil, shown]

/-- An answer to the fetch of one's own stories, which ends it. -/
theorem Own.answered_mine (hs : s.Own uid) (r : Arrival) :
    ∃ s', s.answered .mine r = some s' ∧ s'.Own uid ∧
      ∀ mine friends, s'.forecast uid mine friends = s.forecast uid (r :: mine) friends := by
  cases hp : s.fetches .mine with
  | none =>
    refine ⟨s, by rw [answered, hp], hs, fun mine friends => ?_⟩
    simp only [forecast, hp, mineAfter]
  | some p =>
    obtain rfl := hs.mine p hp
    obtain ⟨screen, hdeliver, htable, halerts, hscreen⟩ :=
      s.screen.deliver_mine (mineArrived uid r) (r.failure.map .ofQuery)
    refine ⟨⟨screen, Function.update s.fetches .mine none⟩, ?_, hs.update_mine screen, ?_⟩
    · rw [answered, hp]
      simp only [result_mine, hdeliver, Option.map_some]
    · intro mine friends
      have hfriends : Function.update s.fetches .mine none .friends = s.fetches .friends :=
        Function.update_of_ne Pipeline.noConfusion _ _
      simp only [forecast, hfriends, Function.update_self, hp, mineAfter, htable, halerts, hscreen]

/-- An answer to that of the stories of friends, which may end it. -/
theorem Own.answered_friends (hs : s.Own uid) (r : Arrival) :
    s.answered .friends r = none ∧
        (∀ mine friends, s.forecast uid mine (r :: friends) = none) ∨
      ∃ s', s.answered .friends r = some s' ∧ s'.Own uid ∧
        ∀ mine friends, s'.forecast uid mine friends = s.forecast uid mine (r :: friends) := by
  have hmine : ∀ f, Function.update s.fetches .friends f .mine = s.fetches .mine :=
    fun f => Function.update_of_ne Pipeline.noConfusion _ _
  cases hp : s.fetches .friends with
  | none =>
    refine .inr ⟨s, by rw [answered, hp], hs, fun mine friends => ?_⟩
    simp only [forecast, hp, friendsEnding_none]
  | some p =>
    have hends : ∀ today, (p.answered r today).Ends fun fetched => ∃ ending,
        fetched = .friends ending := fun today => (hs.friends p hp today).resume _
    cases hresult : (p.answered r r.now).result with
    | none =>
      -- It goes on.
      refine .inr ⟨⟨s.screen, Function.update s.fetches .friends (some (p.answered r))⟩, ?_,
        hs.update_friends _ fun p' hp' => Option.some.inj hp' ▸ hends, ?_⟩
      · rw [answered, hp]
        simp only [hresult]
      · intro mine friends
        simp only [forecast, hmine, Function.update_self, hp, friendsEnding, Fetch.ends, hresult]
    | some fetched =>
      obtain ⟨ending, rfl⟩ := (hends r.now).of_result hresult
      have hending : ∀ friends, friendsEnding (some p) (r :: friends) = some ending := by
        intro friends
        simp only [friendsEnding, Fetch.ends, hresult]
      by_cases htrapped : ending = .trapped
      · subst htrapped
        refine .inl ⟨by rw [answered, hp]; simp only [hresult]; rfl, fun mine friends => ?_⟩
        simp only [forecast, hp, hending, if_true]
      · obtain ⟨screen, hdeliver, htable, halerts, hscreen⟩ :=
          s.screen.deliver_friends htrapped
        refine .inr ⟨⟨screen, Function.update s.fetches .friends none⟩, ?_,
          hs.update_friends _ fun p' hp' => absurd hp'.symm (Option.some_ne_none p'), ?_⟩
        · rw [answered, hp]
          simp only [hresult, hdeliver, Option.map_some]
        · intro mine friends
          have hne : some ending ≠ some .trapped := fun h => htrapped (Option.some.inj h)
          simp only [forecast, hmine, Function.update_self, hp, hending, friendsEnding_none, hne,
            reduceCtorEq, if_false, tableAfter_none, alertsAfter_none, htable, halerts, hscreen,
            List.append_nil]

/-- After any answers, in any order, what is shown is what was forecast. -/
theorem Own.shown_after (hs : s.Own uid) (es : List (Pipeline × Arrival)) :
    (after next (some s) es).map shown =
      s.forecast uid (arrivals .mine es) (arrivals .friends es) := by
  induction es generalizing s with
  | nil => exact (forecast_nil s).symm
  | cons e es ih =>
    obtain ⟨i, r⟩ := e
    rw [after_cons]
    cases i with
    | mine =>
      obtain ⟨s', hs', hown, hforecast⟩ := hs.answered_mine r
      have hnext : next (some s) (.mine, r) = some s' := hs'
      rw [hnext, ih hown, hforecast]
      rfl
    | friends =>
      rcases hs.answered_friends r with ⟨hnone, hforecast⟩ | ⟨s', hs', hown, hforecast⟩
      · have hnext : next (some s) (.friends, r) = none := hnone
        rw [hnext, after_none]
        exact (hforecast _ _).symm
      · have hnext : next (some s) (.friends, r) = some s' := hs'
        rw [hnext, ih hown, hforecast]
        rfl

end Refresh

/-! ## What is to be shown -/

/-- What is shown of one's own stories is what has come of them if the query does not fail. -/
theorem mine_iff (p : Fetch) (before : List (Doc DocID Story) × Bool) (rs : List Arrival) :
    (mineOutcome uid rs).Shows before (mineAfter uid before (some p) rs) [] ↔ MineAnswered rs := by
  cases rs with
  | nil => exact iff_of_true rfl fun r hr => absurd hr (Option.some_ne_none r).symm
  | cons r rs =>
    rw [mineOutcome, Outcome.await, mineAfter, MineAnswered, mineArrived]
    cases hr : r.failure with
    | some description =>
      refine iff_of_false (fun h => absurd h.2 List.not_mem_nil) fun h => ?_
      rw [h r rfl] at hr
      cases hr
    | none => exact iff_of_true rfl fun r' hr' => Option.some.inj hr' ▸ hr

/-- If all users have profiles, their stories are those to be shown. -/
theorem eq_storiesByUser {userModels : List Profile} {stories : List (Doc DocID Story)}
    {friendsStory : List FriendStory}
    (h : StoryService.friendsStory userModels stories uids = some friendsStory) :
    friendsStory = storiesByUser userModels stories uids := by
  rw [StoryService.friendsStory, Option.map_eq_some_iff] at h
  obtain ⟨all, hall, rfl⟩ := h
  rw [storiesByUser, (mapM_eq_some_iff_filterMap.1 hall).2]

/-- A fetch that ends with an answer. -/
theorem friendsEnding_of_some {p : Fetch} {ending : Ending}
    (h : (p.answered r r.now).result = some (.friends ending)) :
    friendsEnding (some p) (r :: rs) = some ending := by
  rw [friendsEnding, Fetch.ends, h]

/-- One that goes on. -/
theorem friendsEnding_of_none {p : Fetch} (h : (p.answered r r.now).result = none) :
    friendsEnding (some p) (r :: rs) = friendsEnding (some (p.answered r)) rs := by
  rw [friendsEnding, Fetch.ends, h]
  rfl

/-- How the fetch of the stories of friends ends if a query fails. -/
def failed (description : String) : Ending :=
  .delivered (.fetchFriendsStory [] (some (.ofQuery description)))

/-- What is shown of the stories of friends is as the outcome says. -/
def FriendsShown (table : List FriendStory) (outcome : Outcome (List FriendStory))
    (ending : Option Ending) : Prop :=
  ending ≠ some .trapped ∧
    outcome.Shows table (tableAfter table ending) (errorsOf "Stories" (alertsAfter ending))

/-- If it is so once the next query has been answered, it is so before, and if the query fails. -/
theorem friendsShown_await {p : Fetch} {k : Arrival → List Arrival → Outcome (List FriendStory)}
    {table : List FriendStory} {complete : Arrival → List Arrival → Prop}
    (hfailed : ∀ r description, r.failure = some description →
      (p.answered r r.now).result = some (.friends (failed description)))
    (h : ∀ r rs, r.failure = none →
      (FriendsShown table (k r rs) (friendsEnding (some p) (r :: rs)) ↔ complete r rs))
    (rs : List Arrival) :
    FriendsShown table (.await k rs) (friendsEnding (some p) rs) ↔ IfAnswered complete rs := by
  cases rs with
  | nil => exact iff_of_true ⟨(Option.some_ne_none _).symm, rfl⟩ trivial
  | cons r rs =>
    rw [Outcome.await, IfAnswered]
    cases hr : r.failure with
    | some description =>
      rw [friendsEnding_of_some (hfailed r description hr)]
      refine iff_of_true ⟨?_, rfl, ?_⟩ fun h => absurd h (Option.some_ne_none _)
      · exact fun h => Ending.noConfusion (Option.some.inj h)
      · exact List.mem_cons_self
    | none =>
      rw [forall_prop_of_true rfl]
      exact h r rs hr

/-- The stories of friends who have profiles are shown. -/
theorem friendsShown_third (table : List FriendStory) (h₀ : r₀.failure = none)
    (huids : friendsIn r₀.collections uid ≠ [])
    (hlen : (friendsIn r₀.collections uid).length ≤ 10) (h₁ : r₁.failure = none)
    (rs : List Arrival) :
    FriendsShown table
      (.await (fun r₂ _ => .succeeded (storiesByUser
        (profilesIn r₁.collections (friendsIn r₀.collections uid))
        (storiesIn r₂.collections (friendsIn r₀.collections uid) r₂.now)
        (friendsIn r₀.collections uid))) rs)
      (friendsEnding (some (((fetchMyFriendsStories uid).answered r₀).answered r₁)) rs) ↔
      IfAnswered (fun _ _ => ∀ friendUID ∈ friendsIn r₀.collections uid,
        HasProfile r₁.collections friendUID) rs := by
  refine friendsShown_await (fun r₂ description h₂ => ?_) (fun r₂ rs h₂ => ?_) rs
  · rw [result_third h₀ huids hlen h₁, h₂]
    rfl
  · rw [friendsEnding_of_some (result_third h₀ huids hlen h₁ r₂ r₂.now), h₂]
    dsimp only
    cases hstories : StoryService.friendsStory
        (profilesIn r₁.collections (friendsIn r₀.collections uid))
        (storiesIn r₂.collections (friendsIn r₀.collections uid) r₂.now)
        (friendsIn r₀.collections uid) with
    | none =>
      -- A profile is missing, and the fetch traps.
      obtain ⟨uid', huid', hprofile⟩ := friendsStory_eq_none_iff.1 hstories
      exact iff_of_false (fun h => h.1 rfl) fun h => hprofile (h uid' huid')
    | some stories =>
      refine iff_of_true ⟨?_, eq_storiesByUser hstories⟩ fun uid' huid' => ?_
      · exact fun h => Ending.noConfusion (Option.some.inj h)
      · by_contra hprofile
        rw [friendsStory_eq_none_iff.2 ⟨uid', huid', hprofile⟩] at hstories
        cases hstories

/-- What is shown of the stories of friends is what has come of them exactly if
    there is nothing to be replaced, or friends, not too many, who have profiles. -/
theorem friendsShown_iff (uid : UID) (table : List FriendStory) (rs : List Arrival) :
    FriendsShown table (friendsOutcome uid rs)
      (friendsEnding (some (fetchMyFriendsStories uid)) rs) ↔ FriendsComplete uid table rs := by
  refine friendsShown_await (fun r₀ description h₀ => ?_) (fun r₀ rs h₀ => ?_) rs
  · rw [result_first, h₀]
    rfl
  · have hfirst := result_first uid r₀ r₀.now
    rw [h₀] at hfirst
    dsimp only at hfirst ⊢
    split_ifs at hfirst ⊢ with huids hlen
    · -- There are no friends, and the fetch ends silently.
      rw [friendsEnding_of_some hfirst]
      exact ⟨And.right, fun h => ⟨fun h => Ending.noConfusion (Option.some.inj h), h⟩⟩
    · rw [friendsEnding_of_none hfirst]
      refine Iff.trans ?_ (and_iff_right hlen).symm
      refine friendsShown_await (fun r₁ description h₁ => ?_) (fun r₁ rs h₁ => ?_) rs
      · rw [result_second h₀ huids hlen, h₁]
        rfl
      · have hsecond := result_second h₀ huids hlen r₁ r₁.now
        rw [h₁] at hsecond
        rw [friendsEnding_of_none hsecond]
        exact friendsShown_third table h₀ huids hlen h₁ rs
    · -- There are too many, and the query for their profiles throws.
      rw [friendsEnding_of_some hfirst]
      exact iff_of_false (fun h => h.1 rfl) fun h => hlen h.1

/-! ## Refreshing -/

/-- No error is presented for one's own stories. -/
theorem errorsOf_alertsAfter (ending : Option Ending) :
    errorsOf "My Stories" (alertsAfter ending) = [] := by
  unfold alertsAfter
  split <;> simp [errorsOf]

/-- After any answers, in any order, the app runs and the screen is as the outcomes
    of the fetches say exactly if the query for the user's own stories has not
    failed, and, if he has no friends, no stories of friends were shown, and, if he
    has, these are ten at most, and have profiles if their stories have been read. -/
theorem refreshed_iff (uid : UID) (s : StoriesScreen) (es : List (Pipeline × Arrival)) :
    Refreshed uid s es ↔
      MineAnswered (arrivals .mine es) ∧
        FriendsComplete uid s.tableStories (arrivals .friends es) := by
  have hrun := (Refresh.own_changeDetected uid s).shown_after es
  have hforecast : (s.changeDetected uid true).forecast uid (arrivals .mine es)
      (arrivals .friends es) =
        (let ending := friendsEnding (some (fetchMyFriendsStories uid)) (arrivals .friends es)
        if ending = some .trapped then none
        else
          some (tableAfter s.tableStories ending, s.alerts ++ alertsAfter ending,
            mineAfter uid (s.myStories, s.showMyStoryButton) (some (fetchMyStories uid))
              (arrivals .mine es))) := rfl
  rw [hforecast] at hrun
  rw [← mine_iff (fetchMyStories uid) (s.myStories, s.showMyStoryButton), ← friendsShown_iff]
  constructor
  · rintro ⟨s', presented, hs', halerts, hmine, hfriends⟩
    rw [hs', Option.map_some] at hrun
    dsimp only at hrun
    split_ifs at hrun with htrapped
    rw [Option.some.injEq, Refresh.shown, Prod.mk.injEq, Prod.mk.injEq] at hrun
    obtain ⟨htable, halerts', hscreen⟩ := hrun
    obtain rfl := List.append_cancel_left (halerts.symm.trans halerts')
    rw [hscreen, errorsOf_alertsAfter] at hmine
    rw [htable] at hfriends
    exact ⟨hmine, htrapped, hfriends⟩
  · rintro ⟨hmine, htrapped, hfriends⟩
    rw [if_neg htrapped, Option.map_eq_some_iff] at hrun
    obtain ⟨s', hs', hshown⟩ := hrun
    rw [Refresh.shown, Prod.mk.injEq, Prod.mk.injEq] at hshown
    obtain ⟨htable, halerts, hscreen⟩ := hshown
    refine ⟨s', _, hs', halerts, ?_, ?_⟩
    · rw [hscreen, errorsOf_alertsAfter]
      exact hmine
    · rw [htable]
      exact hfriends

/-- A screen that shows a story of its user. -/
def oneStory : StoriesScreen :=
  ⟨⟨[], [⟨1, ⟨"ann", "cat", 100, "cat.jpg", [], .image⟩⟩]⟩, true, []⟩

/-- The query for the user's own stories fails. -/
def unavailable : List (Pipeline × Arrival) :=
  [(.mine, ⟨some "unavailable", ⟨.empty, .empty, .empty, .empty⟩, 5⟩)]

/-- The story is gone, the button is disabled, and no alert is presented. -/
theorem not_refreshed_unavailable :
    (after Refresh.next (some (oneStory.changeDetected "ann" true)) unavailable).map
      Refresh.shown = some ([], [], [], false) ∧ ¬ Refreshed "ann" oneStory unavailable := by
  have hrun : (after Refresh.next (some (oneStory.changeDetected "ann" true)) unavailable).map
      Refresh.shown = some ([], [], [], false) := by rfl
  refine ⟨hrun, ?_⟩
  rintro ⟨s', presented, hs', halerts, hmine, -⟩
  rw [hs', Option.map_some, Option.some.injEq, Refresh.shown, Prod.mk.injEq, Prod.mk.injEq] at hrun
  obtain ⟨-, -, hscreen⟩ := hrun
  have hsame := hmine.1
  rw [hscreen] at hsame
  exact absurd hsame (by decide)

end YoYo.Player
