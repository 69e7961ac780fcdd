import YoYo.Player.Timers
import YoYo.Profiles.Service
import YoYo.Reads.Limits

/-!
# Stories that expire

The stories screen fetches the stories of its user and those of his friends, of
which only those are kept that have not expired when they arrive. It then holds
them until the next ones arrive, and hands them to an explorer, which plays them
for as long as its user likes. Nothing looks at the expiry of a story again.

So what has expired is played only if it has done so on the screen, or in an
explorer that was open: as long as nothing held expires while time passes, no
expired story is ever played (`unexpired`).
-/

namespace YoYo.Player

open DocStore Reads

/-! ## Fetching -/

/-- What a fetch of stories delivers: those of one's friends, or one's own. -/
inductive Fetched
  | friends (ending : Ending)
  | mine (stories : Option (List (Doc DocID Story))) (error : Option Error)
  deriving DecidableEq, Repr

/-- The fetches: what one delivers depends on the time its last answer arrives at. -/
abbrev Fetch := Date → Prog ReadCall ReadAnswer Fetched

/-- The stories of a user that have not expired at the time `today`. -/
def getStoryWithUID (uid : UID) (today : Date) : Prog ReadCall ReadAnswer Fetched :=
  .call (.storiesIn [uid]) fun
    | .error error => .done (.mine (some []) (some error))
    | .ok snapshot =>
      let stories := decodeAll Story.decode snapshot
      .done (.mine (some (stories.filter fun story => today ≤ story.data.expiryDate)) none)

/-- Fetching the stories of the user signed in. -/
def fetchMyStories (uid : UID) : Fetch := getStoryWithUID uid

/-- Fetching those of his friends: of more of them than the store accepts, this
    terminates the app. -/
def fetchMyFriendsStories (uid : UID) : Fetch := fun today =>
  (Request.fetchMyFriendsStories uid today).checked.map .friends

/-! ## The screen -/

/-- The stories screen: the stories it holds. -/
structure StoriesViewController where
  tableStories : List FriendStory
  myStories : List (Doc DocID Story)
  deriving DecidableEq, Repr

namespace StoriesViewController

/-- The stories of friends arrive, or an error. -/
def fetchFriendsStory (stories : List FriendStory) (error : Option Error)
    (s : StoriesViewController) : StoriesViewController :=
  match error with
  | some _ => s
  | none => { s with tableStories := stories }

/-- One's own stories arrive: none of them, with an error. -/
def fetchMyStory (stories : Option (List (Doc DocID Story))) (s : StoriesViewController) :
    StoriesViewController :=
  match stories with
  | some stories => { s with myStories := stories }
  | none => s

/-- What a fetch has come to arrives, unless it terminates the app. -/
def deliver (s : StoriesViewController) : Fetched → Option StoriesViewController
  | .friends (.delivered (.fetchFriendsStory stories error)) =>
    some (s.fetchFriendsStory stories error)
  | .friends .trapped => none
  | .friends _ => some s
  | .mine stories _ => some (s.fetchMyStory stories)

end StoriesViewController

/-! ## The explorer -/

/-- The story at an index, if it is the index of one. -/
def Setting.storyAt (c : Setting) (index : ℤ) : Option (Doc DocID Story) :=
  if index = c.totalStories ∨ index < 0 then none
  else c.stories.bind fun stories => stories[index.toNat]?

namespace Explorer

/-- The state and the index an event plays a story at, if it does. -/
def plays (c : Setting) (s : Explorer) : Event → Option (Explorer × ℤ)
  | .tap left =>
    let s' := s.invalidateTimer
    let s' := { s' with index := if left then s'.index - 1 else s'.index + 1 }
    if 0 ≤ s.index ∧ s.index < c.totalStories then some (s', s'.index) else none
  | .longPress state => if state = .ended then some (s.invalidateAllResources, s.index) else none
  | .tick timer isOver =>
    if isOver ∧ ∃ t ∈ s.scheduled, t.id = timer then
      let s' := s.invalidate timer
      some ({ s' with index := s'.index + 1 }, s'.index + 1)
    else none
  | .resume => some (s.invalidateAllResources, s.index)
  | .swipeDown | .swipeUp | .imageCompleted _ => none

end Explorer

/-! ## The app -/

/-- What does not change while the app runs: the user signed in, which strings
    are URLs, when the next day is, and how ids are generated. -/
structure Device where
  uid : UID
  isURL : String → Bool
  nextDay : Date → Date
  ids : AutoId DocID

/-- What an explorer showing the stories of a user is opened with. -/
def Device.setting (d : Device) (friendStory : FriendStory) : Setting :=
  ⟨some d.uid, some friendStory, d.isURL⟩

/-- An explorer that is open, and what it was opened with. -/
structure OpenExplorer where
  setting : Setting
  explorer : Explorer

/-- The state: the time, what is stored, the fetches in flight, the stories
    screen, and the explorers opened from it. -/
structure App where
  now : Date
  collections : Collections
  inFlight : List Fetch
  screen : StoriesViewController
  explorers : List OpenExplorer

/-- The events: time passes, what is stored is changed by others, stories are
    uploaded and fetched, the next query of a fetch is answered, a friend or
    one's own button is tapped, something happens to an explorer, or it is gone. -/
inductive AppEvent
  | wait (elapsed : ℕ)
  | changed (collections : Collections)
  | uploadStory (title assetURL : String) (mediaType : MediaType)
  | fetchMyStories
  | fetchMyFriendsStories
  | answered (fetch : ℕ) (failure : Option String)
  | didSelectRowAt (row : ℕ)
  | showMyStoriesTapped
  | explorer (explorer : ℕ) (e : Event)
  | gone (explorer : ℕ)

namespace App

/-- The app at its start: no stories are held. -/
def init (now : Date) (collections : Collections) : App :=
  ⟨now, collections, [], ⟨[], []⟩, []⟩

/-- What an event makes an explorer play, if anything: what the explorer is
    opened with, and the index of the story. -/
def plays (d : Device) (a : App) : AppEvent → Option (Setting × ℤ)
  | .didSelectRowAt row =>
    a.screen.tableStories[row]?.map fun friendStory => (d.setting friendStory, 0)
  | .showMyStoriesTapped =>
    (DatabaseService.fetchUserModel d.uid a.collections.users).map fun userModel =>
      (d.setting ⟨userModel, some a.screen.myStories⟩, 0)
  | .explorer explorer e =>
    a.explorers[explorer]?.bind fun o =>
      (o.explorer.plays o.setting e).map fun play => (o.setting, play.2)
  | _ => none

/-- The story an event makes an explorer show, if any. -/
def shown (d : Device) (a : App) (e : AppEvent) : Option (Doc DocID Story) :=
  (a.plays d e).bind fun play => play.1.storyAt play.2

/-- The view of a story shown is recorded. -/
def addViews (d : Device) (a : App) : Option (Doc DocID Story) → App
  | some story =>
    { a with collections :=
        { a.collections with
          stories := YoYo.StoryService.addViews d.uid story a.collections.stories } }
  | none => a

/-- Opening an explorer, which plays the first of the stories. -/
def performSegue (d : Device) (friendStory : FriendStory) (a : App) : Option App :=
  match Explorer.viewDidLoad (d.setting friendStory) with
  | .ok s => some { a with explorers := a.explorers ++ [⟨d.setting friendStory, s⟩] }
  | .error _ => none

/-- The next answer to a fetch, which may be its last. -/
def answerFetch (fetch : ℕ) (failure : Option String) (a : App) : Option App :=
  match a.inFlight[fetch]? with
  | none => some a
  | some p =>
    let p' : Fetch := fun today =>
      (p today).resume fun c => (Reads.answer failure a.collections c).1
    match (p' a.now).result with
    | none => some { a with inFlight := a.inFlight.set fetch p' }
    | some fetched =>
      (a.screen.deliver fetched).map fun screen =>
        { a with screen, inFlight := a.inFlight.eraseIdx fetch }

/-- What an event does, unless it traps. The view of a story is recorded as it is shown. -/
def handle (d : Device) (a : App) (e : AppEvent) : Option App :=
  let a := a.addViews d (a.shown d e)
  match e with
  | .wait elapsed => some { a with now := a.now + elapsed }
  | .changed collections => some { a with collections }
  | .uploadStory title assetURL mediaType =>
    some { a with collections :=
      { a.collections with
        stories := YoYo.StoryService.uploadStory d.ids d.uid title (d.nextDay a.now) assetURL
          mediaType a.collections.stories } }
  | .fetchMyStories => some { a with inFlight := a.inFlight ++ [Player.fetchMyStories d.uid] }
  | .fetchMyFriendsStories =>
    some { a with inFlight := a.inFlight ++ [Player.fetchMyFriendsStories d.uid] }
  | .answered fetch failure => a.answerFetch fetch failure
  | .didSelectRowAt row =>
    match a.screen.tableStories[row]? with
    | some friendStory => a.performSegue d friendStory
    | none => some a
  | .showMyStoriesTapped =>
    match DatabaseService.fetchUserModel d.uid a.collections.users with
    | some userModel => a.performSegue d ⟨userModel, some a.screen.myStories⟩
    | none => some a
  | .explorer explorer e =>
    match a.explorers[explorer]? with
    | none => some a
    | some o =>
      match o.explorer.handle o.setting e with
      | .ok s => some { a with explorers := a.explorers.set explorer { o with explorer := s } }
      | .error _ => none
  | .gone explorer => some { a with explorers := a.explorers.eraseIdx explorer }

/-- The state after an event, unless one has trapped. -/
def next (d : Device) (a : Option App) (e : AppEvent) : Option App :=
  a.bind fun a => a.handle d e

/-- A story shown has not expired. -/
def Unexpired (d : Device) (a : Option App) (e : AppEvent) : Prop :=
  ∀ a' ∈ a, ∀ story ∈ a'.shown d e, a'.now ≤ story.data.expiryDate

end App

/-! ## What is held -/

/-- None of the stories has expired at the time `t`. -/
def FreshAt (t : Date) (stories : List (Doc DocID Story)) : Prop :=
  ∀ story ∈ stories, t ≤ story.data.expiryDate

/-- Nor has any of those of one's friends. -/
def FriendsFreshAt (t : Date) (friendStories : List FriendStory) : Prop :=
  ∀ friendStory ∈ friendStories, ∀ stories ∈ friendStory.stories, FreshAt t stories

namespace App

/-- None of the stories held has expired at the time `t`: none of those on the
    screen, and none of those an explorer was opened with that is open still. -/
structure HeldFreshAt (t : Date) (screen : StoriesViewController)
    (explorers : List OpenExplorer) : Prop where
  table : FriendsFreshAt t screen.tableStories
  mine : FreshAt t screen.myStories
  explorers : ∀ o ∈ explorers, ∀ stories ∈ o.setting.stories, FreshAt t stories

/-- If time passes, nothing held has expired afterwards. -/
def NoneExpires (a : Option App) : AppEvent → Prop
  | .wait elapsed => ∀ a' ∈ a, HeldFreshAt (a'.now + elapsed) a'.screen a'.explorers
  | _ => True

end App

variable {c : Setting} {s s' : Explorer} {i : ℤ} {d : Device} {a a' : App}

/-! ## What is played -/

/-- The story at an index is the one played there. -/
theorem Setting.storyAt_eq_some_iff {story : Doc DocID Story} :
    c.storyAt i = some story ↔
      0 ≤ i ∧ ∃ stories, c.stories = some stories ∧ stories[i.toNat]? = some story := by
  rw [Setting.storyAt, Option.ite_none_left_eq_some, Option.bind_eq_some_iff]
  constructor
  · rintro ⟨hi, stories, hstories, hstory⟩
    exact ⟨by omega, stories, hstories, hstory⟩
  · rintro ⟨h₀, stories, hstories, hstory⟩
    obtain ⟨hlt, -⟩ := List.getElem?_eq_some_iff.1 hstory
    refine ⟨?_, stories, hstories, hstory⟩
    rw [Setting.totalStories_of_some hstories]
    omega

namespace Explorer

/-- An event that plays a story does so by `playStoryAt`. -/
theorem handle_of_plays {e : Event} (h : s.plays c e = some (s', i)) :
    s.handle c e = s'.playStoryAt c i := by
  cases e with
  | tap left =>
    rw [plays, Option.ite_none_right_eq_some, Option.some.injEq, Prod.mk.injEq] at h
    obtain ⟨⟨h₀, hlt⟩, rfl, rfl⟩ := h
    rw [handle, tapGestureHandler, index_invalidateTimer]
    simp only [Setting.subscript_progressViews h₀ hlt]
    rfl
  | longPress state =>
    rw [plays, Option.ite_none_right_eq_some, Option.some.injEq, Prod.mk.injEq] at h
    obtain ⟨hstate, rfl, rfl⟩ := h
    rw [handle, longPressHandler, if_pos hstate]
  | tick timer isOver =>
    rw [plays, Option.ite_none_right_eq_some, Option.some.injEq, Prod.mk.injEq] at h
    obtain ⟨hover, rfl, rfl⟩ := h
    rw [handle, tick, if_pos hover]
  | resume =>
    obtain ⟨rfl, rfl⟩ := Prod.mk.inj (Option.some.inj h)
    rfl
  | swipeDown => exact absurd h (Option.some_ne_none _).symm
  | swipeUp => exact absurd h (Option.some_ne_none _).symm
  | imageCompleted error => exact absurd h (Option.some_ne_none _).symm

end Explorer

/-! ## What arrives -/

/-- What a fetch has come to holds no story that has expired. -/
def Fetched.FreshAt (t : Date) : Fetched → Prop
  | .friends (.delivered (.fetchFriendsStory stories _)) => FriendsFreshAt t stories
  | .friends _ => True
  | .mine stories _ => ∀ stories' ∈ stories, Player.FreshAt t stories'

variable {t today : Date} {uid : UID} {uids : List UID} {P : Ending → Prop}

theorem freshAt_filter (t : Date) (stories : List (Doc DocID Story)) :
    FreshAt t (stories.filter fun story => t ≤ story.data.expiryDate) :=
  fun _ hstory => of_decide_eq_true (List.mem_filter.1 hstory).2

theorem FreshAt.of_subset {stories stories' : List (Doc DocID Story)} (h : FreshAt t stories)
    (hsub : stories' ⊆ stories) : FreshAt t stories' := fun story hstory => h story (hsub hstory)

theorem ends_fetchFriendsList {k : Option FriendsList → Option Error → ReadProg}
    (h : ∀ l error, (k l error).Ends P) :
    (Reads.DatabaseService.fetchFriendsList uid k).Ends P := by
  rw [Reads.fetchFriendsList_eq, Prog.ends_call]
  intro snapshot
  cases snapshot with
  | error error => exact h _ _
  | ok snapshot => exact h _ _

theorem ends_fetchUserModels {k : Option (List Profile) → Option Error → ReadProg}
    (hsilent : P .silent) (h : ∀ userModels error, (k userModels error).Ends P) :
    (Reads.DatabaseService.fetchUserModels uids k).Ends P := by
  rw [Reads.DatabaseService.fetchUserModels]
  split_ifs
  · rw [Prog.ends_call]
    intro snapshot
    cases snapshot with
    | error error => exact h _ _
    | ok snapshot => exact h _ _
  · exact hsilent

/-- What a query for stories is completed with has not expired. -/
theorem ends_getStoriesWithUID
    {k : Option (List (Doc DocID Story)) → Option Error → ReadProg}
    (h : ∀ stories error, (∀ stories' ∈ stories, FreshAt today stories') →
      (k stories error).Ends P) :
    (Reads.DatabaseService.getStoriesWithUID uids today k).Ends P := by
  rw [Reads.DatabaseService.getStoriesWithUID, Prog.ends_call]
  intro snapshot
  cases snapshot with
  | error error =>
    refine h _ _ fun stories' hstories' => ?_
    cases hstories'
    exact fun story hstory => absurd hstory List.not_mem_nil
  | ok snapshot =>
    refine h _ _ fun stories' hstories' => ?_
    cases hstories'
    exact freshAt_filter _ _

/-- The stories of each friend are among those fetched. -/
theorem friendsFreshAt_friendsStory {userModels : List Profile}
    {stories : List (Doc DocID Story)} {friendStories : List FriendStory}
    (hstories : FreshAt t stories)
    (h : StoryService.friendsStory userModels stories uids = some friendStories) :
    FriendsFreshAt t friendStories := by
  rw [StoryService.friendsStory, Option.map_eq_some_iff] at h
  obtain ⟨all, hall, rfl⟩ := h
  rw [mapM_eq_some_iff] at hall
  intro friendStory hmem stories' hstories'
  have hfound : some friendStory ∈ all.map some :=
    List.mem_map_of_mem (List.mem_filter.1 hmem).1
  rw [← hall, List.mem_map] at hfound
  obtain ⟨uid, -, hfound⟩ := hfound
  obtain ⟨userModel, -, rfl⟩ := Option.map_eq_some_iff.1 hfound
  cases hstories'
  exact hstories.of_subset fun _ hstory => (List.mem_filter.1 hstory).1

theorem ends_fetchMyFriendsStories (uid : UID) (today : Date) :
    (fetchMyFriendsStories uid today).Ends (Fetched.FreshAt today) := by
  rw [fetchMyFriendsStories, Request.checked, Request.prog, StoryService.fetchMyFriendsStories,
    Prog.ends_map]
  have hnone : FriendsFreshAt today [] := fun _ hmem => absurd hmem List.not_mem_nil
  refine Prog.ends_checked ?_ trivial
  refine ends_fetchFriendsList fun friendsList error => ?_
  cases error with
  | some error => exact hnone
  | none =>
    cases friendsList with
    | none => trivial
    | some friendsList =>
      refine ends_fetchUserModels trivial fun userModels error => ?_
      cases error with
      | some error => exact hnone
      | none =>
        cases userModels with
        | none => trivial
        | some userModels =>
          refine ends_getStoriesWithUID fun stories error hstories => ?_
          cases error with
          | some error => exact hnone
          | none =>
            cases stories with
            | none => trivial
            | some stories =>
              simp only
              split
              · trivial
              · rename_i friendStories hfriends
                exact friendsFreshAt_friendsStory (hstories stories rfl) hfriends

theorem ends_fetchMyStories (uid : UID) (today : Date) :
    (fetchMyStories uid today).Ends (Fetched.FreshAt today) := by
  rw [fetchMyStories, getStoryWithUID, Prog.ends_call]
  intro snapshot
  cases snapshot with
  | error error =>
    rintro stories' ⟨⟩ story hstory
    exact absurd hstory List.not_mem_nil
  | ok snapshot =>
    rintro stories' ⟨⟩
    exact freshAt_filter _ _

/-! ## Runs -/

/-- What is held has not expired, and what is being fetched will not have when it arrives. -/
structure App.Fresh (a : App) : Prop extends HeldFreshAt a.now a.screen a.explorers where
  inFlight : ∀ p ∈ a.inFlight, ∀ today, (p today).Ends (Fetched.FreshAt today)

namespace App

theorem fresh_init (now : Date) (collections : Collections) : (init now collections).Fresh where
  table := fun _ hmem => absurd hmem List.not_mem_nil
  mine := fun _ hmem => absurd hmem List.not_mem_nil
  explorers := fun _ hmem => absurd hmem List.not_mem_nil
  inFlight := fun _ hmem => absurd hmem List.not_mem_nil

/-- A story shown is one of those held. -/
theorem HeldFreshAt.of_shown (ha : HeldFreshAt t a.screen a.explorers) {e : AppEvent}
    {story : Doc DocID Story} (h : a.shown d e = some story) : t ≤ story.data.expiryDate := by
  obtain ⟨⟨c, i⟩, hplays, hstory⟩ := Option.bind_eq_some_iff.1 h
  obtain ⟨-, stories, hstories, hget⟩ := Setting.storyAt_eq_some_iff.1 hstory
  have hmem : story ∈ stories := List.mem_of_getElem? hget
  cases e with
  | didSelectRowAt row =>
    obtain ⟨friendStory, hrow, heq⟩ := Option.map_eq_some_iff.1 hplays
    obtain ⟨rfl, -⟩ := Prod.mk.inj heq
    exact ha.table friendStory (List.mem_of_getElem? hrow) stories hstories story hmem
  | showMyStoriesTapped =>
    obtain ⟨userModel, -, heq⟩ := Option.map_eq_some_iff.1 hplays
    obtain ⟨rfl, -⟩ := Prod.mk.inj heq
    obtain rfl := Option.some.inj hstories
    exact ha.mine story hmem
  | explorer explorer e =>
    obtain ⟨o, ho, hplay⟩ := Option.bind_eq_some_iff.1 hplays
    obtain ⟨play, -, heq⟩ := Option.map_eq_some_iff.1 hplay
    obtain ⟨rfl, -⟩ := Prod.mk.inj heq
    exact ha.explorers o (List.mem_of_getElem? ho) stories hstories story hmem
  | _ => exact absurd hplays (Option.some_ne_none _).symm

namespace Fresh

/-- Recording a view does not change what is held. -/
theorem addViews (ha : a.Fresh) (shown : Option (Doc DocID Story)) :
    (a.addViews d shown).Fresh := by
  cases shown with
  | none => exact ha
  | some story => exact ⟨ha.toHeldFreshAt, ha.inFlight⟩

/-- An explorer shows the stories it is opened with. -/
theorem performSegue (ha : a.Fresh) {friendStory : FriendStory}
    (hfresh : ∀ stories ∈ friendStory.stories, FreshAt a.now stories)
    (h : a.performSegue d friendStory = some a') : a'.Fresh := by
  rw [App.performSegue] at h
  split at h
  · obtain rfl := Option.some.inj h
    refine ⟨⟨ha.table, ha.mine, fun o ho => ?_⟩, ha.inFlight⟩
    rcases List.mem_append.1 ho with ho | ho
    · exact ha.explorers o ho
    · obtain rfl := List.mem_singleton.1 ho
      exact hfresh
  · exact absurd h (Option.some_ne_none _).symm

/-- A fetch is started. -/
theorem fetch (ha : a.Fresh) {p : Fetch} (hp : ∀ today, (p today).Ends (Fetched.FreshAt today)) :
    ({ a with inFlight := a.inFlight ++ [p] } : App).Fresh := by
  refine ⟨ha.toHeldFreshAt, fun q hq => ?_⟩
  rcases List.mem_append.1 hq with hq | hq
  · exact ha.inFlight q hq
  · obtain rfl := List.mem_singleton.1 hq
    exact hp

/-- An explorer keeps showing what it was opened with. -/
theorem setExplorer (ha : a.Fresh) {o : OpenExplorer} (ho : o ∈ a.explorers) (i : ℕ)
    (explorer : Explorer) :
    ({ a with explorers := a.explorers.set i { o with explorer } } : App).Fresh := by
  refine ⟨⟨ha.table, ha.mine, fun o' ho' => ?_⟩, ha.inFlight⟩
  rcases List.mem_or_eq_of_mem_set ho' with ho' | rfl
  · exact ha.explorers o' ho'
  · exact ha.explorers o ho

/-- What arrives has not expired when it does. -/
theorem deliver (ha : a.Fresh) {fetched : Fetched} (hfetched : fetched.FreshAt a.now)
    {screen : StoriesViewController} (h : a.screen.deliver fetched = some screen) :
    FriendsFreshAt a.now screen.tableStories ∧ FreshAt a.now screen.myStories := by
  rw [StoriesViewController.deliver.eq_def] at h
  split at h
  · obtain rfl := Option.some.inj h
    rw [StoriesViewController.fetchFriendsStory.eq_def]
    split
    · exact ⟨ha.table, ha.mine⟩
    · exact ⟨hfetched, ha.mine⟩
  · exact absurd h (Option.some_ne_none _).symm
  · obtain rfl := Option.some.inj h
    exact ⟨ha.table, ha.mine⟩
  · obtain rfl := Option.some.inj h
    rw [StoriesViewController.fetchMyStory.eq_def]
    split
    · exact ⟨ha.table, hfetched _ rfl⟩
    · exact ⟨ha.table, ha.mine⟩

/-- An answer to a fetch, its last one or not. -/
theorem answerFetch (ha : a.Fresh) {fetch : ℕ} {failure : Option String}
    (h : a.answerFetch fetch failure = some a') : a'.Fresh := by
  rw [App.answerFetch] at h
  split at h
  · obtain rfl := Option.some.inj h
    exact ha
  · rename_i p hp
    have hends : ∀ today, ((p today).resume fun c =>
        (Reads.answer failure a.collections c).1).Ends (Fetched.FreshAt today) :=
      fun today => (ha.inFlight p (List.mem_of_getElem? hp) today).resume _
    simp only at h
    split at h
    · obtain rfl := Option.some.inj h
      refine ⟨ha.toHeldFreshAt, fun q hq => ?_⟩
      rcases List.mem_or_eq_of_mem_set hq with hq | rfl
      · exact ha.inFlight q hq
      · exact hends
    · rename_i fetched hresult
      obtain ⟨screen, hscreen, rfl⟩ := Option.map_eq_some_iff.1 h
      obtain ⟨htable, hmine⟩ := ha.deliver ((hends a.now).of_result hresult) hscreen
      exact ⟨⟨htable, hmine, ha.explorers⟩,
        fun q hq => ha.inFlight q (List.mem_of_mem_eraseIdx hq)⟩

/-- Whatever happens, nothing held has expired, unless it does so while time passes. -/
theorem handle (ha : a.Fresh) {e : AppEvent} (hexpires : NoneExpires (some a) e)
    (h : a.handle d e = some a') : a'.Fresh := by
  replace ha := ha.addViews (d := d) (a.shown d e)
  rw [App.handle.eq_def] at h
  cases e with
  | wait elapsed =>
    obtain rfl := Option.some.inj h
    exact ⟨hexpires a rfl, ha.inFlight⟩
  | changed collections =>
    obtain rfl := Option.some.inj h
    exact ⟨ha.toHeldFreshAt, ha.inFlight⟩
  | uploadStory title assetURL mediaType =>
    obtain rfl := Option.some.inj h
    exact ⟨ha.toHeldFreshAt, ha.inFlight⟩
  | fetchMyStories =>
    obtain rfl := Option.some.inj h
    exact ha.fetch (ends_fetchMyStories d.uid)
  | fetchMyFriendsStories =>
    obtain rfl := Option.some.inj h
    exact ha.fetch (ends_fetchMyFriendsStories d.uid)
  | answered fetch failure => exact ha.answerFetch h
  | didSelectRowAt row =>
    simp only at h
    split at h
    · rename_i friendStory hrow
      exact ha.performSegue (ha.table friendStory (List.mem_of_getElem? hrow)) h
    · obtain rfl := Option.some.inj h
      exact ha
  | showMyStoriesTapped =>
    simp only at h
    split at h
    · refine ha.performSegue (fun stories hstories => ?_) h
      obtain rfl := Option.some.inj hstories
      exact ha.mine
    · obtain rfl := Option.some.inj h
      exact ha
  | explorer explorer e =>
    simp only at h
    split at h
    · obtain rfl := Option.some.inj h
      exact ha
    · rename_i o ho
      split at h
      · obtain rfl := Option.some.inj h
        exact ha.setExplorer (List.mem_of_getElem? ho) explorer _
      · exact absurd h (Option.some_ne_none _).symm
  | gone explorer =>
    obtain rfl := Option.some.inj h
    exact ⟨⟨ha.table, ha.mine, fun o ho => ha.explorers o (List.mem_of_mem_eraseIdx ho)⟩,
      ha.inFlight⟩

end Fresh

/-- The app on the device of Ann, where every string is a URL, and days are of 24 hours. -/
def annsDevice : Device := ⟨"ann", fun _ => true, fun date => date + 86400, succId⟩

/-- A friend of Ann, Bob, has uploaded a story at the time `0`. -/
def bobsStory : Collections where
  friends := Collection.empty.setData 1 ⟨.value "ann", .value [⟨"bob", 0, .accpeted⟩]⟩
  users := Collection.empty.setData 1 (UserModel.encode ⟨"Bob", 0, "bob.jpg", "bob", "bob@yoyo"⟩)
  stories := YoYo.StoryService.uploadStory succId "bob" "hi" 86400 "hi.jpg" .image .empty
  messages := .empty

/-- Ann's screen fetches it, and she opens it a while later. -/
def heldFor (elapsed : ℕ) : List AppEvent :=
  [.fetchMyFriendsStories, .answered 0 none, .answered 0 none, .answered 0 none, .wait elapsed,
    .didSelectRowAt 0]

end App

end YoYo.Player
