import YoYo.DocStore.Run
import YoYo.Reads.Service

/-!
# The story explorer

`StoryExplorerViewController`: it shows the stories of a user one after the
other, each for some time, which a repeating timer measures. The timer of a
video is started with it, and that of an image once the image is loaded.

The explorer reacts to events: gestures, the ticks of the timers scheduled, the
completion of a load, and being resumed by the sheet of viewers. These come in
any order, also after the explorer has been told to quit, until it is gone. An
event may also trap, which ends the app.

How far a timer has got is not modelled: each of its ticks may be the one in
which the time of its story is over. Nor is what only the screen shows.
-/

namespace YoYo.Player

open DocStore Reads

/-- What traps: a subscript out of range, or unwrapping a URL that is none. -/
inductive Trap
  | indexOutOfRange
  | noURL
  deriving DecidableEq, Repr

/-- The element of an array at an index, trapping outside of its range. -/
def subscript {α : Type} (a : List α) (i : ℤ) : Except Trap α :=
  if 0 ≤ i then
    match a[i.toNat]? with
    | some x => .ok x
    | none => .error .indexOutOfRange
  else .error .indexOutOfRange

/-- What an explorer is opened with: the user signed in, the stories it shows,
    if there are any, and which strings are URLs. -/
structure Setting where
  uid : Option UID
  friendStory : Option FriendStory
  isURL : String → Bool

namespace Setting

/-- The stories to show. -/
def stories (c : Setting) : Option (List (Doc DocID Story)) :=
  c.friendStory.bind FriendStory.stories

/-- How many there are. -/
def totalStories (c : Setting) : ℕ := (c.stories.map List.length).getD 0

/-- The subviews of `progressStackView`: one for each story, known by its position. -/
def progressViews (c : Setting) : List ℕ := List.range c.totalStories

end Setting

/-- A repeating timer that is scheduled and not invalidated, and the progress
    view it draws. -/
structure ScheduledTimer where
  id : ℕ
  progressView : ℕ
  deriving DecidableEq, Repr

/-- The state of an explorer. The last timer started is remembered; of those
    started before, some may be scheduled still. Of the image view, there is one
    load in flight at most, known by the progress view its completion is to draw.

    Whether it is `playing` is not a variable of the source: no more since all
    resources have been invalidated, until the next story is played. -/
structure Explorer where
  index : ℤ
  timer : Option ℕ
  scheduled : List ScheduledTimer
  started : ℕ
  imageLoad : Option ℕ
  playing : Bool
  deriving DecidableEq, Repr

/-- The states of a gesture recognizer that is told apart. -/
inductive GestureState
  | began
  | changed
  | ended
  deriving DecidableEq, Repr

/-- The events: gestures, the tick of a timer, the last of its story or not, the
    completion of the load of an image, and the end of the sheet of viewers. -/
inductive Event
  | tap (left : Bool)
  | longPress (state : GestureState)
  | swipeDown
  | swipeUp
  | tick (timer : ℕ) (isOver : Bool)
  | imageCompleted (error : Bool)
  | resume
  deriving DecidableEq, Repr

namespace Explorer

/-- Before anything is played. -/
def init : Explorer := ⟨0, none, [], 0, none, false⟩

/-- Invalidating a timer. -/
def invalidate (s : Explorer) (id : ℕ) : Explorer :=
  { s with scheduled := s.scheduled.filter fun timer => timer.id ≠ id }

/-- Invalidating the timer remembered, if there is one. -/
def invalidateTimer (s : Explorer) : Explorer :=
  match s.timer with
  | some timer => s.invalidate timer
  | none => s

/-- Pausing: no load of an image is cancelled. -/
def invalidateAllResources (s : Explorer) : Explorer := { s.invalidateTimer with playing := false }

/-- Quitting, from a navigation controller or not. -/
def quitThisView (s : Explorer) : Explorer := s.invalidateAllResources

/-- Starting the timer of a story. -/
def generateProgess (s : Explorer) (progressView : ℕ) : Explorer :=
  { s with
    timer := some s.started
    scheduled := s.scheduled ++ [⟨s.started, progressView⟩]
    started := s.started + 1 }

/-- Showing an image: the load of another one is cancelled. -/
def showStoryImage (c : Setting) (index : ℤ) (s : Explorer) : Except Trap Explorer := do
  let progressView ← subscript c.progressViews index
  return { s with imageLoad := some progressView }

/-- Showing a video. -/
def showStoryVideo (c : Setting) (story : Story) (index : ℤ) (s : Explorer) :
    Except Trap Explorer := do
  if ¬ c.isURL story.assetURL then throw .noURL
  let progressView ← subscript c.progressViews index
  return s.generateProgess progressView

/-- Playing the story at an index, or quitting at either end. -/
def playStoryAt (c : Setting) (index : ℤ) (s : Explorer) : Except Trap Explorer :=
  if index = c.totalStories ∨ index < 0 then .ok s.quitThisView
  else
    match c.stories with
    | some stories => do
      let story ← subscript stories index
      let s := { s with playing := true }
      match story.data.mediaType with
      | .image => s.showStoryImage c index
      | .video => s.showStoryVideo c story.data index
    | none => .ok s

/-- Opening an explorer. -/
def viewDidLoad (c : Setting) : Except Trap Explorer := init.playStoryAt c 0

/-- A tap on the left half of the view goes back, and one on the right half goes on. -/
def tapGestureHandler (c : Setting) (left : Bool) (s : Explorer) : Except Trap Explorer := do
  let s := s.invalidateTimer
  let originalIndex := s.index
  let s := { s with index := if left then s.index - 1 else s.index + 1 }
  let _progressView ← subscript c.progressViews originalIndex
  s.playStoryAt c s.index

/-- A long press pauses, and its end goes on. -/
def longPressHandler (c : Setting) (state : GestureState) (s : Explorer) : Except Trap Explorer :=
  if state = .ended then s.invalidateAllResources.playStoryAt c s.index
  else if state = .began then .ok s.invalidateAllResources
  else .ok s

/-- The viewers of one's own story, if it has any, are shown on a sheet. -/
def showMyViews (c : Setting) (s : Explorer) : Except Trap Explorer :=
  match c.uid, c.friendStory with
  | some uid, some friendStory =>
    match friendStory.stories with
    | some stories => do
      let story ← subscript stories s.index
      if uid = friendStory.userModel.data.userID ∧ story.data.viewedBy.length > 0 then
        return s.invalidateAllResources
      else return s
    | none => .ok s
  | _, _ => .ok s

/-- The end of the sheet of viewers. -/
def resume (c : Setting) (s : Explorer) : Except Trap Explorer :=
  s.invalidateAllResources.playStoryAt c s.index

/-- A tick of a timer that is scheduled: once the time of its story is over, the
    next one is played. -/
def tick (c : Setting) (timer : ℕ) (isOver : Bool) (s : Explorer) : Except Trap Explorer :=
  if isOver ∧ ∃ t ∈ s.scheduled, t.id = timer then
    let s := s.invalidate timer
    let s := { s with index := s.index + 1 }
    s.playStoryAt c s.index
  else .ok s

/-- The completion of the load in flight, if there is one. -/
def imageCompleted (error : Bool) (s : Explorer) : Explorer :=
  match s.imageLoad with
  | some progressView =>
    let s := { s with imageLoad := none }
    if error then s else s.generateProgess progressView
  | none => s

/-- What an event does. -/
def handle (c : Setting) (s : Explorer) : Event → Except Trap Explorer
  | .tap left => s.tapGestureHandler c left
  | .longPress state => s.longPressHandler c state
  | .swipeDown => .ok s.quitThisView
  | .swipeUp => s.showMyViews c
  | .tick timer isOver => s.tick c timer isOver
  | .imageCompleted error => .ok (s.imageCompleted error)
  | .resume => s.resume c

/-- The state after an event, unless it has trapped before, or traps now. -/
def next (c : Setting) (s : Except Trap Explorer) (e : Event) : Except Trap Explorer :=
  s.bind fun s => s.handle c e

end Explorer

/-! ## Playing -/

variable {α : Type} {a : List α} {c : Setting} {s : Explorer} {i : ℤ}

/-- An index in the range of an array. -/
theorem subscript_of_lt (h₀ : 0 ≤ i) (h : i < a.length) :
    ∃ x, a[i.toNat]? = some x ∧ subscript a i = .ok x := by
  have hlt : i.toNat < a.length := by omega
  refine ⟨a[i.toNat], List.getElem?_eq_getElem hlt, ?_⟩
  rw [subscript, if_pos h₀, List.getElem?_eq_getElem hlt]

/-- An index out of it. -/
theorem subscript_of_not (h : ¬ (0 ≤ i ∧ i < a.length)) :
    subscript a i = .error .indexOutOfRange := by
  rw [subscript]
  split_ifs with h₀
  · rw [List.getElem?_eq_none (by omega)]
  · rfl

namespace Setting

@[simp] theorem length_progressViews : c.progressViews.length = c.totalStories := List.length_range

theorem totalStories_of_some {stories : List (Doc DocID Story)} (h : c.stories = some stories) :
    c.totalStories = stories.length := by
  rw [totalStories, h]
  rfl

theorem totalStories_of_none (h : c.stories = none) : c.totalStories = 0 := by
  rw [totalStories, h]
  rfl

/-- The progress view of a story is known by its position. -/
theorem subscript_progressViews (h₀ : 0 ≤ i) (h : i < c.totalStories) :
    subscript c.progressViews i = .ok i.toNat := by
  obtain ⟨x, hx, heq⟩ := subscript_of_lt (a := c.progressViews) h₀ (by simpa using h)
  rw [progressViews, List.getElem?_range (by omega), Option.some.injEq] at hx
  rw [heq, hx]

end Setting

namespace Explorer

@[simp] theorem index_invalidate (id : ℕ) : (s.invalidate id).index = s.index := rfl

@[simp] theorem index_invalidateTimer : s.invalidateTimer.index = s.index := by
  rw [invalidateTimer]
  split <;> rfl

@[simp] theorem index_invalidateAllResources : s.invalidateAllResources.index = s.index :=
  index_invalidateTimer

/-- Playing at either end quits. -/
theorem playStoryAt_of_end (h : i = c.totalStories ∨ i < 0) :
    s.playStoryAt c i = .ok s.quitThisView := by
  rw [playStoryAt, if_pos h]

/-- A story played is an image, whose load is started, or a video, whose timer is,
    unless it has no URL. -/
theorem playStoryAt_of_lt (h₀ : 0 ≤ i) (h : i < c.totalStories) :
    ∃ stories story, c.stories = some stories ∧ stories[i.toNat]? = some story ∧
      s.playStoryAt c i =
        match story.data.mediaType with
        | .image => .ok { s with playing := true, imageLoad := some i.toNat }
        | .video =>
          if c.isURL story.data.assetURL then
            .ok (generateProgess { s with playing := true } i.toNat)
          else .error .noURL := by
  cases hstories : c.stories with
  | none =>
    rw [Setting.totalStories_of_none hstories] at h
    exact absurd h (by omega)
  | some stories =>
    rw [Setting.totalStories_of_some hstories] at h
    obtain ⟨story, hstory, hsub⟩ := subscript_of_lt h₀ h
    refine ⟨stories, story, rfl, hstory, ?_⟩
    have hview := Setting.subscript_progressViews (c := c) h₀
      (by rwa [Setting.totalStories_of_some hstories])
    rw [playStoryAt, Setting.totalStories_of_some hstories, if_neg (by omega), hstories]
    simp only [hsub, showStoryImage, showStoryVideo, hview, bind, Except.bind, pure, Except.pure]
    cases story.data.mediaType with
    | image => rfl
    | video => cases c.isURL story.data.assetURL <;> rfl

/-- An index beyond the end is out of range, if there are stories. -/
theorem playStoryAt_of_gt (h : c.totalStories < i) :
    s.playStoryAt c i = if c.stories.isSome then .error .indexOutOfRange else .ok s := by
  rw [playStoryAt, if_neg (by omega)]
  cases hstories : c.stories with
  | none => rfl
  | some stories =>
    rw [Setting.totalStories_of_some hstories] at h
    simp only [subscript_of_not (a := stories) (i := i) (by omega)]
    rfl

end Explorer

end YoYo.Player
