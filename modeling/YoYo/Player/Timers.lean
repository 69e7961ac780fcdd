import YoYo.Player.Controller

/-!
# Timers of the explorer

The explorer remembers the last timer it has started, and invalidates that one.
So it relies on there being no other: on every timer being started once the one
before has been invalidated, for the story that is played. Videos are, but the
load of an image completes any time later. Timers are disciplined exactly in
the runs in which images are loaded while they are played (`timersDisciplined_iff`).
-/

namespace YoYo.Player

open DocStore Reads

variable {c : Setting} {s s' : Explorer} {e : Event} {es : List Event}

/-- The story at a position is an image. -/
def Setting.IsImage (c : Setting) (position : ℕ) : Prop :=
  ∃ stories story, c.stories = some stories ∧ stories[position]? = some story ∧
    story.data.mediaType = .image

namespace Explorer

/-- One timer at most is scheduled, for the story at the index, and none once all
    resources have been invalidated, until the next story is played. -/
structure Disciplined (s : Explorer) : Prop where
  atMostOne : s.scheduled.length ≤ 1
  current : ∀ timer ∈ s.scheduled, (timer.progressView : ℤ) = s.index
  paused : s.playing = false → s.scheduled = []

/-- An image that is loaded is the one that is played. -/
def LoadsCurrent (s : Explorer) : Event → Prop
  | .imageCompleted false => ∀ progressView, s.imageLoad = some progressView →
    s.playing = true ∧ (progressView : ℤ) = s.index
  | _ => True

instance (s : Explorer) : ∀ e, Decidable (s.LoadsCurrent e)
  | .imageCompleted false => decidable_of_iff (∀ progressView ∈ s.imageLoad,
      s.playing = true ∧ (progressView : ℤ) = s.index) Iff.rfl
  | .imageCompleted true | .tap _ | .longPress _ | .swipeDown | .swipeUp | .tick _ _ | .resume =>
    .isTrue trivial

/-- What disciplined explorers keep: the timer scheduled is the one remembered,
    and its story is not an image still to be loaded. -/
structure Good (c : Setting) (s : Explorer) : Prop extends s.Disciplined where
  remembered : ∀ timer ∈ s.scheduled, s.timer = some timer.id
  apart : ∀ timer ∈ s.scheduled, s.imageLoad ≠ some timer.progressView
  image : ∀ progressView, s.imageLoad = some progressView → c.IsImage progressView

/-- No timer is scheduled, and only images are loaded. -/
structure Quiet (c : Setting) (s : Explorer) : Prop where
  scheduled : s.scheduled = []
  image : ∀ progressView, s.imageLoad = some progressView → c.IsImage progressView

namespace Quiet

theorem good (hs : s.Quiet c) : s.Good c where
  atMostOne := by simp [hs.scheduled]
  current := by simp [hs.scheduled]
  paused _ := hs.scheduled
  remembered := by simp [hs.scheduled]
  apart := by simp [hs.scheduled]
  image := hs.image

theorem invalidate (hs : s.Quiet c) (id : ℕ) : (s.invalidate id).Quiet c where
  scheduled := by rw [Explorer.invalidate, hs.scheduled, List.filter_nil]
  image := hs.image

theorem invalidateAllResources (hs : s.Quiet c) : s.invalidateAllResources.Quiet c := by
  rw [Explorer.invalidateAllResources, invalidateTimer]
  cases s.timer with
  | none => exact ⟨hs.scheduled, hs.image⟩
  | some timer => exact ⟨(hs.invalidate timer).scheduled, hs.image⟩

/-- The only timer there is may be that of the story at the index, if it is
    played, and no image still to be loaded. -/
theorem generateProgess (hs : s.Quiet c) (hplaying : s.playing = true) {progressView : ℕ}
    (hindex : (progressView : ℤ) = s.index) (hload : s.imageLoad ≠ some progressView) :
    (s.generateProgess progressView).Good c := by
  have hscheduled : (s.generateProgess progressView).scheduled = [⟨s.started, progressView⟩] := by
    rw [Explorer.generateProgess, hs.scheduled]
    rfl
  have hmem : ∀ timer ∈ (s.generateProgess progressView).scheduled,
      timer = ⟨s.started, progressView⟩ := fun timer h => by
    rwa [hscheduled, List.mem_singleton] at h
  refine ⟨⟨?_, fun timer h => ?_, fun h => ?_⟩, fun timer h => ?_, fun timer h => ?_, hs.image⟩
  · rw [hscheduled]
    exact le_rfl
  · rw [hmem timer h]
    exact hindex
  · exact absurd (hplaying.symm.trans h) nofun
  · rw [hmem timer h]
    rfl
  · rw [hmem timer h]
    exact hload

/-- Playing starts one timer at most, of a video. -/
theorem playStoryAt (hs : s.Quiet c) (h : s.playStoryAt c s.index = .ok s') : s'.Good c := by
  by_cases hend : s.index = c.totalStories ∨ s.index < 0
  · rw [playStoryAt_of_end hend] at h
    cases h
    exact hs.invalidateAllResources.good
  · obtain ⟨hne, h₀⟩ := not_or.1 hend
    by_cases hlt : s.index < c.totalStories
    · obtain ⟨stories, story, hstories, hstory, hplay⟩ :=
        playStoryAt_of_lt (s := s) (Int.not_lt.1 h₀) hlt
      rw [hplay] at h
      cases hmedia : story.data.mediaType with
      | image =>
        rw [hmedia] at h
        cases h
        have hquiet : Quiet c { s with playing := true, imageLoad := some s.index.toNat } := by
          refine ⟨hs.scheduled, ?_⟩
          rintro progressView ⟨⟩
          exact ⟨stories, story, hstories, hstory, hmedia⟩
        exact hquiet.good
      | video =>
        -- The load in flight may be that of an image played before, but not of this video.
        have hload : s.imageLoad ≠ some s.index.toNat := fun hload => by
          obtain ⟨stories', story', hstories', hstory', hmedia'⟩ := hs.image _ hload
          cases hstories.symm.trans hstories'
          cases hstory.symm.trans hstory'
          cases hmedia.symm.trans hmedia'
        have hquiet : Quiet c { s with playing := true } := ⟨hs.scheduled, hs.image⟩
        rw [hmedia] at h
        simp only at h
        split at h <;> cases h
        exact hquiet.generateProgess rfl (Int.toNat_of_nonneg (Int.not_lt.1 h₀)) hload
    · rw [playStoryAt_of_gt (by omega)] at h
      split at h <;> cases h
      exact hs.good

end Quiet

/-- Showing the viewers pauses, if it does anything. -/
theorem showMyViews_eq_ok (h : s.showMyViews c = .ok s') :
    s' = s ∨ s' = s.invalidateAllResources := by
  rw [showMyViews] at h
  split at h
  · split at h
    · rename_i stories _
      cases hsub : subscript stories s.index with
      | error trap =>
        rw [hsub] at h
        cases h
      | ok story =>
        rw [hsub] at h
        simp only [bind, Except.bind] at h
        split at h <;> cases h
        · exact .inr rfl
        · exact .inl rfl
    · cases h
      exact .inl rfl
  · cases h
    exact .inl rfl

namespace Good

/-- Invalidating the timer scheduled, if there is one, leaves none. -/
theorem invalidate (hs : s.Good c) {id : ℕ} (hid : ∀ timer ∈ s.scheduled, timer.id = id) :
    (s.invalidate id).Quiet c where
  scheduled := List.filter_eq_nil_iff.2 fun timer htimer => by simp [hid timer htimer]
  image := hs.image

/-- Invalidating the timer remembered leaves none. -/
theorem invalidateTimer (hs : s.Good c) : s.invalidateTimer.Quiet c := by
  rw [Explorer.invalidateTimer]
  cases htimer : s.timer with
  | none =>
    refine ⟨List.eq_nil_iff_forall_not_mem.2 fun timer hmem => ?_, hs.image⟩
    cases htimer.symm.trans (hs.remembered timer hmem)
  | some id =>
    refine hs.invalidate fun timer hmem => ?_
    exact Option.some.inj ((hs.remembered timer hmem).symm.trans htimer)

theorem invalidateAllResources (hs : s.Good c) : s.invalidateAllResources.Quiet c :=
  ⟨hs.invalidateTimer.scheduled, hs.invalidateTimer.image⟩

/-- Pausing, and playing again. -/
theorem resume (hs : s.Good c) (h : s.resume c = .ok s') : s'.Good c := by
  refine hs.invalidateAllResources.playStoryAt ?_
  rw [← h, Explorer.resume, index_invalidateAllResources]

/-- A tap invalidates the timer, and plays another story. -/
theorem tapGestureHandler (hs : s.Good c) {left : Bool} (h : s.tapGestureHandler c left = .ok s') :
    s'.Good c := by
  rw [Explorer.tapGestureHandler] at h
  cases hsub : subscript c.progressViews s.invalidateTimer.index with
  | error trap =>
    simp only [hsub] at h
    cases h
  | ok progressView =>
    simp only [hsub] at h
    have hquiet : Quiet c { s.invalidateTimer with
        index := if left then s.invalidateTimer.index - 1 else s.invalidateTimer.index + 1 } :=
      ⟨hs.invalidateTimer.scheduled, hs.invalidateTimer.image⟩
    exact hquiet.playStoryAt h

theorem longPressHandler (hs : s.Good c) {state : GestureState}
    (h : s.longPressHandler c state = .ok s') : s'.Good c := by
  rw [Explorer.longPressHandler] at h
  split_ifs at h
  · exact hs.resume h
  · cases h
    exact hs.invalidateAllResources.good
  · cases h
    exact hs

theorem showMyViews (hs : s.Good c) (h : s.showMyViews c = .ok s') : s'.Good c := by
  rcases showMyViews_eq_ok h with rfl | rfl
  · exact hs
  · exact hs.invalidateAllResources.good

/-- A timer that is over invalidates itself, and the next story is played. -/
theorem tick (hs : s.Good c) {timer : ℕ} {isOver : Bool} (h : s.tick c timer isOver = .ok s') :
    s'.Good c := by
  rw [Explorer.tick] at h
  split_ifs at h with hover
  · -- The timer is the one remembered, as is any other that is scheduled.
    obtain ⟨t, ht, rfl⟩ := hover.2
    have hquiet := hs.invalidate fun timer hmem =>
      Option.some.inj ((hs.remembered timer hmem).symm.trans (hs.remembered t ht))
    have hquiet' : Quiet c { s.invalidate t.id with index := s.index + 1 } :=
      ⟨hquiet.scheduled, hquiet.image⟩
    exact hquiet'.playStoryAt h
  · cases h
    exact hs

/-- A load that completes starts the timer of the image that is played. -/
theorem imageCompleted (hs : s.Good c) {error : Bool}
    (he : s.LoadsCurrent (.imageCompleted error)) : (s.imageCompleted error).Good c := by
  rw [Explorer.imageCompleted]
  cases hload : s.imageLoad with
  | none => exact hs
  | some progressView =>
    cases error with
    | true => exact ⟨⟨hs.atMostOne, hs.current, hs.paused⟩, hs.remembered, nofun, nofun⟩
    | false =>
      obtain ⟨hplaying, hindex⟩ := he progressView hload
      -- There is no timer yet: it would be that of the image.
      have hnil : s.scheduled = [] := by
        refine List.eq_nil_iff_forall_not_mem.2 fun timer hmem => hs.apart timer hmem ?_
        have hcurrent := hs.current timer hmem
        rw [hload, Option.some.injEq]
        omega
      have hquiet : Quiet c { s with imageLoad := none } := ⟨hnil, nofun⟩
      exact hquiet.generateProgess hplaying hindex nofun

/-- Events keep the explorer good, unless they load an image that is not played. -/
theorem handle (hs : s.Good c) (he : s.LoadsCurrent e) (h : s.handle c e = .ok s') :
    s'.Good c := by
  cases e with
  | tap left => exact hs.tapGestureHandler h
  | longPress state => exact hs.longPressHandler h
  | swipeDown =>
    cases h
    exact hs.invalidateAllResources.good
  | swipeUp => exact hs.showMyViews h
  | tick timer isOver => exact hs.tick h
  | imageCompleted error =>
    cases h
    exact hs.imageCompleted he
  | resume => exact hs.resume h

end Good

/-- The timer of an image that is not played breaks the discipline. -/
theorem not_disciplined_of_not_loadsCurrent (he : ¬ s.LoadsCurrent e) :
    ∃ s', s.handle c e = .ok s' ∧ ¬ s'.Disciplined := by
  cases e with
  | imageCompleted error =>
    cases error with
    | true => exact absurd trivial he
    | false =>
      rw [LoadsCurrent] at he
      push Not at he
      obtain ⟨progressView, hload, hnot⟩ := he
      refine ⟨_, rfl, fun hdisciplined => ?_⟩
      rw [imageCompleted, hload] at hdisciplined
      have hmem : ⟨s.started, progressView⟩ ∈ (generateProgess { s with imageLoad := none }
          progressView).scheduled := List.mem_append_right _ (List.mem_singleton_self _)
      cases hplaying : s.playing with
      | false => exact List.ne_nil_of_mem hmem (hdisciplined.paused hplaying)
      | true => exact hnot hplaying (hdisciplined.current _ hmem)
  | _ => exact absurd trivial he

/-! ## Runs -/

/-- Where the explorer is good, unless there has been a trap. -/
def Steady (c : Setting) (s : Except Trap Explorer) : Prop := ∀ s', s = .ok s' → s'.Good c

/-- An image that is loaded is the one that is played, unless there has been a trap. -/
def LoadsCurrentNext (s : Except Trap Explorer) (e : Event) : Prop :=
  match s with
  | .ok s => s.LoadsCurrent e
  | .error _ => True

instance (s : Except Trap Explorer) (e : Event) : Decidable (LoadsCurrentNext s e) :=
  match s with
  | .ok s => inferInstanceAs (Decidable (s.LoadsCurrent e))
  | .error _ => .isTrue trivial

/-- At every moment of the run, until there is a trap, the timers are disciplined. -/
def TimersDisciplined (c : Setting) (es : List Event) : Prop :=
  ∀ es₁ es₂, es = es₁ ++ es₂ → ∀ s, after (next c) (viewDidLoad c) es₁ = .ok s → s.Disciplined

theorem steady_viewDidLoad (c : Setting) : Steady c (viewDidLoad c) := by
  have hinit : init.Quiet c := ⟨rfl, nofun⟩
  exact fun s' h => hinit.playStoryAt h

theorem Steady.next {s : Except Trap Explorer} (hs : Steady c s) (he : LoadsCurrentNext s e) :
    Steady c (Explorer.next c s e) := by
  cases s with
  | error trap => exact nofun
  | ok s => exact fun s' h => (hs s rfl).handle he h

theorem Steady.disciplined_iff {s : Except Trap Explorer} (hs : Steady c s) :
    (∀ s', Explorer.next c s e = .ok s' → s'.Disciplined) ↔ LoadsCurrentNext s e := by
  refine ⟨fun h => ?_, fun he s' h => (hs.next he s' h).toDisciplined⟩
  cases s with
  | error trap => trivial
  | ok s =>
    by_contra he
    obtain ⟨s', hs', hnot⟩ := not_disciplined_of_not_loadsCurrent (c := c) he
    exact hnot (h s' hs')

/-- Whatever stories an explorer is opened with, and whatever happens then, the
    timers are disciplined exactly if images are loaded only while they are played. -/
theorem timersDisciplined_iff (c : Setting) (es : List Event) :
    TimersDisciplined c es ↔ AllSteps (next c) LoadsCurrentNext (viewDidLoad c) es := by
  have hstart := steady_viewDidLoad c
  refine (forall_prefix_iff
    (B := fun s : Except Trap Explorer => ∀ s', s = .ok s' → s'.Disciplined)).trans ?_
  rw [and_iff_right fun s' h => (hstart s' h).toDisciplined]
  exact allSteps_iff (P := fun _ _ => True) (I := Steady c) (fun _ _ hs _ he => hs.next he)
    (fun _ _ hs _ => hs.disciplined_iff) hstart (allSteps_iff_forall.2 fun _ _ _ _ => trivial)

/-- An explorer with two images. -/
def twoImages : Setting where
  uid := some "ann"
  friendStory := some ⟨⟨2, "Bob", 0, "bob.jpg", "bob", "bob@yoyo"⟩,
    some [⟨1, "bob", "hi", 9, "hi.jpg", [], .image⟩, ⟨2, "bob", "bye", 9, "bye.jpg", [], .image⟩]⟩
  isURL _ := true

/-- An image completes its load while the explorer is paused: its timer is started. -/
theorem not_timersDisciplined_pausedWhileLoading :
    ¬ TimersDisciplined twoImages [.longPress .began, .imageCompleted false] := by
  intro h
  have hpaused := (h _ [] (List.append_nil _).symm _ rfl).paused rfl
  revert hpaused
  decide

end Explorer

end YoYo.Player
