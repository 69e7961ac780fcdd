import YoYo.Player.Controller

/-!
# Subscripts of the explorer

The index leaves the range of the stories at either end, by one, which makes the
explorer quit. It is gone only some time later, and whatever subscripts it uses
the index for until then is out of range. No subscript of a run is exactly in
the runs without such an event (`subscripts_iff`).
-/

namespace YoYo.Player

open DocStore Reads

variable {c : Setting} {s s' : Explorer} {e : Event} {es : List Event}

namespace Explorer

/-- The event uses no index out of range: a tap is on a story, viewers are those
    of a story, and no timer is over at the end. -/
def InRange (c : Setting) (s : Explorer) : Event → Prop
  | .tap _ => 0 ≤ s.index ∧ s.index < c.totalStories
  | .swipeUp => c.uid.isSome → c.stories.isSome → 0 ≤ s.index ∧ s.index < c.totalStories
  | .tick timer isOver => isOver → (∃ t ∈ s.scheduled, t.id = timer) → s.index ≠ c.totalStories
  | .longPress _ | .swipeDown | .imageCompleted _ | .resume => True

instance (c : Setting) (s : Explorer) : ∀ e, Decidable (s.InRange c e)
  | .tap _ => inferInstanceAs (Decidable (_ ∧ _))
  | .swipeUp => inferInstanceAs (Decidable (_ → _ → _ ∧ _))
  | .tick _ _ => inferInstanceAs (Decidable (_ → _ → _))
  | .longPress _ | .swipeDown | .imageCompleted _ | .resume => .isTrue trivial

/-- The index is in the range of the stories, or next to it, and nothing is
    drawn unless there are stories. -/
structure Near (c : Setting) (s : Explorer) : Prop where
  low : -1 ≤ s.index
  high : s.index ≤ c.totalStories
  shown : s.scheduled ≠ [] ∨ s.imageLoad ≠ none → c.stories.isSome

/-- Where no subscript has been out of range. -/
def Sane (c : Setting) (s : Except Trap Explorer) : Prop :=
  s ≠ .error .indexOutOfRange ∧ ∀ s', s = .ok s' → s'.Near c

/-- An operation goes through exactly if `p` holds, and stays near then. -/
def SaneIff (c : Setting) (s : Except Trap Explorer) (p : Prop) : Prop :=
  (s ≠ .error .indexOutOfRange ↔ p) ∧ ∀ s', s = .ok s' → s'.Near c

theorem Sane.saneIff {s : Except Trap Explorer} {p : Prop} (hs : Sane c s) (hp : p) :
    SaneIff c s p := ⟨iff_of_true hs.1 hp, hs.2⟩

theorem saneIff_indexOutOfRange {p : Prop} (hp : ¬ p) :
    SaneIff c (.error .indexOutOfRange) p := ⟨iff_of_false (fun h => h rfl) hp, nofun⟩

/-! ## Operations -/

namespace Near

theorem sane (hs : s.Near c) : Sane c (.ok s) := by
  refine ⟨nofun, ?_⟩
  rintro s' ⟨⟩
  exact hs

theorem invalidate (hs : s.Near c) (id : ℕ) : (s.invalidate id).Near c where
  low := hs.low
  high := hs.high
  shown h := hs.shown (h.imp_left fun hne hnil => hne (by rw [Explorer.invalidate, hnil]; rfl))

theorem invalidateTimer (hs : s.Near c) : s.invalidateTimer.Near c := by
  rw [Explorer.invalidateTimer]
  split
  · exact hs.invalidate _
  · exact hs

theorem invalidateAllResources (hs : s.Near c) : s.invalidateAllResources.Near c :=
  ⟨hs.invalidateTimer.low, hs.invalidateTimer.high, hs.invalidateTimer.shown⟩

/-- Playing where the index is uses none that is out of range. -/
theorem playStoryAt (hs : s.Near c) : Sane c (s.playStoryAt c s.index) := by
  by_cases hend : s.index = c.totalStories ∨ s.index < 0
  · rw [playStoryAt_of_end hend]
    exact hs.invalidateAllResources.sane
  · obtain ⟨hne, h₀⟩ := not_or.1 hend
    have hhigh := hs.high
    obtain ⟨stories, story, hstories, -, hplay⟩ :=
      playStoryAt_of_lt (s := s) (c := c) (i := s.index) (by omega) (by omega)
    have hshown : c.stories.isSome := by rw [hstories]; rfl
    rw [hplay]
    cases story.data.mediaType with
    | image =>
      have hloading : Near c { s with playing := true, imageLoad := some s.index.toNat } :=
        ⟨hs.low, hs.high, fun _ => hshown⟩
      exact hloading.sane
    | video =>
      have hstarted : Near c (generateProgess { s with playing := true } s.index.toNat) :=
        ⟨hs.low, hs.high, fun _ => hshown⟩
      simp only
      split
      · exact hstarted.sane
      · exact ⟨nofun, nofun⟩

/-- So does pausing and playing again, which leaves the index where it is. -/
theorem resume (hs : s.Near c) : Sane c (s.resume c) := by
  have hplay := hs.invalidateAllResources.playStoryAt
  rwa [index_invalidateAllResources] at hplay

/-- A tap draws the progress of the story it leaves, before anything is checked. -/
theorem tapGestureHandler (hs : s.Near c) (left : Bool) :
    SaneIff c (s.tapGestureHandler c left) (s.InRange c (.tap left)) := by
  rw [Explorer.tapGestureHandler, InRange]
  simp only [index_invalidateTimer]
  by_cases hrange : 0 ≤ s.index ∧ s.index < c.totalStories
  · have hnear : Near c { s.invalidateTimer with
        index := if left then s.index - 1 else s.index + 1 } := by
      refine ⟨?_, ?_, hs.invalidateTimer.shown⟩ <;> simp only <;> split <;> omega
    rw [Setting.subscript_progressViews hrange.1 hrange.2]
    exact hnear.playStoryAt.saneIff hrange
  · rw [subscript_of_not (by simpa using hrange)]
    exact saneIff_indexOutOfRange hrange

theorem longPressHandler (hs : s.Near c) (state : GestureState) :
    Sane c (s.longPressHandler c state) := by
  rw [Explorer.longPressHandler]
  split
  · exact hs.resume
  · split
    · exact hs.invalidateAllResources.sane
    · exact hs.sane

/-- The viewers shown are those of the story at the index, which is not checked. -/
theorem showMyViews (hs : s.Near c) : SaneIff c (s.showMyViews c) (s.InRange c .swipeUp) := by
  rw [Explorer.showMyViews, InRange, Setting.stories]
  cases c.uid with
  | none => exact hs.sane.saneIff (by simp)
  | some uid =>
    cases hfriend : c.friendStory with
    | none => exact hs.sane.saneIff (by simp)
    | some friendStory =>
      cases hstories : friendStory.stories with
      | none =>
        simp only [hstories]
        exact hs.sane.saneIff (by simp [hstories])
      | some stories =>
        have htotal : c.totalStories = stories.length :=
          Setting.totalStories_of_some (by rw [Setting.stories, hfriend, ← hstories]; rfl)
        simp only [hstories, Option.bind_some, Option.isSome_some, forall_const, htotal]
        by_cases hrange : 0 ≤ s.index ∧ s.index < stories.length
        · obtain ⟨story, -, hsub⟩ := subscript_of_lt hrange.1 hrange.2
          rw [hsub]
          simp only [bind, Except.bind, pure, Except.pure]
          split
          · exact hs.invalidateAllResources.sane.saneIff hrange
          · exact hs.sane.saneIff hrange
        · rw [subscript_of_not hrange]
          exact saneIff_indexOutOfRange hrange

/-- A timer that is over takes the index on by one, from wherever it is. -/
theorem tick (hs : s.Near c) (timer : ℕ) (isOver : Bool) :
    SaneIff c (s.tick c timer isOver) (s.InRange c (.tick timer isOver)) := by
  rw [Explorer.tick, InRange]
  by_cases hover : isOver ∧ ∃ t ∈ s.scheduled, t.id = timer
  · obtain ⟨t, ht, -⟩ := hover.2
    have hshown := hs.shown (.inl (List.ne_nil_of_mem ht))
    have hhigh := hs.high
    have hlow := hs.low
    rw [if_pos hover]
    simp only [index_invalidate]
    by_cases hlast : s.index = c.totalStories
    · -- The guard of `playStoryAt` is an equality, which the index beyond the end passes.
      rw [playStoryAt_of_gt (by omega), if_pos hshown]
      exact saneIff_indexOutOfRange fun h => h hover.1 hover.2 hlast
    · have hnear : Near c { s.invalidate timer with index := s.index + 1 } := by
        refine ⟨?_, ?_, (hs.invalidate timer).shown⟩ <;> simp only <;> omega
      exact hnear.playStoryAt.saneIff fun _ _ => hlast
  · rw [if_neg hover]
    exact hs.sane.saneIff fun h hlive => absurd ⟨h, hlive⟩ hover

theorem imageCompleted (hs : s.Near c) (error : Bool) : (s.imageCompleted error).Near c := by
  rw [Explorer.imageCompleted]
  cases hload : s.imageLoad with
  | none => exact hs
  | some progressView =>
    have hshown := hs.shown (.inr (by simp [hload]))
    cases error <;> exact ⟨hs.low, hs.high, fun _ => hshown⟩

/-- An event uses an index out of range exactly if it is not in range, and the
    index stays near otherwise. -/
theorem handle (hs : s.Near c) (e : Event) : SaneIff c (s.handle c e) (s.InRange c e) := by
  cases e with
  | tap left => exact hs.tapGestureHandler left
  | longPress state => exact (hs.longPressHandler state).saneIff trivial
  | swipeDown => exact hs.invalidateAllResources.sane.saneIff trivial
  | swipeUp => exact hs.showMyViews
  | tick timer isOver => exact hs.tick timer isOver
  | imageCompleted error => exact (hs.imageCompleted error).sane.saneIff trivial
  | resume => exact hs.resume.saneIff trivial

end Near

/-! ## Runs -/

/-- The event uses no index out of range, unless there has been a trap before. -/
def InRangeNext (c : Setting) (s : Except Trap Explorer) (e : Event) : Prop :=
  match s with
  | .ok s => s.InRange c e
  | .error _ => True

instance (c : Setting) (s : Except Trap Explorer) (e : Event) : Decidable (InRangeNext c s e) :=
  match s with
  | .ok s => inferInstanceAs (Decidable (s.InRange c e))
  | .error _ => .isTrue trivial

theorem sane_viewDidLoad (c : Setting) : Sane c (viewDidLoad c) := by
  have hinit : init.Near c := ⟨by simp [init], by simp [init], by simp [init]⟩
  exact hinit.playStoryAt

theorem Sane.next {s : Except Trap Explorer} (hs : Sane c s) (e : Event) :
    SaneIff c (Explorer.next c s e) (InRangeNext c s e) := by
  cases s with
  | error trap => exact ⟨iff_of_true hs.1 trivial, nofun⟩
  | ok s => exact (hs.2 s rfl).handle e

/-- A trap is the end. -/
theorem after_error (trap : Trap) : after (next c) (.error trap) es = .error trap := by
  induction es with
  | nil => rfl
  | cons e es ih => exact ih

/-- Whatever stories an explorer is opened with, and whatever happens then, all
    subscripts evaluated are in range exactly if no event uses an index that is not. -/
theorem subscripts_iff (c : Setting) (es : List Event) :
    after (next c) (viewDidLoad c) es ≠ .error .indexOutOfRange ↔
      AllSteps (next c) (InRangeNext c) (viewDidLoad c) es := by
  have hsane := sane_viewDidLoad c
  generalize viewDidLoad c = s at hsane ⊢
  induction es generalizing s with
  | nil => exact iff_of_true hsane.1 trivial
  | cons e es ih =>
    obtain ⟨hiff, hnear⟩ := hsane.next e
    rw [after_cons, allSteps_cons, ← hiff]
    by_cases hnext : Explorer.next c s e = .error .indexOutOfRange
    · rw [hnext, after_error]
      exact iff_of_false (fun h => h rfl) fun h => h.1 rfl
    · exact (ih _ ⟨hnext, hnear⟩).trans (and_iff_right hnext).symm

/-- An explorer with one image. -/
def oneImage : Setting where
  uid := some "ann"
  friendStory := some ⟨⟨2, "Bob", 0, "bob.jpg", "bob", "bob@yoyo"⟩,
    some [⟨1, "bob", "hi", 9, "hi.jpg", [], .image⟩]⟩
  isURL _ := true

/-- Two taps on the left half: the second one comes before the explorer, told to
    quit by the first one, is gone. -/
theorem not_inRange_tappedTwice :
    ¬ ∀ es, after (next oneImage) (viewDidLoad oneImage) es ≠ .error .indexOutOfRange := by
  intro h
  have htwice := h [.tap true, .tap true]
  revert htwice
  decide

end Explorer

end YoYo.Player
