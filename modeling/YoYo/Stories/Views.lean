import YoYo.Stories.Service

/-!
# Views of stories

A viewer adds himself to his own copy of a story, which he may have fetched long
before, and writes the whole of it back: those who have viewed it since are
lost. No view is lost exactly in the runs in which whoever writes a story back
does so from a copy having all the viewers stored then (`noViewLost_iff`).
-/

namespace YoYo

open DocStore StoryService

/-- The story stored under an id, if there is one. -/
def storyOf (s : StoriesStore) (id : DocID) : Option Story := (s.get? id).bind Story.decode

/-- Those stored as having viewed it. -/
def viewers (s : StoriesStore) (id : DocID) : List UID :=
  ((storyOf s id).map Story.viewedBy).getD []

variable {g : AutoId DocID} {s : StoriesStore} {h : StoriesHistory} {story : Doc DocID Story}
  {uid : UID} {id : DocID}

/-- A story fetched is one stored. -/
theorem storyOf_of_mem {uids : List UID} {today : Date}
    (h : story ∈ DatabaseService.getStoriesWithUID uids today s) :
    storyOf s story.id = some story.data := by
  obtain ⟨d, hd, hdecode⟩ := List.mem_filterMap.1 (List.mem_filter.1 h).1
  obtain ⟨a, ha, rfl⟩ := Option.map_eq_some_iff.1 hdecode
  rw [storyOf, Collection.get?_eq_some_iff.2 (Collection.mem_query.1 hd).1]
  exact ha

theorem storyOf_updateStory : storyOf (DatabaseService.updateStory story s) id =
    if id = story.id then some story.data else storyOf s id := by
  rw [storyOf, DatabaseService.updateStory, Collection.get?_setData]
  split_ifs
  · exact Story.decode_encode _
  · rfl

theorem storyOf_saveStory (g : AutoId DocID) (a : Story) :
    storyOf (DatabaseService.saveStory g a s) id =
      if id = g.next s.ids then some a else storyOf s id := by
  rw [storyOf, DatabaseService.saveStory, Collection.get?_addDocument]
  split_ifs
  · exact Story.decode_encode _
  · rfl

/-- The viewers after a play that writes. -/
theorem viewers_addViews (hne : uid ≠ story.data.uid) (hmem : uid ∉ story.data.viewedBy) :
    viewers (addViews uid story s) id =
      if id = story.id then story.data.viewedBy ++ [uid] else viewers s id := by
  rw [addViews, viewed, if_pos ⟨hne, hmem⟩]
  simp only [viewers, storyOf_updateStory]
  split_ifs <;> rfl

/-- A play by the owner, or by somebody whose copy already has him, writes nothing. -/
theorem addViews_of_not (h : ¬ (uid ≠ story.data.uid ∧ uid ∉ story.data.viewedBy)) :
    addViews uid story s = s := by
  rw [addViews, viewed, if_neg h]

/-! ## Steps -/

namespace StoriesHistory

/-- The step loses no viewer. -/
def KeepsViews (g : AutoId DocID) (h : StoriesHistory) (e : StoryEvent) : Prop :=
  ∀ id, viewers h.now id ⊆ viewers (h.next g e).now id

/-- A play that writes does so from a copy having all the viewers stored. -/
def UpToDate (h : StoriesHistory) : StoryEvent → Prop
  | .uploadStory _ _ _ _ _ => True
  | .addViews uid story => uid ≠ story.data.uid → uid ∉ story.data.viewedBy →
      ∀ viewer ∈ viewers h.now story.id, viewer ∈ story.data.viewedBy ∨ viewer = uid

instance (h : StoriesHistory) : ∀ e, Decidable (h.UpToDate e)
  | .uploadStory _ _ _ _ _ => .isTrue trivial
  | .addViews _ _ => inferInstanceAs (Decidable (_ → _ → _))

theorem keepsViews_iff (e : StoryEvent) : h.KeepsViews g e ↔ h.UpToDate e := by
  cases e with
  | uploadStory uid title expiryDate assetURL mediaType =>
    refine iff_of_true (fun id viewer hviewer => ?_) trivial
    change viewer ∈ viewers (DatabaseService.saveStory g _ h.now) id
    rw [viewers, storyOf_saveStory]
    by_cases hid : id = g.next h.now.ids
    · -- There is nothing under the id of a new story.
      rw [viewers, storyOf, hid, Collection.get?_next] at hviewer
      exact absurd hviewer List.not_mem_nil
    · rw [if_neg hid]
      exact hviewer
  | addViews uid story =>
    change (∀ id, viewers h.now id ⊆ viewers (addViews uid story h.now) id) ↔ _
    by_cases hw : uid ≠ story.data.uid ∧ uid ∉ story.data.viewedBy
    · obtain ⟨hne, hmem⟩ := hw
      constructor
      · intro hkeeps _ _ viewer hviewer
        have := hkeeps story.id hviewer
        rw [viewers_addViews hne hmem, if_pos rfl] at this
        simpa using this
      · -- Only the story played is written, with the viewers of the copy and this one.
        intro hup id viewer hviewer
        rw [viewers_addViews hne hmem]
        split_ifs with hid
        · subst hid
          simpa using hup hne hmem viewer hviewer
        · exact hviewer
    · rw [addViews_of_not hw]
      exact iff_of_true (fun id => List.Subset.refl _) fun hne hmem => absurd ⟨hne, hmem⟩ hw

end StoriesHistory

/-! ## Runs -/

/-- No view is lost in the run `es`: no step loses a viewer, and at the end
    everybody who has played a story of somebody else is stored as a viewer. -/
structure NoViewLost (g : AutoId DocID) (es : List StoryEvent) : Prop where
  keeps : AllSteps (StoriesHistory.next g) (StoriesHistory.KeepsViews g) .init es
  viewed : ∀ es₁ uid story es₂, es = es₁ ++ .addViews uid story :: es₂ → uid ≠ story.data.uid →
    uid ∈ viewers (after (StoriesHistory.next g) .init es).now story.id

/-- In the runs losing no viewers, there are as many as ever now. -/
def StoriesHistory.Growing (h : StoriesHistory) : Prop :=
  ∀ s ∈ h.seen, ∀ id, viewers s id ⊆ viewers h.now id

theorem StoriesHistory.Growing.next {e : StoryEvent} (hI : h.Growing) (he : h.KeepsViews g e) :
    (h.next g e).Growing := by
  intro s hs id
  rcases Versions.mem_seen_push.1 hs with rfl | hs
  · exact List.Subset.refl _
  · exact List.Subset.trans (hI s hs id) (he id)

theorem viewers_subset_after {es : List StoryEvent}
    (h' : AllSteps (StoriesHistory.next g) (StoriesHistory.KeepsViews g) h es) (id : DocID) :
    viewers h.now id ⊆ viewers (after (StoriesHistory.next g) h es).now id :=
  h'.invariant (I := fun h' => viewers h.now id ⊆ viewers h'.now id)
    (fun _ _ hI he => List.Subset.trans hI (he id)) (List.Subset.refl _)

/-- Who plays a story of somebody else is stored as a viewer of it. -/
theorem mem_viewers_of_play (hI : h.Growing) (hallowed : h.Allowed (.addViews uid story))
    (hne : uid ≠ story.data.uid) :
    uid ∈ viewers (h.next g (.addViews uid story)).now story.id := by
  change uid ∈ viewers (addViews uid story h.now) story.id
  by_cases hmem : uid ∈ story.data.viewedBy
  · -- His copy has him, so that he was stored when it was fetched, and still is.
    rw [addViews_of_not fun h => h.2 hmem]
    obtain ⟨s, hs, uids, today, hfetched⟩ := hallowed
    refine hI s hs story.id ?_
    rw [viewers, storyOf_of_mem hfetched]
    exact hmem
  · rw [viewers_addViews hne hmem, if_pos rfl]
    simp

/-- No view is lost exactly in the runs each of whose plays, if it writes, does
    so from a copy having all the viewers stored. -/
theorem noViewLost_iff {es : List StoryEvent}
    (hallowed : AllSteps (StoriesHistory.next g) StoriesHistory.Allowed .init es) :
    NoViewLost g es ↔ AllSteps (StoriesHistory.next g) StoriesHistory.UpToDate .init es := by
  have hiff : AllSteps (StoriesHistory.next g) (StoriesHistory.KeepsViews g) .init es ↔
      AllSteps (StoriesHistory.next g) StoriesHistory.UpToDate .init es :=
    allSteps_iff (I := fun _ => True) (fun _ _ _ _ _ => trivial)
      (fun _ e _ _ => StoriesHistory.keepsViews_iff e) trivial hallowed
  refine ⟨fun h => hiff.1 h.keeps, fun h => ⟨hiff.2 h, ?_⟩⟩
  rintro es₁ uid story es₂ rfl hne
  obtain ⟨hbefore, hplay, hrest⟩ := allSteps_append.1 (hiff.2 h)
  have hI : (after (StoriesHistory.next g) .init es₁).Growing :=
    hbefore.invariant (I := StoriesHistory.Growing) (fun _ _ hI he => hI.next he)
      fun s hs id => by rw [Versions.mem_seen_init.1 hs]; exact List.Subset.refl _
  rw [after_append, after_cons]
  exact viewers_subset_after hrest _ (mem_viewers_of_play hI hallowed.step_of_append hne)

/-- Ann uploads a story, and bob and cem play it, each having fetched it since
    the last play; bob plays it again. -/
def playedInTurn : List StoryEvent :=
  [.uploadStory "ann" "sea" 9 "u" .image,
    .addViews "bob" ⟨1, ⟨"ann", "sea", 9, "u", [], .image⟩⟩,
    .addViews "cem" ⟨1, ⟨"ann", "sea", 9, "u", ["bob"], .image⟩⟩,
    .addViews "bob" ⟨1, ⟨"ann", "sea", 9, "u", ["bob"], .image⟩⟩]

theorem noViewLost_playedInTurn : NoViewLost succId playedInTurn := by
  have hallowed : AllSteps (StoriesHistory.next succId) StoriesHistory.Allowed .init
      playedInTurn := by
    refine ⟨trivial, ?_, ?_, ?_, trivial⟩
    · exact ⟨_, Versions.now_mem_seen _, ["ann"], 1, by decide⟩
    · exact ⟨_, Versions.now_mem_seen _, ["ann"], 1, by decide⟩
    · exact ⟨_, .tail _ (Versions.now_mem_seen _), ["ann"], 1, by decide⟩
  exact (noViewLost_iff hallowed).2 (by decide)

/-- Bob and cem have fetched the story before either of them plays it. -/
def playedFromTheStart : List StoryEvent :=
  [.uploadStory "ann" "sea" 9 "u" .image,
    .addViews "bob" ⟨1, ⟨"ann", "sea", 9, "u", [], .image⟩⟩,
    .addViews "cem" ⟨1, ⟨"ann", "sea", 9, "u", [], .image⟩⟩]

/-- The view of bob is lost. -/
theorem not_noViewLost_playedFromTheStart :
    AllSteps (StoriesHistory.next succId) StoriesHistory.Allowed .init playedFromTheStart ∧
    ¬ NoViewLost succId playedFromTheStart := by
  refine ⟨⟨trivial, ?_, ?_, trivial⟩, fun h => ?_⟩
  · exact ⟨_, Versions.now_mem_seen _, ["ann"], 1, by decide⟩
  · exact ⟨_, .tail _ (Versions.now_mem_seen _), ["ann"], 1, by decide⟩
  · have hbob := h.viewed (playedFromTheStart.take 1) "bob" _ (playedFromTheStart.drop 2) rfl
      (by decide)
    revert hbob
    decide

end YoYo
