import Mathlib.Data.List.Induction
import YoYo.Stories.Views

/-!
# Story documents

Whoever plays a story may do so from a copy of any age, and writes the whole of
it back. Views may get lost this way (`YoYo.Stories.Views`), but nothing else
happens to a story: in all versions there have ever been, its viewers are
different users, and not its owner, and the rest of it is what it was created
with (`storyInvariant`).
-/

namespace YoYo

open DocStore StoryService

/-- The viewers of a story are different users, and its owner is none of them. -/
structure Story.WellViewed (story : Story) : Prop where
  nodup : story.viewedBy.Nodup
  notOwner : story.uid ∉ story.viewedBy

variable {g : AutoId DocID} {s : StoriesStore} {h : StoriesHistory} {story : Doc DocID Story}
  {uid : UID} {id : DocID} {a b : Story} {es : List StoryEvent}

/-- A viewer adds himself only where he is neither the owner nor there already. -/
theorem Story.WellViewed.viewed {copy : Doc DocID Story} (ha : copy.data.WellViewed)
    (hv : viewed uid copy = some story) :
    story.id = copy.id ∧ story.data.WellViewed ∧
      story.data = { copy.data with viewedBy := story.data.viewedBy } := by
  rw [StoryService.viewed] at hv
  split at hv
  · rename_i hnew
    cases hv
    refine ⟨rfl, ⟨?_, ?_⟩, rfl⟩
    · exact List.nodup_append.2 ⟨ha.nodup, List.nodup_singleton uid, by
        rintro viewer hviewer _ hu rfl
        exact hnew.2 (List.mem_singleton.1 hu ▸ hviewer)⟩
    · rw [List.mem_append, List.mem_singleton, not_or]
      exact ⟨ha.notOwner, hnew.1.symm⟩
  · cases hv

namespace StoriesHistory

/-- The copies played are exactly those of the stories there have ever been. -/
theorem allowed_addViews_iff :
    h.Allowed (.addViews uid story) ↔ ∃ s ∈ h.seen, storyOf s story.id = some story.data := by
  refine exists_congr fun s => and_congr_right fun _ => ?_
  constructor
  · rintro ⟨uids, today, hmem⟩
    exact storyOf_of_mem hmem
  · intro hstory
    obtain ⟨d, hd, hdecode⟩ := Option.bind_eq_some_iff.1 hstory
    refine ⟨[story.data.uid], story.data.expiryDate, List.mem_filter.2 ⟨?_, by simp⟩⟩
    refine List.mem_filterMap.2 ⟨⟨story.id, d⟩, Collection.mem_query.2 ⟨?_, ?_⟩, ?_⟩
    · exact Collection.get?_eq_some_iff.1 hd
    · simp [Story.uid_of_decode hdecode]
    · rw [hdecode]
      rfl

end StoriesHistory

/-! ## Creation -/

/-- In the run `es`, the document of an id was created for this story: by an
    upload of all it says but for its viewers. -/
def CreatedIn (g : AutoId DocID) (es : List StoryEvent) (id : DocID) (a : Story) : Prop :=
  ∃ es₁ es₂, es = es₁ ++ .uploadStory a.uid a.title a.expiryDate a.assetURL a.mediaType :: es₂ ∧
    id = g.next (after (StoriesHistory.next g) .init es₁).now.ids

theorem CreatedIn.append (hid : CreatedIn g es id a) (es' : List StoryEvent) :
    CreatedIn g (es ++ es') id a := by
  obtain ⟨es₁, es₂, rfl, hid⟩ := hid
  exact ⟨es₁, es₂ ++ es', by simp, hid⟩

/-- Its viewers do not matter. -/
theorem CreatedIn.congr (hid : CreatedIn g es id a) (hab : b = { a with viewedBy := b.viewedBy }) :
    CreatedIn g es id b := by
  rw [hab]
  exact hid

/-- Ids stay in use. -/
theorem mem_ids_after (hid : id ∈ h.now.ids) (es : List StoryEvent) :
    id ∈ (after (StoriesHistory.next g) h es).now.ids := by
  have hset : ∀ {s : StoriesStore} (id' : DocID) (d : StoryDoc), id ∈ s.ids →
      id ∈ (s.setData id' d).ids := by
    intro s id' d hmem
    obtain ⟨e, he, rfl⟩ := List.mem_map.1 hmem
    by_cases heq : e.id = id'
    · exact List.mem_map.2 ⟨⟨id', d⟩, Collection.mem_setData.2 (.inl rfl), heq.symm⟩
    · exact List.mem_map.2 ⟨e, Collection.mem_setData.2 (.inr ⟨he, heq⟩), rfl⟩
  induction es generalizing h with
  | nil => exact hid
  | cons e es ih =>
    refine ih ?_
    cases e with
    | uploadStory uid title expiryDate assetURL mediaType => exact hset _ _ hid
    | addViews uid story =>
      change id ∈ (addViews uid story h.now).ids
      rw [addViews]
      split
      · exact hset _ _ hid
      · exact hid

/-- Of two creations under the same id, neither is after the other: the id is in
    use then, so that it is not generated any more. -/
theorem eq_of_created {es₁ l es₂ es₂' : List StoryEvent}
    (heq : .uploadStory a.uid a.title a.expiryDate a.assetURL a.mediaType :: es₂ =
      l ++ .uploadStory b.uid b.title b.expiryDate b.assetURL b.mediaType :: es₂')
    (hid : g.next (after (StoriesHistory.next g) .init es₁).now.ids =
      g.next (after (StoriesHistory.next g) .init (es₁ ++ l)).now.ids) :
    b = { a with viewedBy := b.viewedBy } := by
  cases l with
  | nil =>
    simp only [List.nil_append, List.cons.injEq, StoryEvent.uploadStory.injEq] at heq
    obtain ⟨⟨huid, htitle, hexpiry, hasset, hmedia⟩, -⟩ := heq
    rw [huid, htitle, hexpiry, hasset, hmedia]
  | cons e l =>
    rw [List.cons_append, List.cons.injEq] at heq
    refine absurd ?_ (g.next_notMem (after (StoriesHistory.next g) .init (es₁ ++ e :: l)).now.ids)
    rw [← hid, after_append, after_cons, ← heq.1]
    refine mem_ids_after ?_ l
    exact Collection.mem_ids_of_mem (Collection.mem_addDocument.2 (.inl rfl))

/-- A document is created once. -/
theorem CreatedIn.eq (ha : CreatedIn g es id a) (hb : CreatedIn g es id b) :
    b = { a with viewedBy := b.viewedBy } := by
  obtain ⟨es₁, es₂, rfl, hid⟩ := ha
  obtain ⟨es₁', es₂', heq, hid'⟩ := hb
  rcases List.append_eq_append_iff.1 heq with ⟨l, rfl, hl⟩ | ⟨l, rfl, hl⟩
  · exact eq_of_created hl (hid.symm.trans hid')
  · have hab := eq_of_created hl (hid'.symm.trans hid)
    rw [hab]

/-! ## Runs -/

/-- In the run `es`, all documents there have ever been are those of stories
    viewed by different users, but not by their owners, and otherwise as they
    were created, which they were once. -/
structure StoryInvariant (g : AutoId DocID) (es : List StoryEvent) : Prop where
  documents : ∀ s ∈ (after (StoriesHistory.next g) .init es).seen, ∀ d ∈ s.docs,
    ∃ a : Story, d.data = a.encode ∧ a.WellViewed ∧ CreatedIn g es d.id a
  created : ∀ id a b, CreatedIn g es id a → CreatedIn g es id b →
    b = { a with viewedBy := b.viewedBy }

/-- A copy played is of a story as the invariant says. -/
theorem StoryInvariant.of_allowed (hes : StoryInvariant g es)
    (hallowed : (after (StoriesHistory.next g) .init es).Allowed (.addViews uid story)) :
    story.data.WellViewed ∧ CreatedIn g es story.id story.data := by
  obtain ⟨s, hs, hstory⟩ := StoriesHistory.allowed_addViews_iff.1 hallowed
  obtain ⟨d, hd, hdecode⟩ := Option.bind_eq_some_iff.1 hstory
  obtain ⟨a, ha, hviewed, hcreated⟩ := hes.documents s hs _ (Collection.get?_eq_some_iff.1 hd)
  have ha : d = a.encode := ha
  rw [ha, Story.decode_encode, Option.some.injEq] at hdecode
  rw [← hdecode]
  exact ⟨hviewed, hcreated⟩

/-- What is stored after an event is a story created by it, one written back
    from a copy, or was stored before. -/
theorem StoryInvariant.next (hes : StoryInvariant g es) {e : StoryEvent}
    (he : (after (StoriesHistory.next g) .init es).Allowed e) : StoryInvariant g (es ++ [e]) := by
  refine ⟨fun s hs d hd => ?_, fun _ _ _ => CreatedIn.eq⟩
  have hbefore : ∀ s ∈ (after (StoriesHistory.next g) .init es).seen, ∀ d ∈ s.docs,
      ∃ a : Story, d.data = a.encode ∧ a.WellViewed ∧ CreatedIn g (es ++ [e]) d.id a := by
    intro s hs d hd
    obtain ⟨a, ha, hviewed, hcreated⟩ := hes.documents s hs d hd
    exact ⟨a, ha, hviewed, hcreated.append [e]⟩
  have hnow := hbefore _ (Versions.now_mem_seen _)
  rw [after_append] at hs
  rcases Versions.mem_seen_push.1 hs with rfl | hs
  · cases e with
    | uploadStory uid title expiryDate assetURL mediaType =>
      rcases Collection.mem_addDocument.1 hd with rfl | hd
      · exact ⟨_, rfl, ⟨List.nodup_nil, List.not_mem_nil⟩, es, [], rfl, rfl⟩
      · exact hnow d hd
    | addViews uid story =>
      change d ∈ (addViews uid story _).docs at hd
      rw [addViews] at hd
      split at hd
      · rename_i updatedStory hv
        rcases Collection.mem_setData.1 hd with rfl | ⟨hd, -⟩
        -- The copy was stored before, and the one written back has a viewer more.
        · obtain ⟨hviewed, hcreated⟩ := hes.of_allowed he
          obtain ⟨hid, hviewed', hdata⟩ := hviewed.viewed hv
          refine ⟨updatedStory.data, rfl, hviewed', ?_⟩
          rw [hid]
          exact (hcreated.congr hdata).append _
        · exact hnow d hd
      · exact hnow d hd
  · exact hbefore s hs d hd

/-- From no stories at all, whatever is uploaded and whoever plays copies of any
    age, story documents keep their invariant. -/
theorem storyInvariant
    (hallowed : AllSteps (StoriesHistory.next g) StoriesHistory.Allowed .init es) :
    StoryInvariant g es := by
  induction es using List.reverseRecOn with
  | nil =>
    refine ⟨fun s hs d hd => ?_, fun _ _ _ => CreatedIn.eq⟩
    rw [Versions.mem_seen_init.1 hs] at hd
    exact absurd hd List.not_mem_nil
  | append_singleton es e ih => exact (ih hallowed.prefix).next hallowed.step_of_append

/-- Bob plays the story of ann from a copy older than the one cem has written back. -/
theorem storyInvariant_playedFromTheStart : StoryInvariant succId playedFromTheStart := by
  refine storyInvariant ⟨trivial, ?_, ?_, trivial⟩
  · exact ⟨_, Versions.now_mem_seen _, ["ann"], 1, by decide⟩
  · exact ⟨_, .tail _ (Versions.now_mem_seen _), ["ann"], 1, by decide⟩

end YoYo
