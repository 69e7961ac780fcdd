import YoYo.Player.Expiry

/-!
# Left alone

While nobody touches the screen, the explorer goes on by itself: a tick is the
last one of its story, and the next one is played; the load of an image completes,
and its timer is started. Whatever the order of these, and whatever else ticks,
its stories are shown one after the other, each once; it never stops before the
last one, unless the load of an image fails, and then it does for ever; and
nothing goes on after two events for each story (`playsAlone`).
-/

namespace YoYo.Player

open DocStore Reads

/-- The stories to show, if any. -/
def Setting.list (c : Setting) : List (Doc DocID Story) := c.stories.getD []

/-- All videos have a URL. -/
def Setting.Playable (c : Setting) : Prop :=
  ∀ story ∈ c.list, story.data.mediaType = .video → c.isURL story.data.assetURL

instance (c : Setting) : Decidable c.Playable :=
  inferInstanceAs (Decidable (∀ story ∈ c.list, _ → _))

/-- Nobody touches the screen: timers tick, and loads are completed. -/
def Event.Alone : Event → Prop
  | .tick _ _ | .imageCompleted _ => True
  | .tap _ | .longPress _ | .swipeDown | .swipeUp | .resume => False

instance : ∀ e : Event, Decidable e.Alone
  | .tick _ _ | .imageCompleted _ => .isTrue trivial
  | .tap _ | .longPress _ | .swipeDown | .swipeUp | .resume => .isFalse id

namespace Explorer

/-- The story an event shows, if any. -/
def shownAt (c : Setting) (s : Except Trap Explorer) (e : Event) : Option (Doc DocID Story) :=
  match s with
  | .ok s => (s.plays c e).bind fun play => c.storyAt play.2
  | .error _ => none

/-- The stories events show, one after the other. -/
def shownBy (c : Setting) : Except Trap Explorer → List Event → List (Doc DocID Story)
  | _, [] => []
  | s, e :: es => (shownAt c s e).toList ++ shownBy c (next c s e) es

/-- The stories shown since the explorer was opened. -/
def shown (c : Setting) (es : List Event) : List (Doc DocID Story) :=
  (c.storyAt 0).toList ++ shownBy c (viewDidLoad c) es

/-- All stories have been shown, and nothing goes on. -/
structure Through (c : Setting) (s : Explorer) : Prop where
  index : s.index = c.totalStories
  scheduled : s.scheduled = []
  imageLoad : s.imageLoad = none

/-- The load in flight does not fail. -/
def Loads (s : Except Trap Explorer) (e : Event) : Prop :=
  e = .imageCompleted true → ∀ s', s = .ok s' → s'.imageLoad = none

variable {c : Setting} {s s' : Explorer} {k : ℕ}

/-- How it stands with the story at the index: its image is loaded, its timer is
    scheduled, its load has failed, or there is none any more. -/
inductive Standing
  | loading
  | timed
  | failed
  | through
  deriving DecidableEq, Repr

/-- Where the explorer is, left alone: with the `k`-th story. -/
inductive At (c : Setting) (s : Explorer) (k : ℕ) : Standing → Prop
  | loading (lt : k < c.totalStories) (index : s.index = k) (scheduled : s.scheduled = [])
    (imageLoad : s.imageLoad = some k) : At c s k .loading
  | timed (lt : k < c.totalStories) (index : s.index = k) (id : ℕ)
    (scheduled : s.scheduled = [⟨id, k⟩]) (imageLoad : s.imageLoad = none) : At c s k .timed
  | failed (lt : k < c.totalStories) (index : s.index = k) (scheduled : s.scheduled = [])
    (imageLoad : s.imageLoad = none) : At c s k .failed
  | through (eq : k = c.totalStories) (through : s.Through c) : At c s k .through

/-- What an event does to an explorer left alone: nothing, it ends the load of the
    image, or the next story is played. -/
inductive Moves (c : Setting) (s : Explorer) (e : Event) (k : ℕ) :
    Standing → Explorer → ℕ → Standing → Prop
  | stays (p : Standing) (plays : s.plays c e = none) (loads : Loads (.ok s) e) :
    Moves c s e k p s k p
  | fails (s' : Explorer) (event : e = .imageCompleted true) (imageLoad : s.imageLoad ≠ none) :
    Moves c s e k .loading s' k .failed
  | loads (s' : Explorer) (event : e = .imageCompleted false) : Moves c s e k .loading s' k .timed
  | plays (s' : Explorer) (p : Standing) (ne : p ≠ .failed) (timer : ℕ)
    (event : e = .tick timer true) (played : Explorer)
    (plays : s.plays c e = some (played, ((k + 1 : ℕ) : ℤ))) :
    Moves c s e k .timed s' (k + 1) p

theorem length_list (c : Setting) : c.list.length = c.totalStories := by
  rw [Setting.list, Setting.totalStories]
  cases c.stories <;> rfl

/-- The story at a position, if there is one. -/
theorem storyAt_natCast (c : Setting) (k : ℕ) : c.storyAt k = c.list[k]? := by
  rw [Setting.storyAt]
  split_ifs with hend
  · rcases hend with heq | hneg
    · exact (List.getElem?_eq_none (by rw [length_list]; omega)).symm
    · exact absurd hneg (Int.not_lt.2 (Int.natCast_nonneg k))
  · rw [Setting.list]
    cases c.stories <;> rfl

/-- A story is played while nothing else is: its image is loaded, or its timer
    scheduled, or there are no more. -/
theorem at_playStoryAt (hc : c.Playable) (hk : k ≤ c.totalStories) (hindex : s.index = k)
    (hscheduled : s.scheduled = []) (himageLoad : s.imageLoad = none) :
    ∃ s' p, s.playStoryAt c k = .ok s' ∧ At c s' k p ∧ p ≠ .failed := by
  rcases hk.lt_or_eq with hlt | heq
  -- There is a story to play, by its type.
  · obtain ⟨stories, story, hstories, hstory, hplay⟩ :=
      playStoryAt_of_lt (s := s) (Int.natCast_nonneg k) (Int.ofNat_lt.2 hlt)
    have hmem : story ∈ c.list := by
      rw [Setting.list, hstories]
      exact List.mem_of_getElem? hstory
    rw [hplay]
    cases hmedia : story.data.mediaType with
    | image => exact ⟨_, .loading, rfl, .loading hlt hindex hscheduled rfl, by decide⟩
    | video =>
      refine ⟨_, .timed, if_pos (hc story hmem hmedia), ?_, by decide⟩
      refine .timed hlt hindex s.started ?_ himageLoad
      rw [generateProgess, hscheduled]
      rfl
  -- Playing at the end quits the explorer.
  · refine ⟨_, .through, playStoryAt_of_end (.inl (congrArg _ heq)), .through heq ⟨?_, ?_, ?_⟩,
      by decide⟩
    · rw [quitThisView, index_invalidateAllResources, hindex, heq]
    · rw [quitThisView, invalidateAllResources, invalidateTimer]
      split <;> simp [invalidate, hscheduled]
    · rw [quitThisView, invalidateAllResources, invalidateTimer]
      split <;> exact himageLoad

/-- A tick of a timer that is not scheduled, or is not the last one, does nothing. -/
theorem tick_eq_self {timer : ℕ} {isOver : Bool}
    (h : ¬ (isOver = true ∧ ∃ t ∈ s.scheduled, t.id = timer)) :
    s.handle c (.tick timer isOver) = .ok s ∧ s.plays c (.tick timer isOver) = none :=
  ⟨if_neg h, if_neg h⟩

/-- Nor does the completion of a load when there is none. -/
theorem imageCompleted_eq_self {error : Bool} (h : s.imageLoad = none) :
    s.handle c (.imageCompleted error) = .ok s := by
  rw [handle, Explorer.imageCompleted, h]

variable {p : Standing} {e : Event}

theorem At.scheduled_eq_nil (h : At c s k p) (hp : p ≠ .timed) : s.scheduled = [] := by
  cases h with
  | loading _ _ h | failed _ _ h => exact h
  | timed => exact absurd rfl hp
  | through _ h => exact h.scheduled

theorem At.imageLoad_eq_none (h : At c s k p) (hp : p ≠ .loading) : s.imageLoad = none := by
  cases h with
  | loading => exact absurd rfl hp
  | timed _ _ _ _ h | failed _ _ _ h => exact h
  | through _ h => exact h.imageLoad

/-- The timer scheduled is that of the story at the index: with its last tick, the
    next one is played. -/
theorem At.ticked (hc : c.Playable) (h : At c s k .timed) : ∃ id, s.scheduled = [⟨id, k⟩] ∧
    ∃ played s' p', s.plays c (.tick id true) = some (played, ((k + 1 : ℕ) : ℤ)) ∧
      s.handle c (.tick id true) = .ok s' ∧ At c s' (k + 1) p' ∧ p' ≠ .failed := by
  cases h with
  | timed lt hindex id hscheduled himageLoad =>
    have hindex' : s.index + 1 = ((k + 1 : ℕ) : ℤ) := by omega
    obtain ⟨s', p', hplay, hat, hne⟩ := at_playStoryAt (k := k + 1)
      (s := { s.invalidate id with index := s.index + 1 }) hc lt hindex'
      (by simp [invalidate, hscheduled]) himageLoad
    have hplays : s.plays c (.tick id true) =
        some ({ s.invalidate id with index := s.index + 1 }, ((k + 1 : ℕ) : ℤ)) := by
      rw [plays, if_pos ⟨rfl, ⟨id, k⟩, by rw [hscheduled]; exact List.mem_cons_self, rfl⟩,
        ← hindex']
      rfl
    refine ⟨id, hscheduled, _, s', p', hplays, ?_, hat, hne⟩
    rw [handle_of_plays hplays]
    exact hplay

/-- Once the image is loaded, its timer is scheduled. -/
theorem At.loaded (h : At c s k .loading) :
    ∃ s', s.handle c (.imageCompleted false) = .ok s' ∧ At c s' k .timed := by
  cases h with
  | loading lt hindex hscheduled himageLoad =>
    refine ⟨_, by rw [handle, Explorer.imageCompleted, himageLoad], ?_⟩
    refine .timed lt hindex s.started ?_ rfl
    simp [generateProgess, hscheduled]

/-- A tick, whatever its timer is. -/
theorem At.tick (hc : c.Playable) (h : At c s k p) (timer : ℕ) (isOver : Bool) :
    ∃ s' k' p', s.handle c (.tick timer isOver) = .ok s' ∧ At c s' k' p' ∧
      Moves c s (.tick timer isOver) k p s' k' p' := by
  by_cases hover : isOver = true ∧ ∃ t ∈ s.scheduled, t.id = timer
  -- The last tick of a timer scheduled, which is that of the story at the index.
  · have hp : p = .timed := by
      by_contra hp
      obtain ⟨-, t, ht, -⟩ := hover
      rw [h.scheduled_eq_nil hp] at ht
      exact List.not_mem_nil ht
    subst hp
    obtain ⟨id, hscheduled, played, s', p', hplays, hhandle, hat, hne⟩ := h.ticked hc
    obtain ⟨rfl, t, ht, rfl⟩ := hover
    rw [hscheduled, List.mem_singleton] at ht
    subst ht
    exact ⟨s', k + 1, p', hhandle, hat, .plays s' p' hne id rfl played hplays⟩
  · obtain ⟨hhandle, hplays⟩ := tick_eq_self (c := c) hover
    exact ⟨s, k, p, hhandle, h, .stays p hplays nofun⟩

/-- A load completed, if there is one. -/
theorem At.imageCompleted (h : At c s k p) (error : Bool) :
    ∃ s' k' p', s.handle c (.imageCompleted error) = .ok s' ∧ At c s' k' p' ∧
      Moves c s (.imageCompleted error) k p s' k' p' := by
  by_cases hp : p = .loading
  · subst hp
    cases error with
    | true =>
      cases h with
      | loading lt hindex hscheduled himageLoad =>
        refine ⟨_, k, .failed, by rw [handle, Explorer.imageCompleted, himageLoad], ?_,
          .fails _ rfl (by simp [himageLoad])⟩
        exact .failed lt hindex hscheduled rfl
    | false =>
      obtain ⟨s', hhandle, hat⟩ := h.loaded
      exact ⟨s', k, .timed, hhandle, hat, .loads s' rfl⟩
  -- Nothing is loaded, so that nothing can fail either.
  · have hnone := h.imageLoad_eq_none hp
    refine ⟨s, k, p, imageCompleted_eq_self hnone, h, .stays p rfl fun _ s' hs' => ?_⟩
    cases hs'
    exact hnone

/-- An explorer that is through is with no story any more. -/
theorem At.of_through (h : At c s k p) (hthrough : s.Through c) :
    k = c.totalStories ∧ p = .through := by
  have hindex := hthrough.index
  cases h with
  | loading lt index | timed lt index | failed lt index => omega
  | through eq => exact ⟨eq, rfl⟩

/-- Any event, left alone. -/
theorem At.handle (hc : c.Playable) (h : At c s k p) (he : e.Alone) :
    ∃ s' k' p', s.handle c e = .ok s' ∧ At c s' k' p' ∧ Moves c s e k p s' k' p' := by
  cases e with
  | tick timer isOver => exact h.tick hc timer isOver
  | imageCompleted error => exact h.imageCompleted error
  | _ => exact he.elim

/-! ## What an event does -/

variable {p' : Standing} {k' : ℕ} {es es' : List Event}

/-- How many events there may be left that do something, with `n` stories left. -/
def Standing.left (n : ℕ) : Standing → ℕ
  | loading => 2 * n
  | timed => 2 * n - 1
  | failed | through => 0

/-- The stories are shown in their order. -/
theorem Moves.shown (h : Moves c s e k p s' k' p') :
    c.list.take (k + 1) ++ (shownAt c (.ok s) e).toList = c.list.take (k' + 1) := by
  cases h with
  | stays _ hplays _ =>
    rw [shownAt, hplays]
    exact List.append_nil _
  | fails _ hevent _ | loads _ hevent =>
    subst hevent
    exact List.append_nil _
  | plays _ _ _ _ _ _ hplays =>
    rw [shownAt, hplays, Option.bind_some, storyAt_natCast, ← List.take_add_one]

/-- No story fails unless its load does. -/
theorem Moves.failed_iff (h : Moves c s e k p s' k' p') (hp : p ≠ .failed) :
    p' ≠ .failed ↔ Loads (.ok s) e := by
  cases h with
  | stays _ _ hloads => exact iff_of_true hp hloads
  | fails _ hevent hload => exact iff_of_false (fun h => h rfl) fun h => hload (h hevent s rfl)
  | loads _ hevent => exact iff_of_true nofun (hevent ▸ nofun)
  | plays _ _ hne _ hevent _ _ => exact iff_of_true hne (hevent ▸ nofun)

/-- Nothing happens any more once one has. -/
theorem Moves.of_failed (h : Moves c s e k .failed s' k' p') : s' = s ∧ k' = k ∧ p' = .failed := by
  cases h
  exact ⟨rfl, rfl, rfl⟩

/-- There is less and less to do. -/
theorem Moves.left_lt (h : Moves c s e k p s' k' p') (hat : At c s k p) (hat' : At c s' k' p')
    (hne : s' ≠ s) : p'.left (c.totalStories - k') < p.left (c.totalStories - k) := by
  cases h with
  | stays => exact absurd rfl hne
  | fails =>
    cases hat with
    | loading lt => simp only [Standing.left]; omega
  | loads =>
    cases hat with
    | loading lt => simp only [Standing.left]; omega
  | plays =>
    cases hat with
    | timed lt => cases hat' <;> simp only [Standing.left] <;> omega

/-! ## Runs -/

/-- An explorer left alone from a state on. -/
theorem At.after (hc : c.Playable) (h : At c s k p) (hes : ∀ e ∈ es, e.Alone) :
    ∃ s' k' p', after (next c) (.ok s) es = .ok s' ∧ At c s' k' p' ∧
      c.list.take (k + 1) ++ shownBy c (.ok s) es = c.list.take (k' + 1) ∧
      (p ≠ .failed → (p' ≠ .failed ↔ AllSteps (next c) Loads (.ok s) es)) ∧
      (p = .failed → p' = .failed) := by
  induction es generalizing s k p with
  | nil =>
    exact ⟨s, k, p, rfl, h, List.append_nil _, fun hp => iff_of_true hp trivial, id⟩
  | cons e es ih =>
    obtain ⟨he, hes⟩ := List.forall_mem_cons.1 hes
    obtain ⟨s₁, k₁, p₁, hhandle, hat, hmoves⟩ := h.handle hc he
    have hnext : next c (.ok s) e = .ok s₁ := hhandle
    obtain ⟨s', k', p', hafter, hat', hshown, hloads, hfailed⟩ := ih hat hes
    refine ⟨s', k', p', ?_, hat', ?_, fun hp => ?_, fun hp => ?_⟩
    · rw [after_cons, hnext, hafter]
    · rw [shownBy, hnext, ← List.append_assoc, hmoves.shown, hshown]
    · rw [allSteps_cons, hnext, ← hmoves.failed_iff hp]
      -- A load that has failed stays so, whatever follows.
      by_cases hp₁ : p₁ = .failed
      · exact iff_of_false (fun h => h (hfailed hp₁)) fun h => h.1 hp₁
      · exact (hloads hp₁).trans (and_iff_right hp₁).symm
    · subst hp
      exact hfailed hmoves.of_failed.2.2

/-- Unless it is through, or its load has failed, something goes on. -/
theorem At.exists_event (hc : c.Playable) (h : At c s k p) (hfailed : p ≠ .failed)
    (hthrough : p ≠ .through) : ∃ e : Event, e.Alone ∧ ∃ s' k' p', s.handle c e = .ok s' ∧
      At c s' k' p' ∧ p' ≠ .failed ∧
      p'.left (c.totalStories - k') < p.left (c.totalStories - k) := by
  have hlt : k < c.totalStories := by
    cases h with
    | loading lt | timed lt | failed lt => exact lt
    | through => exact absurd rfl hthrough
  cases p with
  | loading =>
    obtain ⟨s', hhandle, hat⟩ := h.loaded
    refine ⟨.imageCompleted false, trivial, s', k, .timed, hhandle, hat, nofun, ?_⟩
    simp only [Standing.left]
    omega
  | timed =>
    obtain ⟨id, -, -, s', p', -, hhandle, hat, hne⟩ := h.ticked hc
    refine ⟨.tick id true, trivial, s', k + 1, p', hhandle, hat, hne, ?_⟩
    cases hat <;> simp only [Standing.left] <;> omega
  | failed => exact absurd rfl hfailed
  | through => exact absurd rfl hthrough

/-- The events that are left get it through. -/
theorem At.exists_through (hc : c.Playable) (h : At c s k p) (hfailed : p ≠ .failed) :
    ∃ es : List Event, (∀ e ∈ es, e.Alone) ∧ ∃ s', DocStore.after (next c) (.ok s) es = .ok s' ∧
      s'.Through c := by
  -- On the events that are left: each step below leaves fewer.
  induction hleft : p.left (c.totalStories - k) using Nat.strong_induction_on
    generalizing s k p with
  | _ n ih =>
    by_cases hthrough : p = .through
    · subst hthrough
      cases h with
      | through _ h => exact ⟨[], fun _ hmem => absurd hmem List.not_mem_nil, s, rfl, h⟩
    · obtain ⟨e, he, s₁, k₁, p₁, hhandle, hat, hne, hlt⟩ := h.exists_event hc hfailed hthrough
      obtain ⟨es, hes, s', hafter, hs'⟩ := ih _ (hleft ▸ hlt) hat hne rfl
      refine ⟨e :: es, List.forall_mem_cons.2 ⟨he, hes⟩, s', ?_, hs'⟩
      rw [after_cons, ← hafter]
      exact congrArg (DocStore.after (next c) · es) hhandle

/-- Events that all do something are as many as are left at most. -/
theorem At.length_le (hc : c.Playable) (h : At c s k p) (hes : ∀ e ∈ es, e.Alone)
    (hall : AllSteps (next c) (fun s e => next c s e ≠ s) (.ok s) es) :
    es.length ≤ p.left (c.totalStories - k) := by
  induction es generalizing s k p with
  | nil => exact Nat.zero_le _
  | cons e es ih =>
    obtain ⟨he, hes⟩ := List.forall_mem_cons.1 hes
    obtain ⟨s₁, k₁, p₁, hhandle, hat, hmoves⟩ := h.handle hc he
    have hnext : next c (.ok s) e = .ok s₁ := hhandle
    have hne : s₁ ≠ s := fun heq => hall.1 (by rw [hnext, heq])
    have hrest := ih hat hes (hnext ▸ hall.2)
    exact Nat.lt_of_le_of_lt hrest (hmoves.left_lt h hat hne)

/-- The explorer can still get through all of its stories, left alone. -/
def CanEnd (c : Setting) (es : List Event) : Prop :=
  ∃ es' : List Event, (∀ e ∈ es', e.Alone) ∧
    ∃ s, DocStore.after (next c) (viewDidLoad c) (es ++ es') = .ok s ∧ s.Through c

/-- What an explorer left alone has done: it shows its stories in their order, each
    once, and all of them before it is through, and nothing traps. -/
structure InOrder (c : Setting) (es : List Event) : Prop where
  isPrefix : shown c es <+: c.list
  all : ∀ s, DocStore.after (next c) (viewDidLoad c) es = .ok s → s.Through c → shown c es = c.list
  ok : ∃ s, DocStore.after (next c) (viewDidLoad c) es = .ok s

end Explorer

open Explorer in
/-- **Left alone**, an explorer whose videos have URLs shows its stories one after
    the other, each once, whatever ticks and completes meanwhile; it can still get
    through all of them exactly as long as no load in flight has failed; and what
    happens does nothing any more after two events for each story. -/
theorem playsAlone (hc : c.Playable) {es : List Event} (hes : ∀ e ∈ es, e.Alone) :
    InOrder c es ∧ (CanEnd c es ↔ AllSteps (next c) Loads (viewDidLoad c) es) ∧
      (AllSteps (next c) (fun s e => next c s e ≠ s) (viewDidLoad c) es →
        es.length ≤ 2 * c.totalStories) := by
  obtain ⟨s₀, p₀, hopen, hat₀, hne₀⟩ := at_playStoryAt (s := Explorer.init) (k := 0) hc
    (Nat.zero_le _) rfl rfl rfl
  have hload : viewDidLoad c = .ok s₀ := hopen
  have hfirst : (c.storyAt 0).toList = c.list.take 1 := by
    rw [show (0 : ℤ) = ((0 : ℕ) : ℤ) from rfl, storyAt_natCast, List.take_add_one, List.take_zero,
      List.nil_append]
  obtain ⟨s, k, p, hafter, hat, hshown, hloads, -⟩ := hat₀.after hc hes
  have hall : shown c es = c.list.take (k + 1) := by rw [shown, hload, hfirst, hshown]
  refine ⟨⟨?_, fun s' hs' hthrough => ?_, s, by rw [hload, hafter]⟩, ?_, fun hchanges => ?_⟩
  · rw [hall]
    exact List.take_prefix _ _
  · rw [hload, hafter] at hs'
    cases hs'
    rw [hall, (hat.of_through hthrough).1]
    exact List.take_of_length_le (by rw [length_list]; omega)
  · rw [CanEnd, hload, ← hloads hne₀]
    constructor
    -- A run that gets through cannot have failed before.
    · rintro ⟨es', hes', s', hs', hthrough⟩ hfailed
      rw [after_append, hafter] at hs'
      obtain ⟨s₁, k₁, p₁, hafter₁, hat₁, -, -, hfailed₁⟩ := hat.after hc hes'
      rw [hs', Except.ok.injEq] at hafter₁
      subst hafter₁
      rw [(hat₁.of_through hthrough).2] at hfailed₁
      cases hfailed₁ hfailed
    · intro hp
      obtain ⟨es', hes', s', hs', hthrough⟩ := hat.exists_through hc hp
      exact ⟨es', hes', s', by rw [after_append, hafter, hs'], hthrough⟩
  · rw [hload] at hchanges
    refine (hat₀.length_le hc hes hchanges).trans ?_
    cases p₀ <;> simp only [Standing.left] <;> omega

/-- An image of bob's and then a video. -/
def imageAndVideo : Setting where
  uid := some "ann"
  friendStory := some ⟨⟨2, "Bob", 0, "bob.jpg", "bob", "bob@yoyo"⟩,
    some [⟨1, "bob", "hi", 9, "hi.jpg", [], .image⟩, ⟨2, "bob", "bye", 9, "bye.mp4", [], .video⟩]⟩
  isURL _ := true

/-- His image is shown for a while, and is about to make way for the video. -/
theorem playsAlone_imageAndVideo : Explorer.CanEnd imageAndVideo
    [.tick 0 true, .imageCompleted false, .tick 0 false, .tick 0 true] :=
  (playsAlone (by decide) (by decide)).2.1.2 ⟨nofun, nofun, nofun, nofun, trivial⟩

end YoYo.Player
