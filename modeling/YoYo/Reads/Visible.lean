import YoYo.Friends.Invariant
import YoYo.Reads.Limits

/-!
# Who sees whose stories

What the request for stories delivers, where the lists are those operations
offered by the screens have made: an entry for each user whose request is
accepted and who has a story that has not expired, with his profile and exactly
these stories (`storiesSeen`). Accepted users are accepted by both sides, so
seeing stories is symmetric, and there is nothing to be seen behind a block.

The request joins the list with profiles and stories. It does so exactly where
nobody is listed twice and everybody listed has a profile (`Joined`).
-/

namespace YoYo.Reads

open DocStore Reads.DatabaseService

/-- Exactly one document of the collection is a profile of the user, and it decodes. -/
def OneProfile (s : Collections) (uid : UID) : Prop :=
  ∃ d, s.users.query (fun d => d.userID.is uid) = [d] ∧ (UserModel.decode d.data).isSome

theorem OneProfile.hasProfile {s : Collections} {uid : UID} (h : OneProfile s uid) :
    HasProfile s uid := by
  obtain ⟨d, hd, hdecode⟩ := h
  obtain ⟨u, hu⟩ := Option.isSome_iff_exists.1 hdecode
  obtain ⟨hmem, huid⟩ := Collection.mem_query.1 (hd ▸ List.mem_singleton_self d)
  rw [DocField.is_iff, UserModel.userID_of_decode hu, DocField.value.injEq] at huid
  exact ⟨d, hmem, u, hu, huid⟩

/-- The users accept each other as friends. -/
def Friends (s : Collections) (x y : UID) : Prop :=
  (book s.friends).statusOf x y = some .accpeted ∧ (book s.friends).statusOf y x = some .accpeted

/-- A user blocks another. -/
def Blocks (s : Collections) (x y : UID) : Prop := (book s.friends).statusOf x y = some .unblock

/-- A story of a user that is stored, and has not expired. -/
def Unexpired (s : Collections) (uid : UID) (today : Date) (story : Doc DocID Story) : Prop :=
  (∃ d ∈ s.stories.docs, d.id = story.id ∧ Story.decode d.data = some story.data) ∧
    story.data.uid = uid ∧ today ≤ story.data.expiryDate

/-- An entry with a profile that is stored, and exactly the stories of its user
    that have not expired, each of them once. -/
structure FriendStory.Exact (s : Collections) (today : Date) (entry : FriendStory) : Prop where
  profile : ∃ d ∈ s.users.docs, d.id = entry.userModel.id ∧
    UserModel.decode d.data = some entry.userModel.data
  stories : ∃ stories, entry.stories = some stories ∧ stories.Nodup ∧
    ∀ story, story ∈ stories ↔ Unexpired s entry.userModel.data.userID today story

/-- The user `x` may see stories of `y`: there are stories for which a request
    delivers an entry of `y` to him. -/
def MaySee (s : Collections) (x y : UID) : Prop :=
  ∃ stories today entries,
    (Request.fetchMyFriendsStories x today).ending (fun _ => none) { s with stories } =
      .delivered (.fetchFriendsStory entries none) ∧
    ∃ entry ∈ entries, entry.userModel.data.userID = y

/-! ## The join -/

/-- The lists agree, and everybody listed has a profile. -/
structure Joined (s : Collections) : Prop where
  agrees : (book s.friends).Agrees
  profiles : ∀ x, ∀ friend ∈ (book s.friends x).getD [], HasProfile s friend.uid

section

variable {s : Collections} {x y uid : UID} {uids : List UID} {today : Date} {l : FriendsList}
  {entries : List FriendStory}

/-- A story that decodes is found if its user is asked for. -/
theorem storyIn_iff {d : StoryDoc} {a : Story} (ha : Story.decode d = some a) :
    storyIn uids d ↔ a.uid ∈ uids := by
  simp only [storyIn, List.any_eq_true, DocField.is_iff, Story.uid_of_decode ha,
    DocField.value.injEq, exists_eq_right']

theorem mem_storiesIn {story : Doc DocID Story} : story ∈ storiesIn s uids today ↔
    (∃ d ∈ s.stories.docs, d.id = story.id ∧ Story.decode d.data = some story.data) ∧
      story.data.uid ∈ uids ∧ today ≤ story.data.expiryDate := by
  rw [storiesIn, List.mem_filter, mem_decodeAll, decide_eq_true_iff, ← and_assoc]
  refine and_congr_left' ?_
  constructor
  · rintro ⟨d, hd, hid, hstory⟩
    obtain ⟨hd, hin⟩ := Collection.mem_query.1 hd
    exact ⟨⟨d, hd, hid, hstory⟩, (storyIn_iff hstory).1 hin⟩
  · rintro ⟨⟨d, hd, hid, hstory⟩, huid⟩
    exact ⟨d, Collection.mem_query.2 ⟨hd, (storyIn_iff hstory).2 huid⟩, hid, hstory⟩

theorem nodup_storiesIn : (storiesIn s uids today).Nodup := by
  refine List.Nodup.filter _ (List.pairwise_filterMap.2 ?_)
  refine (s.stories.sorted_query _).imp fun {d e} hlt a ha b hb => ?_
  obtain ⟨-, -, rfl⟩ := Option.map_eq_some_iff.1 ha
  obtain ⟨-, -, rfl⟩ := Option.map_eq_some_iff.1 hb
  exact fun heq => hlt.ne (Doc.mk.inj heq).1

/-- The users whose stories are fetched are those accepted. -/
theorem Joined.mem_acceptedUIDs (hs : Joined s) (hl : listOf s.friends x = some l) :
    y ∈ StoryService.acceptedUIDs l ↔ (book s.friends).statusOf x y = some .accpeted := by
  have hb : book s.friends x = some l.friends := by rw [book, hl, Option.map_some]
  rw [StoryService.acceptedUIDs, List.mem_map, Book.statusOf]
  constructor
  · rintro ⟨friend, hfriend, rfl⟩
    obtain ⟨hfriend, hstatus⟩ := List.mem_filter.1 hfriend
    have hmem : friend ∈ entries (book s.friends x) friend.uid := by
      rw [hb, entries_some]
      exact List.mem_filter.2 ⟨hfriend, by simp⟩
    obtain ⟨f, hf⟩ := hs.agrees.entries_eq (List.ne_nil_of_mem hmem)
    rw [hf, List.mem_singleton] at hmem
    subst hmem
    rw [hf]
    simpa using hstatus
  · intro h
    obtain ⟨friend, hfriend, hstatus⟩ := Option.map_eq_some_iff.1 h
    have hmem := List.mem_of_mem_head? hfriend
    rw [hb, entries_some, List.mem_filter] at hmem
    exact ⟨friend, List.mem_filter.2 ⟨hmem.1, by simpa using hstatus⟩, by simpa using hmem.2⟩

theorem Joined.nodup_acceptedUIDs (hs : Joined s) (hl : listOf s.friends x = some l) :
    (StoryService.acceptedUIDs l).Nodup := by
  have hb : book s.friends x = some l.friends := by rw [book, hl, Option.map_some]
  have hnodup : (l.friends.map Friend.uid).Nodup :=
    nodup_uids_iff.2 fun y => hb ▸ hs.agrees.single x y
  exact hnodup.sublist (List.filter_sublist.map _)

/-- Whom a user accepts accepts him. -/
theorem Joined.friends_iff (hs : Joined s) :
    Friends s x y ↔ (book s.friends).statusOf x y = some .accpeted := by
  refine and_iff_left_of_imp fun h => ?_
  have hc := hs.agrees.complementary x y
  rw [h] at hc
  revert hc
  cases (book s.friends).statusOf y x with
  | none => decide
  | some status => cases status <;> decide

/-- Of a user asked for, the stories found are those that have not expired. -/
theorem mem_filter_storiesIn (hy : y ∈ uids) {story : Doc DocID Story} :
    story ∈ (storiesIn s uids today).filter (fun story => story.data.uid = y) ↔
      Unexpired s y today story := by
  rw [List.mem_filter, mem_storiesIn, decide_eq_true_iff, Unexpired]
  constructor
  · rintro ⟨⟨hd, -, htoday⟩, huid⟩
    exact ⟨hd, huid, htoday⟩
  · rintro ⟨hd, huid, htoday⟩
    exact ⟨⟨hd, huid ▸ hy, htoday⟩, huid⟩

/-- The join, for different users who all have a profile. -/
theorem exists_friendsStory (today : Date) (hnodup : uids.Nodup)
    (hprofiles : ∀ uid ∈ uids, HasProfile s uid) :
    ∃ entries, StoryService.friendsStory (profilesIn s uids) (storiesIn s uids today) uids =
        some entries ∧
      (entries.map fun entry => entry.userModel.data.userID).Nodup ∧
      (∀ y, (∃ entry ∈ entries, entry.userModel.data.userID = y) ↔
        y ∈ uids ∧ ∃ story, Unexpired s y today story) ∧
      ∀ entry ∈ entries, entry.Exact s today := by
  obtain ⟨entries, hentries⟩ := Option.ne_none_iff_exists'.1 fun hnone => by
    obtain ⟨uid, huid, habs⟩ := friendsStory_eq_none_iff.1 hnone
    exact habs (hprofiles uid huid)
  refine ⟨entries, hentries, ?_⟩
  rw [StoryService.friendsStory] at hentries
  obtain ⟨all, hall, rfl⟩ := Option.map_eq_some_iff.1 hentries
  rw [mapM_eq_some_iff] at hall
  -- All users asked for have an entry, before those without stories are left out.
  have hmem : ∀ entry, entry ∈ all ↔ ∃ uid ∈ uids, ∃ p,
      profileOf (profilesIn s uids) uid = some p ∧
        ⟨p, some ((storiesIn s uids today).filter fun story => story.data.uid = uid)⟩ = entry := by
    intro entry
    rw [← List.mem_map_of_injective (Option.some_injective _), ← hall, List.mem_map]
    simp only [Option.map_eq_some_iff]
  have hprofile : ∀ uid ∈ uids, ∃ p, profileOf (profilesIn s uids) uid = some p := fun uid huid =>
    Option.ne_none_iff_exists'.1 fun hnone =>
      (profileOf_eq_none_iff huid).1 hnone (hprofiles uid huid)
  have huserIDs : (all.map fun entry => entry.userModel.data.userID) = uids := by
    -- The entries are in the order of the users, so that none has two of them.
    refine (Option.some_injective _).list_map ?_
    calc (all.map fun entry => entry.userModel.data.userID).map some
        = (all.map some).map (Option.map fun entry => entry.userModel.data.userID) := by
          rw [List.map_map, List.map_map]
          rfl
      _ = uids.map some := by
          rw [← hall, List.map_map]
          refine List.map_congr_left fun uid huid => ?_
          obtain ⟨p, hp⟩ := hprofile uid huid
          simp [hp, (of_profileOf hp).2]
  refine ⟨?_, fun y => ?_, fun entry hentry => ?_⟩
  · exact (huserIDs ▸ hnodup).sublist (List.filter_sublist.map _)
  · constructor
    · rintro ⟨entry, hentry, rfl⟩
      obtain ⟨hentry, hstories⟩ := List.mem_filter.1 hentry
      obtain ⟨uid, huid, p, hp, rfl⟩ := (hmem entry).1 hentry
      obtain ⟨story, hstory⟩ := List.length_pos_iff_exists_mem.1 (of_decide_eq_true hstories)
      rw [(of_profileOf hp).2]
      exact ⟨huid, story, (mem_filter_storiesIn huid).1 hstory⟩
    · rintro ⟨huid, story, hstory⟩
      obtain ⟨p, hp⟩ := hprofile y huid
      refine ⟨_, List.mem_filter.2 ⟨(hmem _).2 ⟨y, huid, p, hp, rfl⟩, decide_eq_true ?_⟩,
        (of_profileOf hp).2⟩
      exact List.length_pos_of_mem ((mem_filter_storiesIn huid).2 hstory)
  · obtain ⟨uid, huid, p, hp, rfl⟩ := (hmem entry).1 (List.mem_filter.1 hentry).1
    obtain ⟨hfound, rfl⟩ := of_profileOf hp
    exact ⟨(mem_profilesIn.1 hfound).1, _, rfl, nodup_storiesIn.filter _,
      fun story => mem_filter_storiesIn huid⟩

/-- How the request for stories ends for a user with an accepted friend. -/
theorem Joined.exists_entries (hs : Joined s) (today : Date)
    (hx : ∃ y, (book s.friends).statusOf x y = some .accpeted) :
    ∃ entries, (Request.fetchMyFriendsStories x today).ending (fun _ => none) s =
        .delivered (.fetchFriendsStory entries none) ∧
      (entries.map fun entry => entry.userModel.data.userID).Nodup ∧
      (∀ y, (∃ entry ∈ entries, entry.userModel.data.userID = y) ↔
        Friends s x y ∧ ∃ story, Unexpired s y today story) ∧
      ∀ entry ∈ entries, entry.Exact s today := by
  obtain ⟨y, hy⟩ := hx
  have hsome : ∃ l, listOf s.friends x = some l := by
    refine Option.ne_none_iff_exists'.1 fun hnone => ?_
    rw [Book.statusOf, book, hnone] at hy
    cases hy
  obtain ⟨l, hl⟩ := hsome
  have huids : StoryService.acceptedUIDs l ≠ [] :=
    List.ne_nil_of_mem ((hs.mem_acceptedUIDs hl).2 hy)
  have hprofiles : ∀ uid ∈ StoryService.acceptedUIDs l, HasProfile s uid := by
    intro uid huid
    obtain ⟨friend, hfriend, rfl⟩ := List.mem_map.1 huid
    refine hs.profiles x friend ?_
    rw [book, hl]
    exact (List.mem_filter.1 hfriend).1
  obtain ⟨entries, hentries, hnodup, hmem, hexact⟩ :=
    exists_friendsStory today (hs.nodup_acceptedUIDs hl) hprofiles
  refine ⟨entries, ?_, hnodup, fun y => ?_, hexact⟩
  · rw [ending_fetchMyFriendsStories, hl]
    simp only [if_neg huids, hentries]
  · rw [hmem, hs.mem_acceptedUIDs hl, hs.friends_iff]

/-- A user without an accepted friend obtains nothing. -/
theorem ending_of_no_friend {env : ℕ → Option String}
    (hs : Joined s) (hx : ¬ ∃ y, (book s.friends).statusOf x y = some .accpeted)
    (h : env 0 = none) :
    (Request.fetchMyFriendsStories x today).ending env s = .silent := by
  rw [ending_fetchMyFriendsStories, h]
  cases hl : listOf s.friends x with
  | none => rfl
  | some l =>
    have hnil : StoryService.acceptedUIDs l = [] :=
      List.eq_nil_iff_forall_not_mem.2 fun y hy => hx ⟨y, (hs.mem_acceptedUIDs hl).1 hy⟩
    simp only [hnil, if_true]

/-- Those who accept each other may see each other's stories, and nobody else. -/
theorem Joined.maySee_iff (hs : Joined s) : MaySee s x y ↔ Friends s x y := by
  constructor
  · rintro ⟨stories, today, entries, hending, hentry⟩
    have hs' : Joined { s with stories } := ⟨hs.agrees, hs.profiles⟩
    by_cases hx : ∃ y, (book s.friends).statusOf x y = some .accpeted
    · obtain ⟨entries', hending', -, hmem, -⟩ := hs'.exists_entries today hx
      rw [hending] at hending'
      cases hending'
      exact ((hmem y).1 hentry).1
    · rw [ending_of_no_friend hs' hx rfl] at hending
      cases hending
  · intro hfriends
    -- A story of the user is enough to be seen.
    let story : Story := ⟨y, "", 0, "", [], .image⟩
    let stories : StoriesStore := Collection.empty.setData 0 story.encode
    have hs' : Joined { s with stories } := ⟨hs.agrees, hs.profiles⟩
    obtain ⟨entries, hending, -, hmem, -⟩ := hs'.exists_entries 0 ⟨y, hfriends.1⟩
    refine ⟨stories, 0, entries, hending, (hmem y).2 ⟨hfriends, ⟨0, story⟩, ?_, rfl, le_rfl⟩⟩
    exact ⟨⟨0, story.encode⟩, Collection.mem_setData.2 (.inl rfl), rfl, Story.decode_encode story⟩

end

/-! ## Runs of operations offered -/

/-- After operations offered, of users with a profile each, the lists can be joined. -/
theorem joined_of_offered {g : AutoId DocID} {ops : List FriendOp} {s : Collections}
    (h : AllSteps (nextStore g) Offered .empty ops)
    (hfriends : s.friends = after (nextStore g) .empty ops)
    (hprofiles : ∀ op ∈ ops, OneProfile s op.myUID ∧ OneProfile s op.friendUID) : Joined s := by
  have husers : AllSteps (nextStore g)
      (fun _ op => HasProfile s op.myUID ∧ HasProfile s op.friendUID) .empty ops := by
    refine allSteps_iff_forall.2 fun ops₁ op ops₂ hops => ?_
    have hop := hprofiles op (by simp [hops])
    exact ⟨hop.1.hasProfile, hop.2.hasProfile⟩
  have hI := (allSteps_and.2 ⟨h, husers⟩).invariant
    (I := fun s' => Kept s' ∧ (book s').Agrees ∧ (book s').Relates fun _ uid => HasProfile s uid)
    (fun s' op hs' hop => ?_) ⟨kept_empty, book_empty ▸ .empty, fun _ _ => nofun⟩
  · rw [← hfriends] at hI
    exact ⟨hI.2.1, hI.2.2⟩
  · obtain ⟨hkept, hagrees, hrelates⟩ := hs'
    obtain ⟨hkept', hagrees'⟩ := hop.1.sound.nextStore (g := g) hkept hagrees
    refine ⟨hkept', hagrees', ?_⟩
    rw [nextStore, (exec_refines hkept op).2.1]
    exact hrelates.onBook hop.2.2 hop.2.1

/-- After any operations, each offered by the screens when it is performed, of
    users who have one profile each:

* the request for stories of a user with an accepted friend, and ten of them at
  most, is accepted by the store, and delivers an entry for each user who is a
  friend and has a story that has not expired, with his profile and these stories;
* unwrapping the profiles never traps (with more than ten accepted friends the query
  for them throws instead of being answered, `outcome_of_not_within`);
* seeing stories is symmetric, and nobody sees any who blocks the other or is
  blocked by him. -/
theorem storiesSeen {g : AutoId DocID} {ops : List FriendOp} {s : Collections}
    (h : AllSteps (nextStore g) Offered .empty ops)
    (hfriends : s.friends = after (nextStore g) .empty ops)
    (hprofiles : ∀ op ∈ ops, OneProfile s op.myUID ∧ OneProfile s op.friendUID) :
    (∀ x today, (∃ y, (book s.friends).statusOf x y = some .accpeted) →
      (∀ l, listOf s.friends x = some l → (StoryService.acceptedUIDs l).length ≤ 10) →
      (Request.fetchMyFriendsStories x today).Accepted (fun _ => none) s ∧
      ∃ entries, (Request.fetchMyFriendsStories x today).ending (fun _ => none) s =
          .delivered (.fetchFriendsStory entries none) ∧
        (entries.map fun entry => entry.userModel.data.userID).Nodup ∧
        (∀ y, (∃ entry ∈ entries, entry.userModel.data.userID = y) ↔
          Friends s x y ∧ ∃ story, Unexpired s y today story) ∧
        ∀ entry ∈ entries, entry.Exact s today) ∧
    (∀ x today, (Request.fetchMyFriendsStories x today).ending (fun _ => none) s ≠ .trapped) ∧
    (∀ x y, MaySee s x y ↔ MaySee s y x) ∧
    ∀ x y, Blocks s x y → ¬ MaySee s x y ∧ ¬ MaySee s y x := by
  have hs := joined_of_offered h hfriends hprofiles
  refine ⟨fun x today hx hten => ⟨?_, hs.exists_entries today hx⟩, fun x today => ?_,
    fun x y => ?_, fun x y hblocks => ?_⟩
  · exact accepted_fetchMyFriendsStories.2 fun _ => hten
  · by_cases hx : ∃ y, (book s.friends).statusOf x y = some .accpeted
    · obtain ⟨entries, hending, -⟩ := hs.exists_entries today hx
      rw [hending]
      exact Ending.noConfusion
    · rw [ending_of_no_friend hs hx rfl]
      exact Ending.noConfusion
  · rw [hs.maySee_iff, hs.maySee_iff]
    exact and_comm
  · rw [hs.maySee_iff, hs.maySee_iff, Friends, Friends, hblocks]
    simp

/-- Ann and Bob become friends. -/
def friendsRun : List FriendOp :=
  [.sendFriendRequest "ann" "bob" 1 2, .performActionForFriend "bob" "ann" .accept]

/-- The collections then, with their profiles, and a story of Bob. -/
def twoFriends : Collections where
  friends := after (nextStore succId) .empty friendsRun
  users := (Collection.empty.setData 1
    (UserModel.encode ⟨"Ann", 0, "ann.jpg", "ann", "ann@yoyo"⟩)).setData 2
      (UserModel.encode ⟨"Bob", 0, "bob.jpg", "bob", "bob@yoyo"⟩)
  stories := Collection.empty.setData 1 (Story.encode ⟨"bob", "hi", 9, "hi.jpg", [], .image⟩)
  messages := .empty

/-- While it has not expired, Ann sees the story of Bob. -/
theorem storiesSeen_twoFriends : ∃ entries,
    (Request.fetchMyFriendsStories "ann" 9).ending (fun _ => none) twoFriends =
      .delivered (.fetchFriendsStory entries none) ∧
    ∃ entry ∈ entries, entry.userModel.data.userID = "bob" := by
  have hprofiles : ∀ op ∈ friendsRun, OneProfile twoFriends op.myUID ∧
      OneProfile twoFriends op.friendUID := by
    have hann : OneProfile twoFriends "ann" := ⟨_, rfl, rfl⟩
    have hbob : OneProfile twoFriends "bob" := ⟨_, rfl, rfl⟩
    rintro op (_ | ⟨_, _ | ⟨_, hop⟩⟩)
    · exact ⟨hann, hbob⟩
    · exact ⟨hbob, hann⟩
    · cases hop
  have hoffered : AllSteps (nextStore succId) Offered .empty friendsRun := by decide
  obtain ⟨-, entries, hending, -, hmem, -⟩ := (storiesSeen hoffered rfl hprofiles).1 "ann" 9
    ⟨"bob", by decide⟩ (by
      rintro l hl
      have hann : listOf twoFriends.friends "ann" =
          some ⟨some 1, "ann", [⟨"bob", 1, .accpeted⟩]⟩ := by
        decide
      cases hann.symm.trans hl
      decide)
  refine ⟨entries, hending, (hmem "bob").2 ⟨⟨by decide, by decide⟩,
    ⟨1, ⟨"bob", "hi", 9, "hi.jpg", [], .image⟩⟩, ?_⟩⟩
  exact ⟨⟨_, List.mem_singleton_self _, rfl, rfl⟩, rfl, le_rfl⟩

end YoYo.Reads
