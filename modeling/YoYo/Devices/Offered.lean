import YoYo.Devices.App
import YoYo.DocStore.Record
import YoYo.Friends.Search

/-!
# What the devices offer

Whatever happens, a screen only lets its user request what the collection has
offered him (`requests_offered`): a cell says what the list of its user has said
in some version of the collection there has been, and is never that of an entry
that is blocked, and a search offers those without an entry in such a version.

The versions and the requests there have been are a record that only grows, and
along it the reads are justified (`fetching_fetchFriendsList`,
`searching_searchUserProfiles`), and with them what the screens hold.
-/

namespace YoYo.Devices

open DocStore Reads Screens

/-- A request has been offered by a search, an action by the friends screen, of
    some version there has been. -/
def HasOffered (h : History) : FriendOp → Prop
  | .sendFriendRequest a b sent received => h.Searched (.sendFriendRequest a b sent received)
  | .performActionForFriend a b action => h.Tappable (.performActionForFriend a b action)

/-! ## What there has been -/

/-- The versions there have been, and the operations requested so far. -/
structure Record where
  friends : History
  requested : List FriendOp

/-- A record grows as there are more versions and more operations. -/
instance : Preorder Record where
  le w w' := w.friends.seen ⊆ w'.friends.seen ∧ w.requested <+: w'.requested
  le_refl w := ⟨List.Subset.refl _, List.prefix_rfl⟩
  le_trans w w' w'' h h' := ⟨List.Subset.trans h.1 h'.1, h.2.trans h'.2⟩

variable {w w' : Record} {uid : UID}

/-- An entry of the list of the user `uid` in some version, not blocked, with a
    profile of its user. -/
def Shown (w : Record) (uid : UID) (m : MyFriend) : Prop :=
  m.userModel.data.userID = m.friend.uid ∧
    ∃ s ∈ w.friends.seen, m.friend ∈ shownFriends ((book s uid).getD [])

/-- Somebody whom a search of the user `uid` offers in some version. -/
def Found (w : Record) (uid userID : UID) : Prop :=
  ∃ s ∈ w.friends.seen, SearchService.offers uid (listOf s uid) userID

theorem Shown.mono {m : MyFriend} (h : Shown w uid m) (hle : w ≤ w') : Shown w' uid m :=
  ⟨h.1, h.2.imp fun _ hs => ⟨hle.1 hs.1, hs.2⟩⟩

theorem Found.mono {userID : UID} (h : Found w uid userID) (hle : w ≤ w') : Found w' uid userID :=
  h.imp fun _ hs => ⟨hle.1 hs.1, hs.2⟩

/-! ### Reads -/

/-- The lists read are those of some version. -/
def ReadOf (w : Record) : (c : ReadCall) → ReadAnswer c → Prop
  | .friendsOf uid, .ok snapshot => ∃ s ∈ w.friends.seen, snapshot = s.query (ofUser uid)
  | .friendsOf _, .error _ | .usersIn _, _ | .storiesIn _, _ | .messagesFrom _, _
  | .messagesTo _, _ | .listenToStoriesIn _, _ => True

/-- So for a search, and the profiles read are of others. -/
def SearchOf (w : Record) : (c : SearchCall ⊕ ReadCall) → Sum.elim SearchAnswer ReadAnswer c → Prop
  | .inl (.usersOtherThan uid), .ok snapshot => ∀ d ∈ snapshot, profileOfOther uid d.data
  | .inl (.usersOtherThan _), .error _ => True
  | .inr c, a => ReadOf w c a

/-- The friends delivered are entries shown. -/
def Delivers (uid : UID) (w : Record) (ending : Ending) : Prop :=
  ∀ myFriends, ending = .delivered (.fetchSuccess myFriends) → ∀ m ∈ myFriends, Shown w uid m

/-- The profiles delivered are those of users found. -/
def Completes (uid : UID) (w : Record) (result : SearchCompleted) : Prop :=
  result.error = none → ∀ profiles, result.profiles = some profiles →
    ∀ p ∈ profiles, Found w uid p.data.userID

/-- A read of a list that is in flight. -/
abbrev Fetching (uid : UID) (w : Record) (p : ReadProg) : Prop :=
  p.Along ReadOf (fun _ _ => True) (Delivers uid) w

/-- A search that is in flight. -/
abbrev Searching (uid : UID) (w : Record) (p : SearchProg) : Prop :=
  p.Along SearchOf (fun _ _ => True) (Completes uid) w

theorem Delivers.mono {ending : Ending} (hle : w ≤ w') (h : Delivers uid w ending) :
    Delivers uid w' ending :=
  fun myFriends heq m hm => (h myFriends heq m hm).mono hle

theorem Completes.mono {result : SearchCompleted} (hle : w ≤ w') (h : Completes uid w result) :
    Completes uid w' result :=
  fun herr profiles heq p hp => (h herr profiles heq p hp).mono hle

/-- An error delivers nobody. -/
theorem fetching_fetchError (msg : ErrorText) :
    Fetching uid w (.done (.delivered (.fetchError msg))) :=
  fun _ heq => by cases heq

/-- Each of the friends delivered is an entry, with a profile of its user. -/
theorem mem_of_mapM_profileOf {friends : List Friend} {userModels : List Profile}
    {myFriends : List MyFriend}
    (h : (friends.mapM fun friend =>
      (profileOf userModels friend.uid).map (MyFriend.mk friend)) = some myFriends)
    {m : MyFriend} (hm : m ∈ myFriends) :
    m.friend ∈ friends ∧ m.userModel.data.userID = m.friend.uid := by
  have hmap := mapM_eq_some_iff.1 h
  have hsome : some m ∈ friends.map fun friend =>
      (profileOf userModels friend.uid).map (MyFriend.mk friend) := by
    rw [hmap]
    exact List.mem_map_of_mem hm
  obtain ⟨friend, hfriend, hprofile⟩ := List.mem_map.1 hsome
  obtain ⟨p, hp, rfl⟩ := Option.map_eq_some_iff.1 hprofile
  exact ⟨hfriend, (of_profileOf hp).2⟩

/-- **Reading a list** delivers the entries that some version shows. -/
theorem fetching_fetchFriendsList (uid : UID) (w : Record) :
    Fetching uid w (Request.fetchFriendsList uid).checked := by
  rw [Request.checked, Request.prog, Reads.FriendService.fetchFriendsList,
    Reads.fetchFriendsList_eq]
  refine Prog.Along.checked ?_ fun w _ heq => by cases heq
  refine ⟨trivial, fun w₁ _ a ha => ?_⟩
  cases a with
  | error error => exact fetching_fetchError _
  | ok snapshot =>
    obtain ⟨s, hs, rfl⟩ := ha
    -- The version the list was read of is the one the entries are shown by,
    -- whatever version there is when the profiles are read.
    cases hlist : ((s.query (ofUser uid)).filterMap FriendsList.decode).head? with
    | none =>
      simp only [hlist]
      exact fetching_fetchError _
    | some friendsList =>
      have hbook : (book s uid).getD [] = friendsList.friends := by
        rw [book, listOf, hlist]
        rfl
      simp only [hlist]
      split
      · rename_i hlen
        rw [Reads.DatabaseService.fetchUserModels, if_pos hlen]
        refine ⟨trivial, fun w₂ hle a _ => ?_⟩
        cases a with
        | error error => exact fetching_fetchError _
        | ok snapshot =>
          simp only
          split
          · exact fun _ heq => by cases heq
          · rename_i myFriends hmapM
            intro myFriends' heq m hm
            cases heq
            -- Sorting the friends keeps which they are.
            obtain ⟨hmem, huser⟩ :=
              mem_of_mapM_profileOf hmapM ((List.mem_insertionSort _).1 hm)
            exact ⟨huser, s, hle.1 hs, hbook ▸ hmem⟩
      · exact fetching_fetchError _

/-- **Searching** offers those that some version does. -/
theorem searching_searchUserProfiles (lowercased : String → String)
    (contains : String → String → Bool) (uid : UID) (searchString : String) (w : Record) :
    Searching uid w
      (SearchService.searchUserProfiles lowercased contains uid searchString) := by
  rw [SearchService.searchUserProfiles]
  simp only [Devices.DatabaseService.fetchFriendsList_eq]
  refine ⟨trivial, fun w₁ _ a ha => ?_⟩
  cases a with
  | error error => exact fun herr => absurd herr (Option.some_ne_none error)
  | ok profileDocs =>
    -- The profiles are of others, by the first query.
    have hother : ∀ p ∈ decodeAll UserModel.decode profileDocs, p.data.userID ≠ uid := by
      intro p hp heq
      obtain ⟨d, hd, -, hdecode⟩ := mem_decodeAll.1 hp
      have hprofile := ha d hd
      simp [profileOfOther, UserModel.userID_of_decode hdecode, heq, DocField.is] at hprofile
    refine ⟨trivial, fun w₂ _ a ha₂ => ?_⟩
    cases a with
    | error error => exact fun herr => absurd herr (Option.some_ne_none error)
    | ok snapshot =>
      obtain ⟨s, hs, rfl⟩ := ha₂
      cases hlist : ((s.query (ofUser uid)).filterMap FriendsList.decode).head? with
      | none =>
        simp only [hlist, Prog.along_done]
        intro _ profiles hprofiles p hp
        cases hprofiles
        refine ⟨s, hs, ?_⟩
        have hmem := List.mem_filter.1 hp
        simpa [SearchService.offers, listOf, hlist] using hother p hmem.1
      | some friendsList =>
        simp only [hlist, Prog.along_done]
        intro _ profiles hprofiles p hp
        cases hprofiles
        refine ⟨s, hs, ?_⟩
        obtain ⟨hp, hnone⟩ := List.mem_filter.1 hp
        have hmem := List.mem_filter.1 hp
        simpa [SearchService.offers, listOf, hlist, hother p hmem.1] using hnone

/-- What the collections answer is read of the version there is now. -/
theorem readOf_answer {collections : Collections} (hnow : collections.friends ∈ w.friends.seen)
    (failure : Option String) (c : ReadCall) :
    ReadOf w c (Reads.answer failure collections c).1 := by
  cases c with
  | friendsOf uid =>
    cases failure with
    | some description => trivial
    | none => exact ⟨collections.friends, hnow, rfl⟩
  | _ => trivial

theorem searchOf_answer {collections : Collections} (hnow : collections.friends ∈ w.friends.seen)
    (failure : Option String) (c : SearchCall ⊕ ReadCall) :
    SearchOf w c (SearchService.answer failure collections c) := by
  cases c with
  | inl c =>
    cases failure with
    | some description => trivial
    | none => exact fun d hd => (Collection.mem_query.1 hd).2
  | inr c => exact readOf_answer hnow failure c

/-! ### The friends screen -/

namespace FriendsScreen

/-- The friends of the screen, in the table, in the buffer and in the cells, are
    entries shown, and so will be those it is reading. -/
structure Sound (w : Record) (uid : UID) (s : FriendsScreen) : Prop where
  list : ∀ m ∈ s.search.list, Shown w uid m
  searchBuffer : ∀ m ∈ s.search.searchBuffer, Shown w uid m
  fetches : ∀ p ∈ s.fetches, Fetching uid w p
  cells : ∀ cell c, s.cells cell = some c → ∃ m, Shown w uid m ∧ c = filled m

variable {contains : String → String → Bool} {lowercased : String → String}
  {collections : Collections} {s s' : FriendsScreen} {e : FriendsScreenEvent}

theorem sound_viewDidLoad : viewDidLoad.Sound w uid where
  list _ hm := absurd hm List.not_mem_nil
  searchBuffer _ hm := absurd hm List.not_mem_nil
  fetches _ hp := absurd hp List.not_mem_nil
  cells _ c hc := absurd hc (Option.some_ne_none c).symm

namespace Sound

theorem mono (hs : s.Sound w uid) (hle : w ≤ w') : s.Sound w' uid where
  list m hm := (hs.list m hm).mono hle
  searchBuffer m hm := (hs.searchBuffer m hm).mono hle
  fetches p hp := (hs.fetches p hp).mono (fun _ _ h => h) (fun _ h => Delivers.mono h) hle
  cells cell c hc := (hs.cells cell c hc).imp fun _ hm => ⟨hm.1.mono hle, hm.2⟩

theorem fetchFriendsList (hs : s.Sound w uid) : (s.fetchFriendsList uid).Sound w uid where
  list := hs.list
  searchBuffer := hs.searchBuffer
  fetches p hp := by
    rcases List.mem_append.1 hp with hp | hp
    · exact hs.fetches p hp
    · rw [List.mem_singleton.1 hp]
      exact fetching_fetchFriendsList uid w
  cells := hs.cells

theorem setMyFriends (hs : s.Sound w uid) {myFriends : List MyFriend}
    (hfriends : ∀ m ∈ myFriends, Shown w uid m) : (s.setMyFriends myFriends).Sound w uid where
  list := hfriends
  searchBuffer := hs.searchBuffer
  fetches := hs.fetches
  cells := hs.cells

theorem ended (hs : s.Sound w uid) {ending : Ending} (hending : Delivers uid w ending)
    (h : s.ended ending = some s') : s'.Sound w uid := by
  unfold FriendsScreen.ended at h
  split at h
  · cases h
    exact hs.setMyFriends (hending _ rfl)
  · cases h
    exact ⟨fun _ hm => absurd hm List.not_mem_nil, hs.searchBuffer, hs.fetches, hs.cells⟩
  · cases h
    exact hs
  · cases h
    exact hs
  · cases h

theorem answered (hs : s.Sound w uid) (hnow : collections.friends ∈ w.friends.seen)
    {fetch : ℕ} {failure : Option String} (h : s.answered collections fetch failure = some s') :
    s'.Sound w uid := by
  rw [FriendsScreen.answered] at h
  split at h
  · cases h
    exact hs
  · rename_i prog hprog
    have hanswered : Fetching uid w
        (prog.resume fun c => (Reads.answer failure collections c).1) :=
      (hs.fetches prog (List.mem_of_getElem? hprog)).resume le_rfl (fun _ h => h)
        (readOf_answer hnow failure)
    simp only at h
    split at h
    · cases h
      refine ⟨hs.list, hs.searchBuffer, fun p hp => ?_, hs.cells⟩
      rcases List.mem_or_eq_of_mem_set hp with hp | rfl
      · exact hs.fetches p hp
      · exact hanswered
    -- The last query: the read is no longer in flight.
    · rename_i ending hending
      have herased : ({ s with fetches := s.fetches.eraseIdx fetch } : FriendsScreen).Sound w uid :=
        ⟨hs.list, hs.searchBuffer, fun p hp => hs.fetches p (List.mem_of_mem_eraseIdx hp), hs.cells⟩
      exact herased.ended (hanswered.of_result hending) h

theorem reloadData (hs : s.Sound w uid) : s.reloadData.Sound w uid := by
  rw [FriendsScreen.reloadData]
  split
  · exact hs
  · exact ⟨hs.list, hs.searchBuffer, hs.fetches, sound_viewDidLoad.cells⟩

theorem cellForRowAt (hs : s.Sound w uid) {row cell : ℕ}
    (h : s.cellForRowAt row cell = some s') : s'.Sound w uid := by
  rw [FriendsScreen.cellForRowAt] at h
  split at h
  · obtain ⟨m, hm, rfl⟩ := Option.map_eq_some_iff.1 h
    refine ⟨hs.list, hs.searchBuffer, hs.fetches, fun cell' c hc => ?_⟩
    by_cases hcell : cell' = cell
    · subst hcell
      simp only [Function.update_self, Option.some.injEq] at hc
      exact ⟨m, hs.list m (List.mem_of_getElem? hm), hc.symm⟩
    · simp only [Function.update_of_ne hcell] at hc
      exact hs.cells cell' c hc
  · cases h
    exact hs

/-- What is searched for is looked for in the buffer, or in the friends shown. -/
theorem searchBarSearchButtonClicked (hs : s.Sound w uid) :
    (s.searchBarSearchButtonClicked contains lowercased).Sound w uid := by
  -- The first search fills the buffer with the friends shown.
  have hbuffer : ∀ m ∈ s.search.fillBuffer.searchBuffer, Shown w uid m := by
    rw [Search.fillBuffer]
    split
    · exact hs.list
    · exact hs.searchBuffer
  refine ⟨fun m hm => ?_, fun m hm => ?_, hs.fetches, hs.cells⟩
  · simp only [FriendsScreen.searchBarSearchButtonClicked,
      Screens.FriendsViewController.list_searchBarSearchButtonClicked] at hm
    exact hbuffer m (List.mem_filter.1 hm).1
  -- The text searched for matters to what is shown, not to the buffer.
  · refine hbuffer m ?_
    simp only [FriendsScreen.searchBarSearchButtonClicked,
      Screens.FriendsViewController.searchBarSearchButtonClicked] at hm
    split at hm <;> simpa [Search.fillBuffer, Search.endEditing, apply_ite] using hm

theorem searchBarCancelButtonClicked (hs : s.Sound w uid) :
    (s.searchBarCancelButtonClicked uid).Sound w uid := by
  refine Sound.fetchFriendsList ⟨hs.list, fun m hm => ?_, hs.fetches, hs.cells⟩
  exact absurd hm List.not_mem_nil

theorem next (hs : s.Sound w uid) (hnow : collections.friends ∈ w.friends.seen)
    (h : s.next contains lowercased uid collections e = some s') : s'.Sound w uid := by
  cases e with
  | detectFriendsChange status =>
    cases h
    rw [FriendsScreen.detectFriendsChange]
    split
    · exact hs.fetchFriendsList
    · exact hs
  | answered fetch failure => exact hs.answered hnow h
  | reloadData =>
    cases h
    exact hs.reloadData
  | cellForRowAt row cell => exact hs.cellForRowAt h
  | textDidChange searchText =>
    cases h
    exact ⟨hs.list, hs.searchBuffer, hs.fetches, hs.cells⟩
  | searchButtonClicked =>
    cases h
    exact hs.searchBarSearchButtonClicked
  | cancelButtonClicked =>
    cases h
    exact hs.searchBarCancelButtonClicked

end Sound

/-- What is requested by a tap is an action on an entry shown. -/
theorem Sound.of_buttonTapped (hs : s.Sound w uid) {cell : ℕ} {action : FriendAction}
    {op : FriendOp} (h : s.buttonTapped uid cell action = some op) : HasOffered w.friends op := by
  obtain ⟨c, hc, hop⟩ := Option.bind_eq_some_iff.1 h
  obtain ⟨m, ⟨huser, s', hs', hmem⟩, rfl⟩ := hs.cells cell c hc
  split at hop
  · rename_i hoffers
    cases hop
    exact ⟨s', hs', m.friend, hmem, huser.symm, hoffers⟩
  · cases hop

end FriendsScreen

/-! ### The screen for adding friends -/

namespace AddFriendScreen

/-- The users of the profiles on the screen, in the table and in the cells, satisfy
    `F`, and the searches in flight `S`. -/
structure Holds (F : UID → Prop) (S : SearchProg → Prop) (s : AddFriendScreen) : Prop where
  profiles : ∀ p ∈ s.profiles, F p.data.userID
  searches : ∀ p ∈ s.searches, S p
  cells : ∀ cell c, s.cells cell = some c → F c.uid

/-- The profiles of the screen, in the table and in the cells, are those of users
    found, and so will be those it is searching. -/
structure Sound (w : Record) (uid : UID) (s : AddFriendScreen) : Prop where
  profiles : ∀ p ∈ s.profiles, Found w uid p.data.userID
  searches : ∀ p ∈ s.searches, Searching uid w p
  cells : ∀ cell c, s.cells cell = some c → Found w uid c.uid

variable {contains : String → String → Bool} {lowercased : String → String}
  {collections : Collections} {s : AddFriendScreen} {e : AddFriendScreenEvent}
  {F F' : UID → Prop} {S S' : SearchProg → Prop}

theorem holds_viewDidLoad : viewDidLoad.Holds F S where
  profiles _ hp := absurd hp List.not_mem_nil
  searches _ hp := absurd hp List.not_mem_nil
  cells _ c hc := absurd hc (Option.some_ne_none c).symm

namespace Holds

theorem mono (hs : s.Holds F S) (hF : ∀ uid, F uid → F' uid) (hS : ∀ p, S p → S' p) :
    s.Holds F' S' where
  profiles p hp := hF _ (hs.profiles p hp)
  searches p hp := hS p (hs.searches p hp)
  cells cell c hc := hF _ (hs.cells cell c hc)

theorem searchBarSearchButtonClicked (hs : s.Holds F S) {searchText : String}
    (hsearch : S (SearchService.searchUserProfiles lowercased contains uid searchText)) :
    (s.searchBarSearchButtonClicked contains lowercased uid searchText).Holds F S := by
  rw [AddFriendScreen.searchBarSearchButtonClicked]
  split
  · refine ⟨hs.profiles, fun p hp => ?_, hs.cells⟩
    rcases List.mem_append.1 hp with hp | hp
    · exact hs.searches p hp
    · rw [List.mem_singleton.1 hp]
      exact hsearch
  · exact hs

theorem searchCompleted (hs : s.Holds F S) {result : SearchCompleted}
    (hresult : result.error = none → ∀ profiles, result.profiles = some profiles →
      ∀ p ∈ profiles, F p.data.userID) : (s.searchCompleted result).Holds F S := by
  rw [AddFriendScreen.searchCompleted]
  split
  · rename_i profiles herror hprofiles
    exact ⟨hresult herror profiles hprofiles, hs.searches, (holds_viewDidLoad (S := S)).cells⟩
  · exact hs
  · exact hs

theorem answered (hs : s.Holds F S) {failure : Option String}
    (hanswer : ∀ p, S p → S (p.resume (SearchService.answer failure collections)))
    (hresult : ∀ p result, S p → p.result = some result → result.error = none →
      ∀ profiles, result.profiles = some profiles → ∀ p ∈ profiles, F p.data.userID)
    (search : ℕ) : (s.answered collections search failure).Holds F S := by
  rw [AddFriendScreen.answered]
  split
  · exact hs
  · rename_i prog hprog
    have hanswered := hanswer prog (hs.searches prog (List.mem_of_getElem? hprog))
    simp only
    split
    · refine ⟨hs.profiles, fun p hp => ?_, hs.cells⟩
      rcases List.mem_or_eq_of_mem_set hp with hp | rfl
      · exact hs.searches p hp
      · exact hanswered
    · rename_i result hended
      have herased : ({ s with searches := s.searches.eraseIdx search } : AddFriendScreen).Holds F
          S :=
        ⟨hs.profiles, fun p hp => hs.searches p (List.mem_of_mem_eraseIdx hp), hs.cells⟩
      exact herased.searchCompleted (hresult _ result hanswered hended)

theorem cellForRowAt (hs : s.Holds F S) (row cell : ℕ) : (s.cellForRowAt row cell).Holds F S := by
  rw [AddFriendScreen.cellForRowAt]
  split
  · rename_i p hp
    refine ⟨hs.profiles, hs.searches, fun cell' c hc => ?_⟩
    by_cases hcell : cell' = cell
    · subst hcell
      simp only [Function.update_self, Option.some.injEq] at hc
      exact hc ▸ hs.profiles p (List.mem_of_getElem? hp)
    · simp only [Function.update_of_ne hcell] at hc
      exact hs.cells cell' c hc
  · exact hs

/-- What holds of the users a search finds, whatever it is answered, holds of those
    on the screen. -/
theorem next (hs : s.Holds F S)
    (hsearch : ∀ searchText,
      S (SearchService.searchUserProfiles lowercased contains uid searchText))
    (hanswer : ∀ failure p, S p → S (p.resume (SearchService.answer failure collections)))
    (hresult : ∀ p result, S p → p.result = some result → result.error = none →
      ∀ profiles, result.profiles = some profiles → ∀ p ∈ profiles, F p.data.userID) :
    (s.next contains lowercased uid collections e).Holds F S := by
  cases e with
  | searchButtonClicked searchText => exact hs.searchBarSearchButtonClicked (hsearch searchText)
  | answered search failure => exact hs.answered (hanswer failure) hresult search
  | cellForRowAt row cell => exact hs.cellForRowAt row cell

/-- A button that is disabled is one of the same cell. -/
theorem requestSucceeded (hs : s.Holds F S) (cell : ℕ) : (s.requestSucceeded cell).Holds F S := by
  refine ⟨hs.profiles, hs.searches, fun cell' c hc => ?_⟩
  by_cases hcell : cell' = cell
  · subst hcell
    simp only [AddFriendScreen.requestSucceeded, Function.update_self] at hc
    obtain ⟨c', hc', rfl⟩ := Option.map_eq_some_iff.1 hc
    exact hs.cells cell' c' hc'
  · simp only [AddFriendScreen.requestSucceeded, Function.update_of_ne hcell] at hc
    exact hs.cells cell' c hc

end Holds

theorem sound_iff : s.Sound w uid ↔ s.Holds (Found w uid) (Searching uid w) :=
  ⟨fun hs => ⟨hs.profiles, hs.searches, hs.cells⟩, fun hs => ⟨hs.profiles, hs.searches, hs.cells⟩⟩

theorem sound_viewDidLoad : viewDidLoad.Sound w uid := sound_iff.2 holds_viewDidLoad

namespace Sound

theorem mono (hs : s.Sound w uid) (hle : w ≤ w') : s.Sound w' uid :=
  sound_iff.2 <| (sound_iff.1 hs).mono (fun _ h => h.mono hle) fun _ h =>
    h.mono (fun _ _ h => h) (fun _ h => Completes.mono h) hle

theorem next (hs : s.Sound w uid) (hnow : collections.friends ∈ w.friends.seen)
    (e : AddFriendScreenEvent) : (s.next contains lowercased uid collections e).Sound w uid := by
  refine sound_iff.2 <| (sound_iff.1 hs).next (fun searchText => ?_) (fun failure p hp => ?_)
    fun p result hp hended => hp.of_result hended
  · exact searching_searchUserProfiles lowercased contains uid searchText w
  · exact hp.resume le_rfl (fun _ h => h) (searchOf_answer hnow failure)

theorem requestSucceeded (hs : s.Sound w uid) (cell : ℕ) :
    (s.requestSucceeded cell).Sound w uid :=
  sound_iff.2 ((sound_iff.1 hs).requestSucceeded cell)

end Sound

/-- What is requested by a tap is a request to somebody found. -/
theorem Sound.of_addButtonTapped (hs : s.Sound w uid) {cell : ℕ} {sent received : Date}
    {op : FriendOp} (h : s.addButtonTapped uid cell sent received = some op) :
    HasOffered w.friends op := by
  obtain ⟨c, hc, hop⟩ := Option.bind_eq_some_iff.1 h
  split at hop
  · cases hop
    exact hs.cells cell c hc
  · cases hop

end AddFriendScreen

/-! ## The app -/

namespace App

variable {ι : Type} {contains : String → String → Bool} {lowercased : String → String}
  {g : AutoId DocID} {me : ι → UID} {s : App ι} {e : AppEvent ι} {i : ι} {device : Option Device}

/-- What there has been so far. -/
def record (s : App ι) : Record := ⟨s.friends, s.requested⟩

/-- Every device that has not trapped satisfies `P`. -/
def AllDevices (P : ι → Device → Prop) (s : App ι) : Prop :=
  ∀ i device, s.devices i = some device → P i device

/-- The screens of every device hold what they may, by the record. -/
def Sound (me : ι → UID) (w : Record) (s : App ι) : Prop :=
  ∀ i device, s.devices i = some device →
    device.friendsScreen.Sound w (me i) ∧ device.addFriendScreen.Sound w (me i)

theorem sound_start (friends : FriendsStore) (users : UsersStore) :
    (start friends users : App ι).Sound me w := by
  intro i device hdevice
  cases hdevice
  exact ⟨FriendsScreen.sound_viewDidLoad, AddFriendScreen.sound_viewDidLoad⟩

theorem Sound.mono (hs : s.Sound me w) (hle : w ≤ w') : s.Sound me w' :=
  fun i device hdevice => (hs i device hdevice).imp (·.mono hle) (·.mono hle)

/-- What is requested has been offered. -/
theorem Sound.hasOffered (hs : s.Sound me s.record) {request : ι × Option ℕ × FriendOp}
    (h : s.request me e = some request) : HasOffered s.friends request.2.2 := by
  cases e with
  | friendsScreen | addFriendScreen | called | usersChanged => cases h
  | buttonTapped i cell action =>
    obtain ⟨device, hdevice, h⟩ := Option.bind_eq_some_iff.1 h
    obtain ⟨op, hop, rfl⟩ := Option.map_eq_some_iff.1 h
    exact (hs i device hdevice).1.of_buttonTapped hop
  | addButtonTapped i cell sent received =>
    obtain ⟨device, hdevice, h⟩ := Option.bind_eq_some_iff.1 h
    obtain ⟨op, hop, rfl⟩ := Option.map_eq_some_iff.1 h
    exact (hs i device hdevice).2.of_addButtonTapped hop

variable [DecidableEq ι]

/-- A device is changed. -/
theorem AllDevices.setDevice {P : ι → Device → Prop} (hs : s.AllDevices P)
    (hdevice : ∀ d, device = some d → P i d) : (s.setDevice i device).AllDevices P := by
  intro j d hd
  by_cases hj : j = i
  · subst hj
    rw [devices_setDevice_self] at hd
    exact hdevice d hd
  · rw [devices_setDevice_of_ne hj] at hd
    exact hs j d hd

/-- An operation that ends disables a button at most. -/
theorem AllDevices.ended {P : ι → Device → Prop} (hs : s.AllDevices P)
    (hP : ∀ i d cell, P i d →
      P i { d with addFriendScreen := d.addFriendScreen.requestSucceeded cell })
    (operation : Running ι) (report : Report) : (s.ended operation report).AllDevices P := by
  unfold App.ended
  split
  · refine hs.setDevice fun d hd => ?_
    obtain ⟨device, hdevice, rfl⟩ := Option.map_eq_some_iff.1 hd
    -- Only a request sent from a cell has a button to disable.
    cases operation.sender with
    | none => exact hs _ device hdevice
    | some cell => exact hP _ device cell (hs _ device hdevice)
  · exact hs
  · exact hs
  · exact hs.setDevice fun d hd => absurd hd (Option.some_ne_none d).symm

/-- The next call of an operation ends it at most. -/
theorem AllDevices.called {P : ι → Device → Prop} (hs : s.AllDevices P)
    (hP : ∀ i d cell, P i d →
      P i { d with addFriendScreen := d.addFriendScreen.requestSucceeded cell })
    (n : ℕ) (success : Bool) : (s.called g n success).AllDevices P := by
  rw [App.called]
  split
  · exact hs
  · split
    · exact hs
    · simp only
      split
      · exact hs
      · refine AllDevices.ended ?_ hP _ _
        exact hs

@[simp] theorem record_ended (operation : Running ι) (report : Report) :
    (s.ended operation report).record = s.record := by
  unfold App.ended
  split <;> rfl

@[simp] theorem running_ended (operation : Running ι) (report : Report) :
    (s.ended operation report).running = s.running := by
  unfold App.ended
  split <;> rfl

/-- The next call of an operation makes another version at most. -/
theorem record_le_called (n : ℕ) (success : Bool) : s.record ≤ (s.called g n success).record := by
  rw [called]
  split
  · exact le_rfl
  · split
    · exact le_rfl
    · simp only
      split
      · exact ⟨List.subset_cons_self _ _, List.prefix_rfl⟩
      · rw [record_ended]
        exact ⟨List.subset_cons_self _ _, List.prefix_rfl⟩

theorem Sound.called (hs : s.Sound me w) (n : ℕ) (success : Bool) :
    (s.called g n success).Sound me w :=
  AllDevices.called hs (fun _ _ cell hd => ⟨hd.1, hd.2.requestSucceeded cell⟩) n success

/-- The record only grows. -/
theorem record_le_next (s : App ι) (e : AppEvent ι) :
    s.record ≤ (s.next contains lowercased g me e).record := by
  cases e with
  | friendsScreen | addFriendScreen | usersChanged => exact le_rfl
  | called n success => exact record_le_called n success
  | buttonTapped | addButtonTapped =>
    rw [next]
    cases s.request me _ with
    | none => exact le_rfl
    | some request => exact ⟨List.Subset.refl _, List.prefix_append _ _⟩

/-- An event leaves the screens with what they may hold. -/
theorem Sound.next (hs : s.Sound me s.record) (e : AppEvent ι) :
    (s.next contains lowercased g me e).Sound me s.record := by
  have hnow : s.collections.friends ∈ s.record.friends.seen := Versions.now_mem_seen _
  cases e with
  | friendsScreen i e =>
    refine AllDevices.setDevice hs fun d hd => ?_
    obtain ⟨device, hdevice, hd⟩ := Option.bind_eq_some_iff.1 hd
    obtain ⟨friendsScreen, hnext, rfl⟩ := Option.map_eq_some_iff.1 hd
    obtain ⟨hfriends, hadd⟩ := hs i device hdevice
    exact ⟨hfriends.next hnow hnext, hadd⟩
  | addFriendScreen i e =>
    refine AllDevices.setDevice hs fun d hd => ?_
    obtain ⟨device, hdevice, rfl⟩ := Option.map_eq_some_iff.1 hd
    obtain ⟨hfriends, hadd⟩ := hs i device hdevice
    exact ⟨hfriends, hadd.next hnow e⟩
  | called n success => exact hs.called n success
  | usersChanged users => exact hs
  | buttonTapped | addButtonTapped =>
    rw [App.next]
    cases s.request me _ with
    | none => exact hs
    | some request => exact hs

variable (contains lowercased g me)

/-- **A screen only offers what the collection has**: in every run, of any number of
    devices, whatever is requested has been offered by some version of it. -/
theorem requests_offered (friends : FriendsStore) (users : UsersStore) (es : List (AppEvent ι)) :
    AllSteps (next contains lowercased g me)
      (fun s e => ∀ request, s.request me e = some request → HasOffered s.friends request.2.2)
      (start friends users) es := by
  refine AllSteps.imp (I := fun s : App ι => s.Sound me s.record)
    (fun s e hs _ => (hs.next e).mono (record_le_next s e))
    (fun s e hs _ request h => hs.hasOffered h) (sound_start friends users)
    (allSteps_iff_forall.2 fun _ _ _ _ => trivial) (P := fun _ _ => True)

end App

end YoYo.Devices
