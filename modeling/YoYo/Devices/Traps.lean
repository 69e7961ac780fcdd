import Mathlib
import YoYo.Devices.Consent
import YoYo.Devices.Serial
import YoYo.Profiles.Integrity

/-!
# Traps

The app forces what it expects to be there: the profile of every friend that it
shows, the row of every cell it draws, the index of every entry it removes. The
profiles are indeed there, however long the lists naming their users have been
read before them: whoever is in a list has once been found by his profile, or has
found somebody, being logged in. What is left are three ways for a device to
trap, or to be terminated otherwise (`traps_iff`):

* its table draws a row that the list has lost since the rows were counted, the
  reload being due;
* its list is read, of which more than ten entries are to be shown, and the query
  for their profiles throws;
* an operation requested on it is to remove an entry, and reads the list when it
  has become empty: that of its user, at its start, or that of the friend, after
  its first half.
-/

namespace YoYo.Devices

open DocStore Reads Accounts Profiles

/-! ## Profiles -/

/-- The users who have a profile. -/
def known (users : UsersStore) : Set UID :=
  {uid | HasProfile ⟨.empty, users, .empty, .empty⟩ uid}

variable {users : UsersStore} {uid : UID} {w w' : Set UID}

/-- Whoever logs in has one. -/
theorem mem_known_of_login
    (h : (LoginViewController.createGlobalStateAndPerformSegue uid users).isSome) :
    uid ∈ known users := by
  obtain ⟨p, hp⟩ := Option.isSome_iff_exists.1 h
  obtain ⟨d, hd, -, hdecode⟩ := mem_decodeAll.1 (List.mem_of_head? hp)
  obtain ⟨hmem, hprofile⟩ := Collection.mem_query.1 hd
  refine ⟨d, hmem, p.data, hdecode, DocField.value.inj ?_⟩
  exact (UserModel.userID_of_decode hdecode).symm.trans (DocField.is_iff.1 hprofile)

/-- Signing up takes nobody's profile. -/
theorem known_saveUserModel (g : AutoId DocID) (user : UserModel) :
    known users ⊆ known (DatabaseService.saveUserModel g user users) := by
  rintro uid ⟨d, hd, u, hdecode⟩
  exact ⟨d, Collection.mem_addDocument.2 (.inr hd), u, hdecode⟩

/-- Neither does a change of a profile: it stays one of the same user. -/
theorem known_edit (g : AutoId DocID) (edit : Edit) (ok : ℕ → Bool) (uid : UID) :
    known users ⊆ known ((edit.prog uid).exec (Call.answer g profileOfUser) ok users).2 := by
  rcases @exec_edit g uid edit ok users with hsame | ⟨d, hd, u, hdecode, hset⟩
  · rw [hsame]
  · rw [hset]
    rintro uid' ⟨d', hd', u', hdecode', huid'⟩
    have hmem := (Collection.mem_query.1 hd).1
    have huser : (edit.apply u).userID = u.userID := by cases edit <;> rfl
    by_cases hid : d'.id = d.id
    · have heq : d' = d := Collection.eq_of_id_eq hd' hmem hid
      subst heq
      refine ⟨⟨d'.id, (edit.apply u).encode⟩, Collection.mem_setData.2 (.inl rfl), edit.apply u,
        UserModel.decode_encode _, ?_⟩
      rw [huser, ← huid', Option.some.inj (hdecode.symm.trans hdecode')]
    · exact ⟨d', Collection.mem_setData.2 (.inr ⟨hd', hid⟩), u', hdecode', huid'⟩

/-! ## Reads -/

/-- Everybody in a list that is read is known, and the profiles of users known are
    among those read. -/
def ReadKnown (w : Set UID) : (c : ReadCall) → ReadAnswer c → Prop
  | .friendsOf _, .ok snapshot =>
    ∀ d ∈ snapshot, ∀ l, FriendsList.decode d = some l → ∀ f ∈ l.friends, f.uid ∈ w
  | .usersIn uids, .ok snapshot =>
    ∀ uid ∈ uids, uid ∈ w → profileOf (decodeAll UserModel.decode snapshot) uid ≠ none
  | .friendsOf _, .error _ | .usersIn _, .error _ | .storiesIn _, _ | .messagesFrom _, _
  | .messagesTo _, _ | .listenToStoriesIn _, _ => True

/-- The profiles a search reads are of users known. -/
def SearchKnown (w : Set UID) :
    (c : SearchCall ⊕ ReadCall) → Sum.elim SearchAnswer ReadAnswer c → Prop
  | .inl (.usersOtherThan _), .ok snapshot =>
    ∀ p ∈ decodeAll UserModel.decode snapshot, p.data.userID ∈ w
  | .inl (.usersOtherThan _), .error _ | .inr _, _ => True

/-- The profiles found are of users known. -/
def FindsKnown (w : Set UID) (result : SearchCompleted) : Prop :=
  ∀ profiles, result.profiles = some profiles → ∀ p ∈ profiles, p.data.userID ∈ w

/-- A read in flight that does not trap. -/
abbrev SafeRead (w : Set UID) (p : ReadProg) : Prop :=
  p.Along ReadKnown (fun _ _ => True) (fun _ ending => ending ≠ .trapped) w

/-- A search in flight that finds users known. -/
abbrev KnownSearch (w : Set UID) (p : SearchProg) : Prop :=
  p.Along SearchKnown (fun _ _ => True) FindsKnown w

theorem FindsKnown.mono {result : SearchCompleted} (hle : w ≤ w') (h : FindsKnown w result) :
    FindsKnown w' result := fun profiles heq p hp => hle (h profiles heq p hp)

/-- More entries of the list of a user are to be shown than the store accepts users. -/
def TooMany (uid : UID) (s : Collections) : Prop :=
  ∃ l, listOf s.friends uid = some l ∧ 10 < (shownFriends l.friends).length

variable (uid) in
/-- **Reading a list** finds all the profiles it unwraps, and traps exactly if the
    query for these throws. -/
theorem resume_checked_fetchFriendsList {collections : Collections} {failure : Option String}
    (hanswer : ∀ c, ReadKnown w c (Reads.answer failure collections c).1) :
    let p := (Request.fetchFriendsList uid).checked.resume fun c =>
      (Reads.answer failure collections c).1
    failure = none ∧ TooMany uid collections ∧ p = .done .trapped ∨
      ¬ (failure = none ∧ TooMany uid collections) ∧ SafeRead w p := by
  simp only [Request.checked, Request.prog, FriendService.fetchFriendsList, resume_fetchFriendsList]
  cases failure with
  | some description => exact .inr ⟨fun h => Option.some_ne_none _ h.1, Ending.noConfusion⟩
  | none =>
    cases hlist : listOf collections.friends uid with
    | none => exact .inr ⟨by simp [TooMany, hlist], Ending.noConfusion⟩
    | some l =>
      have htoo : TooMany uid collections ↔ 10 < (shownFriends l.friends).length := by
        simp [TooMany, hlist]
      rw [htoo]
      simp only
      by_cases hshown : ((shownFriends l.friends).map Friend.uid).length > 0
      · rw [if_pos hshown, Reads.DatabaseService.fetchUserModels, if_pos hshown]
        have hvalid : (ReadCall.usersIn ((shownFriends l.friends).map Friend.uid)).Valid ↔
            ¬ 10 < (shownFriends l.friends).length := by
          rw [ReadCall.Valid, ValidDisjunctiveFilterElements, List.length_map, not_lt]
          exact and_iff_right (List.length_pos_iff.1 hshown)
        by_cases hlen : 10 < (shownFriends l.friends).length
        · exact .inl ⟨trivial, hlen, Prog.checked_call_of_not_valid (fun h => hvalid.1 h hlen) _⟩
        · rw [Prog.checked_call_of_valid (hvalid.2 hlen)]
          refine .inr ⟨fun h => hlen h.2, trivial, fun w' hle a ha => ?_⟩
          cases a with
          | error error => exact Ending.noConfusion
          | ok userDocs =>
            simp only
            split
            · rename_i hnone
              exfalso
              -- Those in the list were known when it was read, and are so now.
              obtain ⟨friend, hfriend, hmissing⟩ := mapM_eq_none_iff.1 hnone
              obtain ⟨d, hd, hdecode⟩ := List.mem_filterMap.1 (List.mem_of_head? hlist)
              have hknown := hle (hanswer (.friendsOf uid) d hd l hdecode friend
                (List.mem_filter.1 hfriend).1)
              exact ha friend.uid (List.mem_map_of_mem hfriend) hknown
                (Option.map_eq_none_iff.1 hmissing)
            · exact Ending.noConfusion
      · rw [if_neg hshown]
        refine .inr ⟨fun h => ?_, Ending.noConfusion⟩
        rw [List.length_map] at hshown
        omega

/-- **Searching** finds users known. -/
theorem knownSearch_searchUserProfiles (lowercased : String → String)
    (contains : String → String → Bool) (uid : UID) (searchString : String) (w : Set UID) :
    KnownSearch w (SearchService.searchUserProfiles lowercased contains uid searchString) := by
  rw [SearchService.searchUserProfiles]
  simp only [Devices.DatabaseService.fetchFriendsList_eq]
  refine ⟨trivial, fun w₁ _ a ha => ?_⟩
  cases a with
  | error error => exact fun profiles heq => by cases heq
  | ok profileDocs =>
    refine ⟨trivial, fun w₂ hle a _ => ?_⟩
    have hknown : ∀ p ∈ decodeAll UserModel.decode profileDocs, p.data.userID ∈ w₂ :=
      fun p hp => hle (ha p hp)
    cases a with
    | error error =>
      rintro profiles ⟨⟩ p hp
      exact hknown p (List.mem_filter.1 hp).1
    | ok snapshot =>
      cases hlist : (snapshot.filterMap FriendsList.decode).head? with
      | none =>
        simp only [hlist, Prog.along_done]
        rintro profiles ⟨⟩ p hp
        exact hknown p (List.mem_filter.1 hp).1
      | some friendsList =>
        simp only [hlist, Prog.along_done]
        rintro profiles ⟨⟩ p hp
        exact hknown p (List.mem_filter.1 (List.mem_filter.1 hp).1).1

/-- The collections, of which every list names users known only, answer so. -/
theorem readKnown_answer {s : Collections}
    (hlists : ∀ d ∈ s.friends.docs, ∀ l, FriendsList.decode d = some l →
      ∀ f ∈ l.friends, f.uid ∈ known s.users) (failure : Option String) (c : ReadCall) :
    ReadKnown (known s.users) c (Reads.answer failure s c).1 := by
  cases failure with
  | some description => cases c <;> trivial
  | none =>
    cases c with
    | friendsOf uid => exact fun d hd => hlists d (Collection.mem_query.1 hd).1
    | usersIn uids =>
      intro uid huid hknown hnone
      exact (profileOf_eq_none_iff (s := s) huid).1 hnone hknown
    | _ => trivial

theorem searchKnown_answer {s : Collections} (failure : Option String)
    (c : SearchCall ⊕ ReadCall) :
    SearchKnown (known s.users) c (SearchService.answer failure s c) := by
  cases c with
  | inr c => trivial
  | inl c =>
    cases failure with
    | some description => trivial
    | none =>
      intro p hp
      obtain ⟨d, hd, -, hdecode⟩ := mem_decodeAll.1 hp
      exact ⟨d, (Collection.mem_query.1 hd).1, p.data, hdecode, rfl⟩

/-! ### The friends screen -/

namespace FriendsScreen

variable {contains : String → String → Bool} {lowercased : String → String}
  {collections : Collections} {s s' : FriendsScreen} {e : FriendsScreenEvent}

/-- A row of the table that the list has lost since the rows were counted: the
    reload is due. -/
def LostRow (s : FriendsScreen) (row : ℕ) : Prop :=
  0 < s.reloads ∧ s.search.list.length ≤ row ∧ row < s.rows

/-- A read is answered its list, of which too many entries are to be shown. -/
def ReadsTooMany (uid : UID) (collections : Collections) (s : FriendsScreen) :
    FriendsScreenEvent → Prop
  | .answered fetch none =>
    s.fetches[fetch]? = some (Request.fetchFriendsList uid).checked ∧ TooMany uid collections
  | _ => False

/-- The reads in flight are at their start, or do not trap any more, and the rows of
    the table are in the list, as long as no reload is due. -/
structure Safe (uid : UID) (w : Set UID) (s : FriendsScreen) : Prop where
  fetches : ∀ p ∈ s.fetches, p = (Request.fetchFriendsList uid).checked ∨ SafeRead w p
  rows : s.reloads = 0 → s.rows ≤ s.search.list.length

theorem safe_viewDidLoad : viewDidLoad.Safe uid w where
  fetches _ hp := absurd hp List.not_mem_nil
  rows _ := le_rfl

namespace Safe

theorem mono (hs : s.Safe uid w) (hle : w ≤ w') : s.Safe uid w' where
  fetches p hp := (hs.fetches p hp).imp_right fun h =>
    h.mono (fun _ _ h => h) (fun _ _ h => h) hle
  rows := hs.rows

theorem fetchFriendsList (hs : s.Safe uid w) : (s.fetchFriendsList uid).Safe uid w where
  fetches p hp := by
    rcases List.mem_append.1 hp with hp | hp
    · exact hs.fetches p hp
    · exact .inl (List.mem_singleton.1 hp)
  rows := hs.rows

/-- Friends delivered are not counted before the reload. -/
theorem setMyFriends (hs : s.Safe uid w) (myFriends : List MyFriend) :
    (s.setMyFriends myFriends).Safe uid w where
  fetches := hs.fetches
  rows h := absurd h (Nat.succ_ne_zero _)

/-- A read that does not end by trapping leaves a screen. -/
theorem ended (hs : s.Safe uid w) {ending : Ending} (hending : ending ≠ .trapped) :
    ∃ s', s.ended ending = some s' ∧ s'.Safe uid w := by
  cases ending with
  | trapped => exact absurd rfl hending
  | silent => exact ⟨s, rfl, hs⟩
  | delivered reply =>
    cases reply with
    | fetchSuccess myFriends => exact ⟨_, rfl, hs.setMyFriends myFriends⟩
    | fetchError msg => exact ⟨_, rfl, (hs.setMyFriends []).fetches, (hs.setMyFriends []).rows⟩
    | _ => exact ⟨s, rfl, hs⟩

/-- The next query of a read, once it is answered, does not trap any more, unless
    it throws for want of the list being short enough. -/
theorem resume (hs : s.Safe uid w)
    {failure : Option String} (hanswer : ∀ c, ReadKnown w c (Reads.answer failure collections c).1)
    {fetch : ℕ} {prog : ReadProg} (hprog : s.fetches[fetch]? = some prog) :
    let p := prog.resume fun c => (Reads.answer failure collections c).1
    s.ReadsTooMany uid collections (.answered fetch failure) ∧ p = .done .trapped ∨
      ¬ s.ReadsTooMany uid collections (.answered fetch failure) ∧ SafeRead w p := by
  by_cases hstart : prog = (Request.fetchFriendsList uid).checked
  · subst hstart
    rcases resume_checked_fetchFriendsList uid hanswer with ⟨rfl, htoo, hp⟩ | ⟨hnot, hp⟩
    · exact .inl ⟨⟨hprog, htoo⟩, hp⟩
    · refine .inr ⟨fun h => ?_, hp⟩
      cases failure with
      | some description => exact h
      | none => exact hnot ⟨rfl, h.2⟩
  · refine .inr ⟨fun h => ?_, ?_⟩
    · cases failure with
      | some description => exact h
      | none => exact hstart (Option.some.inj (hprog.symm.trans h.1))
    · exact ((hs.fetches prog (List.mem_of_getElem? hprog)).resolve_left hstart).resume le_rfl
        (fun _ h => h) hanswer

/-- An answer traps exactly so. -/
theorem answered (hs : s.Safe uid w)
    {failure : Option String} (hanswer : ∀ c, ReadKnown w c (Reads.answer failure collections c).1)
    (fetch : ℕ) :
    s.ReadsTooMany uid collections (.answered fetch failure) ∧
        s.answered collections fetch failure = none ∨
      ¬ s.ReadsTooMany uid collections (.answered fetch failure) ∧
        ∃ s', s.answered collections fetch failure = some s' ∧ s'.Safe uid w := by
  rw [FriendsScreen.answered]
  cases hprog : s.fetches[fetch]? with
  | none =>
    refine .inr ⟨fun h => ?_, s, rfl, hs⟩
    cases failure with
    | some description => exact h
    | none => exact Option.some_ne_none _ (h.1.symm.trans hprog)
  | some prog =>
    simp only
    rcases hs.resume hanswer hprog with ⟨htoo, hp⟩ | ⟨hnot, hanswered⟩
    · exact .inl ⟨htoo, by rw [hp]; rfl⟩
    · refine .inr ⟨hnot, ?_⟩
      split
      · refine ⟨_, rfl, fun p hp => ?_, hs.rows⟩
        rcases List.mem_or_eq_of_mem_set hp with hp | rfl
        · exact hs.fetches p hp
        · exact .inr hanswered
      · rename_i ending hending
        have herased :
            ({ s with fetches := s.fetches.eraseIdx fetch } : FriendsScreen).Safe uid w :=
          ⟨fun p hp => hs.fetches p (List.mem_of_mem_eraseIdx hp), hs.rows⟩
        exact herased.ended (hanswered.of_result hending)

theorem reloadData (hs : s.Safe uid w) : s.reloadData.Safe uid w := by
  rw [FriendsScreen.reloadData]
  split
  · exact hs
  · exact ⟨hs.fetches, fun _ => le_rfl⟩

end Safe

/-- A row is missing exactly if it has been lost. -/
theorem Safe.cellForRowAt_eq_none_iff (hs : s.Safe uid w) (row cell : ℕ) :
    s.cellForRowAt row cell = none ↔ s.LostRow row := by
  rw [FriendsScreen.cellForRowAt, LostRow]
  by_cases hrow : row < s.rows
  · rw [if_pos hrow, Option.map_eq_none_iff, List.getElem?_eq_none_iff]
    refine ⟨fun hlen => ⟨Nat.pos_of_ne_zero fun hreloads => ?_, hlen, hrow⟩, fun h => h.2.1⟩
    -- Without a reload due, all rows counted are there.
    exact absurd (hs.rows hreloads) (by omega)
  · rw [if_neg hrow]
    exact iff_of_false (Option.some_ne_none s) fun h => hrow h.2.2

/-- A row is drawn that has been lost, or a list read of which there is too much. -/
def Traps (uid : UID) (collections : Collections) (s : FriendsScreen) (e : FriendsScreenEvent) :
    Prop :=
  (∃ row cell, e = .cellForRowAt row cell ∧ s.LostRow row) ∨ s.ReadsTooMany uid collections e

/-- **What an event does to the screen**: it traps exactly in one of these ways, and
    leaves the screen as it may be otherwise. -/
theorem Safe.next (hs : s.Safe uid w)
    (hanswer : ∀ failure c, ReadKnown w c (Reads.answer failure collections c).1) :
    (s.next contains lowercased uid collections e = none ↔ s.Traps uid collections e) ∧
    ∀ s', s.next contains lowercased uid collections e = some s' → s'.Safe uid w := by
  -- All events but the drawing of a row and an answer leave a screen.
  have hother : ∀ {s'}, s.next contains lowercased uid collections e = some s' → s'.Safe uid w →
      ¬ s.Traps uid collections e →
      (s.next contains lowercased uid collections e = none ↔ s.Traps uid collections e) ∧
      ∀ s', s.next contains lowercased uid collections e = some s' → s'.Safe uid w := by
    intro s' hs' hsafe hnot
    refine ⟨iff_of_false (by simp [hs']) hnot, fun s'' hs'' => ?_⟩
    exact Option.some.inj (hs'.symm.trans hs'') ▸ hsafe
  cases e with
  | detectFriendsChange status =>
    refine hother rfl ?_ (by simp [Traps, ReadsTooMany])
    rw [FriendsScreen.detectFriendsChange]
    split
    · exact hs.fetchFriendsList
    · exact hs
  | answered fetch failure =>
    rcases hs.answered (hanswer failure) fetch with ⟨htoo, hnone⟩ | ⟨hnot, s', hs', hsafe⟩
    · refine ⟨iff_of_true hnone (.inr htoo), fun s' hs' => ?_⟩
      exact absurd (hs'.symm.trans hnone) (Option.some_ne_none s')
    · refine hother hs' hsafe fun h => h.elim (fun h => ?_) hnot
      obtain ⟨_, _, heq, -⟩ := h
      cases heq
  | reloadData => exact hother rfl hs.reloadData (by simp [Traps, ReadsTooMany])
  | cellForRowAt row cell =>
    refine ⟨(hs.cellForRowAt_eq_none_iff row cell).trans
      ⟨fun h => .inl ⟨row, cell, rfl, h⟩, ?_⟩, ?_⟩
    · rintro (⟨_, _, ⟨⟩, h⟩ | h)
      · exact h
      · exact h.elim
    · intro s' (hs' : s.cellForRowAt row cell = some s')
      rw [FriendsScreen.cellForRowAt] at hs'
      split at hs'
      · obtain ⟨m, -, rfl⟩ := Option.map_eq_some_iff.1 hs'
        exact ⟨hs.fetches, hs.rows⟩
      · exact Option.some.inj hs' ▸ hs
  | textDidChange searchText =>
    exact hother rfl ⟨hs.fetches, hs.rows⟩ (by simp [Traps, ReadsTooMany])
  | searchButtonClicked =>
    refine hother rfl ⟨hs.fetches, fun h => ?_⟩ (by simp [Traps, ReadsTooMany])
    exact absurd h (Nat.succ_ne_zero _)
  | cancelButtonClicked =>
    have hcancelled : Safe uid w
        { s with search := { s.search.endEditing with searchBuffer := [] } } :=
      ⟨hs.fetches, hs.rows⟩
    exact hother rfl hcancelled.fetchFriendsList (by simp [Traps, ReadsTooMany])

end FriendsScreen

/-! ### The screen for adding friends -/

namespace AddFriendScreen

variable {contains : String → String → Bool} {lowercased : String → String}
  {collections : Collections} {s : AddFriendScreen} {e : AddFriendScreenEvent}

/-- The profiles of the screen, in the table and in the cells, are of users known,
    and so will be those it is searching. -/
abbrev Known (w : Set UID) (s : AddFriendScreen) : Prop := s.Holds (· ∈ w) (KnownSearch w)

theorem Known.mono (hs : s.Known w) (hle : w ≤ w') : s.Known w' :=
  Holds.mono hs (fun _ h => hle h) fun _ h =>
    h.mono (fun _ _ h => h) (fun _ h => FindsKnown.mono h) hle

theorem Known.next (hs : s.Known w)
    (hanswer : ∀ failure c, SearchKnown w c (SearchService.answer failure collections c)) :
    (s.next contains lowercased uid collections e).Known w := by
  refine Holds.next hs (fun searchText => ?_) (fun failure p hp => ?_)
    fun p result hp hended _ => hp.of_result hended
  · exact knownSearch_searchUserProfiles lowercased contains uid searchText w
  · exact hp.resume le_rfl (fun _ h => h) (hanswer failure)

end AddFriendScreen

/-! ## Operations -/

variable {g : AutoId DocID} {v : FriendsStore} {op : FriendOp} {c : FriendsCall}

/-- A half traps exactly if it is to remove an entry of the empty list. -/
theorem myHalf_eq_trapped_iff (l : Option (List Friend)) :
    op.myHalf l = .error .trapped ↔ op.removes ∧ l = some [] := by
  cases op with
  | sendFriendRequest => simp [FriendOp.myHalf, FriendOp.removes]
  | performActionForFriend a b action =>
    cases l with
    | none => simp [FriendOp.myHalf]
    | some l =>
      rw [FriendOp.removes, Option.some.injEq,
        ← performAction_eq_none_iff l b action (action = .block), FriendOp.myHalf]
      cases FriendService.performAction l b action (action = .block) <;> simp

theorem friendHalf_eq_trapped_iff (l : Option (List Friend)) :
    op.friendHalf l = .error .trapped ↔ op.removes ∧ l = some [] := by
  cases op with
  | sendFriendRequest => simp [FriendOp.friendHalf, FriendOp.removes]
  | performActionForFriend a b action =>
    cases l with
    | none => simp [FriendOp.friendHalf]
    | some l =>
      rw [FriendOp.removes, Option.some.injEq, ← performAction_eq_none_iff l a action false,
        FriendOp.friendHalf]
      cases FriendService.performAction l a action false <;> simp

/-- What is read is the list of the user `uid`, and it is empty. -/
def ReadsEmpty (uid : UID) : (c : FriendsCall) → Answer c → Prop
  | .getDocuments uid', some documents => uid' = uid ∧
    (documents.filterMap FriendsList.decode).head?.map FriendsList.friends = some []
  | .getDocuments _, none | .addDocument _, _ | .setData _ _, _ => False

/-- The operation is to remove an entry of the list of the user `uid`, which it waits
    to read: at its start, or after its first half. -/
def Removing (op : FriendOp) (p : FriendsProg) (uid : UID) : Prop :=
  op.removes ∧
    (p = op.prog ∧ uid = op.myUID ∨ (∃ success, p = op.rest success) ∧ uid = op.friendUID)

/-- What is left of an operation traps only by reading such a list, if it is empty. -/
abbrev TrapsByReading (op : FriendOp) (p : FriendsProg) : Prop :=
  p.EndsBy (· = .trapped) fun c k a => ∃ uid, Removing op (.call c k) uid ∧ ReadsEmpty uid c a

/-- Writing a list does not trap, if what follows does not at once. -/
theorem endsBy_updateFriendsList
    {R : (c : FriendsCall) → (Answer c → FriendsProg) → Answer c → Prop}
    {friendsList : FriendsList} {k : Bool → FriendsProg}
    (hk : ∀ success, (k success).result ≠ some .trapped ∧ (k success).EndsBy (· = .trapped) R) :
    (YoYo.DatabaseService.updateFriendsList friendsList k).EndsBy (· = .trapped) R := by
  have hnow : ∀ {c a k'} (success : Bool) (r : Report), (k success).result = some r →
      r = .trapped → R c k' a := by
    rintro c a k' success r hr rfl
    exact absurd hr (hk success).1
  have hcall : ∀ {c a k'} {c' : FriendsCall} {k'' : Answer c' → FriendsProg} (r : Report),
      (Prog.call c' k'').result = some r → r = .trapped → R c k' a :=
    fun r hr => (Option.some_ne_none r hr.symm).elim
  intro documents
  cases documents with
  | none => exact ⟨hnow false, (hk false).2⟩
  | some documents =>
    simp only
    split
    · exact ⟨hcall, fun success => ⟨hnow success, (hk success).2⟩⟩
    · split
      · exact ⟨hcall, fun success => ⟨hnow success, (hk success).2⟩⟩
      · exact ⟨hnow false, (hk false).2⟩

/-- A half traps only by what it reads at its start. -/
theorem trapsByReading_half {half : Option (List Friend) → Except Report (List Friend)}
    {k : Bool → FriendsProg} (hstart : ∀ l, half l = .error .trapped →
      l = some [] ∧ Removing op (FriendOp.half half uid k) uid)
    (hk : ∀ success, (k success).result ≠ some .trapped ∧ TrapsByReading op (k success)) :
    TrapsByReading op (FriendOp.half half uid k) := by
  rw [FriendOp.half, YoYo.fetchFriendsList_eq] at hstart ⊢
  intro documents
  cases documents with
  | none =>
    refine ⟨?_, trivial⟩
    rintro _ ⟨⟩ ⟨⟩
  | some documents =>
    simp only
    split
    · rename_i r hhalf
      refine ⟨?_, trivial⟩
      rintro _ ⟨⟩ rfl
      obtain ⟨hempty, hremoving⟩ := hstart _ hhalf
      exact ⟨uid, hremoving, rfl, hempty⟩
    · exact ⟨fun r hr => (Option.some_ne_none r hr.symm).elim, endsBy_updateFriendsList hk⟩

/-- **An operation** traps only by reading the empty list, to remove an entry of it. -/
theorem trapsByReading_prog (op : FriendOp) : TrapsByReading op op.prog := by
  rw [FriendOp.prog_eq]
  refine trapsByReading_half (fun l hl => ?_) fun success => ⟨nofun, ?_⟩
  · obtain ⟨hremoves, rfl⟩ := (myHalf_eq_trapped_iff l).1 hl
    exact ⟨rfl, hremoves, .inl ⟨op.prog_eq.symm, rfl⟩⟩
  · refine trapsByReading_half (fun l hl => ?_) fun _ => ⟨nofun, trivial⟩
    obtain ⟨hremoves, rfl⟩ := (friendHalf_eq_trapped_iff l).1 hl
    exact ⟨rfl, hremoves, .inr ⟨⟨success, rfl⟩, rfl⟩⟩

/-- It waits to read the list in a half that traps then. -/
theorem Removing.exists_half {p : FriendsProg} (h : Removing op p uid) :
    ∃ half k, half (some []) = .error .trapped ∧ p = FriendOp.half half uid k := by
  obtain ⟨hremoves, ⟨hprog, rfl⟩ | ⟨⟨success, hrest⟩, rfl⟩⟩ := h
  · exact ⟨_, _, (myHalf_eq_trapped_iff _).2 ⟨hremoves, rfl⟩, hprog.trans op.prog_eq⟩
  · exact ⟨_, _, (friendHalf_eq_trapped_iff _).2 ⟨hremoves, rfl⟩, hrest⟩

theorem Removing.not_done {r : Report} : ¬ Removing op (.done r) uid := by
  intro h
  obtain ⟨half, k, -, heq⟩ := h.exists_half
  cases heq

theorem Removing.trapped {k : Answer c → FriendsProg} (h : Removing op (.call c k) uid) :
    c = .getDocuments uid ∧ ∀ a, ReadsEmpty uid c a → k a = .done .trapped := by
  obtain ⟨half, k', hhalf, heq⟩ := h.exists_half
  rw [FriendOp.half, YoYo.fetchFriendsList_eq] at heq
  cases heq
  refine ⟨rfl, fun a ha => ?_⟩
  cases a with
  | none => exact ha.elim
  | some documents => simp only [ha.2, hhalf]

/-- What a version answers is the empty list exactly if it is there. -/
theorem readsEmpty_answer_iff (success : Bool) :
    ReadsEmpty uid c (answer g success v c).1 ↔
      success ∧ c = .getDocuments uid ∧ book v uid = some [] := by
  cases c with
  | addDocument | setData => exact iff_of_false id fun h => by cases h.2.1
  | getDocuments uid' =>
    cases success with
    | false => exact iff_of_false id fun h => Bool.false_ne_true h.1
    | true =>
      simp only [ReadsEmpty, Call.answer, if_true, Call.getDocuments.injEq, true_and]
      refine and_congr_right fun huid => ?_
      rw [huid]
      rfl

/-- **The next call of an operation**, or of what is left of it, traps exactly if it
    reads an empty list that it is to remove an entry of. -/
theorem TrapsByReading.trapped_iff {k : Answer c → FriendsProg}
    (h : TrapsByReading op (.call c k)) (success : Bool) :
    (k (answer g success v c).1).result = some .trapped ↔
      success ∧ ∃ uid, Removing op (.call c k) uid ∧ book v uid = some [] := by
  constructor
  · intro htrapped
    obtain ⟨uid, hremoving, hempty⟩ := (h _).1 _ htrapped rfl
    obtain ⟨hsuccess, -, hbook⟩ := (readsEmpty_answer_iff success).1 hempty
    exact ⟨hsuccess, uid, hremoving, hbook⟩
  · rintro ⟨hsuccess, uid, hremoving, hbook⟩
    obtain ⟨hreads, htrapped⟩ := hremoving.trapped
    rw [htrapped _ ((readsEmpty_answer_iff success).2 ⟨hsuccess, hreads, hbook⟩)]
    rfl

/-! ## Users -/

/-- Everybody who has sent a request, or has been sent one, is known. -/
def RequestsKnown (w : Set UID) (ops : List FriendOp) : Prop :=
  ∀ x y, Requested ops x y → x ∈ w ∧ y ∈ w

variable {ops : List FriendOp} {f : Friend}

/-- So is everybody in a list: what justifies an entry goes back to a request. -/
theorem Justified.mem (h : Justified ops uid f) (hops : RequestsKnown w ops) : f.uid ∈ w := by
  have haccepted : ∀ {x y}, Accepted ops x y → x ∈ w ∧ y ∈ w := by
    rintro x y ⟨ops₁, ops₂, rfl, hrequested⟩
    exact (hops y x (hrequested.mono (List.prefix_append _ _))).symm
  have hconsented : Consented ops uid f.uid → f.uid ∈ w :=
    fun h => h.elim (fun h => (haccepted h).2) fun h => (haccepted h).1
  have hstatus := h.2
  cases hf : f.status with
  | requestSend =>
    simp only [hf] at hstatus
    exact (hops _ _ hstatus).2
  | requested =>
    simp only [hf] at hstatus
    exact (hops _ _ hstatus).1
  | accpeted =>
    simp only [hf] at hstatus
    exact hconsented hstatus
  | unblock | blocked =>
    simp only [hf] at hstatus
    exact hconsented hstatus.1

/-- An operation more: the two of a request are known. -/
theorem RequestsKnown.append (hops : RequestsKnown w ops)
    (hop : ∀ a b sent received, op = .sendFriendRequest a b sent received → a ∈ w ∧ b ∈ w) :
    RequestsKnown w (ops ++ [op]) := by
  rintro x y ⟨sent, received, hmem⟩
  rcases List.mem_append.1 hmem with hmem | hmem
  · exact hops x y ⟨sent, received, hmem⟩
  · exact hop x y sent received (List.mem_singleton.1 hmem).symm

theorem RequestsKnown.mono (hops : RequestsKnown w ops) (hle : w ≤ w') : RequestsKnown w' ops :=
  fun x y h => (hops x y h).imp (hle ·) (hle ·)

/-! ## The app -/

namespace App

variable {ι : Type} {contains : String → String → Bool} {lowercased : String → String}
  {me : ι → UID} {s : App ι} {e : AppEvent ι} {i : ι} {n : ℕ} {success : Bool}

/-- A row is drawn on the device that its list has lost. -/
def DrawsLostRow (i : ι) (s : App ι) : AppEvent ι → Prop
  | .friendsScreen j (.cellForRowAt row _) =>
    j = i ∧ ∃ device, s.devices i = some device ∧ device.friendsScreen.LostRow row
  | _ => False

/-- A read of the device is answered its list, of which too many entries are to be shown. -/
def ReadsTooMany (me : ι → UID) (i : ι) (s : App ι) : AppEvent ι → Prop
  | .friendsScreen j e =>
    j = i ∧ ∃ device, s.devices i = some device ∧
      device.friendsScreen.ReadsTooMany (me i) s.collections e
  | _ => False

/-- An operation requested on the device reads the empty list, to remove an entry of it. -/
def RemovesFromEmpty (i : ι) (s : App ι) : AppEvent ι → Prop
  | .called n true => ∃ operation op uid, s.running[n]? = some operation ∧
    s.requested[n]? = some op ∧ operation.device = i ∧ Removing op operation.prog uid ∧
      book s.friends.now uid = some []
  | _ => False

/-- Nobody loses his profile. -/
def KeepsProfiles (s : App ι) : AppEvent ι → Prop
  | .usersChanged users => known s.users ⊆ known users
  | _ => True

/-- What the runs keep: those signed in, and those of the requests, have profiles, the
    screens do not trap but by drawing a row lost or by reading too much of a list, and
    offer those known only, and the operations not but by reading the empty list. -/
structure Safe (me : ι → UID) (s : App ι) : Prop where
  users : ∀ i, me i ∈ known s.users
  requests : RequestsKnown (known s.users) s.requested
  devices : s.AllDevices fun i device =>
    device.friendsScreen.Safe (me i) (known s.users) ∧ device.addFriendScreen.Known (known s.users)
  length : s.running.length = s.requested.length
  running : ∀ n p op, s.IsRunning n p op → TrapsByReading op p

theorem safe_start (hlogin : ∀ i, me i ∈ known users) :
    (start .empty users : App ι).Safe me where
  users := hlogin
  requests _ _ h := by
    obtain ⟨sent, received, hmem⟩ := h
    cases hmem
  devices _ _ h := by
    cases h
    exact ⟨FriendsScreen.safe_viewDidLoad, AddFriendScreen.holds_viewDidLoad⟩
  length := rfl
  running _ _ _ h := by cases h.requested

/-- What a tap requests is of two users known. -/
theorem Safe.request (hs : s.Safe me) {request : ι × Option ℕ × FriendOp}
    (h : s.request me e = some request) {a b : UID} {sent received : Date}
    (hop : request.2.2 = .sendFriendRequest a b sent received) :
    a ∈ known s.users ∧ b ∈ known s.users := by
  cases e with
  | friendsScreen | addFriendScreen | called | usersChanged => cases h
  | buttonTapped i cell action =>
    obtain ⟨device, -, h⟩ := Option.bind_eq_some_iff.1 h
    obtain ⟨op, hop', rfl⟩ := Option.map_eq_some_iff.1 h
    obtain ⟨c, -, hop'⟩ := Option.bind_eq_some_iff.1 hop'
    -- The friends screen requests actions only.
    split at hop' <;> cases hop'
    cases hop
  | addButtonTapped i cell sent' received' =>
    obtain ⟨device, hdevice, h⟩ := Option.bind_eq_some_iff.1 h
    obtain ⟨op, hop', rfl⟩ := Option.map_eq_some_iff.1 h
    obtain ⟨c, hc, hop'⟩ := Option.bind_eq_some_iff.1 hop'
    split at hop' <;> cases hop'
    cases hop
    exact ⟨hs.users i, (hs.devices i device hdevice).2.cells cell c hc⟩

/-- An operation is requested. -/
theorem Safe.run (hs : s.Safe me) {request : ι × Option ℕ × FriendOp}
    (h : s.request me e = some request) : (s.run request).Safe me where
  users := hs.users
  requests := hs.requests.append fun _ _ _ _ => hs.request h
  devices := hs.devices
  length := by
    rw [App.run, List.length_append, List.length_append, hs.length]
    rfl
  running n p op hrunning := by
    rcases (isRunning_run hs.length).1 hrunning with hrunning | ⟨-, rfl, rfl⟩
    · exact hs.running n p op hrunning
    · exact trapsByReading_prog _

/-- Only the profiles, the requests, the devices, and the operations running matter. -/
theorem Safe.congr {s' : App ι} (hs : s.Safe me) (husers : s'.users = s.users)
    (hrequested : s'.requested = s.requested) (hrunning : s'.running = s.running)
    (hdevices : s'.AllDevices fun i device =>
      device.friendsScreen.Safe (me i) (known s.users) ∧
        device.addFriendScreen.Known (known s.users)) :
    s'.Safe me where
  users := husers ▸ hs.users
  requests := hrequested ▸ husers ▸ hs.requests
  devices := husers ▸ hdevices
  length := by rw [hrunning, hrequested, hs.length]
  running n p op h := hs.running n p op ⟨hrunning ▸ h.running, hrequested ▸ h.requested, h.result⟩

/-- The lists stored name users known only. -/
theorem Safe.mem_known (hs : s.Safe me) (haccounted : s.Accounted) :
    ∀ d ∈ s.friends.now.docs, ∀ l, FriendsList.decode d = some l →
      ∀ f ∈ l.friends, f.uid ∈ known s.users := by
  intro d hd l hl f hf
  have hjustified := haccounted.versions _ (Versions.now_mem_seen _) d hd d.id l hl f hf
  exact hjustified.mem hs.requests

variable [DecidableEq ι]

@[simp] theorem users_ended (operation : Running ι) (report : Report) :
    (s.ended operation report).users = s.users := by
  unfold App.ended
  split <;> rfl

/-- An operation makes its next call. -/
theorem Safe.called (hs : s.Safe me) (n : ℕ) (success : Bool) :
    (s.called g n success).Safe me := by
  have hdevices : (s.called g n success).AllDevices fun i device =>
      device.friendsScreen.Safe (me i) (known s.users) ∧
        device.addFriendScreen.Known (known s.users) :=
    hs.devices.called (fun _ _ cell hd => ⟨hd.1, hd.2.requestSucceeded cell⟩) n success
  rw [App.called] at hdevices ⊢
  cases hoperation : s.running[n]? with
  | none => exact hs
  | some operation =>
    simp only [hoperation] at hdevices ⊢
    cases hprog : operation.prog with
    | done r => exact hs
    | call c k =>
      simp only [hprog] at hdevices ⊢
      have hresumed : (s.resumed n
          { operation with prog := k (answer g success s.friends.now c).1 }
          (answer g success s.friends.now c).2).Safe me := by
        refine ⟨hs.users, hs.requests, hs.devices, ?_, fun m p op h => ?_⟩
        · rw [resumed, List.length_set, hs.length]
        · rcases (isRunning_resumed hoperation).1 h with ⟨-, h⟩ | ⟨rfl, rfl, -, hop⟩
          · exact hs.running m p op h
          · refine (hs.running m (.call c k) op ⟨?_, hop, rfl⟩ _).2
            rw [hoperation, Option.map_some, hprog]
      split
      · exact hresumed
      · rename_i report hreport
        simp only [hreport] at hdevices
        exact hresumed.congr (users_ended _ _) (congrArg Record.requested (record_ended _ _))
          (running_ended _ _) hdevices

/-- An event leaves the app as it may be, if it leaves everybody his profile. -/
theorem Safe.next (hs : s.Safe me) (haccounted : s.Accounted) (he : s.KeepsProfiles e) :
    (s.next contains lowercased g me e).Safe me := by
  have hread := readKnown_answer (s := s.collections) (hs.mem_known haccounted)
  cases e with
  | friendsScreen i e =>
    refine hs.congr rfl rfl rfl (hs.devices.setDevice fun d hd => ?_)
    obtain ⟨device, hdevice, hd⟩ := Option.bind_eq_some_iff.1 hd
    obtain ⟨friendsScreen, hnext, rfl⟩ := Option.map_eq_some_iff.1 hd
    obtain ⟨hfriends, hadd⟩ := hs.devices i device hdevice
    exact ⟨(hfriends.next hread).2 _ hnext, hadd⟩
  | addFriendScreen i e =>
    refine hs.congr rfl rfl rfl (hs.devices.setDevice fun d hd => ?_)
    obtain ⟨device, hdevice, rfl⟩ := Option.map_eq_some_iff.1 hd
    obtain ⟨hfriends, hadd⟩ := hs.devices i device hdevice
    exact ⟨hfriends, hadd.next searchKnown_answer⟩
  | called n success => exact hs.called n success
  | usersChanged users =>
    exact ⟨fun i => he (hs.users i), hs.requests.mono he,
      fun i device h => (hs.devices i device h).imp (·.mono he) (AddFriendScreen.Known.mono · he),
      hs.length, fun n p op h => hs.running n p op ⟨h.1, h.2, h.3⟩⟩
  | buttonTapped | addButtonTapped =>
    rw [App.next]
    cases hrequest : s.request me _ with
    | none => exact hs
    | some request => exact hs.run hrequest

/-! ### Steps that trap -/

/-- An operation that ends traps its device if it does so by trapping. -/
theorem devices_ended_eq_none_iff (hdevice : s.devices i ≠ none) (operation : Running ι)
    (report : Report) :
    (s.ended operation report).devices i = none ↔ operation.device = i ∧ report = .trapped := by
  cases report with
  | silent => exact iff_of_false hdevice fun h => Report.noConfusion h.2
  | trapped =>
    by_cases hi : i = operation.device
    · subst hi
      exact iff_of_true (devices_setDevice_self _ _ _) ⟨rfl, rfl⟩
    · refine iff_of_false (fun h => hdevice ?_) fun h => hi h.1.symm
      exact (devices_setDevice_of_ne hi).symm.trans h
  | reported success =>
    refine iff_of_false (fun h => hdevice ?_) fun h => Report.noConfusion h.2
    cases success with
    | false => exact h
    | true =>
      by_cases hi : i = operation.device
      · subst hi
        exact Option.map_eq_none_iff.1 ((devices_setDevice_self _ _ _).symm.trans h)
      · exact (devices_setDevice_of_ne hi).symm.trans h

/-- The next call of an operation traps its device if it ends the operation so. -/
theorem devices_called_eq_none_iff (hdevice : s.devices i ≠ none) :
    (s.called g n success).devices i = none ↔ ∃ operation c k, s.running[n]? = some operation ∧
      operation.device = i ∧ operation.prog = .call c k ∧
      (k (answer g success s.friends.now c).1).result = some .trapped := by
  rw [App.called]
  cases hoperation : s.running[n]? with
  | none =>
    refine iff_of_false hdevice ?_
    rintro ⟨_, _, _, ⟨⟩, -⟩
  | some operation =>
    cases hprog : operation.prog with
    | done r =>
      refine iff_of_false (by simpa only [hprog] using hdevice) ?_
      rintro ⟨_, c, k, ⟨⟩, -, hcall, -⟩
      cases hprog.symm.trans hcall
    | call c k =>
      simp only [hprog]
      cases hresult : (k (answer g success s.friends.now c).1).result with
      | none =>
        refine iff_of_false hdevice ?_
        rintro ⟨_, c', k', ⟨⟩, -, hcall, htrapped⟩
        cases hprog.symm.trans hcall
        cases hresult.symm.trans htrapped
      | some report =>
        refine (devices_ended_eq_none_iff (s := s.resumed n
          { operation with prog := k (answer g success s.friends.now c).1 }
          (answer g success s.friends.now c).2) hdevice operation report).trans ?_
        constructor
        · rintro ⟨hi, rfl⟩
          exact ⟨operation, c, k, rfl, hi, hprog, hresult⟩
        · rintro ⟨_, c', k', ⟨⟩, hi, hcall, htrapped⟩
          cases hprog.symm.trans hcall
          exact ⟨hi, Option.some.inj (hresult.symm.trans htrapped)⟩

/-- The next call of an operation traps its device exactly if the operation is to remove
    an entry, and reads the empty list. -/
theorem Safe.trapped_called_iff (hs : s.Safe me) (hdevice : s.devices i ≠ none) :
    (s.called g n success).devices i = none ↔ s.RemovesFromEmpty i (.called n success) := by
  rw [devices_called_eq_none_iff hdevice]
  constructor
  · rintro ⟨operation, c, k, hoperation, hi, hprog, htrapped⟩
    obtain ⟨op, hop⟩ : ∃ op, s.requested[n]? = some op := by
      have hn := (List.getElem?_eq_some_iff.1 hoperation).1
      rw [hs.length] at hn
      exact ⟨_, List.getElem?_eq_some_iff.2 ⟨hn, rfl⟩⟩
    have hrunning : s.IsRunning n (.call c k) op :=
      ⟨by rw [hoperation, Option.map_some, hprog], hop, rfl⟩
    obtain ⟨rfl, uid, hremoving, hbook⟩ :=
      (TrapsByReading.trapped_iff (hs.running n _ op hrunning) success).1 htrapped
    exact ⟨operation, op, uid, hoperation, hop, hi, hprog ▸ hremoving, hbook⟩
  · intro h
    cases success with
    | false => exact h.elim
    | true =>
      obtain ⟨operation, op, uid, hoperation, hop, hi, hremoving, hbook⟩ := h
      cases hprog : operation.prog with
      | done r => exact (hprog ▸ hremoving).not_done.elim
      | call c k =>
        have hrunning : s.IsRunning n (.call c k) op :=
          ⟨by rw [hoperation, Option.map_some, hprog], hop, rfl⟩
        refine ⟨operation, c, k, hoperation, hi, hprog, ?_⟩
        exact (TrapsByReading.trapped_iff (hs.running n _ op hrunning) true).2
          ⟨rfl, uid, hprog ▸ hremoving, hbook⟩

/-- **A step traps a device** exactly in one of the three ways. -/
theorem Safe.trapped_iff (hs : s.Safe me) (haccounted : s.Accounted)
    (hdevice : s.devices i ≠ none) :
    (s.next contains lowercased g me e).devices i = none ↔
      s.DrawsLostRow i e ∨ s.ReadsTooMany me i e ∨ s.RemovesFromEmpty i e := by
  have hread := readKnown_answer (s := s.collections) (hs.mem_known haccounted)
  cases e with
  | friendsScreen j e =>
    obtain ⟨device, hsome⟩ := Option.ne_none_iff_exists'.1 hdevice
    have htraps : device.friendsScreen.Traps (me i) s.collections e ↔
        s.DrawsLostRow i (.friendsScreen i e) ∨ s.ReadsTooMany me i (.friendsScreen i e) := by
      refine or_congr ?_ (by simp [ReadsTooMany, hsome])
      cases e with
      | cellForRowAt row cell => simp [DrawsLostRow, hsome]
      | _ => simp [DrawsLostRow]
    by_cases hj : i = j
    · subst hj
      rw [← or_assoc, ← htraps, App.next, devices_setDevice_self, hsome, Option.bind_some,
        Option.map_eq_none_iff, ((hs.devices i device hsome).1.next hread).1]
      exact (or_iff_left id).symm
    · -- Another device is left alone.
      rw [App.next, devices_setDevice_of_ne hj]
      refine iff_of_false hdevice fun h => ?_
      rcases h with h | h | h
      · cases e with
        | cellForRowAt row cell => exact hj h.1.symm
        | _ => exact h
      · exact hj h.1.symm
      · exact h
  | addFriendScreen j e =>
    refine iff_of_false (fun h => hdevice ?_) fun h => h.elim id (·.elim id id)
    by_cases hj : i = j
    · subst hj
      exact Option.map_eq_none_iff.1 ((devices_setDevice_self _ _ _).symm.trans h)
    · exact (devices_setDevice_of_ne hj).symm.trans h
  | usersChanged users => exact iff_of_false hdevice fun h => h.elim id (·.elim id id)
  | buttonTapped | addButtonTapped =>
    refine iff_of_false ?_ fun h => h.elim id (·.elim id id)
    rw [App.next]
    cases s.request me _ with
    | none => exact hdevice
    | some request => exact hdevice
  | called n success =>
    rw [App.next, hs.trapped_called_iff hdevice]
    refine ⟨fun h => .inr (.inr h), ?_⟩
    rintro (h | h | h)
    · exact h.elim
    · exact h.elim
    · exact h

variable (contains lowercased g me)

/-- **A device traps in three ways only**: in every run, of any number of devices whose
    users have logged in, and in which nobody loses his profile, by drawing a row
    that its list has lost, by reading a list with too many entries to be shown, or by
    removing from the empty list; and by these always. -/
theorem traps_iff (users : UsersStore)
    (hlogin : ∀ i, (LoginViewController.createGlobalStateAndPerformSegue (me i) users).isSome)
    (es : List (AppEvent ι))
    (hes : AllSteps (next contains lowercased g me) KeepsProfiles (start .empty users) es) (i : ι) :
    AllSteps (next contains lowercased g me)
      (fun s e => s.devices i ≠ none → ((s.next contains lowercased g me e).devices i = none ↔
        s.DrawsLostRow i e ∨ s.ReadsTooMany me i e ∨ s.RemovesFromEmpty i e))
      (start .empty users) es := by
  refine AllSteps.imp
    (I := fun s : App ι => (s.Accounted ∧ s.Sound me s.record) ∧ s.Safe me)
    (fun s e hs he => ⟨⟨hs.1.1.next hs.1.2 e, ?_⟩, hs.2.next hs.1.1 he⟩)
    (fun s e hs _ hdevice => hs.2.trapped_iff hs.1.1 hdevice)
    ⟨⟨accounted_start users, sound_start _ users⟩,
      safe_start fun i => mem_known_of_login (hlogin i)⟩ hes
  exact (hs.1.2.next e).mono (record_le_next s e)

end App

/-- Cem signs up. -/
def annBobAndCem : UsersStore :=
  DatabaseService.saveUserModel succId ⟨"Cem", 0, "cem.jpg", "cem", "cem@yoyo"⟩ annAndBob

/-- Ann changes her name. -/
def annaBobAndCem : UsersStore :=
  (((Edit.changeName "Anna").prog "ann").exec (Call.answer succId profileOfUser) (fun _ => true)
    annBobAndCem).2

/-- One of the two is shown the request, and cancels it. -/
def cancelling (bobs : Bool) : List (AppEvent Bool) :=
  [.friendsScreen bobs (.detectFriendsChange true),
    .friendsScreen bobs (.answered 0 none), .friendsScreen bobs (.answered 0 none),
    .friendsScreen bobs .reloadData, .friendsScreen bobs (.cellForRowAt 0 0),
    .buttonTapped bobs 0 .cancel]

/-- Ann has sent a request to Bob, which both of them cancel, and hers is done. -/
def cancelledByBoth : List (AppEvent Bool) :=
  [.usersChanged annBobAndCem, .usersChanged annaBobAndCem] ++
    (requesting ++ completing 0 ++ (cancelling false ++ cancelling true ++ completing 1))

/-- His is not, and her list is read again, which is empty, and drawn before the reload. -/
def trapping : List (AppEvent Bool) :=
  [.called 2 true, .friendsScreen false (.detectFriendsChange true),
    .friendsScreen false (.answered 0 none), .friendsScreen false (.cellForRowAt 0 0)]

/-- The app after these events. -/
def annAndBobAfter (es : List (AppEvent Bool)) : App Bool :=
  after (App.next (fun s text => s = text) id succId annOrBob) (.start .empty annAndBob) es

/-- His device traps by removing from his list, and then hers by drawing the row. -/
theorem traps_iff_cancelledByBoth :
    (annAndBobAfter cancelledByBoth).RemovesFromEmpty true (.called 2 true) ∧
    (annAndBobAfter (cancelledByBoth ++ trapping.dropLast)).DrawsLostRow false
      (.friendsScreen false (.cellForRowAt 0 0)) := by
  have hlogin : ∀ bobs, (LoginViewController.createGlobalStateAndPerformSegue (annOrBob bobs)
    annAndBob).isSome := by decide
  have hkeeps : ∀ e ∈ requesting ++ completing 0 ++ (cancelling false ++ cancelling true ++
      completing 1) ++ trapping, ∀ s : App Bool, s.KeepsProfiles e := by
    simp [requesting, completing, cancelling, trapping, App.KeepsProfiles]
  have htraps := fun bobs => allSteps_iff_forall.1 <| App.traps_iff succId (fun s text => s = text)
    id annOrBob annAndBob hlogin (cancelledByBoth ++ trapping)
    ⟨known_saveUserModel _ _, known_edit _ _ _ _,
      allSteps_iff_forall.2 fun es₁ e es₂ heq =>
        hkeeps e ((congrArg (e ∈ ·) heq).mpr (by simp)) _⟩ bobs
  have hbobs : ((annAndBobAfter cancelledByBoth).devices true).isSome ∧
      ((annAndBobAfter (cancelledByBoth ++ trapping.take 1)).devices true).isNone := by
    decide +kernel
  have hanns : ((annAndBobAfter (cancelledByBoth ++ trapping.dropLast)).devices false).isSome ∧
      ((annAndBobAfter (cancelledByBoth ++ trapping)).devices false).isNone := by
    decide +kernel
  constructor
  · have htrapped := htraps true cancelledByBoth (.called 2 true) _ rfl
      (Option.isSome_iff_ne_none.1 hbobs.1)
    exact ((htrapped.1 (Option.isNone_iff_eq_none.1 hbobs.2)).resolve_left id).resolve_left id
  · have htrapped := htraps false (cancelledByBoth ++ trapping.dropLast) _ [] rfl
      (Option.isSome_iff_ne_none.1 hanns.1)
    refine (htrapped.1 (Option.isNone_iff_eq_none.1 hanns.2)).resolve_right fun h => ?_
    exact h.elim (fun ⟨_, _, _, htoo⟩ => htoo) id

end YoYo.Devices
