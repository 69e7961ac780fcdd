import YoYo.Accounts.Login
import YoYo.Friends.Search
import YoYo.Profiles.Edits
import YoYo.Reads.ChatList
import YoYo.Screens.Search

/-!
# The profiles of friends

The friends screen looks up the profile of every entry it shows, and unwraps it.
That there is one follows from how entries come about: a request is sent by a
user who has logged in, which takes a profile, to one that a search has found,
by his profile. Profiles are saved when users sign up, and kept by changes of
names and pictures. So in any run of these, however long ago somebody has logged in
or been found, everybody in a list has exactly one profile (`Past.Intact.next`), and
the friends screen shows every friend with his own (`complete_myFriends`).
-/

namespace YoYo.Profiles

open DocStore Reads

/-- The profiles a search offers: those found, but of the users in the list read
    after them, if there is one. -/
def SearchService.searchUserProfiles (lowercased : String → String)
    (contains : String → String → Bool) (uid : UID) (searchString : String) (users : UsersStore)
    (friendsList : Option FriendsList) : List (Doc DocID UserModel) :=
  let profiles := DatabaseService.fetchUserProfiles lowercased contains uid searchString users
  match friendsList with
  | some friendsList => profiles.filter fun profile =>
    !friendsList.friends.any fun friend => friend.uid = profile.data.userID
  | none => profiles

/-- What users do: they sign up, change their profiles, whose calls may fail, and
    perform operations on each other. -/
inductive UserEvent
  | saveUserModel (user : UserModel)
  | edit (uid : UID) (edit : Edit) (ok : ℕ → Bool)
  | friendOp (op : FriendOp)

/-- The collections now, and those there have been. -/
abbrev Past := Versions Collections

section

variable (g : AutoId DocID) (lowercased : String → String) (contains : String → String → Bool)

/-- The collections after an event. -/
def nextCollections (s : Collections) : UserEvent → Collections
  | .saveUserModel user => { s with users := DatabaseService.saveUserModel g user s.users }
  | .edit uid edit ok =>
    { s with users := ((edit.prog uid).exec (Call.answer g profileOfUser) ok s.users).2 }
  | .friendOp op => { s with friends := nextStore g s.friends op }

namespace Past

/-- The collections after an event, and those before. -/
def next (h : Past) (e : UserEvent) : Past := h.push (nextCollections g h.now e)

/-- The user has logged in at some time. -/
def LoggedIn (h : Past) (uid : UID) : Prop :=
  ∃ s ∈ h.seen,
    (Accounts.LoginViewController.createGlobalStateAndPerformSegue uid s.users).isSome

/-- A search of the user `uid` has offered the user `userID`, at some time, for
    whatever list has been read then. -/
def Found (h : Past) (uid userID : UID) : Prop :=
  ∃ s ∈ h.seen, ∃ searchString friendsList, ∃ profile ∈ SearchService.searchUserProfiles lowercased
    contains uid searchString s.users friendsList, profile.data.userID = userID

/-- A new user has no profile yet, a request is sent by a user who has logged in to
    one he has found, and an action is performed by a user who has logged in. -/
def Permits (h : Past) : UserEvent → Prop
  | .saveUserModel user => h.now.users.query (profileOfUser user.userID) = []
  | .edit _ _ _ => True
  | .friendOp (.sendFriendRequest a b _ _) => h.LoggedIn a ∧ h.Found lowercased contains a b
  | .friendOp (.performActionForFriend a _ _) => h.LoggedIn a

end Past

end

/-! ## Profiles stay -/

variable {g : AutoId DocID} {lowercased : String → String} {contains : String → String → Bool}
  {s : Collections} {h : Past} {uid : UID} {u v : UserModel} {d : Doc DocID UserDoc}

theorem oneProfile_iff : OneProfile s uid ↔
    ∃ d, s.users.query (profileOfUser uid) = [d] ∧ (UserModel.decode d.data).isSome := Iff.rfl

/-- A profile saved is the only one of its user, if he has none. -/
theorem oneProfile_saveUserModel (hnone : s.users.query (profileOfUser u.userID) = []) :
    OneProfile { s with users := DatabaseService.saveUserModel g u s.users } u.userID := by
  refine ⟨_, Collection.query_addDocument_of_nil g ?_ hnone, ?_⟩
  · exact DocField.is_iff.2 rfl
  · rw [UserModel.decode_encode]
    rfl

/-- Nobody else has another one then. -/
theorem query_saveUserModel (huid : uid ≠ u.userID) :
    (DatabaseService.saveUserModel g u s.users).query (profileOfUser uid) =
      s.users.query (profileOfUser uid) := by
  refine Collection.query_addDocument_of_not g (Bool.eq_false_iff.2 fun h => huid ?_)
  exact (DocField.value.inj (DocField.is_iff.1 h)).symm

/-- What a change does: nothing, if a call fails, or there is no profile to change,
    and otherwise it is made to one of the profiles of the user. -/
theorem exec_edit (edit : Edit) (ok : ℕ → Bool) (users : UsersStore) :
    ((edit.prog uid).exec (Call.answer g profileOfUser) ok users).2 = users ∨
      ∃ d ∈ users.query (profileOfUser uid), ∃ u, UserModel.decode d.data = some u ∧
        ((edit.prog uid).exec (Call.answer g profileOfUser) ok users).2 =
          users.setData d.id (edit.apply u).encode := by
  rw [Edit.prog_eq, DatabaseService.updateUserModel, Prog.exec_call]
  cases ok 0 with
  | false => exact .inl rfl
  | true =>
    simp only [Call.answer, if_true]
    cases hfirst : (decodeAll UserModel.decode
        ((users.query (profileOfUser uid)).take 1)).head? with
    | none => exact .inl rfl
    | some myProfile =>
      obtain ⟨d, hd, hid, hdecode⟩ := mem_decodeAll.1 (List.mem_of_mem_head? hfirst)
      simp only [Prog.exec_call]
      cases ok 1 with
      | false => exact .inl rfl
      | true => exact .inr ⟨d, List.mem_of_mem_take hd, myProfile.data, hdecode, hid ▸ rfl⟩

/-- A change of a profile does not change those of others. -/
theorem query_setData_of_ne (hd : d ∈ s.users.docs) (hdecode : UserModel.decode d.data = some u)
    (hv : v.userID = u.userID) (huid : uid ≠ u.userID) :
    (s.users.setData d.id v.encode).query (profileOfUser uid) =
      s.users.query (profileOfUser uid) := by
  have hne : ∀ w : UserDoc, w.userID = .value u.userID → profileOfUser uid w = false :=
    fun w hw => Bool.eq_false_iff.2 fun h =>
      huid (DocField.value.inj ((DocField.is_iff.1 h).symm.trans hw))
  refine Collection.query_setData_of_not (hne _ (congrArg DocField.value hv)) fun x hx hid => ?_
  obtain ⟨hmem, hprofile⟩ := Collection.mem_query.1 hx
  rw [Collection.eq_of_id_eq hmem hd hid, hne _ (UserModel.userID_of_decode hdecode)] at hprofile
  exact Bool.false_ne_true hprofile

/-- The one profile of a user stays the only one when it is changed. -/
theorem query_setData_of_oneProfile (hone : OneProfile s u.userID) (hd : d ∈ s.users.docs)
    (hdecode : UserModel.decode d.data = some u) (hv : v.userID = u.userID) :
    (s.users.setData d.id v.encode).query (profileOfUser u.userID) = [⟨d.id, v.encode⟩] := by
  obtain ⟨d', hquery, -⟩ := oneProfile_iff.1 hone
  have hmem : d ∈ s.users.query (profileOfUser u.userID) :=
    Collection.mem_query.2 ⟨hd, DocField.is_iff.2 (UserModel.userID_of_decode hdecode)⟩
  rw [hquery, List.mem_singleton] at hmem
  subst hmem
  exact Collection.query_setData_of_eq (DocField.is_iff.2 (congrArg DocField.value hv)) hquery

/-! ## Steps -/

/-- Every user who has ever had a profile has exactly one now. -/
def Past.Profiled (h : Past) : Prop :=
  ∀ s ∈ h.seen, ∀ uid, s.users.query (profileOfUser uid) ≠ [] → OneProfile h.now uid

/-- What keeps the profile of everybody who has one, and gives nobody a second one. -/
theorem Past.Profiled.push (hh : h.Profiled)
    (hstay : ∀ uid, OneProfile h.now uid → OneProfile s uid)
    (hnew : ∀ uid, s.users.query (profileOfUser uid) ≠ [] →
      h.now.users.query (profileOfUser uid) ≠ [] ∨ OneProfile s uid) :
    Past.Profiled (Versions.push h s) := by
  intro s' hs' uid hprofile
  rcases Versions.mem_seen_push.1 hs' with rfl | hs'
  · rcases hnew uid hprofile with hprofile | hone
    · exact hstay uid (hh _ (Versions.now_mem_seen h) uid hprofile)
    · exact hone
  · exact hstay uid (hh s' hs' uid hprofile)

/-- A change of a profile leaves every user as many profiles as he has. -/
theorem edit_keeps (s : Collections) (uid uid' : UID) (edit : Edit) (ok : ℕ → Bool) :
    (OneProfile s uid → OneProfile (nextCollections g s (.edit uid' edit ok)) uid) ∧
      (s.users.query (profileOfUser uid) = [] →
        (nextCollections g s (.edit uid' edit ok)).users.query (profileOfUser uid) = []) := by
  rw [nextCollections]
  rcases @exec_edit g uid' edit ok s.users with hsame | ⟨d, hd, u, hdecode, hset⟩
  · rw [hsame]
    exact ⟨id, id⟩
  · rw [hset, oneProfile_iff, oneProfile_iff]
    have hmem := (Collection.mem_query.1 hd).1
    have hv : (edit.apply u).userID = u.userID := by cases edit <;> rfl
    by_cases huid : uid = u.userID
    · subst huid
      constructor
      · intro hone
        refine ⟨_, query_setData_of_oneProfile hone hmem hdecode hv, ?_⟩
        rw [UserModel.decode_encode]
        rfl
      · intro hnone
        have hin : d ∈ s.users.query (profileOfUser u.userID) :=
          Collection.mem_query.2 ⟨hmem, DocField.is_iff.2 (UserModel.userID_of_decode hdecode)⟩
        exact absurd (hnone ▸ hin) List.not_mem_nil
    · rw [query_setData_of_ne hmem hdecode hv huid]
      exact ⟨id, id⟩

variable {e : UserEvent}

/-- Nobody loses his profile, or gets a second one. -/
theorem oneProfile_next (he : h.Permits lowercased contains e) (hone : OneProfile h.now uid) :
    OneProfile (nextCollections g h.now e) uid := by
  cases e with
  | saveUserModel user =>
    obtain ⟨d, hquery, hdecode⟩ := oneProfile_iff.1 hone
    have huid : uid ≠ user.userID := by
      rintro rfl
      exact List.cons_ne_nil d [] (hquery.symm.trans he)
    exact ⟨d, (query_saveUserModel huid).trans hquery, hdecode⟩
  | edit uid' edit ok => exact (edit_keeps h.now uid uid' edit ok).1 hone
  | friendOp op => exact hone

/-- Only a new user gets a profile. -/
theorem query_next (he : h.Permits lowercased contains e)
    (hprofile : (nextCollections g h.now e).users.query (profileOfUser uid) ≠ []) :
    h.now.users.query (profileOfUser uid) ≠ [] ∨ OneProfile (nextCollections g h.now e) uid := by
  cases e with
  | saveUserModel user =>
    by_cases huid : uid = user.userID
    · subst huid
      exact .inr (oneProfile_saveUserModel he)
    · exact .inl fun hnone => hprofile ((query_saveUserModel huid).trans hnone)
  | edit uid' edit ok =>
    exact .inl fun hnone => hprofile ((edit_keeps h.now uid uid' edit ok).2 hnone)
  | friendOp op => exact .inl hprofile

/-- Of a user who has logged in, a profile was stored. -/
theorem query_ne_nil_of_fetchUserModel {users : UsersStore}
    (hlogin : (DatabaseService.fetchUserModel uid users).isSome) :
    users.query (profileOfUser uid) ≠ [] := by
  rintro hnone
  rw [DatabaseService.fetchUserModel, hnone] at hlogin
  exact Bool.false_ne_true hlogin

/-- So was of one who has been found. -/
theorem query_ne_nil_of_search {users : UsersStore} {searchString : String}
    {friendsList : Option FriendsList} {profile : Doc DocID UserModel}
    (hprofile : profile ∈ SearchService.searchUserProfiles lowercased contains uid searchString
      users friendsList) :
    users.query (profileOfUser profile.data.userID) ≠ [] := by
  have hfetched : profile ∈ DatabaseService.fetchUserProfiles lowercased contains uid searchString
      users := by
    rw [SearchService.searchUserProfiles.eq_def] at hprofile
    dsimp only at hprofile
    split at hprofile
    · exact (List.mem_filter.1 hprofile).1
    · exact hprofile
  obtain ⟨d, hd, -, hdecode⟩ := mem_decodeAll.1 (List.mem_filter.1 hfetched).1
  refine List.ne_nil_of_mem (a := d) (Collection.mem_query.2 ⟨(Collection.mem_query.1 hd).1, ?_⟩)
  exact DocField.is_iff.2 (UserModel.userID_of_decode hdecode)

/-- What the collections always satisfy: one list at most for each user, exactly one
    profile for everybody who has ever had one, and for everybody in a list. -/
structure Past.Intact (h : Past) : Prop where
  kept : Kept h.now.friends
  profiled : h.Profiled
  listed : (book h.now.friends).Relates fun _ uid => OneProfile h.now uid

theorem Past.Profiled.of_loggedIn (hh : h.Profiled) (hlogin : h.LoggedIn uid) :
    OneProfile h.now uid := by
  obtain ⟨s, hs, hlogin⟩ := hlogin
  exact hh s hs uid (query_ne_nil_of_fetchUserModel hlogin)

theorem Past.Profiled.of_found (hh : h.Profiled) {userID : UID}
    (hfound : h.Found lowercased contains uid userID) : OneProfile h.now userID := by
  obtain ⟨s, hs, searchString, friendsList, profile, hprofile, rfl⟩ := hfound
  exact hh s hs _ (query_ne_nil_of_search hprofile)

/-- Operations keep one list for each user, and put in it only the two of a request. -/
theorem Past.Intact.friendOp (hh : h.Intact) {op : FriendOp}
    (hop : h.Permits lowercased contains (.friendOp op)) :
    Kept (nextStore g h.now.friends op) ∧
      (book (nextStore g h.now.friends op)).Relates fun _ uid => OneProfile h.now uid := by
  obtain ⟨-, hbook, hkept⟩ := exec_refines (g := g) hh.kept op
  refine ⟨hkept, ?_⟩
  rw [nextStore, hbook]
  cases op with
  | sendFriendRequest a b sent received =>
    exact hh.listed.onBook (hh.profiled.of_found hop.2) (hh.profiled.of_loggedIn hop.1)
  | performActionForFriend a b action => exact hh.listed.perform a b action

theorem Past.Intact.next (hh : h.Intact) (he : h.Permits lowercased contains e) :
    (h.next g e).Intact := by
  have hstay : ∀ uid, OneProfile h.now uid → OneProfile (nextCollections g h.now e) uid :=
    fun uid => oneProfile_next he
  have hprofiled : (h.next g e).Profiled := hh.profiled.push hstay fun uid => query_next he
  cases e with
  | friendOp op =>
    obtain ⟨hkept, hlisted⟩ := hh.friendOp (g := g) he
    exact ⟨hkept, hprofiled, hlisted⟩
  | _ => exact ⟨hh.kept, hprofiled, fun x friend hfriend => hstay _ (hh.listed x friend hfriend)⟩

/-! ## The friends screen -/

/-- The profile of the entry is the only one stored of its user. -/
def OwnProfile (s : Collections) (myFriend : MyFriend) : Prop :=
  ∃ d, s.users.query (profileOfUser myFriend.friend.uid) = [d] ∧ d.id = myFriend.userModel.id ∧
    UserModel.decode d.data = some myFriend.userModel.data

theorem ownProfile_of_profileOf {uids : List UID} {friend : Friend} {p : Profile}
    (hone : OneProfile s friend.uid) (hp : profileOf (profilesIn s uids) friend.uid = some p) :
    OwnProfile s ⟨friend, p⟩ := by
  obtain ⟨hmem, huid⟩ := of_profileOf hp
  obtain ⟨d, hquery, hid, hdecode⟩ := (huid ▸ hone : OneProfile s p.data.userID).query_eq
    (mem_decodeAll.2 (mem_profilesIn.1 hmem).1)
  exact ⟨d, by rw [← huid]; exact hquery, hid, hdecode⟩

/-- The join of entries whose users all have one profile. -/
theorem exists_myFriends {friends : List Friend}
    (hone : ∀ friend ∈ friends, OneProfile s friend.uid) :
    ∃ myFriends, (friends.mapM fun friend =>
        (profileOf (profilesIn s (friends.map Friend.uid)) friend.uid).map
          (⟨friend, ·⟩ : _ → MyFriend)) = some myFriends ∧
      myFriends.map MyFriend.friend = friends ∧ ∀ myFriend ∈ myFriends, OwnProfile s myFriend := by
  have hprofile : ∀ friend ∈ friends, ∃ p,
      profileOf (profilesIn s (friends.map Friend.uid)) friend.uid = some p := fun friend hfriend =>
    Option.ne_none_iff_exists'.1 fun hnone =>
      (profileOf_eq_none_iff (List.mem_map_of_mem hfriend)).1 hnone (hone friend hfriend).hasProfile
  obtain ⟨myFriends, hsome⟩ := Option.ne_none_iff_exists'.1 (mt
    (mapM_profileOf_eq_none_iff (k := MyFriend.mk) fun friend => List.mem_map_of_mem).1
    fun ⟨friend, hfriend, habs⟩ => habs (hone friend hfriend).hasProfile)
  refine ⟨myFriends, hsome, ?_, fun myFriend hmem => ?_⟩
  · refine (Option.some_injective _).list_map ?_
    calc (myFriends.map MyFriend.friend).map some
        = (myFriends.map some).map (Option.map MyFriend.friend) := by
          rw [List.map_map, List.map_map]
          rfl
      _ = friends.map some := by
          rw [← mapM_eq_some_iff.1 hsome, List.map_map]
          refine List.map_congr_left fun friend hfriend => ?_
          obtain ⟨p, hp⟩ := hprofile friend hfriend
          simp [hp]
  · have hin : some myFriend ∈ myFriends.map some := List.mem_map_of_mem hmem
    rw [← mapM_eq_some_iff.1 hsome] at hin
    obtain ⟨friend, hfriend, hfound⟩ := List.mem_map.1 hin
    obtain ⟨p, hp, rfl⟩ := Option.map_eq_some_iff.1 hfound
    exact ownProfile_of_profileOf (hone friend hfriend) hp

/-- They are sorted, the latest friendship first. -/
theorem sorted_myFriends (myFriends : List MyFriend) :
    (myFriends.insertionSort fun a b => b.friend.date ≤ a.friend.date).Pairwise
      fun a b => b.friend.date ≤ a.friend.date :=
  have : Std.Total fun a b : MyFriend => b.friend.date ≤ a.friend.date :=
    ⟨fun a b => le_total b.friend.date a.friend.date⟩
  have : IsTrans MyFriend fun a b => b.friend.date ≤ a.friend.date :=
    ⟨fun _ _ _ hab hbc => hbc.trans hab⟩
  List.pairwise_insertionSort _ _

/-- Where all users shown have one profile, unwrapping it does not trap. -/
theorem ending_ne_trapped
    (hshown : ∀ l, listOf s.friends uid = some l → ∀ friend ∈ shownFriends l.friends,
      OneProfile s friend.uid) (env : ℕ → Option String) :
    (Request.fetchFriendsList uid).ending env s ≠ .trapped := by
  rw [ending_fetchFriendsList]
  cases env 0 with
  | some description => simp
  | none =>
    cases hl : listOf s.friends uid with
    | none => simp
    | some l =>
      by_cases hnil : shownFriends l.friends = []
      · simp [hnil]
      · cases env 1 with
        | some description => simp [hnil]
        | none =>
          obtain ⟨myFriends, hsome, -⟩ := exists_myFriends (hshown l hl)
          simp only [if_neg hnil, hsome]
          simp

/-! ## Runs -/

/-- Before anybody has signed up. -/
def Past.init (stories : StoriesStore) (messages : MessagesStore) : Past :=
  Versions.init ⟨.empty, .empty, stories, messages⟩

theorem Past.intact_init (stories : StoriesStore) (messages : MessagesStore) :
    (init stories messages).Intact where
  kept := kept_empty
  profiled s hs uid hprofile := by
    rw [init, Versions.mem_seen_init] at hs
    subst hs
    exact absurd rfl hprofile
  listed _ _ hfriend := absurd hfriend List.not_mem_nil

/-- A list that decodes is the one read of its user. -/
theorem listOf_of_decode {friends : FriendsStore} (hs : Kept friends) {d : Doc DocID FriendsDoc}
    (hd : d ∈ friends.docs) {l : FriendsList} (hl : FriendsList.decode d = some l) :
    listOf friends l.uid = some l := by
  have hmem : d ∈ friends.query (ofUser l.uid) :=
    Collection.mem_query.2 ⟨hd, DocField.is_iff.2 (FriendsList.of_decode hl).2⟩
  obtain ⟨d', hquery⟩ : ∃ d', friends.query (ofUser l.uid) = [d'] :=
    List.length_eq_one_iff.1 (le_antisymm (hs.oneDoc l.uid) (List.length_pos_of_mem hmem))
  rw [hquery, List.mem_singleton] at hmem
  subst hmem
  rw [listOf, hquery, List.filterMap_cons_some hl, List.filterMap_nil, List.head?_cons]

/-- **The friends screen is complete, and finds every profile**, in every run of sign-ups,
    changes of profiles, and operations on users found, by users who have logged in:

* everybody in any list stored has exactly one profile;
* for a user with one to ten entries that are not blocked, the store accepts the
  request, which delivers each of these once, with the only profile of its user,
  the latest first;
* unwrapping the profiles never traps, whatever fails. (With more than ten entries
  the query for them throws instead of being answered, `outcome_of_not_within`.) -/
theorem complete_myFriends (g : AutoId DocID) (lowercased : String → String)
    (contains : String → String → Bool) (stories : StoriesStore) (messages : MessagesStore)
    {es : List UserEvent}
    (hes : AllSteps (Past.next g) (Past.Permits lowercased contains) (.init stories messages) es) :
    let s := (after (Past.next g) (.init stories messages) es).now
    (∀ d ∈ s.friends.docs, ∀ l, FriendsList.decode d = some l →
      ∀ friend ∈ l.friends, OneProfile s friend.uid) ∧
    (∀ uid l, listOf s.friends uid = some l → 1 ≤ (shownFriends l.friends).length →
      (shownFriends l.friends).length ≤ 10 →
      (Request.fetchFriendsList uid).Accepted (fun _ => none) s ∧
      ∃ myFriends, (Request.fetchFriendsList uid).ending (fun _ => none) s =
          .delivered (.fetchSuccess myFriends) ∧
        (myFriends.map MyFriend.friend).Perm (shownFriends l.friends) ∧
        (∀ myFriend ∈ myFriends, OwnProfile s myFriend) ∧
        myFriends.Pairwise fun a b => b.friend.date ≤ a.friend.date) ∧
    ∀ uid env, (Request.fetchFriendsList uid).ending env s ≠ .trapped := by
  intro s
  have hI := hes.invariant (I := Past.Intact) (fun h e hh he => hh.next he)
    (Past.intact_init stories messages)
  have hlisted : ∀ uid l, listOf s.friends uid = some l → ∀ friend ∈ l.friends,
      OneProfile s friend.uid := by
    intro uid l hl friend hfriend
    refine hI.listed uid friend ?_
    rw [book, show listOf _ uid = some l from hl]
    exact hfriend
  have hshown : ∀ uid l, listOf s.friends uid = some l → ∀ friend ∈ shownFriends l.friends,
      OneProfile s friend.uid :=
    fun uid l hl friend hfriend => hlisted uid l hl friend (List.mem_filter.1 hfriend).1
  refine ⟨fun d hd l hl => hlisted l.uid l (listOf_of_decode hI.kept hd hl),
    fun uid l hl hpos hten => ⟨?_, ?_⟩, fun uid env => ?_⟩
  · refine accepted_fetchFriendsList.2 fun _ l' hl' => ?_
    rwa [← Option.some.inj (hl.symm.trans hl')]
  · obtain ⟨myFriends, hsome, hfriends, hown⟩ := exists_myFriends (hshown uid l hl)
    have hne : shownFriends l.friends ≠ [] := List.ne_nil_of_length_pos hpos
    refine ⟨myFriends.insertionSort fun a b => b.friend.date ≤ a.friend.date, ?_, ?_, ?_,
      sorted_myFriends myFriends⟩
    · rw [ending_fetchFriendsList, hl]
      simp only [if_neg hne, hsome]
    · exact hfriends ▸ (List.perm_insertionSort _ _).map _
    · exact fun myFriend hmem => hown myFriend ((List.mem_insertionSort _).1 hmem)
  · exact ending_ne_trapped (hshown uid) env

/-- The small letters of a string. -/
def inLowerCase (text : String) : String := String.ofList (text.toList.map Char.toLower)

/-- Ann and Bob sign up, she changes her name, finds him, and sends him a request. -/
def annFindsBob : List UserEvent :=
  [.saveUserModel ⟨"Ann", 0, "ann.jpg", "ann", "ann@yoyo"⟩,
    .saveUserModel ⟨"Bob", 0, "bob.jpg", "bob", "bob@yoyo"⟩,
    .edit "ann" (.changeName "Anna") fun _ => true,
    .friendOp (.sendFriendRequest "ann" "bob" 1 2)]

/-- Her friends screen shows him. -/
theorem complete_annFindsBob : ∃ myFriends,
    (Request.fetchFriendsList "ann").ending (fun _ => none)
      (after (Past.next succId) (.init .empty .empty) annFindsBob).now =
        .delivered (.fetchSuccess myFriends) ∧
    (myFriends.map MyFriend.friend).Perm [⟨"bob", 1, .requestSend⟩] := by
  have hes : AllSteps (Past.next succId) (Past.Permits inLowerCase Screens.isPartOf)
      (.init .empty .empty) annFindsBob := by
    refine ⟨rfl, rfl, trivial, ⟨⟨_, Versions.now_mem_seen _, rfl⟩, ?_⟩, trivial⟩
    exact ⟨_, Versions.now_mem_seen _, "bo", none, ⟨2, ⟨"Bob", 0, "bob.jpg", "bob", "bob@yoyo"⟩⟩,
      by decide, rfl⟩
  obtain ⟨-, hjoin, -⟩ := complete_myFriends succId inLowerCase Screens.isPartOf .empty .empty hes
  have hlist : listOf (after (Past.next succId) (.init .empty .empty) annFindsBob).now.friends
      "ann" = some ⟨some 1, "ann", [⟨"bob", 1, .requestSend⟩]⟩ := by decide
  obtain ⟨-, myFriends, hending, hperm, -⟩ := hjoin "ann" _ hlist (by decide) (by decide)
  exact ⟨myFriends, hending, hperm⟩

end YoYo.Profiles
