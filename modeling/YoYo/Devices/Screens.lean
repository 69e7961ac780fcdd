import YoYo.Reads.Decoding
import YoYo.Reads.Limits
import YoYo.Screens.Filters

/-!
# The screens for friends, on a device

Two screens let a user act on his friendships. The friends screen shows the
entries of his list, each in a cell with the buttons its status leaves visible;
the screen for adding friends shows the users a search has found, each in a cell
with a button to send a request.

Both read in the background, any number of reads at a time, and show what has
been delivered last. A cell is filled when it is drawn, and says what it said
then until it is drawn again: for the same row, or, as cells are reused, for
another. The friends screen reloads its table only after its friends have
changed, so that a row drawn in between may be missing, which traps. It asks for
the profiles of all friends at once, which throws if they are too many.
-/

namespace YoYo.Devices

open DocStore Reads Screens

/-! ## The friends screen -/

/-- A cell of the friends screen, filled with an entry of the list. -/
structure MyFriendViewCell where
  uid : UID
  nameTextLabel : String
  emailTextLabel : String
  buttons : HiddenButtons
  deriving DecidableEq, Repr

/-- The friends screen: its friends (as the list of `search`), and the buffer they
    are searched in; the reads in flight; the reloads of the table that are due,
    the rows it has, and the cells drawn; and the alert presented last. -/
structure FriendsScreen where
  search : Search MyFriend
  fetches : List ReadProg
  reloads : ℕ
  rows : ℕ
  cells : ℕ → Option MyFriendViewCell
  alert : Option String

/-- What happens to the friends screen: its list changes, the next query of a
    read is answered, or fails, the table is reloaded, or draws a row in a cell,
    and the search bar is used. -/
inductive FriendsScreenEvent
  | detectFriendsChange (status : Bool)
  | answered (fetch : ℕ) (failure : Option String)
  | reloadData
  | cellForRowAt (row cell : ℕ)
  | textDidChange (searchText : String)
  | searchButtonClicked
  | cancelButtonClicked

namespace FriendsScreen

/-- Nothing is read, and nothing shown. -/
def viewDidLoad : FriendsScreen := ⟨.init, [], 0, 0, fun _ => none, none⟩

variable (contains : String → String → Bool) (lowercased : String → String) (uid : UID)

/-- The list is read. -/
def fetchFriendsList (s : FriendsScreen) : FriendsScreen :=
  { s with fetches := s.fetches ++ [(Request.fetchFriendsList uid).checked] }

/-- The list has changed. -/
def detectFriendsChange (status : Bool) (s : FriendsScreen) : FriendsScreen :=
  if status then s.fetchFriendsList uid else s

/-- The friends are others now, and the table is to be reloaded. -/
def setMyFriends (myFriends : List MyFriend) (s : FriendsScreen) : FriendsScreen :=
  { s with
    search := { s.search with list := myFriends, latest := myFriends }
    reloads := s.reloads + 1 }

/-- Friends are delivered. -/
def fetchSuccess (myFriends : List MyFriend) (s : FriendsScreen) : FriendsScreen :=
  s.setMyFriends myFriends

/-- The list cannot be shown. -/
def fetchError (s : FriendsScreen) : FriendsScreen :=
  { s.setMyFriends [] with alert := some "Please add friends to view." }

/-- A read has ended, and may have terminated the app. -/
def ended (s : FriendsScreen) : Ending → Option FriendsScreen
  | .delivered (.fetchSuccess myFriends) => some (s.fetchSuccess myFriends)
  | .delivered (.fetchError _) => some s.fetchError
  | .delivered _ | .silent => some s
  -- The forced unwrap of a profile that has not been read, or a query that throws.
  | .trapped => none

/-- The next query of a read is answered. -/
def answered (collections : Collections) (fetch : ℕ) (failure : Option String)
    (s : FriendsScreen) : Option FriendsScreen :=
  match s.fetches[fetch]? with
  | none => some s
  | some prog =>
    let prog := prog.resume fun c => (Reads.answer failure collections c).1
    match prog.result with
    | none => some { s with fetches := s.fetches.set fetch prog }
    | some ending => { s with fetches := s.fetches.eraseIdx fetch }.ended ending

/-- A reload that is due: the rows are counted, and their cells are to be drawn again. -/
def reloadData (s : FriendsScreen) : FriendsScreen :=
  if s.reloads = 0 then s
  else { s with reloads := s.reloads - 1, rows := s.search.list.length, cells := fun _ => none }

/-- A cell with an entry. -/
def filled (myFriend : MyFriend) : MyFriendViewCell where
  uid := myFriend.userModel.data.userID
  nameTextLabel := myFriend.userModel.data.name
  emailTextLabel := myFriend.userModel.data.userEmail
  buttons := YoYo.cellForRowAt myFriend.friend.status

/-- A row is drawn in a cell. Without a friend for it, this traps. -/
def cellForRowAt (row cell : ℕ) (s : FriendsScreen) : Option FriendsScreen :=
  if row < s.rows then
    s.search.list[row]?.map fun myFriend =>
      { s with cells := Function.update s.cells cell (some (filled myFriend)) }
  else some s

/-- Searching for the text. -/
def searchBarSearchButtonClicked (s : FriendsScreen) : FriendsScreen :=
  { s with
    search :=
      Screens.FriendsViewController.searchBarSearchButtonClicked contains lowercased s.search
    reloads := s.reloads + 1 }

/-- Cancelling the search empties the buffer, and reads the list. -/
def searchBarCancelButtonClicked (s : FriendsScreen) : FriendsScreen :=
  { s with search := { s.search.endEditing with searchBuffer := [] } }.fetchFriendsList uid

/-- What an event does, unless it traps. -/
def next (collections : Collections) (s : FriendsScreen) :
    FriendsScreenEvent → Option FriendsScreen
  | .detectFriendsChange status => some (s.detectFriendsChange uid status)
  | .answered fetch failure => s.answered collections fetch failure
  | .reloadData => some s.reloadData
  | .cellForRowAt row cell => s.cellForRowAt row cell
  | .textDidChange searchText => some { s with search := s.search.edit searchText }
  | .searchButtonClicked => some (s.searchBarSearchButtonClicked contains lowercased)
  | .cancelButtonClicked => some (s.searchBarCancelButtonClicked uid)

/-- What a tap on a button of a cell requests. A hidden button is not tapped. -/
def buttonTapped (s : FriendsScreen) (cell : ℕ) (action : FriendAction) : Option FriendOp :=
  (s.cells cell).bind fun c =>
    if c.buttons.offers action then some (.performActionForFriend uid c.uid action) else none

end FriendsScreen

/-! ## The search for people -/

/-- What a search delivers to its delegate. -/
structure SearchCompleted where
  profiles : Option (List Profile)
  error : Option Error
  deriving DecidableEq, Repr

/-- The programs of a search: it queries the profiles of others, and then a list. -/
abbrev SearchProg :=
  Prog (SearchCall ⊕ ReadCall) (Sum.elim SearchAnswer ReadAnswer) SearchCompleted

namespace DatabaseService

variable {C : Type} {A : C → Type} {ρ : Type}

/-- The list of a user, handed to programs with results of any kind. -/
def fetchFriendsList (uid : UID)
    (completionHandler : Option FriendsList → Option Error →
      Prog (C ⊕ ReadCall) (Sum.elim A ReadAnswer) ρ) :
    Prog (C ⊕ ReadCall) (Sum.elim A ReadAnswer) ρ :=
  .call (.inr (.friendsOf uid)) fun
    | .error error => completionHandler none (some error)
    | .ok snapshot =>
      if ¬ snapshot.isEmpty then
        let friendsLists := snapshot.filterMap FriendsList.decode
        if friendsLists.length > 0 then completionHandler friendsLists.head? none
        else completionHandler none none
      else completionHandler none none

/-- What it goes on with once the list is read. -/
theorem fetchFriendsList_eq (uid : UID)
    (k : Option FriendsList → Option Error → Prog (C ⊕ ReadCall) (Sum.elim A ReadAnswer) ρ) :
    fetchFriendsList uid k = .call (.inr (.friendsOf uid)) fun
      | .error error => k none (some error)
      | .ok snapshot => k (snapshot.filterMap FriendsList.decode).head? none := by
  rw [fetchFriendsList]
  congr 1
  funext snapshot
  cases snapshot with
  | error error => rfl
  | ok snapshot =>
    cases snapshot with
    | nil => rfl
    | cons d snapshot =>
      simp only [List.isEmpty_cons, Bool.false_eq_true, not_false_eq_true, if_true]
      split
      · rfl
      · rename_i hlen
        rw [List.eq_nil_of_length_eq_zero (Nat.eq_zero_of_not_pos hlen), List.head?_nil]

end DatabaseService

namespace SearchService

/-- The users a search offers: those matching it without an entry in the list of
    the user. Where that cannot be read, the error comes with all of them. -/
def searchUserProfiles (lowercased : String → String) (contains : String → String → Bool)
    (uid : UID) (searchString : String) : SearchProg :=
  Prog.onLeft <| Reads.DatabaseService.fetchUserProfiles lowercased contains uid searchString
    fun profiles error =>
      match error with
      | some error => .done (.done ⟨none, some error⟩)
      | none => .done <| Devices.DatabaseService.fetchFriendsList uid fun friendsList error =>
        match friendsList with
        | some friendsList =>
          let friends := friendsList.friends
          let filteredResult := profiles.map fun profiles => profiles.filter fun profile =>
            !friends.any fun friend => friend.uid = profile.data.userID
          .done ⟨filteredResult, error⟩
        -- Without a list nobody is left out.
        | none => .done ⟨profiles, error⟩

/-- How the collections answer the queries of a search. -/
def answer (failure : Option String) (s : Collections) :
    (c : SearchCall ⊕ ReadCall) → Sum.elim SearchAnswer ReadAnswer c
  | .inl (.usersOtherThan uid) => snapshotOf failure (s.users.query (profileOfOther uid))
  | .inr c => (Reads.answer failure s c).1

end SearchService

/-- A cell of the search for people, filled with a profile. -/
structure SearchResult where
  uid : UID
  nameLabel : String
  emailLabel : String
  isEnabled : Bool
  deriving DecidableEq, Repr

/-- The screen for adding friends: the profiles found, the searches in flight, the
    cells drawn, and the alert presented last. -/
structure AddFriendScreen where
  profiles : List Profile
  searches : List SearchProg
  cells : ℕ → Option SearchResult
  alert : Option String

/-- What happens to it: a text is searched for, the next query of a search is
    answered, or fails, and a row is drawn in a cell. -/
inductive AddFriendScreenEvent
  | searchButtonClicked (searchText : String)
  | answered (search : ℕ) (failure : Option String)
  | cellForRowAt (row cell : ℕ)

namespace AddFriendScreen

/-- Nothing is searched for, and nothing found. -/
def viewDidLoad : AddFriendScreen := ⟨[], [], fun _ => none, none⟩

variable (contains : String → String → Bool) (lowercased : String → String) (uid : UID)

/-- A text is searched for, if there is one. -/
def searchBarSearchButtonClicked (searchText : String) (s : AddFriendScreen) : AddFriendScreen :=
  if searchText.length > 0 then
    { s with
      searches :=
        s.searches ++ [SearchService.searchUserProfiles lowercased contains uid searchText] }
  else s

/-- A search is completed: unless there is an error, what it has found is shown. -/
def searchCompleted (result : SearchCompleted) (s : AddFriendScreen) : AddFriendScreen :=
  match result.error, result.profiles with
  | none, some profiles =>
    { s with
      profiles
      cells := fun _ => none
      alert := if profiles.length = 0 then some "There are no matching results" else s.alert }
  -- The table stays as it was, and no alert is presented.
  | none, none | some _, _ => s

/-- The next query of a search is answered. -/
def answered (collections : Collections) (search : ℕ) (failure : Option String)
    (s : AddFriendScreen) : AddFriendScreen :=
  match s.searches[search]? with
  | none => s
  | some prog =>
    let prog := prog.resume (SearchService.answer failure collections)
    match prog.result with
    | none => { s with searches := s.searches.set search prog }
    | some result => { s with searches := s.searches.eraseIdx search }.searchCompleted result

/-- A cell with a profile: its button is enabled. -/
def filled (profile : Profile) : SearchResult :=
  ⟨profile.data.userID, profile.data.name, profile.data.userEmail, true⟩

/-- A row is drawn in a cell: there is a profile for each, as the table is
    reloaded at once. -/
def cellForRowAt (row cell : ℕ) (s : AddFriendScreen) : AddFriendScreen :=
  match s.profiles[row]? with
  | some profile => { s with cells := Function.update s.cells cell (some (filled profile)) }
  | none => s

/-- What an event does. -/
def next (collections : Collections) (s : AddFriendScreen) :
    AddFriendScreenEvent → AddFriendScreen
  | .searchButtonClicked searchText =>
    s.searchBarSearchButtonClicked contains lowercased uid searchText
  | .answered search failure => s.answered collections search failure
  | .cellForRowAt row cell => s.cellForRowAt row cell

/-- What a tap on the button of a cell requests, unless it is disabled. -/
def addButtonTapped (s : AddFriendScreen) (cell : ℕ) (sent received : Date) : Option FriendOp :=
  (s.cells cell).bind fun c =>
    if c.isEnabled then some (.sendFriendRequest uid c.uid sent received) else none

/-- A request has succeeded: the button it was sent with is disabled, in whatever
    row its cell is by then. -/
def requestSucceeded (cell : ℕ) (s : AddFriendScreen) : AddFriendScreen :=
  { s with
    cells := Function.update s.cells cell
      ((s.cells cell).map fun c => { c with isEnabled := false }) }

end AddFriendScreen

end YoYo.Devices
