import YoYo.Screens.Search

/-!
# The rows on screen

A table draws its rows when it is told to reload them, from the array the screen
has at that time, and a tap on a row opens whatever the array has at its index
by then. Of the handlers of the list of conversations that replace the array,
all but the end of the editing reload the table.

So the rows on screen are those of the array, and a tap opens the conversation
that is shown, in exactly the runs in which editing only ends with an empty
buffer, or with one having the rows shown (`rowsShown_iff`).
-/

namespace YoYo.Screens

open DocStore Reads

namespace ChatViewController

variable (contains : String → String → Bool)

/-- The screen: the list of conversations with its search, the rows drawn, the
    alerts presented, how often the list has been asked for, and whether its
    listeners are registered. -/
structure Screen where
  search : Search ChatModel
  rows : List ChatModel
  alerts : List (String × Error)
  requested : ℕ
  listening : Bool
  deriving DecidableEq, Repr

/-- What happens to the screen. -/
inductive ScreenEvent
  | viewWillAppear
  | viewWillDisappear
  | chatModelChanged (success : Bool) (error : Option Error)
  | search (e : SearchEvent (List ChatModel × Option Error))

namespace Screen

/-- The screen is loaded: it has asked for the list, and has no rows. -/
def viewDidLoad : Screen := ⟨.init, [], [], 1, false⟩

/-- The table draws the rows there are now. -/
def reloadData (s : Screen) : Screen := { s with rows := s.search.list }

/-- An alert is presented. -/
def presentAlert (title : String) (error : Error) (s : Screen) : Screen :=
  { s with alerts := s.alerts ++ [(title, error)] }

/-- The listeners tell of a change: the list is asked for again. -/
def chatModelChanged (success : Bool) (error : Option Error) (s : Screen) : Screen :=
  match error with
  | some error => s.presentAlert "Messages" error
  | none => if success then { s with requested := s.requested + 1 } else s

/-- Rows are delivered, or an error. -/
def fetchChatModels (chatModels : List ChatModel) (error : Option Error) (s : Screen) : Screen :=
  match error with
  | some error => s.presentAlert "Messages" error
  | none =>
    reloadData { s with search := ChatViewController.fetchChatModels chatModels none s.search }

/-- The text is searched for, if there is one. -/
def searchBarSearchButtonClicked (s : Screen) : Screen :=
  let s' := { s with
    search := ChatViewController.searchBarSearchButtonClicked contains s.search.click }
  if s.search.text.length > 0 then s'.reloadData else s'

/-- The editing ends: the array is restored from the buffer, and nothing is drawn. -/
def searchBarTextDidEndEditing (s : Screen) : Screen :=
  { s with search := ChatViewController.searchBarTextDidEndEditing s.search.endEditing }

/-- The text is changed. If it is cleared, the array is restored, and drawn
    before the editing ends. -/
def searchBarTextDidChange (searchText : String) (s : Screen) : Screen :=
  let edited := s.search.edit searchText
  if searchText.length = 0 then
    searchBarTextDidEndEditing <| reloadData
      { s with search := { edited with list := edited.searchBuffer, searchBuffer := [] } }
  else { s with search := edited }

/-- The screen after an event. -/
def next (s : Screen) : ScreenEvent → Screen
  | .viewWillAppear => { s with listening := true }
  | .viewWillDisappear => { s with listening := false }
  | .chatModelChanged success error => s.chatModelChanged success error
  | .search (.delivered (chatModels, error)) => s.fetchChatModels chatModels error
  | .search (.textDidChange searchText) => s.searchBarTextDidChange searchText
  | .search .searchButtonClicked => s.searchBarSearchButtonClicked contains
  | .search .textDidEndEditing => s.searchBarTextDidEndEditing

/-- A tap on a row: the user whose messages are opened, unless the index is out of range. -/
def didSelectRowAt (index : ℕ) (s : Screen) : Option Profile :=
  s.search.list[index]?.map ChatModel.userModel

/-- The rows on screen are those of the array, and a tap on any of them opens the
    messages of the user shown in it. -/
def RowsShown (s : Screen) : Prop :=
  s.rows = s.search.list ∧
    ∀ index row, s.rows[index]? = some row → s.didSelectRowAt index = some row.userModel

/-- Editing does not end, or it leaves the array as it is. -/
def Undisturbed (s : Screen) : ScreenEvent → Prop
  | .search .textDidEndEditing => s.search.searchBuffer ≠ [] → s.search.searchBuffer = s.search.list
  | _ => True

instance (s : Screen) : ∀ e, Decidable (s.Undisturbed e)
  | .search .textDidEndEditing => inferInstanceAs (Decidable (_ → _))
  | .search (.delivered _) | .search (.textDidChange _) | .search .searchButtonClicked
  | .viewWillAppear | .viewWillDisappear | .chatModelChanged _ _ => .isTrue trivial

variable {contains : String → String → Bool} {s : Screen}

/-! ## Steps -/

/-- The search goes on as without a table. -/
theorem search_next (s : Screen) (e : SearchEvent (List ChatModel × Option Error)) :
    (s.next contains (.search e)).search = ChatViewController.next contains s.search e := by
  cases e with
  | delivered d =>
    obtain ⟨chatModels, error⟩ := d
    cases error <;> rfl
  | textDidChange searchText =>
    simp only [next, searchBarTextDidChange, ChatViewController.next,
      ChatViewController.searchBarTextDidChange]
    split_ifs <;> rfl
  | searchButtonClicked =>
    simp only [next, searchBarSearchButtonClicked, ChatViewController.next]
    split_ifs <;> rfl
  | textDidEndEditing => rfl

theorem rowsShown_iff_rows : s.RowsShown ↔ s.rows = s.search.list := by
  refine ⟨And.left, fun h => ⟨h, fun index row hrow => ?_⟩⟩
  rw [didSelectRowAt, ← h, hrow, Option.map_some]

/-- A click without a text leaves the list as it is. -/
theorem list_searchBarSearchButtonClicked {search : Search ChatModel}
    (h : ¬ search.text.length > 0) :
    (ChatViewController.searchBarSearchButtonClicked contains search.click).list =
      search.list := by
  have hclick : ChatViewController.searchBarSearchButtonClicked contains search.click =
      search.click := if_neg h
  rw [hclick]
  rfl

/-- What the end of the editing leaves in the list. -/
theorem list_searchBarTextDidEndEditing (search : Search ChatModel) :
    (ChatViewController.searchBarTextDidEndEditing search.endEditing).list =
      if search.searchBuffer = [] then search.list else search.searchBuffer := by
  by_cases h : search.searchBuffer = []
  · have hend : ChatViewController.searchBarTextDidEndEditing search.endEditing =
        search.endEditing := if_neg (by simp [Search.endEditing, h])
    rw [if_pos h, hend]
    rfl
  · have hend : ChatViewController.searchBarTextDidEndEditing search.endEditing =
        { search.endEditing with list := search.searchBuffer, searchBuffer := [] } :=
      if_pos (List.length_pos_iff.2 h)
    rw [if_neg h, hend]

/-- If the rows on screen are those of the array, they are so after an event
    exactly if it does not disturb them. -/
theorem rows_next (hs : s.rows = s.search.list) (e : ScreenEvent) :
    (s.next contains e).rows = (s.next contains e).search.list ↔ s.Undisturbed e := by
  cases e with
  | viewWillAppear => exact iff_of_true hs trivial
  | viewWillDisappear => exact iff_of_true hs trivial
  | chatModelChanged success error =>
    refine iff_of_true ?_ trivial
    cases error with
    | some error => exact hs
    | none =>
      cases success with
      | false => exact hs
      | true => exact hs
  | search e =>
    cases e with
    | delivered d =>
      obtain ⟨chatModels, error⟩ := d
      refine iff_of_true ?_ trivial
      cases error with
      | some error => exact hs
      | none => rfl
    | textDidChange searchText =>
      refine iff_of_true ?_ trivial
      simp only [next, searchBarTextDidChange]
      split_ifs with hlen
      · -- The buffer is empty by the time the editing ends.
        rfl
      · exact hs
    | searchButtonClicked =>
      refine iff_of_true ?_ trivial
      simp only [next, searchBarSearchButtonClicked]
      split_ifs with hlen
      · rfl
      · exact hs.trans (list_searchBarSearchButtonClicked hlen).symm
    | textDidEndEditing =>
      simp only [next, searchBarTextDidEndEditing, Undisturbed]
      rw [list_searchBarTextDidEndEditing, hs]
      split_ifs with h
      · exact iff_of_true rfl fun hne => absurd h hne
      · rw [forall_prop_of_true h, eq_comm]

end Screen

/-! ## Runs -/

/-- The rows on screen are those of the array at every moment, and a tap opens
    what is shown, in exactly the runs in which no end of the editing disturbs them. -/
theorem rowsShown_iff (contains : String → String → Bool) (es : List ScreenEvent) :
    (∀ es₁ es₂, es = es₁ ++ es₂ → (after (Screen.next contains) .viewDidLoad es₁).RowsShown) ↔
      AllSteps (Screen.next contains) Screen.Undisturbed .viewDidLoad es := by
  simp only [Screen.rowsShown_iff_rows]
  rw [forall_prefix_iff (B := fun s : Screen => s.rows = s.search.list)]
  refine (and_iff_right rfl).trans ?_
  exact allSteps_iff (P := fun _ _ => True) (I := fun s => s.rows = s.search.list)
    (fun s e hs _ he => (Screen.rows_next hs e).2 he) (fun s e hs _ => Screen.rows_next hs e)
    rfl (allSteps_iff_forall.2 fun _ _ _ _ => trivial)

/-- Bob is searched for among two conversations, and the editing ends. -/
def bobSearched : List ScreenEvent :=
  [.search (.delivered ([⟨⟨1, ⟨"Ann", 0, "ann.jpg", "ann", "ann@yoyo"⟩⟩, 0, 6⟩,
      ⟨⟨2, ⟨"Bob", 0, "bob.jpg", "bob", "bob@yoyo"⟩⟩, 0, 5⟩], none)),
    .search (.textDidChange "Bob"), .search .searchButtonClicked, .search .textDidEndEditing]

/-- The only row on screen is his, and a tap on it opens the messages of Ann. -/
theorem not_rowsShown_bobSearched :
    let s := after (Screen.next isPartOf) .viewDidLoad bobSearched
    s.rows.map (fun row => row.userModel.data.name) = ["Bob"] ∧
      (s.didSelectRowAt 0).map (fun userModel => userModel.data.name) = some "Ann" ∧
      ¬ s.RowsShown := by
  refine ⟨by decide, by decide, fun h => ?_⟩
  have hrows := h.1
  revert hrows
  decide

end ChatViewController

end YoYo.Screens
