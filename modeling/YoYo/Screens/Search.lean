import YoYo.DocStore.Run
import YoYo.Reads.Service

/-!
# Searching a list

Two screens let their user search the list they show: that of conversations, and
that of the users one may write to. The list is put into a buffer when it is
searched first, and what is shown from then on is what of the buffer matches.
Whatever the service delivers is shown as it is, also during a search.

The list is never lost exactly in the runs in which the text is cleared only if
the buffer holds the list delivered last, and what is delivered during a search
matches it, or is put into the buffer before it is searched again
(`neverLost_iff`): clearing a text that was never searched loses any list.
-/

namespace YoYo.Screens

open DocStore Reads

/-- A list that is searched: the one shown, and the buffer. The search bar has a
    text, and may be being edited. (The source does not keep the list delivered
    last, and the text searched for last, until it is cleared or its editing ends.) -/
structure Search (α : Type) where
  list : List α
  searchBuffer : List α
  text : String
  editing : Bool
  latest : List α
  searched : Option String
  deriving DecidableEq, Repr

/-- What happens to the list: the service delivers something, and the search bar is used. -/
inductive SearchEvent (δ : Type)
  | delivered (d : δ)
  | textDidChange (searchText : String)
  | searchButtonClicked
  | textDidEndEditing
  deriving DecidableEq, Repr

namespace Search

variable {α : Type}

/-- Before anything is delivered. -/
def init : Search α := ⟨[], [], "", false, [], none⟩

/-- The text is changed to another one, or cleared, which ends the search. -/
def edit (searchText : String) (s : Search α) : Search α :=
  { s with
    text := searchText
    editing := true
    searched := if searchText = "" then none else s.searched }

/-- The text is searched for, if there is one. -/
def click (s : Search α) : Search α :=
  { s with editing := true, searched := if s.text = "" then s.searched else some s.text }

/-- The editing ends, and the search with it. -/
def endEditing (s : Search α) : Search α := { s with editing := false, searched := none }

/-- With an empty text, or once the editing has ended, the list delivered last is
    shown, and after a search what of it matches. -/
def Lawful (searches : String → α → Bool) (s : Search α) : Prop :=
  (s.text = "" ∨ s.editing = false → s.list = s.latest) ∧
    ∀ q ∈ s.searched, s.list = s.latest.filter (searches q)

instance [DecidableEq α] (searches : String → α → Bool) (s : Search α) :
    Decidable (s.Lawful searches) :=
  inferInstanceAs (Decidable ((_ → _) ∧ ∀ q ∈ s.searched, _))

end Search

/-! ## Conversations -/

namespace ChatViewController

variable (contains : String → String → Bool)

/-- The row of a conversation is found by a text in the name, or in the e-mail, of the user. -/
def searches (searchTxt : String) (row : ChatModel) : Bool :=
  contains row.userModel.data.name searchTxt || contains row.userModel.data.userEmail searchTxt

/-- Rows are delivered, or an error. -/
def fetchChatModels (chatModels : List ChatModel) (error : Option Error) (s : Search ChatModel) :
    Search ChatModel :=
  match error with
  | some _ => s
  | none => { s with list := chatModels, latest := chatModels }

/-- Searching for the text. -/
def searchBarSearchButtonClicked (s : Search ChatModel) : Search ChatModel :=
  let searchTxt := s.text
  if searchTxt.length > 0 then
    let s := if s.searchBuffer.length = 0 then { s with searchBuffer := s.list } else s
    { s with list := s.searchBuffer.filter (searches contains searchTxt) }
  else s

/-- The end of the editing restores the list, if there is a buffer. -/
def searchBarTextDidEndEditing (s : Search ChatModel) : Search ChatModel :=
  if s.searchBuffer.length > 0 then { s with list := s.searchBuffer, searchBuffer := [] } else s

/-- Clearing the text restores it, and ends the editing. -/
def searchBarTextDidChange (searchText : String) (s : Search ChatModel) : Search ChatModel :=
  if searchText.length = 0 then
    let s := { s with list := s.searchBuffer, searchBuffer := [] }
    -- The search bar resigns as the first responder, of which it is told.
    searchBarTextDidEndEditing s.endEditing
  else s

/-- The list after an event. -/
def next (s : Search ChatModel) :
    SearchEvent (List ChatModel × Option Error) → Search ChatModel
  | .delivered (chatModels, error) => fetchChatModels chatModels error s
  | .textDidChange searchText => searchBarTextDidChange searchText (s.edit searchText)
  | .searchButtonClicked => searchBarSearchButtonClicked contains s.click
  | .textDidEndEditing => searchBarTextDidEndEditing s.endEditing

/-- The event does not lose the list: what is delivered during a search matches it,
    and what is restored, or searched again, is the list delivered last. -/
def Keeps (s : Search ChatModel) : SearchEvent (List ChatModel × Option Error) → Prop
  | .delivered (chatModels, none) =>
    ∀ q ∈ s.searched, ∀ row ∈ chatModels, searches contains q row
  | .delivered (_, some _) => True
  | .textDidChange searchText => searchText = "" → s.searchBuffer = s.latest
  | .searchButtonClicked => s.text ≠ "" → s.searchBuffer ≠ [] →
    s.searchBuffer.filter (searches contains s.text) =
      s.latest.filter (searches contains s.text)
  | .textDidEndEditing => s.searchBuffer ≠ [] → s.searchBuffer = s.latest

end ChatViewController

/-! ## Users to write to -/

namespace ComposeViewController

variable (contains : String → String → Bool) (lowercased : String → String)

/-- A user is found by a text, in lower case, in his name or in his e-mail. -/
def searches (searchText : String) (userModel : Profile) : Bool :=
  contains userModel.data.name (lowercased searchText) ||
    contains userModel.data.userEmail (lowercased searchText)

/-- Users are delivered, which are shown in the order of their names; none with an error. -/
def getMyFriendsCompleted (friends : Option (List Profile)) (error : Option Error)
    (s : Search Profile) : Search Profile :=
  match error, friends with
  | some _, _ => { s with list := [], latest := [] }
  | none, some userModels =>
    let userModels := userModels.insertionSort fun a b => a.data.name ≤ b.data.name
    { s with list := userModels, latest := userModels }
  | none, none => s

/-- Searching for the text: the buffer is filled even without one. -/
def searchBarSearchButtonClicked (s : Search Profile) : Search Profile :=
  let s := if s.searchBuffer.length = 0 then { s with searchBuffer := s.list } else s
  let searchText := s.text
  if searchText.length > 0 then
    { s with list := s.searchBuffer.filter (searches contains lowercased searchText) }
  else s

/-- Clearing the text restores the list. -/
def searchBarTextDidChange (searchText : String) (s : Search Profile) : Search Profile :=
  if searchText.length = 0 then { s with list := s.searchBuffer, searchBuffer := [] } else s

/-- The list after an event: nothing is done about the end of the editing. -/
def next (s : Search Profile) :
    SearchEvent (Option (List Profile) × Option Error) → Search Profile
  | .delivered (friends, error) => getMyFriendsCompleted friends error s
  | .textDidChange searchText => searchBarTextDidChange searchText (s.edit searchText)
  | .searchButtonClicked => searchBarSearchButtonClicked contains lowercased s.click
  | .textDidEndEditing => s.endEditing

/-- The event does not lose the list. As nothing is restored when the editing
    ends, everything delivered last has to match the search then. -/
def Keeps (s : Search Profile) : SearchEvent (Option (List Profile) × Option Error) → Prop
  | .delivered (some userModels, none) =>
    ∀ q ∈ s.searched, ∀ userModel ∈ userModels, searches contains lowercased q userModel
  | .delivered (none, none) | .delivered (_, some _) => True
  | .textDidChange searchText => searchText = "" → s.searchBuffer = s.latest
  | .searchButtonClicked => s.text ≠ "" → s.searchBuffer ≠ [] →
    s.searchBuffer.filter (searches contains lowercased s.text) =
      s.latest.filter (searches contains lowercased s.text)
  | .textDidEndEditing =>
    ∀ q ∈ s.searched, ∀ userModel ∈ s.latest, searches contains lowercased q userModel

end ComposeViewController

/-! ## Steps -/

variable {α : Type} {found : String → α → Bool} {s s' : Search α} {p : Prop}

/-- The list is not lost: it is the one delivered last, unless what matches a
    search is shown, and also then if nothing is in the buffer. -/
structure Kept (found : String → α → Bool) (s : Search α) : Prop where
  resting : s.searched = none → s.list = s.latest
  searching : ∀ q ∈ s.searched, s.list = s.latest.filter (found q)
  unbuffered : s.searchBuffer = [] → s.list = s.latest
  active : s.searched.isSome → s.text ≠ "" ∧ s.editing = true

/-- An operation is lawful exactly if `p` holds, and the list is not lost then. -/
structure LawfulIff (found : String → α → Bool) (s' : Search α) (p : Prop) : Prop where
  of_lawful : s'.Lawful found → p
  kept : p → Kept found s'

theorem Kept.lawful (hs : Kept found s) : s.Lawful found := by
  refine ⟨fun hrest => hs.resting ?_, hs.searching⟩
  refine Option.not_isSome_iff_eq_none.1 fun hsome => ?_
  obtain ⟨htext, hediting⟩ := hs.active hsome
  rcases hrest with h | h
  · exact htext h
  · exact Bool.false_ne_true (h.symm.trans hediting)

/-- All of the list delivered last is shown if all of it matches the search. -/
theorem Kept.list_eq_iff (hs : Kept found s) :
    s.list = s.latest ↔ ∀ q ∈ s.searched, ∀ row ∈ s.latest, found q row := by
  cases hsearched : s.searched with
  | none =>
    exact iff_of_true (hs.resting hsearched) fun q hq => absurd hq (Option.some_ne_none q).symm
  | some q =>
    rw [hs.searching q hsearched, List.filter_eq_self]
    simp only [Option.mem_some_iff, forall_eq']

theorem LawfulIff.lawful_iff (h : LawfulIff found s' p) : s'.Lawful found ↔ p :=
  ⟨h.of_lawful, fun hp => (h.kept hp).lawful⟩

theorem Kept.lawfulIff (hs : Kept found s') (hp : p) : LawfulIff found s' p :=
  ⟨fun _ => hp, fun _ => hs⟩

namespace Search

theorem kept_init : Kept found init where
  resting := fun _ => rfl
  searching := fun _ h => absurd h (Option.some_ne_none _).symm
  unbuffered := fun _ => rfl
  active := fun h => absurd h Bool.false_ne_true

/-- What is delivered is shown. -/
theorem lawfulIff_deliver (hs : Kept found s) (rows : List α) :
    LawfulIff found { s with list := rows, latest := rows }
      (∀ q ∈ s.searched, ∀ row ∈ rows, found q row) where
  of_lawful h q hq := List.filter_eq_self.1 (h.2 q hq).symm
  kept h := {
    resting := fun _ => rfl
    searching := fun q hq => (List.filter_eq_self.2 (h q hq)).symm
    unbuffered := fun _ => rfl
    active := hs.active }

/-- The text is changed, but not cleared. -/
theorem kept_edit (hs : Kept found s) {searchText : String} (h : searchText ≠ "") :
    Kept found (s.edit searchText) := by
  have hsearched : (s.edit searchText).searched = s.searched := if_neg h
  exact {
    resting := fun hnone => hs.resting (hsearched ▸ hnone)
    searching := fun q hq => hs.searching q (hsearched ▸ hq)
    unbuffered := hs.unbuffered
    active := fun _ => ⟨h, rfl⟩ }

/-- Nothing is searched for any more. -/
theorem lawfulIff_rest (hrest : s'.text = "" ∨ s'.editing = false) (hnone : s'.searched = none) :
    LawfulIff found s' (s'.list = s'.latest) where
  of_lawful h := h.1 hrest
  kept h := {
    resting := fun _ => h
    searching := fun q hq => absurd (hnone.symm.trans hq) (Option.some_ne_none q).symm
    unbuffered := fun _ => h
    active := fun hsome => by simp [hnone] at hsome }

/-- The text is changed: the buffer is restored if it is cleared. -/
theorem lawfulIff_edit (hs : Kept found s) (searchText : String) {restored : Search α}
    (htext : searchText = "" → restored.text = "")
    (hnone : searchText = "" → restored.searched = none)
    (hlist : restored.list = restored.latest ↔ s.searchBuffer = s.latest) :
    LawfulIff found (if searchText.length = 0 then restored else s.edit searchText)
      (searchText = "" → s.searchBuffer = s.latest) := by
  split_ifs with hlen
  · have hempty : searchText = "" := String.length_eq_zero_iff.1 hlen
    rw [forall_prop_of_true hempty, ← hlist]
    exact lawfulIff_rest (.inl (htext hempty)) (hnone hempty)
  · have hne : searchText ≠ "" := fun h => hlen (h ▸ rfl)
    exact (kept_edit hs hne).lawfulIff fun h => absurd h hne

/-- A click without a text. -/
theorem kept_click (hs : Kept found s) (h : s.text = "") : Kept found s.click := by
  have hsearched : s.click.searched = s.searched := if_pos h
  have hnone : s.searched = none :=
    Option.not_isSome_iff_eq_none.1 fun hsome => (hs.active hsome).1 h
  have hrest : s.click.text = "" ∨ s.click.editing = false := .inl h
  exact (lawfulIff_rest hrest (hsearched.trans hnone)).kept (hs.resting hnone)

/-- The list is put into the buffer, if that is empty. -/
def fillBuffer (s : Search α) : Search α :=
  if s.searchBuffer.length = 0 then { s with searchBuffer := s.list } else s

theorem fillBuffer_of_nil (h : s.searchBuffer = []) :
    s.fillBuffer = { s with searchBuffer := s.list } := if_pos (List.length_eq_zero_iff.2 h)

theorem fillBuffer_of_ne (h : s.searchBuffer ≠ []) : s.fillBuffer = s :=
  if_neg fun hlen => h (List.length_eq_zero_iff.1 hlen)

@[simp] theorem text_fillBuffer : s.fillBuffer.text = s.text := by
  rw [fillBuffer]
  split <;> rfl

theorem kept_fillBuffer (hs : Kept found s) : Kept found s.fillBuffer := by
  by_cases hnil : s.searchBuffer = []
  · rw [fillBuffer_of_nil hnil]
    exact {
      resting := hs.resting
      searching := hs.searching
      unbuffered := fun _ => hs.unbuffered hnil
      active := hs.active }
  · rwa [fillBuffer_of_ne hnil]

/-- Searching a buffer for the text. -/
theorem lawfulIff_search {buffer : List α} (h : s.text ≠ "") (hnil : buffer = [] → s.latest = []) :
    LawfulIff found
      { s.click with list := buffer.filter (found s.text), searchBuffer := buffer }
      (buffer.filter (found s.text) = s.latest.filter (found s.text)) := by
  have hsearched : s.click.searched = some s.text := if_neg h
  exact {
    of_lawful := fun hlawful => hlawful.2 s.text hsearched
    kept := fun heq => {
      resting := fun hnone => absurd (hsearched.symm.trans hnone) (Option.some_ne_none _)
      searching := fun q hq => Option.some.inj (hsearched.symm.trans hq) ▸ heq
      unbuffered := fun hbuffer => heq.trans (hnil hbuffer ▸ rfl)
      active := fun _ => ⟨h, rfl⟩ } }

/-- A click on a text: the list is searched, if the buffer is empty, and the buffer otherwise. -/
theorem lawfulIff_click (hs : Kept found s) (h : s.text ≠ "") :
    LawfulIff found
      { s.click.fillBuffer with list := s.click.fillBuffer.searchBuffer.filter (found s.text) }
      (s.searchBuffer ≠ [] →
        s.searchBuffer.filter (found s.text) = s.latest.filter (found s.text)) := by
  by_cases hbuffer : s.searchBuffer = []
  · have hlist : s.list = s.latest := hs.unbuffered hbuffer
    have hsearch : LawfulIff found
        { s.click with list := s.list.filter (found s.text), searchBuffer := s.list }
        (s.list.filter (found s.text) = s.latest.filter (found s.text)) :=
      lawfulIff_search h fun hnil => hlist.symm.trans hnil
    have hfill : s.click.fillBuffer = { s.click with searchBuffer := s.click.list } :=
      fillBuffer_of_nil hbuffer
    rw [hfill]
    exact (hsearch.kept (hlist ▸ rfl)).lawfulIff fun hne => absurd hbuffer hne
  · have hfill : s.click.fillBuffer = s.click := fillBuffer_of_ne hbuffer
    rw [forall_prop_of_true hbuffer, hfill]
    exact lawfulIff_search h fun hnil => absurd hnil hbuffer

end Search

/-- If each step is lawful exactly under a condition, so is a run. -/
theorem forall_lawful_iff {ε : Type} {next : Search α → ε → Search α} {keeps : Search α → ε → Prop}
    (h : ∀ s e, Kept found s → LawfulIff found (next s e) (keeps s e)) (es : List ε) :
    (∀ es₁ es₂, es = es₁ ++ es₂ → (after next .init es₁).Lawful found) ↔
      AllSteps next keeps .init es := by
  rw [forall_prefix_iff, and_iff_right Search.kept_init.lawful]
  exact allSteps_iff (P := fun _ _ => True) (I := Kept found)
    (fun s e hs _ he => (h s e hs).kept he) (fun s e hs _ => (h s e hs).lawful_iff)
    Search.kept_init (allSteps_iff_forall.2 fun _ _ _ _ => trivial)

/-! ## Screens -/

theorem length_pos_of_ne {text : String} (h : text ≠ "") : text.length > 0 :=
  Nat.pos_of_ne_zero fun hlen => h (String.length_eq_zero_iff.1 hlen)

/-- The end of the editing of the list of conversations. -/
theorem ChatViewController.lawfulIff_endEditing {s : Search ChatModel}
    {found : String → ChatModel → Bool} (hs : Kept found s) :
    LawfulIff found (searchBarTextDidEndEditing s.endEditing)
      (s.searchBuffer ≠ [] → s.searchBuffer = s.latest) := by
  rw [searchBarTextDidEndEditing]
  split_ifs with hlen
  · have hne : s.searchBuffer ≠ [] := List.length_pos_iff.1 hlen
    rw [forall_prop_of_true hne]
    exact Search.lawfulIff_rest (.inr rfl) rfl
  · have hnil : s.searchBuffer = [] :=
      List.eq_nil_of_length_eq_zero (Nat.eq_zero_of_not_pos hlen)
    have hrest : s.endEditing.text = "" ∨ s.endEditing.editing = false := .inr rfl
    refine Kept.lawfulIff ((Search.lawfulIff_rest hrest rfl).kept (hs.unbuffered hnil)) ?_
    exact fun hne => absurd hnil hne

/-- Every event on the list of conversations. -/
theorem ChatViewController.lawfulIff_next (contains : String → String → Bool)
    {s : Search ChatModel} (hs : Kept (searches contains) s)
    (e : SearchEvent (List ChatModel × Option Error)) :
    LawfulIff (searches contains) (next contains s e) (Keeps contains s e) := by
  cases e with
  | delivered d =>
    obtain ⟨chatModels, error⟩ := d
    cases error with
    | some error => exact hs.lawfulIff trivial
    | none => exact Search.lawfulIff_deliver hs chatModels
  | textDidChange searchText =>
    exact Search.lawfulIff_edit hs searchText id (fun _ => rfl) Iff.rfl
  | searchButtonClicked =>
    rw [next, searchBarSearchButtonClicked, Keeps]
    by_cases htext : s.text = ""
    · have hlen : ¬ s.click.text.length > 0 := by simp [Search.click, htext]
      simp only [if_neg hlen]
      exact (Search.kept_click hs htext).lawfulIff fun hne => absurd htext hne
    · have hlen : s.click.text.length > 0 := length_pos_of_ne htext
      simp only [if_pos hlen, forall_prop_of_true htext]
      exact Search.lawfulIff_click hs htext
  | textDidEndEditing => exact lawfulIff_endEditing hs

/-- Every event on the list of users to write to. -/
theorem ComposeViewController.lawfulIff_next (contains : String → String → Bool)
    (lowercased : String → String) {s : Search Profile}
    (hs : Kept (searches contains lowercased) s)
    (e : SearchEvent (Option (List Profile) × Option Error)) :
    LawfulIff (searches contains lowercased) (next contains lowercased s e)
      (Keeps contains lowercased s e) := by
  cases e with
  | delivered d =>
    obtain ⟨friends, error⟩ := d
    cases error with
    | some error =>
      cases friends <;>
        exact ((Search.lawfulIff_deliver hs []).kept fun q _ row hrow =>
          absurd hrow List.not_mem_nil).lawfulIff trivial
    | none =>
      cases friends with
      | none => exact hs.lawfulIff trivial
      | some userModels =>
        have hdeliver := Search.lawfulIff_deliver hs
          (userModels.insertionSort fun a b => a.data.name ≤ b.data.name)
        simp only [List.mem_insertionSort] at hdeliver
        exact hdeliver
  | textDidChange searchText =>
    exact Search.lawfulIff_edit hs searchText id (fun h => if_pos h) Iff.rfl
  | searchButtonClicked =>
    have hclick : searchBarSearchButtonClicked contains lowercased s.click =
        if s.click.fillBuffer.text.length > 0 then
          { s.click.fillBuffer with
            list := s.click.fillBuffer.searchBuffer.filter
              (searches contains lowercased s.click.fillBuffer.text) }
        else s.click.fillBuffer := rfl
    rw [next, hclick, Search.text_fillBuffer, Keeps]
    by_cases htext : s.text = ""
    · -- The list is put into the buffer at most.
      have hlen : ¬ s.click.text.length > 0 := by simp [Search.click, htext]
      rw [if_neg hlen]
      exact (Search.kept_fillBuffer (Search.kept_click hs htext)).lawfulIff fun hne =>
        absurd htext hne
    · have hlen : s.click.text.length > 0 := length_pos_of_ne htext
      rw [if_pos hlen, forall_prop_of_true htext]
      exact Search.lawfulIff_click hs htext
  | textDidEndEditing =>
    rw [Keeps, ← hs.list_eq_iff]
    exact Search.lawfulIff_rest (.inr rfl) rfl

/-! ## Runs -/

/-- **Searching never loses the list** in exactly the runs whose events keep it,
    of conversations and of users to write to alike. -/
theorem neverLost_iff (contains : String → String → Bool) (lowercased : String → String) :
    (∀ es : List (SearchEvent (List ChatModel × Option Error)),
      (∀ es₁ es₂, es = es₁ ++ es₂ →
        (after (ChatViewController.next contains) .init es₁).Lawful
          (ChatViewController.searches contains)) ↔
        AllSteps (ChatViewController.next contains) (ChatViewController.Keeps contains) .init es) ∧
    ∀ es : List (SearchEvent (Option (List Profile) × Option Error)),
      (∀ es₁ es₂, es = es₁ ++ es₂ →
        (after (ComposeViewController.next contains lowercased) .init es₁).Lawful
          (ComposeViewController.searches contains lowercased)) ↔
        AllSteps (ComposeViewController.next contains lowercased)
          (ComposeViewController.Keeps contains lowercased) .init es := by
  constructor
  · intro es
    exact forall_lawful_iff (fun s e hs => ChatViewController.lawfulIff_next contains hs e) es
  · intro es
    exact forall_lawful_iff
      (fun s e hs => ComposeViewController.lawfulIff_next contains lowercased hs e) es

/-- Whether a string is part of another. -/
def isPartOf (text searchText : String) : Bool :=
  text.toList.tails.any fun tail => searchText.toList.isPrefixOf tail

/-- The row of Bob is delivered; a letter is typed, and deleted again. -/
def neverSearched : List (SearchEvent (List ChatModel × Option Error)) :=
  [.delivered ([⟨⟨1, ⟨"Bob", 0, "bob.jpg", "bob", "bob@yoyo"⟩⟩, 0, 5⟩], none),
    .textDidChange "B", .textDidChange ""]

/-- The row is not shown any more. -/
theorem not_lawful_neverSearched :
    ¬ ∀ es₁ es₂, neverSearched = es₁ ++ es₂ →
      (after (ChatViewController.next isPartOf) .init es₁).Lawful
        (ChatViewController.searches isPartOf) := by
  intro h
  have hlawful := h neverSearched [] rfl
  revert hlawful
  decide

end YoYo.Screens
