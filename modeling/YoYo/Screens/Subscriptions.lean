import YoYo.DocStore.Registration
import YoYo.DocStore.Run
import YoYo.Models

/-!
# Subscriptions of the screens

Four screens listen to what is stored while they are visible: the lists of
conversations, of messages, of friends and of stories. All of them remove their
listeners when they disappear. The first two register them when they appear, and
the others when they are loaded, the last one only once the list of friends has
been fetched.

So the first two are always subscribed exactly if they are visible, but the list
of friends is not when it appears again, and that of stories is not either, or
is where the list of friends comes in while it is hidden (`subscribed_iff`).
-/

namespace YoYo.Screens

open DocStore

/-- The users signed in: their ids are not empty. -/
abbrev SignedIn := { uid : UID // uid ≠ "" }

/-! ## Registering -/

namespace DatabaseService

/-- Two listeners: one to the messages a user has sent, and one to those he has received. -/
def registerForChatModelChanges (r : Registrations) : List ℕ × Registrations :=
  let (listener1, r) := r.addSnapshotListener
  let (listener2, r) := r.addSnapshotListener
  ([listener1, listener2], r)

/-- Two listeners: one to the messages of a user, and one to those of his friend. -/
def registerForMessageCollection (r : Registrations) : List ℕ × Registrations :=
  let (listener1, r) := r.addSnapshotListener
  let (listener2, r) := r.addSnapshotListener
  ([listener1, listener2], r)

/-- A listener to the list of a user. -/
def registerForFriendsList (r : Registrations) : ℕ × Registrations := r.addSnapshotListener

/-- A listener to the stories of users. -/
def registerForStories (r : Registrations) : ℕ × Registrations := r.addSnapshotListener

end DatabaseService

namespace MessagingService

/-- Listening to one's conversations, if one is signed in. -/
def registerForChatModelChange (uid : SignedIn) (r : Registrations) : List ℕ × Registrations :=
  if uid.val.length > 0 then DatabaseService.registerForChatModelChanges r else ([], r)

end MessagingService

/-! ## The screens -/

/-- The list of conversations. -/
structure ChatViewController where
  listeners : List ℕ
  deriving DecidableEq, Repr

/-- The conversation with the user `userModel`. -/
structure MessageViewController where
  userModel : Option UserModel
  listeners : List ℕ
  deriving DecidableEq, Repr

/-- The list of friends. -/
structure FriendsViewController where
  listener : Option ℕ
  deriving DecidableEq, Repr

/-- The list of stories. -/
structure StoriesViewController where
  listnerForStory : Option ℕ
  deriving DecidableEq, Repr

/-- One of the screens. -/
inductive Controller
  | chat (c : ChatViewController)
  | message (c : MessageViewController)
  | friends (c : FriendsViewController)
  | stories (c : StoriesViewController)
  deriving DecidableEq, Repr

namespace Controller

/-- A screen that is loaded, and whether it waits for the list of friends. -/
def viewDidLoad (r : Registrations) : Controller → Controller × Registrations × Bool
  | chat c => (chat c, r, false)
  | message c => (message c, r, false)
  | friends _ =>
    let (listener, r) := DatabaseService.registerForFriendsList r
    (friends ⟨some listener⟩, r, false)
  | stories c => (stories c, r, true)

/-- A screen that is to appear. -/
def viewWillAppear (uid : SignedIn) (r : Registrations) : Controller → Controller × Registrations
  | chat _ =>
    let (listeners, r) := MessagingService.registerForChatModelChange uid r
    (chat ⟨listeners⟩, r)
  | message c =>
    match c.userModel with
    | some _ =>
      let (listeners, r) := DatabaseService.registerForMessageCollection r
      (message { c with listeners := c.listeners ++ listeners }, r)
    | none => (message c, r)
  | friends c => (friends c, r)
  | stories c => (stories c, r)

/-- The listeners a screen has kept. -/
def listeners : Controller → List ℕ
  | chat c => c.listeners
  | message c => c.listeners
  | friends c => c.listener.toList
  | stories c => c.listnerForStory.toList

/-- A screen that is to disappear: it removes the listeners it has kept. -/
def viewWillDisappear (r : Registrations) (c : Controller) : Registrations :=
  r.removeAll c.listeners

/-- The list of friends comes in, if there is one, for the screen of the stories. -/
def registerForStories (r : Registrations) (friendsList : Option FriendsList) :
    Controller → Controller × Registrations
  | stories c =>
    match friendsList with
    | some _ =>
      let (listener, r) := DatabaseService.registerForStories r
      (stories ⟨some listener⟩, r)
    | none => (stories c, r)
  | c => (c, r)

end Controller

/-- What happens to a screen: it appears and disappears, and the list of friends comes in. -/
inductive LifecycleEvent
  | viewWillAppear
  | viewWillDisappear
  | fetchFriendsListCompleted (friendsList : Option FriendsList)
  deriving DecidableEq, Repr

/-- A screen, the listeners there are, whether the screen is visible, and
    whether it waits for the list of friends. -/
structure Screen where
  controller : Controller
  listeners : Registrations
  visible : Bool
  pending : Bool
  deriving DecidableEq, Repr

/-- The kinds of screens. A conversation is with a user, chosen on the screen before. -/
inductive ScreenKind
  | chat
  | message (userModel : UserModel)
  | friends
  | stories
  deriving DecidableEq, Repr

namespace ScreenKind

/-- A screen before it is loaded. -/
def controller : ScreenKind → Controller
  | chat => .chat ⟨[]⟩
  | message userModel => .message ⟨some userModel, []⟩
  | friends => .friends ⟨none⟩
  | stories => .stories ⟨none⟩

/-- How many listeners it has when it is subscribed. -/
def subscriptions : ScreenKind → ℕ
  | chat | message _ => 2
  | friends | stories => 1

end ScreenKind

namespace Screen

/-- A screen that has been loaded. -/
def viewDidLoad (k : ScreenKind) : Screen :=
  let (controller, listeners, pending) := k.controller.viewDidLoad .empty
  ⟨controller, listeners, false, pending⟩

/-- The screen after an event. -/
def next (uid : SignedIn) (s : Screen) : LifecycleEvent → Screen
  | .viewWillAppear =>
    let (controller, listeners) := s.controller.viewWillAppear uid s.listeners
    { s with controller, listeners, visible := true }
  | .viewWillDisappear =>
    { s with listeners := s.controller.viewWillDisappear s.listeners, visible := false }
  | .fetchFriendsListCompleted friendsList =>
    let (controller, listeners) := s.controller.registerForStories s.listeners friendsList
    { s with controller, listeners, pending := false }

/-- A screen appears if it is not visible, and disappears if it is. The list of
    friends comes in once, where it is waited for. -/
def Allowed (s : Screen) : LifecycleEvent → Prop
  | .viewWillAppear => s.visible = false
  | .viewWillDisappear => s.visible = true
  | .fetchFriendsListCompleted _ => s.pending = true

instance (s : Screen) : ∀ e, Decidable (s.Allowed e)
  | .viewWillAppear | .viewWillDisappear | .fetchFriendsListCompleted _ =>
    inferInstanceAs (Decidable (_ = _))

/-- Once it waits for nothing, the screen has its listeners exactly if it is visible. -/
def Subscribed (k : ScreenKind) (s : Screen) : Prop :=
  s.pending = false → s.listeners.live.length = if s.visible then k.subscriptions else 0

instance (k : ScreenKind) (s : Screen) : Decidable (s.Subscribed k) :=
  inferInstanceAs (Decidable (_ → _))

end Screen

/-! ## What has happened -/

/-- The screen is visible after these events. -/
def visibleAfter (es : List LifecycleEvent) : Bool :=
  es.foldl (fun visible e =>
    match e with
    | .viewWillAppear => true
    | .viewWillDisappear => false
    | .fetchFriendsListCompleted _ => visible) false

/-- A list of friends has come in since the screen has last disappeared, if it has. -/
def fetchedSinceHidden (es : List LifecycleEvent) : Bool :=
  es.foldl (fun fetched e =>
    match e with
    | .viewWillAppear => fetched
    | .viewWillDisappear => false
    | .fetchFriendsListCompleted friendsList => friendsList.isSome || fetched) false

/-- When a screen is subscribed as it should be: the list of friends, if it has
    appeared and, where it is visible, has never disappeared; that of stories,
    once it waits for nothing, if it is visible exactly where the list of friends
    has come in since it has last disappeared. -/
def HoldsWhen : ScreenKind → List LifecycleEvent → Prop
  | .chat, _ | .message _, _ => True
  | .friends, es => .viewWillAppear ∈ es ∧ (visibleAfter es → .viewWillDisappear ∉ es)
  | .stories, es =>
    (∀ friendsList, .fetchFriendsListCompleted friendsList ∉ es) ∨
      (visibleAfter es ↔ fetchedSinceHidden es)

variable {uid : SignedIn} {k : ScreenKind} {s : Screen} {es : List LifecycleEvent}
  {e : LifecycleEvent} {c : Controller} {r : Registrations}

@[simp] theorem visibleAfter_append_appear :
    visibleAfter (es ++ [.viewWillAppear]) = true := by
  simp [visibleAfter]

@[simp] theorem visibleAfter_append_disappear :
    visibleAfter (es ++ [.viewWillDisappear]) = false := by
  simp [visibleAfter]

@[simp] theorem visibleAfter_append_fetched (friendsList : Option FriendsList) :
    visibleAfter (es ++ [.fetchFriendsListCompleted friendsList]) = visibleAfter es := by
  simp [visibleAfter]

@[simp] theorem fetchedSinceHidden_append_appear :
    fetchedSinceHidden (es ++ [.viewWillAppear]) = fetchedSinceHidden es := by
  simp [fetchedSinceHidden]

@[simp] theorem fetchedSinceHidden_append_disappear :
    fetchedSinceHidden (es ++ [.viewWillDisappear]) = false := by
  simp [fetchedSinceHidden]

@[simp] theorem fetchedSinceHidden_append_fetched (friendsList : Option FriendsList) :
    fetchedSinceHidden (es ++ [.fetchFriendsListCompleted friendsList]) =
      (friendsList.isSome || fetchedSinceHidden es) := by
  simp [fetchedSinceHidden]

/-! ## Screens registering when they appear -/

/-- The screen registers its listeners whenever it appears. -/
def Controller.Reregisters : Controller → Prop
  | .chat _ => True
  | .message c => c.userModel.isSome
  | .friends _ | .stories _ => False

/-- Such a screen that appears has kept the two listeners it has registered. -/
theorem Controller.Reregisters.viewWillAppear (hc : c.Reregisters) (uid : SignedIn)
    (r : Registrations) :
    ∃ c' : Controller, c'.Reregisters ∧ [r.registered, r.registered + 1] ⊆ c'.listeners ∧
      c.viewWillAppear uid r =
        (c', ⟨r.registered + 2, r.live ++ [r.registered, r.registered + 1]⟩) := by
  have hlive : r.live ++ [r.registered] ++ [r.registered + 1] =
      r.live ++ [r.registered, r.registered + 1] := by
    rw [List.append_assoc, List.singleton_append]
  cases c with
  | chat c =>
    refine ⟨.chat ⟨[r.registered, r.registered + 1]⟩, trivial, List.Subset.refl _, ?_⟩
    have huid : uid.val.length > 0 :=
      Nat.pos_of_ne_zero fun h => uid.property (String.length_eq_zero_iff.1 h)
    rw [Controller.viewWillAppear, MessagingService.registerForChatModelChange, if_pos huid,
      ← hlive]
    rfl
  | message c =>
    obtain ⟨userModel, huser⟩ := Option.isSome_iff_exists.1 hc
    refine ⟨.message { c with listeners := c.listeners ++ [r.registered, r.registered + 1] },
      hc, List.subset_append_right _ _, ?_⟩
    rw [Controller.viewWillAppear, huser, ← hlive]
    rfl
  | friends c => exact hc.elim
  | stories c => exact hc.elim

/-- A screen that disappears leaves no listener, if it has kept those that are live. -/
theorem live_viewWillDisappear (h : r.live ⊆ c.listeners) : (c.viewWillDisappear r).live = [] :=
  Registrations.live_removeAll_of_subset h

namespace Screen

/-- The screen registers its listeners whenever it appears, and those that are
    live, two exactly while it is visible, it has kept. -/
structure Resubscribed (s : Screen) : Prop where
  reregisters : s.controller.Reregisters
  kept : s.listeners.live ⊆ s.controller.listeners
  length : s.listeners.live.length = if s.visible then 2 else 0

theorem Resubscribed.next (hs : s.Resubscribed) (he : s.Allowed e) :
    (s.next uid e).Resubscribed := by
  cases e with
  | viewWillAppear =>
    have hhidden : s.visible = false := he
    have hlen := hs.length
    rw [hhidden, if_neg Bool.false_ne_true, List.length_eq_zero_iff] at hlen
    obtain ⟨c', hc', hsub, heq⟩ := hs.reregisters.viewWillAppear uid s.listeners
    rw [hlen, List.nil_append] at heq
    rw [Screen.next, heq]
    exact ⟨hc', hsub, rfl⟩
  | viewWillDisappear =>
    have hnone := live_viewWillDisappear hs.kept
    refine ⟨hs.reregisters, ?_, ?_⟩
    · exact hnone ▸ List.nil_subset _
    · exact hnone ▸ rfl
  | fetchFriendsListCompleted friendsList =>
    have hsame : s.controller.registerForStories s.listeners friendsList =
        (s.controller, s.listeners) := by
      have hc := hs.reregisters
      cases hcontroller : s.controller with
      | stories c => exact (hcontroller ▸ hc : Controller.Reregisters (.stories c)).elim
      | _ => rfl
    rw [Screen.next, hsame]
    exact ⟨hs.reregisters, hs.kept, hs.length⟩

/-! ## Screens registering when they are loaded -/

/-- The list of friends: its only listener is live until it first disappears. -/
structure FriendsListening (es : List LifecycleEvent) (s : Screen) : Prop where
  listener : ∃ l, s.controller = .friends ⟨some l⟩ ∧
    s.listeners.live = if .viewWillDisappear ∈ es then [] else [l]
  pending : s.pending = false
  visible : s.visible = visibleAfter es
  appeared : .viewWillDisappear ∈ es → .viewWillAppear ∈ es
  alternating : .viewWillAppear ∈ es → s.visible = true ∨ .viewWillDisappear ∈ es
  appearing : s.visible = true → .viewWillAppear ∈ es

theorem FriendsListening.next (hs : s.FriendsListening es) (he : s.Allowed e) :
    (s.next uid e).FriendsListening (es ++ [e]) := by
  obtain ⟨l, hc, hlive⟩ := hs.listener
  cases e with
  | viewWillAppear =>
    have hnext : s.next uid .viewWillAppear = { s with visible := true } := by
      rw [Screen.next, hc, Controller.viewWillAppear, ← hc]
    rw [hnext]
    exact {
      listener := ⟨l, hc, by simpa using hlive⟩
      pending := hs.pending
      visible := by simp
      appeared := by simp
      alternating := by simp
      appearing := by simp }
  | viewWillDisappear =>
    have hsub : s.listeners.live ⊆ s.controller.listeners := by
      rw [hc, hlive]
      split_ifs
      · exact List.nil_subset _
      · exact List.Subset.refl _
    exact {
      listener := ⟨l, hc, by rw [if_pos (by simp)]; exact live_viewWillDisappear hsub⟩
      pending := hs.pending
      visible := visibleAfter_append_disappear.symm
      appeared := fun _ => List.mem_append_left _ (hs.appearing he)
      alternating := by simp
      appearing := fun h => (Bool.false_ne_true h).elim }
  | fetchFriendsListCompleted friendsList =>
    exact absurd (hs.pending.symm.trans he) Bool.false_ne_true

theorem FriendsListening.subscribed_friends_iff (hs : s.FriendsListening es) :
    s.Subscribed .friends ↔ HoldsWhen .friends es := by
  obtain ⟨l, -, hlive⟩ := hs.listener
  rw [Subscribed, HoldsWhen, forall_prop_of_true hs.pending, hlive, ← hs.visible]
  cases hv : s.visible with
  | true =>
    have happear := hs.appearing hv
    by_cases hdis : LifecycleEvent.viewWillDisappear ∈ es <;>
      simp [hdis, happear, ScreenKind.subscriptions]
  | false =>
    have halt : LifecycleEvent.viewWillAppear ∈ es ↔ .viewWillDisappear ∈ es :=
      ⟨fun h => (hs.alternating h).resolve_left (by simp [hv]), hs.appeared⟩
    by_cases hdis : LifecycleEvent.viewWillDisappear ∈ es <;>
      simp [hdis, halt]

/-- The list of stories: its only listener, once there is one, is live until it disappears. -/
structure StoriesListening (es : List LifecycleEvent) (s : Screen) : Prop where
  listener : ∃ l, s.controller = .stories ⟨l⟩ ∧ (fetchedSinceHidden es → l.isSome) ∧
    s.listeners.live = if fetchedSinceHidden es then l.toList else []
  pending : s.pending = true ↔ ∀ friendsList, .fetchFriendsListCompleted friendsList ∉ es
  waiting : s.pending = true → fetchedSinceHidden es = false
  visible : s.visible = visibleAfter es

theorem StoriesListening.next (hs : s.StoriesListening es) (he : s.Allowed e) :
    (s.next uid e).StoriesListening (es ++ [e]) := by
  obtain ⟨l, hc, hsome, hlive⟩ := hs.listener
  cases e with
  | viewWillAppear =>
    have hnext : s.next uid .viewWillAppear = { s with visible := true } := by
      rw [Screen.next, hc, Controller.viewWillAppear, ← hc]
    rw [hnext]
    exact {
      listener := ⟨l, hc, by simpa using hsome, by simpa using hlive⟩
      pending := by simpa using hs.pending
      waiting := by simpa using hs.waiting
      visible := by simp }
  | viewWillDisappear =>
    have hsub : s.listeners.live ⊆ s.controller.listeners := by
      rw [hc, hlive]
      split_ifs
      · exact List.Subset.refl _
      · exact List.nil_subset _
    have hlive' : (s.next uid .viewWillDisappear).listeners.live = [] :=
      live_viewWillDisappear hsub
    have hpending : (s.next uid .viewWillDisappear).pending = s.pending := rfl
    exact {
      listener := ⟨l, hc, by simp, by simpa using hlive'⟩
      pending := by simpa [hpending] using hs.pending
      waiting := by simp
      visible := visibleAfter_append_disappear.symm }
  | fetchFriendsListCompleted friendsList =>
    -- Nothing has come in before, so that there is no listener.
    have hnone := hs.waiting he
    rw [hnone, if_neg Bool.false_ne_true] at hlive
    have hpending : (s.next uid (.fetchFriendsListCompleted friendsList)).pending = true ↔
        ∀ l, LifecycleEvent.fetchFriendsListCompleted l ∉
          es ++ [.fetchFriendsListCompleted friendsList] :=
      ⟨fun h => (Bool.false_ne_true h).elim,
        fun h => absurd (List.mem_append_right es (List.mem_singleton_self _)) (h friendsList)⟩
    cases friendsList with
    | none =>
      have hnext : s.next uid (.fetchFriendsListCompleted none) = { s with pending := false } := by
        rw [Screen.next, hc, Controller.registerForStories, ← hc]
      rw [hnext] at hpending ⊢
      exact {
        listener := ⟨l, hc, by simpa using hsome, by simpa [hnone] using hlive⟩
        pending := hpending
        waiting := fun h => (Bool.false_ne_true h).elim
        visible := by simpa using hs.visible }
    | some friendsList =>
      have hnext : s.next uid (.fetchFriendsListCompleted (some friendsList)) =
          { s with
            controller := .stories ⟨some s.listeners.registered⟩
            listeners := ⟨s.listeners.registered + 1, [s.listeners.registered]⟩
            pending := false } := by
        rw [Screen.next, hc, Controller.registerForStories]
        simp only [DatabaseService.registerForStories, Registrations.addSnapshotListener, hlive,
          List.nil_append]
      rw [hnext] at hpending ⊢
      exact {
        listener := ⟨some s.listeners.registered, rfl, fun _ => rfl, by simp⟩
        pending := hpending
        waiting := fun h => (Bool.false_ne_true h).elim
        visible := by simpa using hs.visible }

theorem StoriesListening.subscribed_stories_iff (hs : s.StoriesListening es) :
    s.Subscribed .stories ↔ HoldsWhen .stories es := by
  obtain ⟨l, -, hsome, hlive⟩ := hs.listener
  rw [Subscribed, HoldsWhen, ← hs.pending, ← hs.visible, hlive]
  cases hp : s.pending with
  | true => simp
  | false =>
    cases hf : fetchedSinceHidden es with
    | true =>
      obtain ⟨l, rfl⟩ := Option.isSome_iff_exists.1 (hsome hf)
      cases s.visible <;> simp [ScreenKind.subscriptions]
    | false => cases s.visible <;> simp [ScreenKind.subscriptions]

/-! ## Runs -/

/-- **A screen is subscribed exactly while it is visible**, once it waits for
    nothing: always if it registers its listeners when it appears, and otherwise
    in exactly the runs given by `HoldsWhen`. -/
theorem subscribed_iff (uid : SignedIn) (k : ScreenKind) {es : List LifecycleEvent}
    (h : AllSteps (next uid) Allowed (viewDidLoad k) es) :
    (after (next uid) (viewDidLoad k) es).Subscribed k ↔ HoldsWhen k es := by
  cases k with
  | chat =>
    have hload : (viewDidLoad .chat).Resubscribed := ⟨trivial, List.nil_subset _, rfl⟩
    have hs := h.invariant (fun _ _ hs he => hs.next he) hload
    exact iff_of_true (fun _ => hs.length) trivial
  | message userModel =>
    have hload : (viewDidLoad (.message userModel)).Resubscribed := ⟨rfl, List.nil_subset _, rfl⟩
    have hs := h.invariant (fun _ _ hs he => hs.next he) hload
    exact iff_of_true (fun _ => hs.length) trivial
  | friends =>
    exact (h.invariant_of_run (J := FriendsListening) (fun _ _ _ hs he => hs.next he)
      { listener := ⟨0, rfl, rfl⟩
        pending := rfl
        visible := rfl
        appeared := fun h => absurd h List.not_mem_nil
        alternating := fun h => absurd h List.not_mem_nil
        appearing := fun h => (Bool.false_ne_true h).elim }).subscribed_friends_iff
  | stories =>
    exact (h.invariant_of_run (J := StoriesListening) (fun _ _ _ hs he => hs.next he)
      { listener := ⟨none, rfl, fun h => h, rfl⟩
        pending := by simp [viewDidLoad, ScreenKind.controller, Controller.viewDidLoad]
        waiting := fun _ => rfl
        visible := rfl }).subscribed_stories_iff

/-- Ann, signed in. -/
def ann : SignedIn := ⟨"ann", by decide⟩

/-- She looks at another screen, and back. -/
def lookedAway : List LifecycleEvent := [.viewWillAppear, .viewWillDisappear, .viewWillAppear]

/-- Her conversations are listened to again. -/
theorem subscribed_chat_lookedAway :
    (after (next ann) (viewDidLoad .chat) lookedAway).Subscribed .chat :=
  (subscribed_iff ann .chat (by decide)).2 trivial

/-- Her list is fetched while she looks at another screen. -/
def fetchedWhileHidden : List LifecycleEvent :=
  [.viewWillAppear, .viewWillDisappear, .fetchFriendsListCompleted (some ⟨some 1, "ann", []⟩)]

/-- Her list of friends is not listened to again, and the list of stories is
    listened to while it is hidden. -/
theorem not_subscribed_lookedAway :
    (AllSteps (next ann) Allowed (viewDidLoad .friends) lookedAway ∧
      ¬ (after (next ann) (viewDidLoad .friends) lookedAway).Subscribed .friends) ∧
    (AllSteps (next ann) Allowed (viewDidLoad .stories) fetchedWhileHidden ∧
      ¬ (after (next ann) (viewDidLoad .stories) fetchedWhileHidden).Subscribed .stories) := by
  decide

end Screen

end YoYo.Screens
