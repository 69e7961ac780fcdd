import YoYo.Devices.Screens
import YoYo.Friends.Stale

/-!
# The app on many devices

Any number of devices, each with a user signed in, whose screens read the
collections and request operations on friendships. The operations run on the
collection call by call, each call of any of them at any time, succeeding or
not, while the screens are used and profiles change in any way.
-/

namespace YoYo.Devices

open DocStore Reads Screens

/-- The screens of a device. -/
structure Device where
  friendsScreen : FriendsScreen
  addFriendScreen : AddFriendScreen

/-- An operation that is running: the device it was requested on, the cell with
    the button it was requested with, if that waits for it, and what is left of it. -/
structure Running (ι : Type) where
  device : ι
  sender : Option ℕ
  prog : FriendsProg

/-- The app: the collections, those of friends with their versions, the devices
    it has not trapped on, and the operations running. (The source does not keep
    the earlier versions, and the operations requested so far.) -/
structure App (ι : Type) where
  friends : History
  users : UsersStore
  devices : ι → Option Device
  running : List (Running ι)
  requested : List FriendOp

/-- What happens: something to a screen, a tap on a button of one of its cells, the
    next call of an operation, which succeeds or not, and a change of the profiles. -/
inductive AppEvent (ι : Type)
  | friendsScreen (i : ι) (e : FriendsScreenEvent)
  | addFriendScreen (i : ι) (e : AddFriendScreenEvent)
  | buttonTapped (i : ι) (cell : ℕ) (action : FriendAction)
  | addButtonTapped (i : ι) (cell : ℕ) (sent received : Date)
  | called (operation : ℕ) (success : Bool)
  | usersChanged (users : UsersStore)

namespace App

variable {ι : Type} [DecidableEq ι] (contains : String → String → Bool)
  (lowercased : String → String) (g : AutoId DocID) (me : ι → UID)

/-- The devices are on, with nothing requested so far. -/
def start (friends : FriendsStore) (users : UsersStore) : App ι where
  friends := Versions.init friends
  users := users
  devices _ := some ⟨.viewDidLoad, .viewDidLoad⟩
  running := []
  requested := []

/-- What the screens read: their requests are not for stories or messages. -/
def collections (s : App ι) : Collections := ⟨s.friends.now, s.users, .empty, .empty⟩

/-- The app with a device as it is now, unless it has trapped there. -/
def setDevice (s : App ι) (i : ι) (device : Option Device) : App ι :=
  { s with devices := Function.update s.devices i device }

@[simp] theorem devices_setDevice_self (s : App ι) (i : ι) (device : Option Device) :
    (s.setDevice i device).devices i = device := Function.update_self _ _ _

theorem devices_setDevice_of_ne {s : App ι} {i j : ι} {device : Option Device} (h : j ≠ i) :
    (s.setDevice i device).devices j = s.devices j := Function.update_of_ne h _ _

/-- What a tap requests, and the cell whose button waits for it. -/
def request (s : App ι) : AppEvent ι → Option (ι × Option ℕ × FriendOp)
  | .buttonTapped i cell action =>
    (s.devices i).bind fun device =>
      (device.friendsScreen.buttonTapped (me i) cell action).map (i, none, ·)
  | .addButtonTapped i cell sent received =>
    (s.devices i).bind fun device =>
      (device.addFriendScreen.addButtonTapped (me i) cell sent received).map (i, some cell, ·)
  | .friendsScreen _ _ | .addFriendScreen _ _ | .called _ _ | .usersChanged _ => none

/-- An operation that is requested starts to run. -/
def run (s : App ι) (request : ι × Option ℕ × FriendOp) : App ι :=
  { s with
    running := s.running ++ [⟨request.1, request.2.1, request.2.2.prog⟩]
    requested := s.requested ++ [request.2.2] }

/-- An operation has ended: by trapping, or by a report, which only the button of
    a request that has succeeded makes something of. -/
def ended (s : App ι) (operation : Running ι) : Report → App ι
  | .reported true =>
    s.setDevice operation.device <| (s.devices operation.device).map fun device =>
      { device with
        addFriendScreen :=
          operation.sender.elim device.addFriendScreen device.addFriendScreen.requestSucceeded }
  | .reported false | .silent => s
  | .trapped => s.setDevice operation.device none

/-- The next call of an operation. -/
def called (s : App ι) (n : ℕ) (success : Bool) : App ι :=
  match s.running[n]? with
  | none => s
  | some operation =>
    match operation.prog with
    | .done _ => s
    | .call c k =>
      let prog := k (answer g success s.friends.now c).1
      let s := { s with
        friends := s.friends.push (answer g success s.friends.now c).2
        running := s.running.set n { operation with prog } }
      match prog.result with
      | none => s
      | some report => s.ended operation report

/-- The state after an event. -/
def next (s : App ι) : AppEvent ι → App ι
  | .friendsScreen i e =>
    s.setDevice i <| (s.devices i).bind fun device =>
      (device.friendsScreen.next contains lowercased (me i) s.collections e).map
        ({ device with friendsScreen := · })
  | .addFriendScreen i e =>
    s.setDevice i <| (s.devices i).map fun device =>
      { device with
        addFriendScreen :=
          device.addFriendScreen.next contains lowercased (me i) s.collections e }
  | .called n success => s.called g n success
  | .usersChanged users => { s with users }
  | .buttonTapped i cell action => (s.request me (.buttonTapped i cell action)).elim s s.run
  | .addButtonTapped i cell sent received =>
    (s.request me (.addButtonTapped i cell sent received)).elim s s.run

end App

end YoYo.Devices
