import Mathlib.Logic.Function.Basic
import YoYo.Accounts.SignUp

/-!
# Signing up on many devices

Nothing keeps the button of a form from being tapped while what an earlier tap has
started is still running: every tap with a valid form starts another attempt. All
attempts of a screen read its one form, each when it gets there, and to save a
profile they ask their device who is signed in: the user who has been signed in
last, by whatever attempt, or by somebody logging in meanwhile.

* `SigningUp.next`: any number of attempts, on any number of devices, each going on
  as a sign-up of its own does (`SignUp.completed`);
* `signs_completed`: what the completion of a step of an attempt does.
-/

namespace YoYo.Accounts

open DocStore Storage

/-- A form, by the device it is on and its number there. -/
structure Screen where
  device : ℕ
  number : ℕ
  deriving DecidableEq, Repr

/-- What a tap on the button of a form has started, and the form at that time. -/
structure Attempt (D : Type) where
  screen : Screen
  stage : Stage D
  requested : Form D

/-- The state: what is stored, who is signed in on each device, what is on the
    screens, and the attempts. -/
structure SigningUp (D : Type) where
  accounts : List Account
  users : UsersStore
  objects : Objects D
  currentUser : ℕ → Option UID
  forms : Screen → Form D
  alerts : Screen → Option String
  attempts : List (Attempt D)

/-- What happens: somebody logs in or out on a device, a form is edited, its button
    is tapped, and a step of an attempt completes. -/
inductive SigningUpEvent (D : Type)
  | currentUserChanged (device : ℕ) (user : Option UID)
  | edit (screen : Screen) (form : Form D)
  | createButtonTapped (screen : Screen)
  | completed (i : ℕ) (reply : SignUpReply)

namespace SigningUp

variable {D : Type} (same : String → String → Bool) (uids : AutoId UID) (ids : AutoId DocID)

/-- An attempt, with what it reads and writes. -/
def signUp (s : SigningUp D) (attempt : Attempt D) : SignUp D :=
  ⟨s.accounts, s.users, s.objects, s.currentUser attempt.screen.device, s.forms attempt.screen,
    attempt.stage, s.alerts attempt.screen, attempt.requested⟩

/-- A button is tapped: another attempt, which only starts if the form is valid. -/
def createButtonTapped (s : SigningUp D) (screen : Screen) : SigningUp D :=
  let signUp := (s.signUp ⟨screen, .notStarted, s.forms screen⟩).createButtonTapped same
  { s with
    alerts := Function.update s.alerts screen signUp.alert
    attempts := s.attempts ++ [⟨screen, signUp.stage, signUp.requested⟩] }

/-- An attempt of this screen has gone on, and written this. -/
def put (s : SigningUp D) (i : ℕ) (screen : Screen) (signUp : SignUp D) : SigningUp D where
  accounts := signUp.accounts
  users := signUp.users
  objects := signUp.objects
  currentUser := Function.update s.currentUser screen.device signUp.currentUser
  forms := s.forms
  alerts := Function.update s.alerts screen signUp.alert
  attempts := s.attempts.set i ⟨screen, signUp.stage, signUp.requested⟩

/-- A step of an attempt completes. -/
def completed (s : SigningUp D) (i : ℕ) (reply : SignUpReply) : SigningUp D :=
  match s.attempts[i]? with
  | some attempt => s.put i attempt.screen ((s.signUp attempt).completed uids ids reply)
  | none => s

/-- The state after an event. -/
def next (s : SigningUp D) : SigningUpEvent D → SigningUp D
  | .currentUserChanged device user =>
    { s with currentUser := Function.update s.currentUser device user }
  | .edit screen form => { s with forms := Function.update s.forms screen form }
  | .createButtonTapped screen => s.createButtonTapped same screen
  | .completed i reply => s.completed uids ids i reply

/-- Before any tap. -/
def start (accounts : List Account) (users : UsersStore) (objects : Objects D)
    (currentUser : ℕ → Option UID) (forms : Screen → Form D) : SigningUp D :=
  ⟨accounts, users, objects, currentUser, forms, fun _ => none, []⟩

end SigningUp

/-! ## What a step does -/

namespace Stage

variable {D : Type}

/-- A step of the sign-up is still to complete. -/
def running : Stage D → Bool
  | .notStarted | .stopped => false
  | .creatingUser _ _ | .sendingEmailVerification _ | .puttingData _ _ | .gettingURL _ => true

/-- The user whose account has been created, and whose profile is still to be saved. -/
def uid : Stage D → Option UID
  | .sendingEmailVerification uid | .puttingData _ uid | .gettingURL uid => some uid
  | .notStarted | .creatingUser _ _ | .stopped => none

theorem running_of_uid {stage : Stage D} {uid : UID} (h : stage.uid = some uid) :
    stage.running = true := by
  cases stage <;> first | rfl | cases h

end Stage

variable {D : Type} {uids : AutoId UID} {ids : AutoId DocID} {s s' : SignUp D} {uid : UID}

/-- The completion of a step creates nothing but at most an object, creates an
    account for a new user, who is then signed in, or saves the profile of the user
    who is signed in. -/
inductive Signs (uids : AutoId UID) (ids : AutoId DocID) (s s' : SignUp D) : Prop
  | waits (accounts : s'.accounts = s.accounts) (users : s'.users = s.users)
    (currentUser : s'.currentUser = s.currentUser)
    (stage : s'.stage = s.stage ∨ s'.stage = .stopped ∨
      ∃ uid, s.stage.uid = some uid ∧ s'.stage.uid = some uid)
  | creates (email password : String) (stage : s.stage = .creatingUser email password)
    (accounts : s'.accounts = s.accounts ++ [⟨uids.next s.usedUIDs, email, password⟩])
    (users : s'.users = s.users) (currentUser : s'.currentUser = some (uids.next s.usedUIDs))
    (uid : s'.stage.uid = some (uids.next s.usedUIDs))
  | saves (uid : UID) (stage : s.stage.uid = some uid) (u : UserModel)
    (signedIn : s.currentUser = some u.userID) (accounts : s'.accounts = s.accounts)
    (users : s'.users = DatabaseService.saveUserModel ids u s.users)
    (currentUser : s'.currentUser = s.currentUser) (stopped : s'.stage = .stopped)

theorem signs_refl : Signs uids ids s s := .waits rfl rfl rfl (.inl rfl)

theorem signs_createUser {email password : String}
    (hstage : s.stage = .creatingUser email password) :
    Signs uids ids s (s.createUser uids email password) := by
  rw [SignUp.createUser]
  split_ifs
  · exact .waits rfl rfl rfl (.inr (.inl rfl))
  · exact .creates email password hstage rfl rfl rfl rfl

theorem signs_createUserAccountSuccess (hstage : s.stage = .sendingEmailVerification uid) :
    Signs uids ids s (s.createUserAccountSuccess uid) := by
  rw [SignUp.createUserAccountSuccess]
  split
  · exact .waits rfl rfl rfl (.inr (.inr ⟨uid, congrArg Stage.uid hstage, rfl⟩))
  · exact .waits rfl rfl rfl (.inr (.inl rfl))

theorem signs_uploadSuccessFull (hstage : s.stage = .gettingURL uid) (url : String)
    (saveError : Option String) : Signs uids ids s (s.uploadSuccessFull ids url saveError) := by
  rw [SignUp.uploadSuccessFull]
  split
  · exact .waits rfl rfl rfl (.inr (.inl rfl))
  · rename_i userID hsignedIn
    cases saveError with
    | some msg => exact .waits rfl rfl rfl (.inr (.inl rfl))
    | none => exact .saves uid (congrArg Stage.uid hstage) _ hsignedIn rfl rfl rfl rfl

variable (uids ids) in
theorem signs_completed (s : SignUp D) (reply : SignUpReply) :
    Signs uids ids s (s.completed uids ids reply) := by
  have hstop : ∀ msg, Signs uids ids s (s.stop msg) := fun msg =>
    .waits rfl rfl rfl (.inr (.inl rfl))
  rw [SignUp.completed.eq_def]
  cases reply with
  | createUserCompleted error =>
    simp only
    split
    · exact hstop _
    · exact signs_createUser ‹_›
    · exact signs_refl
  | sendEmailVerificationCompleted error =>
    simp only
    split
    · exact hstop _
    · exact signs_createUserAccountSuccess ‹_›
    · exact signs_refl
  | putDataCompleted error =>
    simp only
    split
    · exact hstop _
    · rename_i data uid hstage
      exact .waits rfl rfl rfl (.inr (.inr ⟨uid, congrArg Stage.uid hstage, rfl⟩))
    · exact signs_refl
  | downloadURLCompleted url saveError =>
    simp only
    split
    · exact hstop _
    · exact signs_uploadSuccessFull ‹_› _ _
    · exact signs_refl

namespace Signs

/-- No step starts what is not running. -/
theorem running (h : Signs uids ids s s') (hrunning : s'.stage.running = true) :
    s.stage.running = true := by
  rcases h with ⟨-, -, -, hsame | hstop | ⟨uid, hstage, -⟩⟩ | ⟨_, _, hstage⟩ | ⟨uid, hstage⟩
  · exact hsame ▸ hrunning
  · rw [hstop] at hrunning
    cases hrunning
  · exact Stage.running_of_uid hstage
  · rw [hstage]
    rfl
  · exact Stage.running_of_uid hstage

/-- No step requests the creation of an account. -/
theorem creating (h : Signs uids ids s s') {email password : String}
    (hcreating : s'.stage = .creatingUser email password) :
    s.stage = .creatingUser email password := by
  rcases h with ⟨-, -, -, hsame | hstop | ⟨uid, -, hstage⟩⟩ | ⟨_, _, -, -, -, -, hstage⟩ |
    ⟨uid, -, u, -, -, -, -, hstop⟩
  · exact hsame ▸ hcreating
  · cases hstop.symm.trans hcreating
  · rw [hcreating] at hstage
    cases hstage
  · rw [hcreating] at hstage
    cases hstage
  · cases hstop.symm.trans hcreating

end Signs

/-- The form at the time of the tap is not changed any more. -/
theorem SignUp.requested_completed (s : SignUp D) (reply : SignUpReply) :
    (s.completed uids ids reply).requested = s.requested := by
  rw [SignUp.completed.eq_def]
  cases reply with
  | createUserCompleted error =>
    simp only
    split
    · rfl
    · rw [SignUp.createUser]
      split_ifs <;> rfl
    · rfl
  | sendEmailVerificationCompleted error =>
    simp only
    split
    · rfl
    · rw [SignUp.createUserAccountSuccess]
      split <;> rfl
    · rfl
  | putDataCompleted error =>
    simp only
    split <;> rfl
  | downloadURLCompleted url saveError =>
    simp only
    split
    · rfl
    · rw [SignUp.uploadSuccessFull]
      split
      · rfl
      · split <;> rfl
    · rfl

end YoYo.Accounts
