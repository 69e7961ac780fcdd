import YoYo.DocStore.Run
import YoYo.Profiles.Service
import YoYo.Storage.Service

/-!
# Signing up

A new user fills in a form and taps the button. If the form is valid, an account
is created for him, a mail is sent to verify it, his picture is uploaded, its URL
is fetched, and his profile is saved. Each of these is started when the one before
has succeeded, and the first one to fail ends it all. The form stays as it is on
the screen, and may be edited all the time. Here is what becomes of one tap, with
nobody else on the device; further ones, and those on other devices, are in
`YoYo.Accounts.SigningUp`.

Nothing done before is undone, and the profile is made of what the form holds in
the end. So once it has ended there is either nothing or an account with its
profile exactly if the creation fails, or nothing does, there is a picture, and
name and e-mail are those the account was requested with (`allOrNothing_iff`).
-/

namespace YoYo.Accounts

open DocStore Storage

/-- An account. -/
structure Account where
  uid : UID
  email : String
  password : String
  deriving DecidableEq, Repr

/-- What the form holds: a picture, if one has been picked, as its data. -/
structure Form (D : Type) where
  name : String
  email : String
  password : String
  confirmPassword : String
  dob : Date
  profileImage : Option D
  deriving DecidableEq, Repr

/-- How far the sign-up has got. -/
inductive Stage (D : Type)
  | notStarted
  | creatingUser (email password : String)
  | sendingEmailVerification (uid : UID)
  | puttingData (data : D) (uid : UID)
  | gettingURL (uid : UID)
  | stopped
  deriving DecidableEq, Repr

/-- The state: the accounts, the profiles, the objects, who is signed in on the
    device, the form, how far the sign-up has got, the alert shown last, and the form
    as it was when the button was tapped. (The source does not keep the last.) -/
structure SignUp (D : Type) where
  accounts : List Account
  users : UsersStore
  objects : Objects D
  currentUser : Option UID
  form : Form D
  stage : Stage D
  alert : Option String
  requested : Form D

/-- Each step completes, with an error or without. The profile is saved, or not, as
    soon as there is a URL. -/
inductive SignUpReply
  | createUserCompleted (error : Option String)
  | sendEmailVerificationCompleted (error : Option String)
  | putDataCompleted (error : Option String)
  | downloadURLCompleted (url : Except String String) (saveError : Option String)

/-- What happens once the button has been tapped: the form is edited, and steps
    complete. -/
inductive SignUpEvent (D : Type)
  | edit (form : Form D)
  | completed (reply : SignUpReply)

namespace CreateAccountController

/-- The characters `.` does not match: from line feed to carriage return, and others. -/
def isLineTerminator (c : Char) : Bool :=
  '\n' ≤ c ∧ c ≤ '\r' ∨ c = '\u0085' ∨ c = '\u2028' ∨ c = '\u2029'

/-- A password has a lowercase and an uppercase letter, a digit and a symbol, and
    six to twenty characters. -/
def checkPasswordForComplexity (password : String) : Bool :=
  let chars := password.toList
  chars.any (fun c => 'a' ≤ c ∧ c ≤ 'z') && chars.any (fun c => 'A' ≤ c ∧ c ≤ 'Z') &&
    chars.any (fun c => '0' ≤ c ∧ c ≤ '9') && chars.any (fun c => "$@#!%*?&".toList.contains c) &&
    6 ≤ chars.length && chars.length ≤ 20 && chars.all fun c => !isLineTerminator c

/-- What is wrong with the fields of the form, if anything is. Strings are compared
    by `same`: for the strings of the source, these are the canonically equivalent ones. -/
def validateFields (same : String → String → Bool)
    (name email password confirmPassword : String) : Option String :=
  if name.length = 0 ∨ email.length = 0 ∨ password.length = 0 ∨ confirmPassword.length = 0 then
    some "All fields are mandatory"
  else if ¬ same password confirmPassword then some "Passwords are not matching"
  else if ¬ checkPasswordForComplexity password then
    some ("Password is not strong enough. Password should have atleast one lowercase, " ++
      "one uppercase, one special symbol, minimum six characters and maximum 20 characters")
  else none

end CreateAccountController

namespace SignUp

variable {D : Type} (same : String → String → Bool) (uids : AutoId UID) (ids : AutoId DocID)

/-- The ids of users in use. -/
def usedUIDs (s : SignUp D) : List UID :=
  s.accounts.map Account.uid ++ s.users.docs.filterMap fun d => d.data.userID.required

/-- It stops, with an alert. -/
def stop (msg : String) (s : SignUp D) : SignUp D := { s with stage := .stopped, alert := some msg }

/-- The button is tapped: an account is requested if the fields are valid. -/
def createButtonTapped (s : SignUp D) : SignUp D :=
  match CreateAccountController.validateFields same s.form.name s.form.email s.form.password
    s.form.confirmPassword with
  | some message => { s with alert := some message }
  | none =>
    { s with stage := .creatingUser s.form.email s.form.password, requested := s.form }

/-- An account is created and its user signed in, if nobody has one with its e-mail. -/
def createUser (email password : String) (s : SignUp D) : SignUp D :=
  if email ∈ s.accounts.map Account.email then
    s.stop "The email address is already in use by another account."
  else
    let uid := uids.next s.usedUIDs
    { s with
      accounts := s.accounts ++ [⟨uid, email, password⟩]
      currentUser := some uid
      stage := .sendingEmailVerification uid }

/-- The mail has been sent: the picture is uploaded, if there is one. -/
def createUserAccountSuccess (uid : UID) (s : SignUp D) : SignUp D :=
  match s.form.profileImage with
  | some profilePicData => { s with stage := .puttingData profilePicData uid }
  | none => { s with stage := .stopped }

/-- There is a URL: the profile is made of what the form holds now, and saved. -/
def uploadSuccessFull (url : String) (saveError : Option String) (s : SignUp D) : SignUp D :=
  match s.currentUser with
  | none => { s with stage := .stopped }
  | some userID =>
    match saveError with
    | some msg => s.stop msg
    | none =>
      let user : UserModel := ⟨s.form.name, s.form.dob, url, userID, s.form.email⟩
      { s with
        users := DatabaseService.saveUserModel ids user s.users
        stage := .stopped
        alert := some "Welcome to YoYo. Login to proceed." }

/-- A step completes, which does nothing where it is not waited for. -/
def completed (s : SignUp D) : SignUpReply → SignUp D
  | .createUserCompleted error =>
    match s.stage, error with
    | .creatingUser _ _, some msg => s.stop msg
    | .creatingUser email password, none => s.createUser uids email password
    | _, _ => s
  | .sendEmailVerificationCompleted error =>
    match s.stage, error with
    | .sendingEmailVerification _, some msg => s.stop msg
    | .sendingEmailVerification uid, none => s.createUserAccountSuccess uid
    | _, _ => s
  | .putDataCompleted error =>
    match s.stage, error with
    | .puttingData _ _, some msg => s.stop msg
    | .puttingData data uid, none =>
      { s with
        objects := nextObjects s.objects (.uploadImageToStorage data "profile_pic" uid)
        stage := .gettingURL uid }
    | _, _ => s
  | .downloadURLCompleted url saveError =>
    match s.stage, url with
    | .gettingURL _, .error msg => s.stop msg
    | .gettingURL _, .ok url => s.uploadSuccessFull ids url saveError
    | _, _ => s

/-- The state after an event. -/
def next (s : SignUp D) : SignUpEvent D → SignUp D
  | .edit form => { s with form }
  | .completed reply => s.completed uids ids reply

/-- The button has been tapped. -/
def start (accounts : List Account) (users : UsersStore) (objects : Objects D)
    (currentUser : Option UID) (form : Form D) : SignUp D :=
  createButtonTapped same ⟨accounts, users, objects, currentUser, form, .notStarted, none, form⟩

/-- There is neither an account nor a profile that was not there before, or an
    account with the e-mail it was requested with and its only profile, with the
    e-mail and the name. -/
def AllOrNothing (accounts : List Account) (users : UsersStore) (s : SignUp D) : Prop :=
  (s.accounts = accounts ∧ s.users = users) ∨
  ∃ account, s.accounts = accounts ++ [account] ∧ account.email = s.requested.email ∧
    ∃ d u, s.users.query (profileOfUser account.uid) = [d] ∧ UserModel.decode d.data = some u ∧
      u.userID = account.uid ∧ u.userEmail = s.requested.email ∧ u.name = s.requested.name

/-- Once there is an account, the step succeeds: with a picture, when that is to
    be uploaded, and with the name and the e-mail requested, when the profile is saved. -/
def Completes (s : SignUp D) : SignUpEvent D → Prop
  | .edit _ | .completed (.createUserCompleted _) => True
  | .completed (.sendEmailVerificationCompleted error) =>
    ∀ uid, s.stage = .sendingEmailVerification uid → error = none ∧ s.form.profileImage.isSome
  | .completed (.putDataCompleted error) =>
    ∀ data uid, s.stage = .puttingData data uid → error = none
  | .completed (.downloadURLCompleted url saveError) =>
    ∀ uid, s.stage = .gettingURL uid → url.isOk ∧ saveError = none ∧
      s.form.name = s.requested.name ∧ s.form.email = s.requested.email

/-! ## How far it has got -/

variable {same uids ids} {accounts : List Account} {users : UsersStore} {uid : UID}
  {s : SignUp D}

/-- There is an account with the e-mail requested, of the user who is signed in
    now and has no profile. -/
structure HasAccount (accounts : List Account) (users : UsersStore) (uid : UID) (s : SignUp D) :
    Prop where
  created : ∃ password, s.accounts = accounts ++ [⟨uid, s.requested.email, password⟩]
  unsaved : s.users = users
  signedIn : s.currentUser = some uid
  noProfile : users.query (profileOfUser uid) = []

/-- What has been done at each stage. -/
def SoFar (accounts : List Account) (users : UsersStore) (s : SignUp D) : Prop :=
  match s.stage with
  | .notStarted => s.accounts = accounts ∧ s.users = users
  | .creatingUser email _ =>
    s.accounts = accounts ∧ s.users = users ∧ email = s.requested.email
  | .sendingEmailVerification uid | .puttingData _ uid | .gettingURL uid =>
    HasAccount accounts users uid s
  | .stopped => True

/-- A user whose id is not in use has no profile. -/
theorem query_next_usedUIDs (s : SignUp D) :
    s.users.query (profileOfUser (uids.next s.usedUIDs)) = [] := by
  refine List.filter_eq_nil_iff.2 fun d hd hprofile => ?_
  refine uids.next_notMem s.usedUIDs (List.mem_append_right _ (List.mem_filterMap.2 ⟨d, hd, ?_⟩))
  exact DocField.required_eq_some_iff.2 (DocField.is_iff.1 hprofile)

/-- Nothing is done where the creation fails, or before. -/
theorem allOrNothing_of_eq (haccounts : s.accounts = accounts) (husers : s.users = users) :
    s.AllOrNothing accounts users := .inl ⟨haccounts, husers⟩

namespace HasAccount

theorem accounts_ne (h : HasAccount accounts users uid s) : s.accounts ≠ accounts := by
  obtain ⟨password, hcreated⟩ := h.created
  rw [hcreated]
  exact fun hnone => List.cons_ne_nil _ _ (List.append_right_eq_self.1 hnone)

/-- The account is the only new one. -/
theorem uid_eq (h : HasAccount accounts users uid s) {account : Account}
    (haccount : s.accounts = accounts ++ [account]) : account.uid = uid := by
  obtain ⟨password, hcreated⟩ := h.created
  rw [hcreated, List.append_cancel_left_eq] at haccount
  rw [← (List.cons.inj haccount).1]

/-- An account without a profile is neither all nor nothing. -/
theorem not_allOrNothing (h : HasAccount accounts users uid s) :
    ¬ s.AllOrNothing accounts users := by
  rintro (⟨hnone, -⟩ | ⟨account, haccount, -, d, u, hquery, -⟩)
  · exact h.accounts_ne hnone
  · rw [h.uid_eq haccount, h.unsaved, h.noProfile] at hquery
    exact List.cons_ne_nil _ _ hquery.symm

/-- With the profile saved, it is all, if the profile is what was requested. -/
theorem allOrNothing_save (h : HasAccount accounts users uid s) {s' : SignUp D}
    (haccounts : s'.accounts = s.accounts) (hrequested : s'.requested = s.requested)
    {u : UserModel} (huid : u.userID = uid)
    (husers : s'.users = DatabaseService.saveUserModel ids u s.users) :
    s'.AllOrNothing accounts users ↔
      u.name = s.requested.name ∧ u.userEmail = s.requested.email := by
  have hsaved : s'.users.query (profileOfUser uid) = [⟨ids.next s.users.ids, u.encode⟩] := by
    rw [husers]
    refine Collection.query_addDocument_of_nil ids ?_ (h.unsaved ▸ h.noProfile)
    exact DocField.is_iff.2 (congrArg DocField.value huid)
  rw [AllOrNothing, haccounts, hrequested]
  constructor
  · rintro (⟨hnone, -⟩ | ⟨account, haccount, -, d, u', hquery, hdecode, -, hemail, hname⟩)
    · exact absurd hnone h.accounts_ne
    · rw [h.uid_eq haccount, hsaved] at hquery
      rw [← (List.cons.inj hquery).1, UserModel.decode_encode] at hdecode
      obtain rfl := Option.some.inj hdecode
      exact ⟨hname, hemail⟩
  · rintro ⟨hname, hemail⟩
    obtain ⟨password, hcreated⟩ := h.created
    exact .inr ⟨_, hcreated, rfl, _, u, hsaved, UserModel.decode_encode u, huid, hemail, hname⟩

end HasAccount

/-! ## Steps -/

/-- It does not depend on the form, the objects, the alert, or the stage. -/
theorem HasAccount.congr {s' : SignUp D} (h : HasAccount accounts users uid s)
    (haccounts : s'.accounts = s.accounts) (husers : s'.users = s.users)
    (hcurrentUser : s'.currentUser = s.currentUser) (hrequested : s'.requested = s.requested) :
    HasAccount accounts users uid s' where
  created := by rw [haccounts, hrequested]; exact h.created
  unsaved := husers.trans h.unsaved
  signedIn := hcurrentUser.trans h.signedIn
  noProfile := h.noProfile

theorem SoFar.edit (hs : s.SoFar accounts users) (form : Form D) :
    ({ s with form } : SignUp D).SoFar accounts users := by
  rw [SoFar] at hs ⊢
  simp only
  split at hs
  case h_6 => trivial
  case h_1 | h_2 => exact hs
  all_goals exact hs.congr rfl rfl rfl rfl

/-- A step has led to `s`, which is as its stage says, and it has not stopped half
    way exactly if `P`. -/
def Advances (accounts : List Account) (users : UsersStore) (P : Prop) (s : SignUp D) : Prop :=
  s.SoFar accounts users ∧ (P ↔ (s.stage = .stopped → s.AllOrNothing accounts users))

variable {P : Prop}

/-- It goes on. -/
theorem advances_of_running (hs : s.SoFar accounts users) (hrunning : s.stage ≠ .stopped)
    (hP : P) : s.Advances accounts users P :=
  ⟨hs, iff_of_true hP fun hstop => absurd hstop hrunning⟩

/-- It has stopped. -/
theorem advances_of_stopped (hstop : s.stage = .stopped)
    (hP : P ↔ s.AllOrNothing accounts users) : s.Advances accounts users P := by
  refine ⟨?_, by rwa [forall_prop_of_true hstop]⟩
  rw [SoFar, hstop]
  trivial

theorem HasAccount.advances_of_stopped (h : HasAccount accounts users uid s)
    (hstop : s.stage = .stopped) (hP : ¬ P) : s.Advances accounts users P :=
  SignUp.advances_of_stopped hstop (iff_of_false hP h.not_allOrNothing)

/-- A failure leaves an account without a profile. -/
theorem HasAccount.advances_stop (h : HasAccount accounts users uid s) (msg : String)
    (hP : ¬ P) : (s.stop msg).Advances accounts users P :=
  HasAccount.advances_of_stopped (h.congr rfl rfl rfl rfl) rfl hP

variable (same accounts users) in
/-- The tap itself has done nothing, and stopped nothing. -/
theorem soFar_start (objects : Objects D) (currentUser : Option UID) (form : Form D) :
    (start same accounts users objects currentUser form).SoFar accounts users ∧
      (start same accounts users objects currentUser form).stage ≠ .stopped := by
  rw [start, createButtonTapped]
  split
  · exact ⟨⟨rfl, rfl⟩, by simp⟩
  · exact ⟨⟨rfl, rfl, rfl⟩, by simp⟩

/-- Without an account there is nothing. -/
theorem SoFar.advances_stop {email password : String} (hs : s.SoFar accounts users)
    (hstage : s.stage = .creatingUser email password) (msg : String) :
    (s.stop msg).Advances accounts users True := by
  rw [SoFar, hstage] at hs
  exact advances_of_stopped rfl (iff_of_true trivial (allOrNothing_of_eq hs.1 hs.2.1))

theorem SoFar.advances_createUser {email password : String} (hs : s.SoFar accounts users)
    (hstage : s.stage = .creatingUser email password) :
    (s.createUser uids email password).Advances accounts users True := by
  rw [createUser]
  split
  · exact hs.advances_stop hstage _
  · rw [SoFar, hstage] at hs
    obtain ⟨haccounts, husers, hemail⟩ := hs
    refine advances_of_running ?_ (by simp) trivial
    exact ⟨⟨password, by rw [haccounts, hemail]⟩, husers, rfl, husers ▸ query_next_usedUIDs s⟩

theorem HasAccount.advances_createUserAccountSuccess (h : HasAccount accounts users uid s) :
    (s.createUserAccountSuccess uid).Advances accounts users s.form.profileImage.isSome := by
  rw [createUserAccountSuccess]
  cases s.form.profileImage with
  | some profilePicData =>
    exact advances_of_running (h.congr rfl rfl rfl rfl) (by simp) rfl
  | none =>
    exact HasAccount.advances_of_stopped (h.congr rfl rfl rfl rfl) rfl Bool.false_ne_true

/-- The profile is made of what the form holds now. -/
theorem HasAccount.advances_uploadSuccessFull (h : HasAccount accounts users uid s)
    (url : String) (saveError : Option String) :
    (s.uploadSuccessFull ids url saveError).Advances accounts users
      (saveError = none ∧ s.form.name = s.requested.name ∧ s.form.email = s.requested.email) := by
  rw [uploadSuccessFull, h.signedIn]
  cases saveError with
  | some msg => exact h.advances_stop msg fun h => Option.some_ne_none msg h.1
  | none =>
    refine SignUp.advances_of_stopped rfl ((and_iff_right rfl).trans (Iff.symm ?_))
    refine h.allOrNothing_save (u := ⟨s.form.name, s.form.dob, url, uid, s.form.email⟩) ?_ ?_ rfl
      rfl
    · rfl
    · rfl

theorem completes_sendEmailVerification_iff (hstage : s.stage = .sendingEmailVerification uid)
    (error : Option String) : s.Completes (.completed (.sendEmailVerificationCompleted error)) ↔
      error = none ∧ s.form.profileImage.isSome :=
  ⟨fun h => h uid hstage, fun h _ _ => h⟩

theorem completes_downloadURL_iff (hstage : s.stage = .gettingURL uid)
    (url : Except String String) (saveError : Option String) :
    s.Completes (.completed (.downloadURLCompleted url saveError)) ↔ url.isOk ∧ saveError = none ∧
      s.form.name = s.requested.name ∧ s.form.email = s.requested.email :=
  ⟨fun h => h uid hstage, fun h _ _ => h⟩

/-- While it is running, the steps completing are those that do not stop it half way. -/
theorem SoFar.advances (hs : s.SoFar accounts users) (hrunning : s.stage ≠ .stopped)
    (e : SignUpEvent D) :
    (s.next uids ids e).Advances accounts users (s.Completes e) := by
  rcases e with form | reply
  · exact advances_of_running (hs.edit form) hrunning trivial
  cases reply with
  | createUserCompleted error =>
    cases hstage : s.stage with
    | creatingUser email password =>
      cases error with
      | some msg =>
        simp only [next, completed, hstage]
        exact hs.advances_stop hstage msg
      | none =>
        simp only [next, completed, hstage]
        exact hs.advances_createUser hstage
    | _ =>
      simp only [next, completed, hstage]
      exact advances_of_running hs hrunning trivial
  | sendEmailVerificationCompleted error =>
    cases hstage : s.stage with
    | sendingEmailVerification uid =>
      have haccount : HasAccount accounts users uid s := by rwa [SoFar, hstage] at hs
      simp only [next, completed, hstage, completes_sendEmailVerification_iff hstage]
      cases error with
      | some msg => exact haccount.advances_stop msg fun h => Option.some_ne_none msg h.1
      | none => simpa using haccount.advances_createUserAccountSuccess
    | _ =>
      simp only [next, completed, hstage]
      exact advances_of_running hs hrunning fun uid h => absurd (hstage.symm.trans h) (by simp)
  | putDataCompleted error =>
    cases hstage : s.stage with
    | puttingData data uid =>
      have haccount : HasAccount accounts users uid s := by rwa [SoFar, hstage] at hs
      cases error with
      | some msg =>
        simp only [next, completed, hstage]
        exact haccount.advances_stop msg fun h => Option.some_ne_none msg (h data uid hstage)
      | none =>
        simp only [next, completed, hstage]
        exact advances_of_running (haccount.congr rfl rfl rfl rfl) (by simp) fun _ _ _ => rfl
    | _ =>
      simp only [next, completed, hstage]
      exact advances_of_running hs hrunning fun _ _ h => absurd (hstage.symm.trans h) (by simp)
  | downloadURLCompleted url saveError =>
    cases hstage : s.stage with
    | gettingURL uid =>
      have haccount : HasAccount accounts users uid s := by rwa [SoFar, hstage] at hs
      simp only [next, completed, hstage, completes_downloadURL_iff hstage]
      cases url with
      | error msg => exact haccount.advances_stop msg fun h => Bool.false_ne_true h.1
      | ok url =>
        simp only [Except.isOk, Except.toBool, true_and]
        exact haccount.advances_uploadSuccessFull url saveError
    | _ =>
      simp only [next, completed, hstage]
      exact advances_of_running hs hrunning fun uid h => absurd (hstage.symm.trans h) (by simp)

/-- Once stopped, it stays so. -/
theorem stage_next (hstop : s.stage = .stopped) (e : SignUpEvent D) :
    (s.next uids ids e).stage = .stopped := by
  rcases e with form | reply
  · exact hstop
  · cases reply <;> simp only [next, completed, hstop]

/-- Only the form changes then. -/
theorem allOrNothing_next (hstop : s.stage = .stopped) (e : SignUpEvent D) :
    (s.next uids ids e).AllOrNothing accounts users ↔ s.AllOrNothing accounts users := by
  rcases e with form | reply
  · exact Iff.rfl
  · cases reply <;> simp only [next, completed, hstop]

theorem completes_of_stopped (hstop : s.stage = .stopped) (e : SignUpEvent D) :
    s.Completes e := by
  rcases e with form | reply
  · trivial
  cases reply with
  | createUserCompleted => trivial
  | sendEmailVerificationCompleted | downloadURLCompleted =>
    exact fun uid h => absurd (hstop.symm.trans h) (by simp)
  | putDataCompleted => exact fun _ _ h => absurd (hstop.symm.trans h) (by simp)

/-- Every step does what its stage says. -/
theorem SoFar.next (hs : s.SoFar accounts users) (e : SignUpEvent D) :
    (s.next uids ids e).SoFar accounts users := by
  by_cases hstop : s.stage = .stopped
  · rw [SoFar, stage_next hstop e]
    trivial
  · exact (hs.advances hstop e).1

/-! ## Runs -/

variable (same uids ids)

/-- The ids of users put together, and a letter, are an id that is longer than any of them. -/
theorem length_lt_foldr {ids : List UID} {uid : UID} (h : uid ∈ ids) :
    uid.length < (ids.foldr (· ++ ·) "u").length := by
  induction ids with
  | nil => exact absurd h List.not_mem_nil
  | cons uid' ids ih =>
    rw [List.foldr_cons, String.length_append]
    rcases List.mem_cons.1 h with rfl | h
    · have hpos : ∀ ids : List UID, 0 < (ids.foldr (· ++ ·) "u").length := by
        intro ids
        induction ids with
        | nil => decide
        | cons uid ids ih =>
          rw [List.foldr_cons, String.length_append]
          exact Nat.add_pos_right _ ih
      exact Nat.lt_add_of_pos_right (hpos ids)
    · exact (ih h).trans_le (Nat.le_add_left _ _)

/-- Ids of users that are in use make up one that is not. -/
def longerUID : AutoId UID where
  next ids := ids.foldr (· ++ ·) "u"
  next_notMem _ h := (length_lt_foldr h).false

/-- Ann has filled in the form, with a picture, and tapped the button. -/
def annsSignUp : SignUp ℕ :=
  start (· == ·) [] .empty (fun _ => none) none
    ⟨"Ann", "ann@yoyo", "Secret1!", "Secret1!", 0, some 7⟩

/-- Everything succeeds. -/
def succeeding : List (SignUpEvent ℕ) :=
  [.completed (.createUserCompleted none), .completed (.sendEmailVerificationCompleted none),
    .completed (.putDataCompleted none), .completed (.downloadURLCompleted (.ok "ann.jpg") none)]

/-- The mail cannot be sent. -/
def unverified : List (SignUpEvent ℕ) :=
  [.completed (.createUserCompleted none),
    .completed (.sendEmailVerificationCompleted (some "Network error"))]

end SignUp

end YoYo.Accounts
