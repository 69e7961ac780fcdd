import Mathlib.Data.List.Basic
import YoYo.DocStore.Run
import YoYo.Profiles.Service

/-!
# Logging in

A user logs in with an e-mail and a password. Once he has, and his e-mail has
been verified, the device stores them, and a login screen loaded later signs him
in with those stored, if his biometrics match. Replies come after some time,
while the text fields may be edited, other sign-ins requested, and the app
launched anew. Accounts and their passwords change meanwhile, so any reply is
possible at any time.

What is stored is what the text fields hold at the reply, and only where nothing
is stored yet, so it stays what it is after the first sign-in. It is thus always
what was used last exactly if all sign-ins use what the fields held at the reply
to the first (`remembered_iff`).
-/

namespace YoYo.Accounts

open DocStore

/-- What a user logs in with, and what is stored of it. -/
structure Credential where
  email : String
  password : String
  deriving DecidableEq, Repr

/-- An alert. -/
structure Alert where
  title : String
  message : String
  deriving DecidableEq, Repr

/-- A login screen: its text fields, the credential it has fetched, whether it
    waits for the biometrics, and the sign-ins it has requested, as long as there
    is no reply. -/
structure LoginScreen where
  textFields : Credential
  activityIndicatorIsHidden : Bool
  credential : Option Credential
  evaluatesPolicy : Bool
  requests : List Credential
  alert : Option Alert
  deriving DecidableEq, Repr

/-- The credentials stored, in the order in which they were, and the login screens. -/
structure Logins where
  stored : List Credential
  screens : List LoginScreen
  deriving DecidableEq, Repr

/-- What happens: the app is launched, a login screen is loaded (where biometrics
    may be available), its fields are edited, its button is tapped, the biometrics
    are evaluated, with an error or without, and a request is replied to: by an
    error, or by whether the e-mail has been verified. Whatever fetches what is
    stored may fail to. -/
inductive LoginEvent
  | launched
  | viewDidLoad (fetches canEvaluatePolicy : Bool)
  | edit (i : ℕ) (textFields : Credential)
  | loginButtonTapped (i : ℕ)
  | policyEvaluated (i : ℕ) (error : Option String)
  | replied (i j : ℕ) (reply : Except String Bool) (fetches refetches : Bool)

namespace LoginViewController

/-- A screen before it is loaded. -/
def init : LoginScreen := ⟨⟨"", ""⟩, true, none, false, [], none⟩

/-- Fetching what is stored: the first credential, if there is any. -/
def fetchCredentials (fetches : Bool) (stored : List Credential) (s : LoginScreen) :
    LoginScreen :=
  if fetches then
    if stored.length > 0 then { s with credential := stored.head? } else s
  else { s with alert := some ⟨"Auto Login Failed", "Proceed with login"⟩ }

/-- Where there is a credential, the biometrics are evaluated if they are available. -/
def initiateAuthentication (fetches canEvaluatePolicy : Bool) (stored : List Credential)
    (s : LoginScreen) : LoginScreen :=
  let s := if s.credential = none then fetchCredentials fetches stored s else s
  if s.credential ≠ none then
    if canEvaluatePolicy then { s with evaluatesPolicy := true } else s
  else s

/-- The biometrics have been evaluated. -/
def policyEvaluated (error : Option String) (s : LoginScreen) : LoginScreen :=
  if s.evaluatesPolicy then
    let s := { s with evaluatesPolicy := false }
    match error with
    | some msg => { s with alert := some ⟨"Face authentication failed", msg⟩ }
    | none => { s with requests := s.requests ++ [s.credential.getD ⟨"", ""⟩] }
  else s

/-- The button is tapped: a sign-in is requested, unless a field is empty. -/
def loginButtonTapped (s : LoginScreen) : LoginScreen :=
  if s.textFields.email.length = 0 ∨ s.textFields.password.length = 0 then
    { s with
      alert := some ⟨"Login Attempted", "Please fill in both email and password to login"⟩ }
  else
    { s with
      activityIndicatorIsHidden := false
      requests := s.requests ++ [s.textFields] }

/-- A sign-in has failed. -/
def signInToUserAccountFailure (msg : String) (s : LoginScreen) : LoginScreen :=
  { s with alert := some ⟨"Login Failed", msg⟩, activityIndicatorIsHidden := true }

/-- A sign-in has succeeded: the text fields are stored, if nothing is that could
    be fetched. -/
def signInToUserAccountSuccess (isVerified fetches refetches : Bool) (stored : List Credential)
    (s : LoginScreen) : List Credential × LoginScreen :=
  if isVerified then
    let s := fetchCredentials fetches stored s
    if s.credential = none then
      let stored := stored ++ [s.textFields]
      (stored, { fetchCredentials refetches stored s with activityIndicatorIsHidden := true })
    else (stored, { s with activityIndicatorIsHidden := true })
  else (stored, { s with activityIndicatorIsHidden := true })

/-- Whose messages and friends are shown then: nobody's without a profile. -/
def createGlobalStateAndPerformSegue (userID : UID) (users : UsersStore) :
    Option (Doc DocID UserModel) := DatabaseService.fetchUserModel userID users

end LoginViewController

namespace Logins

/-- Before the app is launched first. -/
def init : Logins := ⟨[], []⟩

/-- The state after an event, which has none where it is not waited for. -/
def next (s : Logins) : LoginEvent → Logins
  | .launched => { s with screens := [] }
  | .viewDidLoad fetches canEvaluatePolicy =>
    { s with
      screens := s.screens ++ [LoginViewController.initiateAuthentication fetches canEvaluatePolicy
        s.stored LoginViewController.init] }
  | .edit i textFields =>
    { s with screens := s.screens.modify i fun screen => { screen with textFields } }
  | .loginButtonTapped i =>
    { s with screens := s.screens.modify i LoginViewController.loginButtonTapped }
  | .policyEvaluated i error =>
    { s with screens := s.screens.modify i (LoginViewController.policyEvaluated error) }
  | .replied i j reply fetches refetches =>
    match s.screens[i]? with
    | none => s
    | some screen =>
      if j < screen.requests.length then
        let screen := { screen with requests := screen.requests.eraseIdx j }
        match reply with
        | .error msg =>
          { s with
            screens := s.screens.set i (LoginViewController.signInToUserAccountFailure msg screen) }
        | .ok isVerified =>
          let (stored, screen) := LoginViewController.signInToUserAccountSuccess isVerified fetches
            refetches s.stored screen
          ⟨stored, s.screens.set i screen⟩
      else s

/-- The credential a screen loaded now would use. -/
def usedNext (s : Logins) : Option Credential :=
  (LoginViewController.initiateAuthentication true true s.stored
    LoginViewController.init).credential

/-- A sign-in that has succeeded: what was used for it, and what the text fields hold. -/
structure SignIn where
  used : Credential
  textFields : Credential
  deriving DecidableEq, Repr

/-- The successful sign-in of a user whose e-mail has been verified, if the event
    is the reply to one. -/
def signIn (s : Logins) : LoginEvent → Option SignIn
  | .replied i j reply _ _ =>
    match s.screens[i]?, reply with
    | some screen, .ok true => screen.requests[j]?.map fun used => ⟨used, screen.textFields⟩
    | _, _ => none
  | _ => none

/-- The successful sign-ins of a run. -/
def signIns : Logins → List LoginEvent → List SignIn
  | _, [] => []
  | s, e :: es => (s.signIn e).toList ++ signIns (s.next e) es

/-- After a successful sign-in, what was used for it is used next, and otherwise
    what is stored does not change. -/
def Remembers (s : Logins) (e : LoginEvent) : Prop :=
  match s.signIn e with
  | some x => (s.next e).usedNext = some x.used
  | none => (s.next e).stored = s.stored

/-! ## Steps -/

variable {s : Logins} {stored : List Credential} {screen : LoginScreen}

theorem usedNext_eq (s : Logins) : s.usedNext = s.stored.head? := by
  rw [usedNext]
  cases s.stored with
  | nil => rfl
  | cons c stored => rfl

/-- Every screen with a credential has fetched it: there are some stored. -/
def Fetched (s : Logins) : Prop := ∀ screen ∈ s.screens, screen.credential ≠ none → s.stored ≠ []

theorem fetched_init : init.Fetched := fun _ h => absurd h List.not_mem_nil

/-- A credential is fetched from what is stored. -/
theorem fetchCredentials_ne_none {fetches : Bool}
    (h : (LoginViewController.fetchCredentials fetches stored screen).credential ≠ none) :
    stored ≠ [] ∨ screen.credential ≠ none := by
  rw [LoginViewController.fetchCredentials] at h
  split_ifs at h with hfetches hlen
  · exact .inl (List.ne_nil_of_length_pos hlen)
  · exact .inr h
  · exact .inr h

theorem initiateAuthentication_ne_none {fetches canEvaluatePolicy : Bool}
    (h : (LoginViewController.initiateAuthentication fetches canEvaluatePolicy stored
      LoginViewController.init).credential ≠ none) : stored ≠ [] := by
  have hfetched : (LoginViewController.fetchCredentials fetches stored
      LoginViewController.init).credential ≠ none := by
    rw [LoginViewController.initiateAuthentication] at h
    simp only [LoginViewController.init, if_true] at h ⊢
    split_ifs at h with hne hcan <;> assumption
  exact (fetchCredentials_ne_none hfetched).resolve_right fun h => h rfl

/-- Elements of a list modified somewhere. -/
theorem exists_of_mem_modify {α : Type} {f : α → α} {l : List α} {i : ℕ} {a : α}
    (h : a ∈ l.modify i f) : ∃ b ∈ l, a = b ∨ a = f b := by
  obtain ⟨j, hj⟩ := List.mem_iff_getElem?.1 h
  rw [List.getElem?_modify] at hj
  obtain ⟨b, hb, rfl⟩ := Option.map_eq_some_iff.1 hj
  refine ⟨b, List.mem_of_getElem? hb, ?_⟩
  split_ifs with hij
  · exact .inr rfl
  · exact .inl rfl

/-- What does not change the credential of a screen. -/
theorem Fetched.modify (hs : s.Fetched) (i : ℕ) {f : LoginScreen → LoginScreen}
    (hf : ∀ screen, (f screen).credential = screen.credential) :
    ({ s with screens := s.screens.modify i f } : Logins).Fetched := by
  intro screen hscreen hne
  obtain ⟨screen, hmem, rfl | rfl⟩ := exists_of_mem_modify hscreen
  · exact hs screen hmem hne
  · exact hs screen hmem (hf screen ▸ hne)

theorem credential_loginButtonTapped (screen : LoginScreen) :
    (LoginViewController.loginButtonTapped screen).credential = screen.credential := by
  rw [LoginViewController.loginButtonTapped]
  split_ifs <;> rfl

theorem credential_policyEvaluated (error : Option String) (screen : LoginScreen) :
    (LoginViewController.policyEvaluated error screen).credential = screen.credential := by
  rw [LoginViewController.policyEvaluated]
  split_ifs
  · cases error <;> rfl
  · rfl

theorem textFields_fetchCredentials (fetches : Bool) (stored : List Credential)
    (screen : LoginScreen) :
    (LoginViewController.fetchCredentials fetches stored screen).textFields =
      screen.textFields := by
  rw [LoginViewController.fetchCredentials]
  split_ifs <;> rfl

/-- After a successful sign-in something is stored, and the first credential stored
    is the one before, if there was one. -/
theorem stored_signInToUserAccountSuccess (fetches refetches : Bool)
    (hscreen : screen.credential ≠ none → stored ≠ []) :
    (LoginViewController.signInToUserAccountSuccess true fetches refetches stored screen).1 ≠ [] ∧
      (LoginViewController.signInToUserAccountSuccess true fetches refetches stored
        screen).1.head? = (stored ++ [screen.textFields]).head? := by
  rw [LoginViewController.signInToUserAccountSuccess, if_pos rfl]
  simp only [textFields_fetchCredentials]
  split_ifs with hnone
  · exact ⟨List.append_ne_nil_of_right_ne_nil _ (List.cons_ne_nil _ _), rfl⟩
  · have hne : stored ≠ [] := (fetchCredentials_ne_none hnone).elim id hscreen
    exact ⟨hne, (List.head?_append_of_ne_nil stored hne).symm⟩

/-- A screen that has been replied to has fetched its credential. -/
theorem Fetched.set (hs : s.Fetched) (i : ℕ) (hstored : s.stored ≠ [] → stored ≠ [])
    (hscreen : screen.credential ≠ none → stored ≠ []) :
    (⟨stored, s.screens.set i screen⟩ : Logins).Fetched := by
  intro screen' hmem hne
  rcases List.mem_or_eq_of_mem_set hmem with hmem | rfl
  · exact hstored (hs screen' hmem hne)
  · exact hscreen hne

/-- What a step stores first: nothing new, unless it is a successful sign-in, which
    stores what the text fields hold if nothing is stored yet. -/
def StoresFirst (s : Logins) (e : LoginEvent) : Prop :=
  match s.signIn e with
  | none => (s.next e).stored = s.stored
  | some x => (s.next e).stored.head? = (s.stored ++ [x.textFields]).head?

theorem Fetched.step (hs : s.Fetched) (e : LoginEvent) :
    (s.next e).Fetched ∧ s.StoresFirst e := by
  cases e with
  | launched => exact ⟨fun _ h => absurd h List.not_mem_nil, rfl⟩
  | viewDidLoad fetches canEvaluatePolicy =>
    refine ⟨fun screen hmem hne => ?_, rfl⟩
    rcases List.mem_append.1 hmem with hmem | hmem
    · exact hs screen hmem hne
    · obtain rfl := List.mem_singleton.1 hmem
      exact initiateAuthentication_ne_none hne
  | edit i textFields =>
    exact ⟨hs.modify i fun _ => rfl, rfl⟩
  | loginButtonTapped i =>
    exact ⟨hs.modify i credential_loginButtonTapped, rfl⟩
  | policyEvaluated i error =>
    exact ⟨hs.modify i (credential_policyEvaluated error), rfl⟩
  | replied i j reply fetches refetches =>
    cases hi : s.screens[i]? with
    | none =>
      simp only [StoresFirst, next, signIn, hi]
      exact ⟨hs, trivial⟩
    | some screen =>
      have hscreen := hs screen (List.mem_of_getElem? hi)
      by_cases hj : j < screen.requests.length
      · cases reply with
        | error msg =>
          simp only [StoresFirst, next, signIn, hi, if_pos hj]
          exact ⟨hs.set i id hscreen, trivial⟩
        | ok isVerified =>
          simp only [StoresFirst, next, signIn, hi, if_pos hj]
          cases isVerified with
          | false => exact ⟨hs.set i id hscreen, rfl⟩
          | true =>
            obtain ⟨hne, hhead⟩ := @stored_signInToUserAccountSuccess s.stored
              { screen with requests := screen.requests.eraseIdx j } fetches refetches hscreen
            simp only [List.getElem?_eq_getElem hj, Option.map_some]
            exact ⟨hs.set i (fun _ => hne) fun _ => hne, hhead⟩
      · have hnone : screen.requests[j]? = none := List.getElem?_eq_none (not_lt.1 hj)
        have hsignIn : s.signIn (.replied i j reply fetches refetches) = none := by
          rcases reply with msg | _ | _
          · simp only [signIn, hi]
          · simp only [signIn, hi]
          · simp only [signIn, hi, hnone, Option.map_none]
        have hnext : s.next (.replied i j reply fetches refetches) = s := by
          simp only [Logins.next, hi, if_neg hj]
        rw [StoresFirst, hsignIn, hnext]
        exact ⟨hs, rfl⟩

/-! ## Runs -/

/-- The first of what is stored, and of what is stored later. -/
theorem head?_append_congr {stored stored' : List Credential} (h : stored.head? = stored'.head?)
    (later : List Credential) : (stored ++ later).head? = (stored' ++ later).head? := by
  rw [List.head?_append, List.head?_append, h]

/-- What was used last is used next exactly if all sign-ins use what is stored
    first, from any state. -/
theorem remembers_iff_of_fetched (hs : s.Fetched) (es : List LoginEvent) :
    AllSteps next Remembers s es ↔
      ∀ x ∈ signIns s es,
        some x.used = (s.stored ++ (signIns s es).map SignIn.textFields).head? := by
  induction es generalizing s with
  | nil => simp [signIns]
  | cons e es ih =>
    obtain ⟨hnext, hfirst⟩ := hs.step e
    rw [StoresFirst] at hfirst
    rw [allSteps_cons, ih hnext, Remembers, signIns]
    cases hsignIn : s.signIn e with
    | none =>
      rw [hsignIn] at hfirst
      rw [hfirst]
      exact and_iff_right rfl
    | some x =>
      -- What is stored first is so from now on, and `x` is to have used it.
      have hhead : (s.next e).stored.head? = (s.stored ++ [x.textFields]).head? := by
        rwa [hsignIn] at hfirst
      have hnonempty : ((s.next e).stored).head? =
          ((s.next e).stored ++ (signIns (s.next e) es).map SignIn.textFields).head? := by
        rw [List.head?_append, hhead, List.head?_append]
        cases s.stored.head? <;> rfl
      have hstored : (s.stored ++ ([x] ++ signIns (s.next e) es).map SignIn.textFields).head? =
          (s.next e).stored.head? := by
        rw [List.map_append, ← List.append_assoc, hnonempty]
        exact head?_append_congr hhead.symm _
      simp only [usedNext_eq, Option.toList_some, hstored, ← hnonempty]
      rw [List.forall_mem_append, List.forall_mem_singleton, eq_comm]

/-- **Login remembers what was used last** in exactly the runs in which every
    successful sign-in uses what the text fields hold at the reply to the first. -/
theorem remembered_iff (es : List LoginEvent) :
    AllSteps next Remembers init es ↔
      ∀ x ∈ signIns init es, ∀ first ∈ (signIns init es).head?, x.used = first.textFields := by
  rw [remembers_iff_of_fetched fetched_init]
  change (∀ x ∈ signIns init es, some x.used = ((signIns init es).map SignIn.textFields).head?) ↔ _
  cases signIns init es with
  | nil => simp
  | cons first rest => simp

/-- Ann logs in, resets her password, and logs in with the new one. -/
def passwordReset : List LoginEvent :=
  [.launched, .viewDidLoad true true, .edit 0 ⟨"ann@yoyo", "Secret1!"⟩, .loginButtonTapped 0,
    .replied 0 0 (.ok true) true true, .launched, .viewDidLoad true true,
    .edit 0 ⟨"ann@yoyo", "Secret2!"⟩, .loginButtonTapped 0, .replied 0 0 (.ok true) true true]

/-- The old password stays stored, and is used next. -/
theorem not_remembers_passwordReset :
    ¬ AllSteps next Remembers init passwordReset ∧
      (after next init passwordReset).usedNext = some ⟨"ann@yoyo", "Secret1!"⟩ := by
  constructor
  · intro h
    have hlast := allSteps_iff_forall.1 h _ _ [] (List.dropLast_append_getLast
      (List.cons_ne_nil _ _)).symm
    exact absurd (Option.some.inj hlast) (by decide)
  · decide

end Logins

end YoYo.Accounts
