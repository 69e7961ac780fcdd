import Mathlib.Data.Set.BooleanAlgebra
import Mathlib.Order.CompletePartialOrder
import YoYo.Uploads.Cloud

/-!
# Who is who

A profile is saved at the end of a sign-up, and is afterwards only ever written with
another name or picture: whatever fails, and however calls of different devices are
interleaved, what it says of its user otherwise stays what it said first.

It is saved for whoever is signed in on the device then, which is meant to be the
user of the account the sign-up has created. If on every device nobody taps the
button of a form, logs in or logs out while a sign-up is running there, he is: each
sign-up gets an id that nobody has, and keeps it, even if those of other devices go
on at once. So then every profile is the one of a user with an account, and a user
has one profile at most (`profiles_unique`); but if the button is tapped again, he
may get the one of the other account, too.
-/

namespace YoYo.Uploads

open DocStore Storage Accounts Profiles

/-- What a profile says of its user, but for his name and his picture. -/
structure Identity where
  userID : UID
  dob : Date
  userEmail : String
  deriving DecidableEq, Repr

/-- The identity of a profile. -/
def identity (u : UserModel) : Identity := ⟨u.userID, u.dob, u.userEmail⟩

/-- The identity a document says, with its id. -/
def identityOf (d : Doc DocID UserDoc) : Option (DocID × Identity) :=
  (UserModel.decode d.data).map fun u => (d.id, identity u)

/-- The identities stored. -/
def identities (users : UsersStore) : List (DocID × Identity) := users.docs.filterMap identityOf

variable {D : Type} {isURL : String → Bool} {same : String → String → Bool}
  {reference : String → List Char} {uids : AutoId UID} {ids : AutoId DocID}
  {users users' : UsersStore} {known known' : Set (DocID × Identity)}
  {u : UserModel} {uid : UID} {x : DocID × Identity}

theorem identityOf_encode (id : DocID) (u : UserModel) :
    identityOf ⟨id, u.encode⟩ = some (id, identity u) := by
  rw [identityOf, UserModel.decode_encode]
  rfl

theorem mem_identities :
    x ∈ identities users ↔ ∃ d ∈ users.docs, ∃ u, UserModel.decode d.data = some u ∧
      x = (d.id, identity u) := by
  rw [identities, List.mem_filterMap]
  refine exists_congr fun d => and_congr_right fun _ => ?_
  rw [identityOf, Option.map_eq_some_iff]
  exact exists_congr fun u => and_congr_right fun _ => eq_comm

/-! ## Changes of profiles -/

/-- What a change of a profile may be answered by: documents of known identities. -/
def KnownAnswer (known : Set (DocID × Identity)) : (c : UsersCall) → Answer c → Prop
  | .getDocuments _, some documents =>
    ∀ d ∈ documents, ∀ u, UserModel.decode d.data = some u → (d.id, identity u) ∈ known
  | .getDocuments _, none | .addDocument _, _ | .setData _ _, _ => True

/-- What it may do: write a profile of the identity known for its document. -/
def KeepsIdentity (known : Set (DocID × Identity)) : UsersCall → Prop
  | .getDocuments _ => True
  | .addDocument _ => False
  | .setData id d => ∃ u, d = u.encode ∧ (id, identity u) ∈ known

/-- The change keeps identities. -/
abbrev Keeps (prog : UsersProg) (known : Set (DocID × Identity)) : Prop :=
  prog.Along KnownAnswer KeepsIdentity (fun _ _ => True) known

theorem Keeps.mono {prog : UsersProg} (h : Keeps prog known) (hle : known ≤ known') :
    Keeps prog known' := by
  refine Prog.Along.mono (fun c hle hc => ?_) (fun _ _ _ => trivial) h hle
  cases c with
  | getDocuments uid => trivial
  | addDocument d => exact hc
  | setData id d =>
    obtain ⟨u, hd, hmem⟩ := hc
    exact ⟨u, hd, hle hmem⟩

/-- A change of anything but the identity. -/
theorem Keeps.updateUserModel {set : UserModel → UserModel}
    (hset : ∀ u, identity (set u) = identity u) (uid : UID) :
    Keeps (DatabaseService.updateUserModel set uid) known := by
  refine ⟨trivial, fun known' _ documents hdocuments => ?_⟩
  cases documents with
  | none => trivial
  | some documents =>
    simp only
    split
    · trivial
    · rename_i myProfile hmyProfile
      obtain ⟨d, hd, hdecode⟩ := List.mem_filterMap.1 (List.mem_of_mem_head? hmyProfile)
      obtain ⟨u, hu, rfl⟩ := Option.map_eq_some_iff.1 hdecode
      refine ⟨⟨set u, rfl, ?_⟩, fun _ _ _ _ => trivial⟩
      rw [hset]
      exact hdocuments d (List.mem_of_mem_take hd) u hu

/-- The changes in progress on a picture. -/
def PhotoKeeps (known : Set (DocID × Identity)) : PhotoStage D → Prop
  | .updatingProfile prog => Keeps prog known
  | .removingImage _ _ | .puttingData _ | .gettingURL | .uploadImageStatus _ _ | .trapped => True

theorem PhotoKeeps.mono {stage : PhotoStage D} (h : PhotoKeeps known stage)
    (hle : known ≤ known') : PhotoKeeps known' stage := by
  cases stage with
  | updatingProfile prog => exact Keeps.mono h hle
  | _ => trivial

/-- All documents are profiles. -/
def Decoded (users : UsersStore) : Prop := ∀ d ∈ users.docs, (UserModel.decode d.data).isSome

theorem Decoded.setData (h : Decoded users) (id : DocID) (u : UserModel) :
    Decoded (users.setData id u.encode) := by
  intro d hd
  rcases Collection.mem_setData.1 hd with rfl | ⟨hd, -⟩
  · rw [UserModel.decode_encode]
    rfl
  · exact h d hd

/-- A profile that is written with the identity it has. -/
theorem identities_setData {id : DocID} (hmem : (id, identity u) ∈ identities users) :
    identities (users.setData id u.encode) = identities users := by
  obtain ⟨d, hd, v, hdecode, heq⟩ := mem_identities.1 hmem
  obtain ⟨hid, hidentity⟩ := Prod.mk.inj heq
  subst hid
  refine Collection.filterMap_setData (b := d.data) hd ?_
  rw [identityOf_encode, identityOf, hdecode, Option.map_some, hidentity]

variable (ids) in
/-- What a change does, and is answered. -/
theorem Decoded.answer (h : Decoded users) (success : Bool) {c : UsersCall}
    (hc : KeepsIdentity {x | x ∈ identities users} c) :
    KnownAnswer {x | x ∈ identities users} c
        (Call.answer ids profileOfUser success users c).1 ∧
      identities (Call.answer ids profileOfUser success users c).2 = identities users ∧
      Decoded (Call.answer ids profileOfUser success users c).2 := by
  cases c with
  | getDocuments uid =>
    refine ⟨?_, rfl, h⟩
    cases success with
    | false => trivial
    | true => exact fun d hd u hu => mem_identities.2 ⟨d, (Collection.mem_query.1 hd).1, u, hu, rfl⟩
  | addDocument d => exact hc.elim
  | setData id d =>
    obtain ⟨u, rfl, hmem⟩ := hc
    refine ⟨trivial, ?_⟩
    cases success with
    | false => exact ⟨rfl, h⟩
    | true => exact ⟨identities_setData hmem, h.setData id u⟩

theorem photoKeeps_updatingProfile {prog : UsersProg} (h : Keeps prog known)
    (error : Option String) :
    PhotoKeeps known (SettingsService.updatingProfile error prog : PhotoStage D) := by
  rw [SettingsService.updatingProfile.eq_def]
  split
  · cases error <;> trivial
  · trivial
  · exact h

variable (reference ids) in
/-- A step of the change of a picture. -/
theorem Decoded.replied (objects : Objects D) {stage : PhotoStage D} (h : Decoded users)
    (hstage : PhotoKeeps {x | x ∈ identities users} stage) (uid : UID) (reply : PhotoReply) :
    PhotoKeeps {x | x ∈ identities users}
        (SettingsService.replied reference ids uid ⟨objects, users⟩ stage reply).1 ∧
      identities (SettingsService.replied reference ids uid ⟨objects, users⟩ stage reply).2.users =
        identities users ∧
      Decoded (SettingsService.replied reference ids uid ⟨objects, users⟩ stage reply).2.users := by
  rw [SettingsService.replied.eq_def]
  split
  · split <;> exact ⟨trivial, rfl, h⟩
  · exact ⟨trivial, rfl, h⟩
  · exact ⟨trivial, rfl, h⟩
  · exact ⟨trivial, rfl, h⟩
  · -- The profile is to be updated with its URL.
    rename_i url
    refine ⟨?_, rfl, h⟩
    change Keeps (DatabaseService.updateProfileURL uid url) {x | x ∈ identities users}
    refine Keeps.updateUserModel (fun u => ?_) uid
    rfl
  · rename_i c k error
    obtain ⟨hanswer, husers⟩ := h.answer ids error.isNone hstage.1
    exact ⟨photoKeeps_updatingProfile (hstage.2 _ le_rfl _ hanswer) error, husers⟩
  · exact ⟨hstage, rfl, h⟩

/-! ## Signing up -/

/-- If both attempts are running, they are on different devices, and of different users. -/
def Apart (a a' : Attempt D) : Prop :=
  a.stage.running = true → a'.stage.running = true →
    a.screen.device ≠ a'.screen.device ∧ ∀ uid, a.stage.uid = some uid → a'.stage.uid ≠ some uid

/-- No two of the attempts are running on one device, or of one user. -/
def AllApart (attempts : List (Attempt D)) : Prop :=
  ∀ (i j : ℕ) (a a' : Attempt D), i ≠ j → attempts[i]? = some a → attempts[j]? = some a' →
    Apart a a'

section

variable {attempts : List (Attempt D)} {a a' b : Attempt D} {i : ℕ}

theorem Apart.symm (h : Apart a a') : Apart a' a := fun hrunning' hrunning =>
  ⟨(h hrunning hrunning').1.symm,
    fun uid huid' huid => (h hrunning hrunning').2 uid huid huid'⟩

theorem AllApart.append_singleton (h : AllApart attempts)
    (hb : ∀ a ∈ attempts, Apart a b) : AllApart (attempts ++ [b]) := by
  intro i j a a' hij ha ha'
  rw [List.getElem?_append] at ha ha'
  split_ifs at ha ha' with hi hj hj
  · exact h i j a a' hij ha ha'
  · obtain rfl := List.mem_singleton.1 (List.mem_of_getElem? ha')
    exact hb a (List.mem_of_getElem? ha)
  · obtain rfl := List.mem_singleton.1 (List.mem_of_getElem? ha)
    exact (hb a' (List.mem_of_getElem? ha')).symm
  · have hi' := (List.getElem?_eq_some_iff.1 ha).1
    have hj' := (List.getElem?_eq_some_iff.1 ha').1
    rw [List.length_singleton] at hi' hj'
    omega

theorem AllApart.set (h : AllApart attempts)
    (hb : ∀ j a, j ≠ i → attempts[j]? = some a → Apart b a) : AllApart (attempts.set i b) := by
  intro j k a a' hjk ha ha'
  rw [List.getElem?_set] at ha ha'
  split_ifs at ha ha' with hj hlen hk hk hk
  · exact absurd (hj.symm.trans hk) hjk
  · cases ha
    exact hb k a' (Ne.symm hk) ha'
  · cases ha'
    exact (hb j a (Ne.symm hj) ha).symm
  · exact h j k a a' hjk ha ha'

/-- An attempt goes on, as the same user or as none. -/
theorem Apart.of_stage (h : Apart a a') (hdevice : b.screen = a.screen)
    (hrunning : b.stage.running = true → a.stage.running = true)
    (huid : ∀ uid, b.stage.uid = some uid → a.stage.uid = some uid) : Apart b a' :=
  fun hb ha' =>
    ⟨hdevice ▸ (h (hrunning hb) ha').1, fun uid h' => (h (hrunning hb) ha').2 uid (huid uid h')⟩

end

/-- The attempt is of a user who is signed in, and has an account but no profile. -/
structure Awaited (s : SigningUp D) (attempt : Attempt D) (uid : UID) : Prop where
  signedIn : s.currentUser attempt.screen.device = some uid
  account : uid ∈ s.accounts.map Account.uid
  noProfile : ∀ x ∈ identities s.users, x.2.userID ≠ uid

/-- Profiles are of users with accounts, one of each, and so are those still to be saved. -/
structure OneEach (s : SigningUp D) : Prop where
  owned : ∀ x ∈ identities s.users, x.2.userID ∈ s.accounts.map Account.uid
  unique : ((identities s.users).map fun x => x.2.userID).Nodup
  awaited : ∀ attempt ∈ s.attempts, ∀ uid, attempt.stage.uid = some uid → Awaited s attempt uid
  apart : AllApart s.attempts

/-- Nobody is signing up on the device. -/
def Idle (s : SigningUp D) (device : ℕ) : Prop :=
  ∀ attempt ∈ s.attempts, attempt.screen.device = device → attempt.stage.running = false

instance (s : SigningUp D) (device : ℕ) : Decidable (Idle s device) :=
  inferInstanceAs (Decidable (∀ attempt ∈ s.attempts, _ → _))

/-- On a device, nobody taps a button, or logs in or out, while somebody is signing up there. -/
def OneAtATime (s : SigningUp D) : SigningUpEvent D → Prop
  | .createButtonTapped screen => Idle s screen.device
  | .currentUserChanged device _ => Idle s device
  | .edit _ _ | .completed _ _ => True

instance (s : SigningUp D) : ∀ e, Decidable (OneAtATime s e)
  | .createButtonTapped screen => inferInstanceAs (Decidable (Idle s screen.device))
  | .currentUserChanged device _ => inferInstanceAs (Decidable (Idle s device))
  | .edit _ _ | .completed _ _ => .isTrue trivial

variable {s : SigningUp D}

theorem Idle.device_ne {device : ℕ} {attempt : Attempt D} (h : Idle s device)
    (hmem : attempt ∈ s.attempts) (hrunning : attempt.stage.running = true) :
    attempt.screen.device ≠ device := fun hdevice =>
  Bool.false_ne_true ((h attempt hmem hdevice).symm.trans hrunning)

variable (ids users u) in
/-- The identities once a profile has been saved: one more, somewhere among the others. -/
theorem identities_saveUserModel :
    (identities (DatabaseService.saveUserModel ids u users)).Perm
      ((ids.next users.ids, identity u) :: identities users) := by
  have hperm := (Collection.docs_addDocument_perm (c := users) ids u.encode).filterMap identityOf
  rw [List.filterMap_cons, identityOf_encode] at hperm
  exact hperm

namespace OneEach

/-- It is about the accounts, who is signed in, the attempts, and the identities. -/
theorem congr {s' : SigningUp D} (hs : OneEach s) (haccounts : s'.accounts = s.accounts)
    (husers : identities s'.users = identities s.users)
    (hcurrentUser : s'.currentUser = s.currentUser) (hattempts : s'.attempts = s.attempts) :
    OneEach s' := by
  refine ⟨?_, ?_, fun attempt hmem uid huid => ?_, hattempts ▸ hs.apart⟩
  · rw [husers, haccounts]
    exact hs.owned
  · rw [husers]
    exact hs.unique
  · obtain ⟨hsignedIn, haccount, hnone⟩ := hs.awaited attempt (hattempts ▸ hmem) uid huid
    exact ⟨hcurrentUser ▸ hsignedIn, haccounts ▸ haccount, husers ▸ hnone⟩

/-- Somebody logs in or out where nobody is signing up. -/
theorem currentUserChanged (hs : OneEach s) {device : ℕ} (hidle : Idle s device)
    (user : Option UID) :
    OneEach { s with currentUser := Function.update s.currentUser device user } := by
  refine ⟨hs.owned, hs.unique, fun attempt hmem uid huid => ?_, hs.apart⟩
  obtain ⟨hsignedIn, haccount, hnone⟩ := hs.awaited attempt hmem uid huid
  have hne := hidle.device_ne hmem (Stage.running_of_uid huid)
  exact ⟨(Function.update_of_ne hne _ _).trans hsignedIn, haccount, hnone⟩

theorem createButtonTapped (hs : OneEach s) {screen : Screen} (hidle : Idle s screen.device) :
    OneEach (s.createButtonTapped same screen) := by
  have hnew : ((s.signUp ⟨screen, .notStarted, s.forms screen⟩).createButtonTapped
      same).stage.uid = none := by
    rw [SignUp.createButtonTapped]
    split <;> rfl
  refine ⟨hs.owned, hs.unique, fun attempt hmem uid huid => ?_,
    hs.apart.append_singleton fun attempt hmem hrunning _ => ?_⟩
  · rcases List.mem_append.1 hmem with hmem | hmem
    · obtain ⟨hsignedIn, haccount, hnone⟩ := hs.awaited attempt hmem uid huid
      exact ⟨hsignedIn, haccount, hnone⟩
    · obtain rfl := List.mem_singleton.1 hmem
      cases hnew.symm.trans huid
  · exact ⟨hidle.device_ne hmem hrunning, fun uid _ huid => by cases hnew.symm.trans huid⟩

/-- An attempt has gone on: what has been written is of no other attempt's user, and
    who is signed in only changes while no other is running on the device. -/
theorem put (hs : OneEach s) {i : ℕ} {attempt : Attempt D}
    (hattempt : s.attempts[i]? = some attempt) {signUp : SignUp D}
    (haccounts : ∀ uid, uid ∈ s.accounts.map Account.uid → uid ∈ signUp.accounts.map Account.uid)
    (howned : ∀ x ∈ identities signUp.users, x.2.userID ∈ signUp.accounts.map Account.uid)
    (hunique : ((identities signUp.users).map fun x => x.2.userID).Nodup)
    (hcurrentUser : signUp.currentUser = s.currentUser attempt.screen.device ∨
      attempt.stage.running = true)
    (hothers : ∀ (j : ℕ) (a : Attempt D), j ≠ i → s.attempts[j]? = some a → ∀ uid,
      a.stage.uid = some uid → ∀ x ∈ identities signUp.users, x.2.userID ≠ uid)
    (hnew : ∀ uid, signUp.stage.uid = some uid → signUp.currentUser = some uid ∧
      uid ∈ signUp.accounts.map Account.uid ∧ ∀ x ∈ identities signUp.users, x.2.userID ≠ uid)
    (hapart : ∀ (j : ℕ) (a : Attempt D), j ≠ i → s.attempts[j]? = some a →
      Apart ⟨attempt.screen, signUp.stage, signUp.requested⟩ a) :
    OneEach (s.put i attempt.screen signUp) := by
  refine ⟨howned, hunique, fun a hmem uid huid => ?_, hs.apart.set hapart⟩
  obtain ⟨j, hj⟩ := List.mem_iff_getElem?.1 hmem
  change (s.attempts.set i ⟨attempt.screen, signUp.stage, signUp.requested⟩)[j]? = some a at hj
  rw [List.getElem?_set] at hj
  split_ifs at hj with hij
  · cases hj
    obtain ⟨hsignedIn, haccount, hnone⟩ := hnew uid huid
    exact ⟨(Function.update_self _ _ _).trans hsignedIn, haccount, hnone⟩
  · obtain ⟨hsignedIn, haccount, -⟩ := hs.awaited a (List.mem_of_getElem? hj) uid huid
    refine ⟨?_, haccounts uid haccount, hothers j a (Ne.symm hij) hj uid huid⟩
    change Function.update s.currentUser attempt.screen.device signUp.currentUser
      a.screen.device = some uid
    rcases hcurrentUser with hsame | hrunning
    · rwa [hsame, Function.update_eq_self]
    · have hne := (hs.apart i j attempt a hij hattempt hj hrunning (Stage.running_of_uid huid)).1
      rwa [Function.update_of_ne hne.symm]

section

variable {i j : ℕ} {attempt a : Attempt D} {signUp : SignUp D}

/-- No other attempt is one of the user of this one, or on its device, if both are running. -/
theorem apart_of_ne (hs : OneEach s) (hattempt : s.attempts[i]? = some attempt) (hj : j ≠ i)
    (ha : s.attempts[j]? = some a) : Apart attempt a :=
  hs.apart i j attempt a hj.symm hattempt ha

/-- The user of an attempt has no profile. -/
theorem noProfile (hs : OneEach s) (ha : s.attempts[j]? = some a) (huid : a.stage.uid = some uid) :
    ∀ x ∈ identities s.users, x.2.userID ≠ uid :=
  (hs.awaited a (List.mem_of_getElem? ha) uid huid).noProfile

/-- Nothing is stored but at most an object, and the user is the same, if there is one. -/
theorem put_waits (hs : OneEach s) (hattempt : s.attempts[i]? = some attempt)
    (haccounts : signUp.accounts = s.accounts) (husers : signUp.users = s.users)
    (hcurrentUser : signUp.currentUser = s.currentUser attempt.screen.device)
    (hrunning : signUp.stage.running = true → attempt.stage.running = true)
    (huid : ∀ uid, signUp.stage.uid = some uid → attempt.stage.uid = some uid) :
    OneEach (s.put i attempt.screen signUp) := by
  refine hs.put hattempt ?_ ?_ ?_ (.inl hcurrentUser) ?_ (fun uid h => ?_)
    fun j a hj ha => (hs.apart_of_ne hattempt hj ha).of_stage rfl hrunning huid
  · rw [haccounts]
    exact fun _ => id
  · rw [haccounts, husers]
    exact hs.owned
  · rw [husers]
    exact hs.unique
  · rw [husers]
    exact fun j a _ ha uid huid => hs.noProfile ha huid
  · obtain ⟨hsignedIn, haccount, hnoProfile⟩ :=
      hs.awaited attempt (List.mem_of_getElem? hattempt) uid (huid uid h)
    rw [haccounts, husers]
    exact ⟨hcurrentUser.trans hsignedIn, haccount, hnoProfile⟩

/-- An account is created. Its id is that of no other, and so of no profile. -/
theorem put_creates (hs : OneEach s) (hattempt : s.attempts[i]? = some attempt)
    (hfresh : uid ∉ s.accounts.map Account.uid) {email password : String}
    (hrunning : attempt.stage.running = true)
    (haccounts : signUp.accounts = s.accounts ++ [⟨uid, email, password⟩])
    (husers : signUp.users = s.users) (hcurrentUser : signUp.currentUser = some uid)
    (huid : signUp.stage.uid = some uid) : OneEach (s.put i attempt.screen signUp) := by
  have hle : ∀ uid, uid ∈ s.accounts.map Account.uid →
      uid ∈ signUp.accounts.map Account.uid := fun uid hmem => by
    rw [haccounts, List.map_append]
    exact List.mem_append_left _ hmem
  have hsame : identities signUp.users = identities s.users := congrArg identities husers
  refine hs.put hattempt hle ?_ ?_ (.inr hrunning) ?_ (fun uid h => ?_)
    fun j a hj ha _ ha' =>
      ⟨(hs.apart_of_ne hattempt hj ha hrunning ha').1, fun uid h h' => ?_⟩
  · exact fun x hx => hle _ (hs.owned x (hsame ▸ hx))
  · exact hsame ▸ hs.unique
  · exact hsame ▸ fun j a _ ha uid huid => hs.noProfile ha huid
  · obtain rfl := Option.some.inj (huid.symm.trans h)
    refine ⟨hcurrentUser, ?_, fun x hx heq => hfresh (heq ▸ hs.owned x (hsame ▸ hx))⟩
    rw [haccounts, List.map_append]
    exact List.mem_append_right _ (List.mem_singleton.2 rfl)
  · obtain rfl := Option.some.inj (huid.symm.trans h)
    exact hfresh (hs.awaited a (List.mem_of_getElem? ha) _ h').account

/-- The profile is saved of a user nobody else is about to save one of. -/
theorem put_saves (hs : OneEach s) (hattempt : s.attempts[i]? = some attempt)
    (huid : attempt.stage.uid = some u.userID) (haccounts : signUp.accounts = s.accounts)
    (husers : signUp.users = DatabaseService.saveUserModel ids u s.users)
    (hcurrentUser : signUp.currentUser = s.currentUser attempt.screen.device)
    (hstop : signUp.stage = .stopped) : OneEach (s.put i attempt.screen signUp) := by
  have haccount := (hs.awaited attempt (List.mem_of_getElem? hattempt) _ huid).account
  have hperm := identities_saveUserModel ids s.users u
  rw [← congrArg identities husers] at hperm
  have hended : signUp.stage.uid = none := congrArg Stage.uid hstop
  refine hs.put hattempt ?_ (fun x hx => ?_) ?_ (.inl hcurrentUser)
    (fun j a hj ha uid h x hx => ?_) (fun uid h => by cases hended.symm.trans h)
    fun j a hj ha h => ?_
  · rw [haccounts]
    exact fun _ => id
  · rw [haccounts]
    rcases List.mem_cons.1 (hperm.mem_iff.1 hx) with rfl | hx
    · exact haccount
    · exact hs.owned x hx
  · refine (hperm.map fun x => x.2.userID).nodup_iff.2
      (List.nodup_cons.2 ⟨fun hmem => ?_, hs.unique⟩)
    obtain ⟨x, hx, heq⟩ := List.mem_map.1 hmem
    exact hs.noProfile hattempt huid x hx heq
  · rcases List.mem_cons.1 (hperm.mem_iff.1 hx) with rfl | hx
    · rintro rfl
      exact (hs.apart_of_ne hattempt hj ha (Stage.running_of_uid huid)
        (Stage.running_of_uid h)).2 _ huid h
    · exact hs.noProfile ha h x hx
  · rw [hstop] at h
    cases h

end

/-- A step of an attempt completes: what that does is done among all others. -/
theorem completed (hs : OneEach s) (i : ℕ) (reply : SignUpReply) :
    OneEach (s.completed uids ids i reply) := by
  rw [SigningUp.completed]
  split
  · rename_i attempt hattempt
    have hsigns := signs_completed uids ids (s.signUp attempt) reply
    generalize (s.signUp attempt).completed uids ids reply = signUp at hsigns ⊢
    have hrunning := hsigns.running
    rcases hsigns with ⟨haccounts, husers, hcurrentUser, hstage⟩ |
      ⟨email, password, hcreating, haccounts, husers, hcurrentUser, huid⟩ |
      ⟨uid, huid, u, hsignedIn, haccounts, husers, hcurrentUser, hstop⟩
    · refine hs.put_waits hattempt haccounts husers hcurrentUser hrunning fun uid huid => ?_
      rcases hstage with hsame | hstop | ⟨uid', huid', hsame⟩
      · exact (congrArg Stage.uid hsame).symm.trans huid
      · rw [hstop] at huid
        cases huid
      · exact huid'.trans (hsame.symm.trans huid)
    · have hfresh : uids.next (s.signUp attempt).usedUIDs ∉ s.accounts.map Account.uid :=
        fun hmem => uids.next_notMem _ (List.mem_append_left _ hmem)
      exact hs.put_creates hattempt hfresh (congrArg Stage.running hcreating) haccounts husers
        hcurrentUser huid
    · -- It is the profile of the user of the attempt, who is the one signed in.
      have hsignedIn' := (hs.awaited attempt (List.mem_of_getElem? hattempt) uid huid).signedIn
      obtain rfl := Option.some.inj (hsignedIn'.symm.trans hsignedIn)
      exact hs.put_saves hattempt huid haccounts husers hcurrentUser hstop
  · exact hs

theorem next (hs : OneEach s) {e : SigningUpEvent D} (he : OneAtATime s e) :
    OneEach (s.next same uids ids e) := by
  cases e with
  | currentUserChanged device user => exact hs.currentUserChanged he user
  | edit screen form => exact hs.congr rfl rfl rfl rfl
  | createButtonTapped screen => exact hs.createButtonTapped he
  | completed i reply => exact hs.completed i reply

end OneEach

/-! ## Runs -/

namespace Cloud

variable {st : Cloud D}

/-- The identities known. -/
def knownIdentities (st : Cloud D) : Set (DocID × Identity) := {x | x ∈ identities st.users.now}

/-- What the runs keep: identities stay, and all that is being done keeps them so. -/
structure Identified (st : Cloud D) : Prop where
  decoded : ∀ users ∈ st.users.seen, Decoded users
  stay : ∀ users ∈ st.users.seen, ∀ x ∈ identities users, x ∈ identities st.users.now
  changes : ∀ change ∈ st.changes, PhotoKeeps st.knownIdentities change.stage
  renames : ∀ prog ∈ st.renames, Keeps prog st.knownIdentities

theorem identified_init : (init : Cloud D).Identified where
  decoded users husers := by
    rw [Versions.mem_seen_init.1 husers]
    exact fun d hd => absurd hd List.not_mem_nil
  stay users husers x hx := by
    rw [Versions.mem_seen_init.1 husers] at hx
    exact absurd hx List.not_mem_nil
  changes _ hmem := absurd hmem List.not_mem_nil
  renames _ hmem := absurd hmem List.not_mem_nil

theorem oneEach_init : OneEach (init : Cloud D).signUps where
  owned _ hmem := absurd hmem List.not_mem_nil
  unique := List.nodup_nil
  awaited _ hmem := absurd hmem List.not_mem_nil
  apart _ _ _ _ _ ha := by cases ha

theorem Identified.decodedNow (hI : st.Identified) : Decoded st.users.now :=
  hI.decoded _ (Versions.now_mem_seen _)

/-- Both have the same accounts, profiles, devices, and changes of profiles. -/
structure SamePeople (st st' : Cloud D) : Prop where
  accounts : st'.accounts = st.accounts
  users : st'.users = st.users
  currentUser : st'.currentUser = st.currentUser
  attempts : st'.attempts = st.attempts
  changes : st'.changes = st.changes
  renames : st'.renames = st.renames

theorem SamePeople.identified {st' : Cloud D} (h : SamePeople st st') (hI : st.Identified) :
    st'.Identified := by
  obtain ⟨-, husers, -, -, hchanges, hrenames⟩ := h
  cases st
  cases st'
  subst husers hchanges hrenames
  exact ⟨hI.decoded, hI.stay, hI.changes, hI.renames⟩

theorem SamePeople.oneEach {st' : Cloud D} (h : SamePeople st st') (hs : OneEach st.signUps) :
    OneEach st'.signUps :=
  hs.congr h.accounts (congrArg (fun users => identities users.now) h.users) h.currentUser
    h.attempts

theorem samePeople_answered (st : Cloud D) (i : ℕ) (a : (c : UploadCall D) → UploadAnswer c) :
    SamePeople st (st.answered i a) := by
  rw [Cloud.answered.eq_def]
  split
  · rename_i post c k hposting
    have hperformed : SamePeople st (st.performed a c) := by
      cases c with
      | downloadURL | copyCGImage => exact ⟨rfl, rfl, rfl, rfl, rfl, rfl⟩
      | _ =>
        rw [Cloud.performed]
        split_ifs <;> exact ⟨rfl, rfl, rfl, rfl, rfl, rfl⟩
    exact ⟨hperformed.accounts, hperformed.users, hperformed.currentUser, hperformed.attempts,
      hperformed.changes, hperformed.renames⟩
  · exact ⟨rfl, rfl, rfl, rfl, rfl, rfl⟩
  · exact ⟨rfl, rfl, rfl, rfl, rfl, rfl⟩

theorem samePeople_written (st : Cloud D) (i : ℕ) (accepted : Bool) :
    SamePeople st (st.written ids i accepted) := by
  rw [Cloud.written]
  split
  · rename_i write hwrite
    cases accepted with
    | false => exact ⟨rfl, rfl, rfl, rfl, rfl, rfl⟩
    | true => cases write <;> exact ⟨rfl, rfl, rfl, rfl, rfl, rfl⟩
  · exact ⟨rfl, rfl, rfl, rfl, rfl, rfl⟩

/-- What is known stays known as long as identities stay. -/
theorem known_le (hsame : identities users' = identities users) :
    {x | x ∈ identities users} ≤ {x | x ∈ identities users'} := by
  rw [hsame]

/-- A new version of the profiles, with the identities there were. -/
theorem Identified.push (hI : st.Identified) (hdecoded : Decoded users)
    (hle : ∀ x ∈ identities st.users.now, x ∈ identities users) :
    { st with users := st.users.push users }.Identified := by
  refine ⟨fun users' husers' => ?_, fun users' husers' x hx => ?_,
    fun change hchange => (hI.changes change hchange).mono hle,
    fun prog hprog => (hI.renames prog hprog).mono hle⟩
  · rcases Versions.mem_seen_push.1 husers' with rfl | husers'
    · exact hdecoded
    · exact hI.decoded users' husers'
  · rcases Versions.mem_seen_push.1 husers' with rfl | husers'
    · exact hx
    · exact hle x (hI.stay users' husers' x hx)

/-- Those who sign up add identities at most. -/
theorem Identified.signingUp (hI : st.Identified) (e : SigningUpEvent D) :
    (st.signingUp same uids ids e).Identified := by
  have hpush : ∀ {users}, users = st.users.now ∨
      (∃ u, users = DatabaseService.saveUserModel ids u st.users.now) →
      { st with users := st.users.push users }.Identified := by
    rintro users (rfl | ⟨u, rfl⟩)
    · exact hI.push hI.decodedNow fun _ => id
    · exact hI.push (hI.decodedNow.setData _ u) fun x hx =>
        (identities_saveUserModel ids st.users.now u).mem_iff.2 (List.mem_cons_of_mem _ hx)
  suffices h : (st.signUps.next same uids ids e).users = st.users.now ∨
      ∃ u, (st.signUps.next same uids ids e).users =
        DatabaseService.saveUserModel ids u st.users.now by
    have hI' := hpush h
    exact ⟨hI'.decoded, hI'.stay, hI'.changes, hI'.renames⟩
  cases e with
  | currentUserChanged | edit | createButtonTapped => exact .inl rfl
  | completed i reply =>
    rw [SigningUp.next, SigningUp.completed]
    split
    · rename_i attempt hattempt
      rcases signs_completed uids ids (st.signUps.signUp attempt) reply with
        ⟨-, husers⟩ | ⟨_, _, -, -, husers⟩ | ⟨uid, -, u, -, -, husers⟩
      · exact .inl husers
      · exact .inl husers
      · exact .inr ⟨u, husers⟩
    · exact .inl rfl

theorem Identified.replied (hI : st.Identified) {i : ℕ} {reply : PhotoReply} :
    (st.replied reference ids i reply).Identified ∧
      identities (st.replied reference ids i reply).users.now = identities st.users.now := by
  rw [Cloud.replied]
  split
  · rename_i uid stage hchange
    obtain ⟨hstage, hsame, hdecoded⟩ := hI.decodedNow.replied reference ids st.objects
      (hI.changes _ (List.mem_of_getElem? hchange)) uid reply
    have hpush := hI.push hdecoded (known_le hsame)
    refine ⟨⟨hpush.decoded, hpush.stay, fun change hmem => ?_, hpush.renames⟩, hsame⟩
    rcases List.mem_or_eq_of_mem_set hmem with hmem | rfl
    · exact hpush.changes change hmem
    · exact hstage.mono (known_le hsame)
  · exact ⟨hI, rfl⟩

theorem Identified.renamed (hI : st.Identified) {i : ℕ} {success : Bool} :
    (st.renamed ids i success).Identified ∧
      identities (st.renamed ids i success).users.now = identities st.users.now := by
  rw [Cloud.renamed.eq_def]
  split
  · rename_i c k hprog
    have hkeeps := hI.renames _ (List.mem_of_getElem? hprog)
    obtain ⟨hanswer, hsame, hdecoded⟩ := hI.decodedNow.answer ids success hkeeps.1
    have hpush := hI.push hdecoded (known_le hsame)
    refine ⟨⟨hpush.decoded, hpush.stay, hpush.changes, fun prog hmem => ?_⟩, hsame⟩
    rcases List.mem_or_eq_of_mem_set hmem with hmem | rfl
    · exact hpush.renames prog hmem
    · exact Keeps.mono (hkeeps.2 _ le_rfl _ hanswer) (known_le hsame)
  · exact ⟨hI, rfl⟩
  · exact ⟨hI, rfl⟩

theorem Identified.next (hI : st.Identified) (e : CloudEvent D) :
    (st.next isURL same reference uids ids e).Identified := by
  cases e with
  | answered i a => exact (samePeople_answered st i a).identified hI
  | written i accepted => exact (samePeople_written st i accepted).identified hI
  | replied i reply => exact hI.replied.1
  | renamed i success => exact hI.renamed.1
  | signingUp e => exact hI.signingUp e
  | changeProfilePhoto uid imageData imageURL =>
    refine ⟨hI.decoded, hI.stay, fun change hmem => ?_, hI.renames⟩
    rcases List.mem_append.1 hmem with hmem | hmem
    · exact hI.changes change hmem
    · rw [List.mem_singleton.1 hmem]
      trivial
  | changeName uid name =>
    refine ⟨hI.decoded, hI.stay, hI.changes, fun prog hmem => ?_⟩
    rcases List.mem_append.1 hmem with hmem | hmem
    · exact hI.renames prog hmem
    · rw [List.mem_singleton.1 hmem]
      refine Keeps.updateUserModel (fun u => ?_) uid
      rfl
  | post | addViews | changeMessageStatusToSeen | updateMessageToSeen =>
    exact ⟨hI.decoded, hI.stay, hI.changes, hI.renames⟩

/-- So where users sign up, and nothing else is about it. -/
def OneAtATime (st : Cloud D) : CloudEvent D → Prop
  | .signingUp e => Uploads.OneAtATime st.signUps e
  | _ => True

instance (st : Cloud D) : ∀ e, Decidable (st.OneAtATime e)
  | .signingUp e => inferInstanceAs (Decidable (Uploads.OneAtATime st.signUps e))
  | .post _ | .answered _ _ | .written _ _ | .addViews _ _ | .changeMessageStatusToSeen _ _
  | .updateMessageToSeen _ _ | .changeProfilePhoto _ _ _ | .replied _ _ | .changeName _ _
  | .renamed _ _ => .isTrue trivial

/-- There stays one profile of each user at most. -/
theorem Identified.oneEach_next (hI : st.Identified) (hs : OneEach st.signUps) {e : CloudEvent D}
    (he : st.OneAtATime e) : OneEach (st.next isURL same reference uids ids e).signUps := by
  cases e with
  | answered i a => exact (samePeople_answered st i a).oneEach hs
  | written i accepted => exact (samePeople_written st i accepted).oneEach hs
  | replied i reply =>
    have hsame : identities (st.replied reference ids i reply).users.now =
        identities st.users.now := hI.replied.2
    refine hs.congr ?_ hsame ?_ ?_ <;>
    · rw [Cloud.next, Cloud.replied]
      split <;> rfl
  | renamed i success =>
    have hsame : identities (st.renamed ids i success).users.now = identities st.users.now :=
      hI.renamed.2
    refine hs.congr ?_ hsame ?_ ?_ <;>
    · rw [Cloud.next, Cloud.renamed.eq_def]
      split <;> rfl
  | signingUp e => exact (hs.next he).congr rfl rfl rfl rfl
  | _ => exact hs.congr rfl rfl rfl rfl

variable (uid) in
/-- If profiles are one of each user, so are the documents a query for one finds. -/
theorem Identified.length_query_le (hI : st.Identified) (hs : OneEach st.signUps) :
    (st.users.now.query (profileOfUser uid)).length ≤ 1 := by
  have hidentity : ∀ {d}, d ∈ st.users.now.query (profileOfUser uid) →
      ∃ x ∈ identities st.users.now, x.1 = d.id ∧ x.2.userID = uid := by
    intro d hd
    obtain ⟨hmem, hprofile⟩ := Collection.mem_query.1 hd
    obtain ⟨u, hu⟩ := Option.isSome_iff_exists.1 (hI.decodedNow d hmem)
    refine ⟨(d.id, identity u), mem_identities.2 ⟨d, hmem, u, hu, rfl⟩, rfl, ?_⟩
    refine DocField.value.inj ((UserModel.userID_of_decode hu).symm.trans ?_)
    exact DocField.is_iff.1 hprofile
  have hsorted := Collection.sorted_query st.users.now (profileOfUser uid)
  generalize st.users.now.query (profileOfUser uid) = l at hidentity hsorted
  match l with
  | [] => exact Nat.zero_le _
  | [_] => exact le_rfl
  | d :: d' :: l =>
    -- Documents of one user have one identity, and those of a query differ by their ids.
    obtain ⟨x, hx, hid, huid⟩ := hidentity (List.mem_cons_self (a := d))
    obtain ⟨x', hx', hid', huid'⟩ := hidentity (List.mem_cons_of_mem d List.mem_cons_self)
    have heq := List.inj_on_of_nodup_map hs.unique hx hx' (huid.trans huid'.symm)
    have hlt := List.rel_of_pairwise_cons hsorted List.mem_cons_self
    exact absurd (hid.symm.trans ((congrArg Prod.fst heq).trans hid')) hlt.ne

end Cloud

/-- **Profiles keep their identity, and are unique**: whatever happens, on any devices,
    in any order, every document there has ever been among the profiles is a profile,
    and there still is one of its id, saying who its user is as it did. If no device
    has more than one sign-up at a time, with nobody else signed in meanwhile, each
    profile is of a user with an account, and a query for the profile of a user finds
    one at most. -/
theorem profiles_unique (es : List (CloudEvent D)) :
    (∀ users ∈ (after (Cloud.next isURL same reference uids ids) .init es).users.seen,
      ∀ d ∈ users.docs, ∃ u, UserModel.decode d.data = some u ∧
        ∃ u', ((after (Cloud.next isURL same reference uids ids) .init es).users.now.get?
          d.id).bind UserModel.decode = some u' ∧ identity u' = identity u) ∧
    (AllSteps (Cloud.next isURL same reference uids ids) Cloud.OneAtATime .init es →
      (∀ users ∈ (after (Cloud.next isURL same reference uids ids) .init es).users.seen,
        ∀ d ∈ users.docs, ∀ u, UserModel.decode d.data = some u → u.userID ∈
          (after (Cloud.next isURL same reference uids ids) .init es).accounts.map Account.uid) ∧
      ∀ uid, ((after (Cloud.next isURL same reference uids ids) .init es).users.now.query
        (profileOfUser uid)).length ≤ 1) := by
  have hall : AllSteps (Cloud.next isURL same reference uids ids) (fun _ _ => True) .init es :=
    allSteps_iff_forall.2 fun _ _ _ _ => trivial
  have hI := hall.invariant (I := Cloud.Identified) (fun _ e hI _ => hI.next e)
    Cloud.identified_init
  refine ⟨fun users husers d hd => ?_, fun h => ?_⟩
  · obtain ⟨u, hu⟩ := Option.isSome_iff_exists.1 (hI.decoded users husers d hd)
    have hmem := hI.stay users husers _ (mem_identities.2 ⟨d, hd, u, hu, rfl⟩)
    obtain ⟨d', hd', u', hu', heq⟩ := mem_identities.1 hmem
    obtain ⟨hid, hidentity⟩ := Prod.mk.inj heq
    refine ⟨u, hu, u', ?_, hidentity.symm⟩
    rw [hid, Collection.get?_eq_some_iff.2 hd', Option.bind_some, hu']
  · have hs := h.invariant (I := fun st => st.Identified ∧ OneEach st.signUps)
      (fun _ e hs he => ⟨hs.1.next e, hs.1.oneEach_next hs.2 he⟩)
      ⟨Cloud.identified_init, Cloud.oneEach_init⟩
    refine ⟨fun users husers d hd u hu => ?_, fun uid => hs.1.length_query_le uid hs.2⟩
    exact hs.2.owned _ (hs.1.stay users husers _ (mem_identities.2 ⟨d, hd, u, hu, rfl⟩))

/-- A sign-up with this number, up to its end. -/
def signsUp (i : ℕ) : List (CloudEvent ℕ) :=
  [.signingUp (.completed i (.sendEmailVerificationCompleted none)),
    .signingUp (.completed i (.putDataCompleted none)),
    .signingUp (.completed i (.downloadURLCompleted (.ok "picture.jpg") none))]

/-- Ann and Bob sign up at once, on two devices. -/
def annAndBob : List (CloudEvent ℕ) :=
  [.signingUp (.edit ⟨0, 0⟩ ⟨"Ann", "ann@yoyo", "aA1$aa", "aA1$aa", 0, some 1⟩),
    .signingUp (.edit ⟨1, 0⟩ ⟨"Bob", "bob@yoyo", "bB2$bb", "bB2$bb", 0, some 2⟩),
    .signingUp (.createButtonTapped ⟨0, 0⟩), .signingUp (.createButtonTapped ⟨1, 0⟩),
    .signingUp (.completed 1 (.createUserCompleted none)),
    .signingUp (.completed 0 (.createUserCompleted none))] ++ signsUp 0 ++ signsUp 1

/-- Bob, whose account is the first, has one profile, at most. -/
theorem profiles_unique_annAndBob :
    ((after (Cloud.next (fun _ => true) (· == ·) String.toList SignUp.longerUID succId) .init
      annAndBob).users.now.query (profileOfUser "u")).length ≤ 1 := by
  have hrun : AllSteps (Cloud.next (fun _ => true) (· == ·) String.toList SignUp.longerUID succId)
      Cloud.OneAtATime .init annAndBob := by decide +kernel
  exact ((profiles_unique annAndBob).2 hrun).2 "u"

/-- Ann taps the button again, with another e-mail, before her profile is saved. -/
def tappedTwice : List (CloudEvent ℕ) :=
  [.signingUp (.edit ⟨0, 0⟩ ⟨"Ann", "ann@yoyo", "aA1$aa", "aA1$aa", 0, some 1⟩),
    .signingUp (.createButtonTapped ⟨0, 0⟩), .signingUp (.completed 0 (.createUserCompleted none)),
    .signingUp (.edit ⟨0, 0⟩ ⟨"Ann", "ann@yo", "aA1$aa", "aA1$aa", 0, some 1⟩),
    .signingUp (.createButtonTapped ⟨0, 0⟩), .signingUp (.completed 1 (.createUserCompleted none))]
      ++ signsUp 0 ++ signsUp 1

/-- Then both profiles are the one of the second account, and the first has none. -/
example :
    let st := after (Cloud.next (fun _ => true) (· == ·) String.toList SignUp.longerUID succId)
      .init tappedTwice
    st.accounts.map Account.uid = ["u", "uu"] ∧
      (st.users.now.query (profileOfUser "u")).length = 0 ∧
      (st.users.now.query (profileOfUser "uu")).length = 2 := by
  decide +kernel

end YoYo.Uploads
