import YoYo.Accounts.SigningUp
import YoYo.Text.Pattern

/-!
# Passwords

Whether a password is strong enough is asked of a pattern, `passwordPattern`: it
looks ahead for a character of each of four classes, and then reads six to twenty
characters. Looking ahead stops at the end of a line, but a password that is read
to its end has one line only: so the order of its characters does not matter, as
`checkPasswordForComplexity` has it (`checkPasswordForComplexity_eq`).

An account is only ever created with what a valid form held when its button was
tapped (`newAccounts_valid`), however often it is tapped, and however the form is
edited from then on.
-/

namespace YoYo.Accounts

open DocStore Storage Text

namespace CreateAccountController

/-- The pattern `.`, for any character but the end of a line. -/
def anyCharacter : Pattern Char := .one fun c => !isLineTerminator c

/-- What is left ends the text: at most the end of a line is left. -/
def endsText : List Char → Bool
  | [] => true
  | [c] => isLineTerminator c
  | [c, d] => c = '\r' ∧ d = '\n'
  | _ => false

/-- A character of the class follows, on the same line: for `[a-z]`, the pattern
    `(?=.*[a-z])`. -/
def followed (belongs : Char → Bool) : Pattern Char :=
  .ahead (.seq (.star anyCharacter) (.one belongs))

/-- The pattern of a password:
    `^(?=.*[a-z])(?=.*[A-Z])(?=.*[0-9])(?=.*[$@$#!%*?&]).{6,20}$`. -/
def passwordPattern : Pattern Char :=
  .seq .start <| .seq (followed fun c => 'a' ≤ c ∧ c ≤ 'z') <|
    .seq (followed fun c => 'A' ≤ c ∧ c ≤ 'Z') <| .seq (followed fun c => '0' ≤ c ∧ c ≤ '9') <|
    .seq (followed fun c => "$@$#!%*?&".toList.contains c) <|
    .seq (.rep anyCharacter 6 20) (.stop endsText)

/-- A text without ends of lines. -/
def OneLine (text : List Char) : Prop := ∀ c ∈ text, !isLineTerminator c

variable {belongs : Char → Bool} {before text : List Char}

/-- On one line, a character of the class follows if there is one. -/
theorem reads_followed_iff (htext : OneLine text) {t : Position Char} :
    Pattern.Reads (followed belongs) ⟨before, text⟩ t ↔
      t = ⟨before, text⟩ ∧ text.any belongs := by
  rw [followed, Pattern.reads_ahead_iff, List.any_eq_true]
  refine and_congr_right fun _ => ?_
  simp only [Pattern.reads_seq_iff, anyCharacter, Pattern.reads_star_one_iff, Pattern.reads_one_iff]
  constructor
  · rintro ⟨u, v, ⟨w, -, hrest, -⟩, c, hc, hrest', -⟩
    exact ⟨c, by simp only [hrest, hrest']; simp, hc⟩
  · rintro ⟨c, hmem, hc⟩
    obtain ⟨w, rest, rfl⟩ := List.append_of_mem hmem
    refine ⟨⟨c :: (w.reverse ++ before), rest⟩, ⟨w.reverse ++ before, c :: rest⟩, ?_, c, hc,
      rfl, rfl⟩
    exact ⟨w, fun d hd => htext d (List.mem_append_left _ hd), rfl, rfl⟩

/-- What follows is not read. -/
theorem eq_of_reads_followed {s t : Position Char} (h : Pattern.Reads (followed belongs) s t) :
    t = s := (Pattern.reads_ahead_iff.1 h).1

/-- A text matches if it is one line of six to twenty characters, with one of each class. -/
theorem matches_iff : passwordPattern.Matches text ↔
    OneLine text ∧ 6 ≤ text.length ∧ text.length ≤ 20 ∧
      text.any (fun c => 'a' ≤ c ∧ c ≤ 'z') ∧ text.any (fun c => 'A' ≤ c ∧ c ≤ 'Z') ∧
      text.any (fun c => '0' ≤ c ∧ c ≤ '9') ∧ text.any fun c => "$@$#!%*?&".toList.contains c := by
  simp only [Pattern.Matches, passwordPattern, Pattern.reads_seq_iff, Pattern.reads_start_iff]
  constructor
  · rintro ⟨t, ⟨_, ⟨-, rfl⟩, _, hlower, _, hupper, _, hdigit, _, hsymbol, u, hread, hstop⟩, hend⟩
    obtain rfl := eq_of_reads_followed hlower
    obtain rfl := eq_of_reads_followed hupper
    obtain rfl := eq_of_reads_followed hdigit
    obtain rfl := eq_of_reads_followed hsymbol
    -- The ends of lines are not read, and nothing is left after what is.
    obtain ⟨w, hw, hmin, hmax, hrest, -⟩ := Pattern.reads_rep_one_iff.1 hread
    obtain rfl := (Pattern.reads_stop_iff.1 hstop).2
    rw [hend, List.append_nil] at hrest
    obtain rfl : text = w := hrest
    exact ⟨hw, hmin, hmax, ((reads_followed_iff hw).1 hlower).2,
      ((reads_followed_iff hw).1 hupper).2, ((reads_followed_iff hw).1 hdigit).2,
      ((reads_followed_iff hw).1 hsymbol).2⟩
  · rintro ⟨hline, hmin, hmax, hlower, hupper, hdigit, hsymbol⟩
    refine ⟨⟨text.reverse, []⟩, ⟨_, ⟨trivial, rfl⟩, _, (reads_followed_iff hline).2 ⟨rfl, hlower⟩,
      _, (reads_followed_iff hline).2 ⟨rfl, hupper⟩, _, (reads_followed_iff hline).2 ⟨rfl, hdigit⟩,
      _, (reads_followed_iff hline).2 ⟨rfl, hsymbol⟩, ⟨text.reverse, []⟩, ?_, ?_⟩, rfl⟩
    · exact Pattern.reads_rep_one_iff.2 ⟨text, hline, hmin, hmax, by simp, by simp⟩
    · exact Pattern.reads_stop_iff.2 ⟨rfl, rfl⟩

/-- **The pattern asks what the check does**: looking for it in a password succeeds
    exactly if the password is strong enough. -/
theorem checkPasswordForComplexity_eq (password : String) :
    checkPasswordForComplexity password = passwordPattern.isMatch password.toList := by
  have hsymbols : (fun c => "$@$#!%*?&".toList.contains c) =
      fun c => "$@#!%*?&".toList.contains c := by
    funext c
    rw [Bool.eq_iff_iff]
    simp
    tauto
  rw [Bool.eq_iff_iff, Pattern.isMatch_iff, matches_iff, checkPasswordForComplexity, hsymbols]
  simp only [Bool.and_eq_true, decide_eq_true_iff, List.all_eq_true, OneLine]
  tauto

variable {D : Type} {same : String → String → Bool}

/-- The form is valid: all of its fields are filled in, and the password, which has
    been repeated, matches the pattern. -/
structure Valid (same : String → String → Bool) (form : Form D) : Prop where
  name_ne : form.name ≠ ""
  email_ne : form.email ≠ ""
  confirmPassword_ne : form.confirmPassword ≠ ""
  repeated : same form.password form.confirmPassword
  strong : passwordPattern.Matches form.password.toList

/-- A password that is strong is there. -/
theorem Valid.password_ne {form : Form D} (h : Valid same form) : form.password ≠ "" := by
  intro hnil
  have hmin := (matches_iff.1 h.strong).2.1
  rw [hnil] at hmin
  exact absurd hmin (by decide)

/-- There is nothing wrong with the fields of a form exactly if it is valid. -/
theorem validateFields_eq_none_iff (form : Form D) :
    validateFields same form.name form.email form.password form.confirmPassword = none ↔
      Valid same form := by
  have hlength : ∀ {s : String}, s.length = 0 ↔ s = "" := String.length_eq_zero_iff
  have hstrong : checkPasswordForComplexity form.password ↔
      passwordPattern.Matches form.password.toList := by
    rw [checkPasswordForComplexity_eq, Pattern.isMatch_iff]
  rw [validateFields]
  split
  · rename_i hempty
    refine iff_of_false (Option.some_ne_none _) fun h => ?_
    rcases hempty with hnil | hnil | hnil | hnil
    · exact h.name_ne (hlength.1 hnil)
    · exact h.email_ne (hlength.1 hnil)
    · exact h.password_ne (hlength.1 hnil)
    · exact h.confirmPassword_ne (hlength.1 hnil)
  · rename_i hfilled
    simp only [hlength, not_or] at hfilled
    split
    · rename_i hne
      exact iff_of_false (Option.some_ne_none _) fun h => hne h.repeated
    · rename_i hsame
      split
      · rename_i hweak
        exact iff_of_false (Option.some_ne_none _) fun h => hweak (hstrong.2 h.strong)
      · rename_i hcheck
        refine iff_of_true rfl ⟨hfilled.1, hfilled.2.1, hfilled.2.2.2, not_not.1 hsame, ?_⟩
        exact hstrong.1 (not_not.1 hcheck)

/-- A tap requests an account with what the form holds, if it is valid. -/
theorem valid_of_createButtonTapped {s : SignUp D} (hstage : s.stage = .notStarted)
    {email password : String}
    (hcreating : (s.createButtonTapped same).stage = .creatingUser email password) :
    Valid same (s.createButtonTapped same).requested ∧
      email = (s.createButtonTapped same).requested.email ∧
      password = (s.createButtonTapped same).requested.password := by
  rw [SignUp.createButtonTapped] at hcreating ⊢
  cases hvalidate : validateFields same s.form.name s.form.email s.form.password
      s.form.confirmPassword with
  | some message =>
    simp only [hvalidate, hstage] at hcreating
    cases hcreating
  | none =>
    simp only [hvalidate] at hcreating ⊢
    cases hcreating
    exact ⟨(validateFields_eq_none_iff s.form).1 hvalidate, rfl, rfl⟩

end CreateAccountController

namespace SigningUp

open CreateAccountController

variable {D : Type} {same : String → String → Bool} {uids : AutoId UID} {ids : AutoId DocID}
  {accounts : List Account} {s : SigningUp D} {email password : String}

/-- The e-mail and the password are those of a form that was valid when its button
    was tapped. -/
def Requested (same : String → String → Bool) (s : SigningUp D) (email password : String) : Prop :=
  ∃ attempt ∈ s.attempts, Valid same attempt.requested ∧ email = attempt.requested.email ∧
    password = attempt.requested.password

/-- Every account that was not there before has been requested with a valid form. -/
def NewAccountsValid (same : String → String → Bool) (accounts : List Account)
    (s : SigningUp D) : Prop :=
  ∀ account ∈ s.accounts, account ∉ accounts → s.Requested same account.email account.password

/-- So has every one that is being created. -/
structure CreatesValid (same : String → String → Bool) (accounts : List Account)
    (s : SigningUp D) : Prop where
  created : s.NewAccountsValid same accounts
  creating : ∀ attempt ∈ s.attempts, ∀ email password,
    attempt.stage = .creatingUser email password → Valid same attempt.requested ∧
      email = attempt.requested.email ∧ password = attempt.requested.password

theorem createsValid_start (users : UsersStore) (objects : Objects D)
    (currentUser : ℕ → Option UID) (forms : Screen → Form D) :
    (start accounts users objects currentUser forms).CreatesValid same accounts :=
  ⟨fun _ hmem hnew => absurd hmem hnew, fun _ hmem => absurd hmem List.not_mem_nil⟩

/-- What has been requested stays so. -/
theorem Requested.imp {s' : SigningUp D} (h : s.Requested same email password)
    (hattempts : ∀ attempt ∈ s.attempts, ∃ attempt' ∈ s'.attempts,
      attempt'.requested = attempt.requested) : s'.Requested same email password := by
  obtain ⟨attempt, hmem, hvalid⟩ := h
  obtain ⟨attempt', hmem', hsame⟩ := hattempts attempt hmem
  exact ⟨attempt', hmem', hsame ▸ hvalid⟩

namespace CreatesValid

/-- Another attempt starts with a valid form. -/
theorem createButtonTapped (hs : s.CreatesValid same accounts) (screen : Screen) :
    (s.createButtonTapped same screen).CreatesValid same accounts := by
  refine ⟨fun account hmem hnew => ?_, fun attempt hmem email password hstage => ?_⟩
  · exact (hs.created account hmem hnew).imp fun attempt hattempt =>
      ⟨attempt, List.mem_append_left _ hattempt, rfl⟩
  · rcases List.mem_append.1 hmem with hmem | hmem
    · exact hs.creating attempt hmem email password hstage
    · obtain rfl := List.mem_singleton.1 hmem
      exact valid_of_createButtonTapped
        (s := s.signUp ⟨screen, .notStarted, s.forms screen⟩) rfl hstage

/-- An account is created as it has been requested. -/
theorem completed (hs : s.CreatesValid same accounts) (i : ℕ) (reply : SignUpReply) :
    (s.completed uids ids i reply).CreatesValid same accounts := by
  rw [SigningUp.completed]
  split
  · rename_i attempt hattempt
    have hmem := List.mem_of_getElem? hattempt
    have hsigns := signs_completed uids ids (s.signUp attempt) reply
    have hrequested : ((s.signUp attempt).completed uids ids reply).requested =
        attempt.requested := SignUp.requested_completed _ reply
    have hold : ∀ {email password}, s.Requested same email password →
        (s.put i attempt.screen ((s.signUp attempt).completed uids ids reply)).Requested same
          email password := by
      refine fun h => h.imp fun attempt' hattempt' => ?_
      obtain ⟨j, hj⟩ := List.mem_iff_getElem?.1 hattempt'
      by_cases hij : i = j
      · subst hij
        obtain rfl := Option.some.inj (hattempt.symm.trans hj)
        exact ⟨_, List.mem_set (List.getElem?_eq_some_iff.1 hj).1 _, hrequested⟩
      · exact ⟨attempt', List.mem_of_getElem? ((List.getElem?_set_ne hij).trans hj), rfl⟩
    refine ⟨fun account haccount hnew => ?_, fun attempt' hmem' email password hstage => ?_⟩
    · change account ∈ ((s.signUp attempt).completed uids ids reply).accounts at haccount
      rcases hsigns with ⟨haccounts⟩ | ⟨email, password, hstage, haccounts⟩ |
          ⟨_, _, _, _, haccounts⟩ <;> rw [haccounts] at haccount
      · exact hold (hs.created account haccount hnew)
      · rcases List.mem_append.1 haccount with haccount | haccount
        · exact hold (hs.created account haccount hnew)
        · rw [List.mem_singleton.1 haccount]
          exact hold ⟨attempt, hmem, hs.creating attempt hmem email password hstage⟩
      · exact hold (hs.created account haccount hnew)
    · rcases List.mem_or_eq_of_mem_set hmem' with hmem' | rfl
      · exact hs.creating attempt' hmem' email password hstage
      · rw [hrequested]
        exact hs.creating attempt hmem email password (hsigns.creating hstage)
  · exact hs

theorem next (hs : s.CreatesValid same accounts) (e : SigningUpEvent D) :
    (s.next same uids ids e).CreatesValid same accounts := by
  cases e with
  | currentUserChanged device user => exact ⟨hs.created, hs.creating⟩
  | edit screen form => exact ⟨hs.created, hs.creating⟩
  | createButtonTapped screen => exact hs.createButtonTapped screen
  | completed i reply => exact hs.completed i reply

end CreatesValid

/-- **Accounts are only created with valid forms**: in every run, an account that was
    not there before has the e-mail and the password of a form all of whose fields
    were filled in when its button was tapped, whose password had been repeated, and
    matches the pattern. -/
theorem newAccounts_valid (same : String → String → Bool) (uids : AutoId UID)
    (ids : AutoId DocID) (accounts : List Account) (users : UsersStore) (objects : Objects D)
    (currentUser : ℕ → Option UID) (forms : Screen → Form D) (es : List (SigningUpEvent D)) :
    (after (next same uids ids) (start accounts users objects currentUser forms)
      es).NewAccountsValid same accounts :=
  (AllSteps.invariant (I := CreatesValid same accounts) (P := fun _ _ => True)
    (fun _ e hs _ => hs.next e) (createsValid_start users objects currentUser forms)
    (allSteps_iff_forall.2 fun _ _ _ _ => trivial)).created

end SigningUp

end YoYo.Accounts
