import Mathlib.Data.List.Induction
import YoYo.Profiles.Service

/-!
# Edits of a profile

A user changes his name and his picture, on one or several devices. Each change
reads his profile and then writes the whole of it back, and nothing keeps others
from being made in between: they are programs in a `Pool`, with calls in any
order, each of which may fail.

Each of them sets one field, and keeps another as it has read it. So the profile
is what the changes written make of it, one after the other, exactly if the last
one to write has read in that other field what those before it make of it
(`edited_iff`).
-/

namespace YoYo.Profiles

open DocStore

/-- A change of a profile. -/
inductive Edit
  | changeName (name : String)
  | updateProfileURL (imageURL : String)
  deriving DecidableEq, Repr

namespace Edit

/-- The program making it. -/
def prog (uid : UID) : Edit → UsersProg
  | changeName name => DatabaseService.changeName uid name
  | updateProfileURL imageURL => DatabaseService.updateProfileURL uid imageURL

/-- The field it sets. -/
def apply : Edit → UserModel → UserModel
  | changeName name, u => { u with name }
  | updateProfileURL imageURL, u => { u with profilePictureURL := imageURL }

/-- The field it does not set, of the two. -/
def other : Edit → UserModel → String
  | changeName _, u => u.profilePictureURL
  | updateProfileURL _, u => u.name

/-- The name it sets, if it does. -/
def name? : Edit → Option String
  | changeName name => some name
  | updateProfileURL _ => none

/-- The URL it sets, if it does. -/
def imageURL? : Edit → Option String
  | changeName _ => none
  | updateProfileURL imageURL => some imageURL

/-- What is left of it once it has read a profile. -/
def writing (edit : Edit) (myProfile : Doc DocID UserModel) : UsersProg :=
  .call (.setData myProfile.id (edit.apply myProfile.data).encode) fun success =>
    .done (.completed success)

end Edit

/-- The profile after changes one after the other. -/
def edited (u : UserModel) (edits : List Edit) : UserModel := edits.foldl (fun u e => e.apply u) u

/-- Changes being made, by calls on the collection `users`. -/
abbrev EditsPool (ι : Type) := Pool ι UsersStore UsersCall Answer UpdateReport

variable {ι : Type} [DecidableEq ι] (g : AutoId DocID)

/-- One of them makes its next call, which succeeds or fails. -/
def next (p : EditsPool ι) (e : ι × Bool) : EditsPool ι :=
  p.step (Call.answer g profileOfUser e.2) e.1

/-- All of them, before they have read anything. -/
def start (users : UsersStore) (uid : UID) (edits : ι → Edit) : EditsPool ι :=
  .start users fun i => (edits i).prog uid

/-- The call writes. -/
def writes (p : EditsPool ι) (e : ι × Bool) : Bool :=
  match p.prog e.1 with
  | .call (.setData _ _) _ => e.2
  | _ => false

/-- The changes written in a run. -/
def written (edits : ι → Edit) : EditsPool ι → List (ι × Bool) → List Edit
  | _, [] => []
  | p, e :: es =>
    if writes p e then edits e.1 :: written edits (next g p e) es else written edits (next g p e) es

/-- The profile of a user has the name and the picture set last by the changes
    `edits`, if there are any, and is the profile `u` otherwise. -/
def LastSet (u : UserModel) (edits : List Edit) (users : UsersStore) : Prop :=
  ∃ d v, users.query (profileOfUser u.userID) = [d] ∧ UserModel.decode d.data = some v ∧
    v.name = (edits.filterMap Edit.name?).getLast?.getD u.name ∧
    v.profilePictureURL = (edits.filterMap Edit.imageURL?).getLast?.getD u.profilePictureURL ∧
    v.dob = u.dob ∧ v.userID = u.userID ∧ v.userEmail = u.userEmail

/-- The last change written had read, in the field it does not set, what the
    changes written before it make of the profile `u`. -/
def LastUpToDate (edits : ι → Edit) (u : UserModel) (p : EditsPool ι) (es : List (ι × Bool)) :
    Prop :=
  ∀ es₁ e es₂ myProfile, es = es₁ ++ e :: es₂ → writes (after (next g) p es₁) e →
    written g edits (next g (after (next g) p es₁) e) es₂ = [] →
    (after (next g) p es₁).prog e.1 = (edits e.1).writing myProfile →
    (edits e.1).other myProfile.data = (edits e.1).other (edited u (written g edits p es₁))

/-! ## Changes one after the other -/

variable {g} {u v : UserModel} {edit : Edit} {edits : ι → Edit} {p : EditsPool ι} {id : DocID}

namespace Edit

theorem prog_eq (uid : UID) (edit : Edit) :
    edit.prog uid = DatabaseService.updateUserModel edit.apply uid := by
  cases edit <;> rfl

/-- What a change is about to write says what it has read, but for the field it sets. -/
theorem apply_eq_of_writing_eq {d d' : Doc DocID UserModel}
    (h : edit.writing d = edit.writing d') : edit.apply d.data = edit.apply d'.data := by
  have hencode := (Call.setData.inj (Prog.call.inj h).1).2
  have hdecode := congrArg UserModel.decode hencode
  rw [UserModel.decode_encode, UserModel.decode_encode] at hdecode
  exact Option.some.inj hdecode

end Edit

theorem edited_append (u : UserModel) (l l' : List Edit) :
    edited u (l ++ l') = edited (edited u l) l' := List.foldl_append

/-- A field is as the last change to set it has set it, or as it was before. -/
theorem field_edited {field : UserModel → String} {set? : Edit → Option String}
    (happly : ∀ edit u, field (edit.apply u) = (set? edit).getD (field u)) (u : UserModel)
    (l : List Edit) :
    field (edited u l) = (l.filterMap set?).getLast?.getD (field u) := by
  induction l using List.reverseRecOn with
  | nil => rfl
  | append_singleton l edit ih =>
    have hlast : edited u (l ++ [edit]) = edit.apply (edited u l) := edited_append u l [edit]
    rw [hlast, happly, List.filterMap_append]
    cases hset : set? edit with
    | none => simpa [hset] using ih
    | some value => simp [hset]

theorem name_edited (u : UserModel) (l : List Edit) :
    (edited u l).name = (l.filterMap Edit.name?).getLast?.getD u.name :=
  field_edited (fun edit _ => by cases edit <;> rfl) u l

theorem profilePictureURL_edited (u : UserModel) (l : List Edit) :
    (edited u l).profilePictureURL =
      (l.filterMap Edit.imageURL?).getLast?.getD u.profilePictureURL :=
  field_edited (fun edit _ => by cases edit <;> rfl) u l

/-- The fields no change sets are the same. -/
structure Same (u v : UserModel) : Prop where
  dob : v.dob = u.dob
  userID : v.userID = u.userID
  userEmail : v.userEmail = u.userEmail

theorem Same.apply (h : Same u v) (edit : Edit) : Same u (edit.apply v) := by
  cases edit <;> exact ⟨h.dob, h.userID, h.userEmail⟩

theorem same_apply_iff : Same u (edit.apply v) ↔ Same u v := by
  refine ⟨fun h => ?_, fun h => h.apply edit⟩
  cases edit <;> exact ⟨h.dob, h.userID, h.userEmail⟩

theorem Same.profileOfUser_encode (h : Same u v) : profileOfUser u.userID v.encode = true :=
  DocField.is_iff.2 (congrArg DocField.value h.userID)

/-- The profile of the user `u` is `v`. -/
def Stored (u : UserModel) (id : DocID) (v : UserModel) (users : UsersStore) : Prop :=
  users.query (profileOfUser u.userID) = [⟨id, v.encode⟩]

theorem Stored.lastSet_iff {users : UsersStore} (hstored : Stored u id v users) (hsame : Same u v)
    (l : List Edit) :
    LastSet u l users ↔ v.name = (edited u l).name ∧
      v.profilePictureURL = (edited u l).profilePictureURL := by
  rw [LastSet, hstored, ← name_edited, ← profilePictureURL_edited]
  constructor
  · rintro ⟨d, v', hd, hdecode, hname, hurl, -⟩
    rw [← (List.cons.inj hd).1, UserModel.decode_encode] at hdecode
    obtain rfl := Option.some.inj hdecode
    exact ⟨hname, hurl⟩
  · rintro ⟨hname, hurl⟩
    exact ⟨_, v, rfl, UserModel.decode_encode v, hname, hurl, hsame.dob, hsame.userID,
      hsame.userEmail⟩

/-- A change of one field agrees with those before it if it keeps what they make of the other. -/
theorem Stored.lastSet_apply_iff {users : UsersStore} (hsame : Same u v)
    (hstored : Stored u id (edit.apply v) users) (l : List Edit) :
    LastSet u (l ++ [edit]) users ↔ edit.other v = edit.other (edited u l) := by
  rw [hstored.lastSet_iff (hsame.apply edit), edited_append]
  cases edit with
  | changeName name => exact and_iff_right rfl
  | updateProfileURL imageURL => exact and_iff_left rfl

/-! ## Calls -/

/-- Where a change is: at its start, about to write the profile of the user `u`
    it has read, or at its end. -/
inductive EditStage (u : UserModel) (id : DocID) (edit : Edit) : UsersProg → Prop
  | start : EditStage u id edit (edit.prog u.userID)
  | writing (v : UserModel) (hsame : Same u v) : EditStage u id edit (edit.writing ⟨id, v⟩)
  | done (report : UpdateReport) : EditStage u id edit (.done report)

/-- There is one profile of the user, and every change is at some stage. -/
structure Sound (u : UserModel) (id : DocID) (edits : ι → Edit) (p : EditsPool ι) : Prop where
  stored : ∃ v, Stored u id v p.store ∧ Same u v
  stage : ∀ i, EditStage u id (edits i) (p.prog i)

/-- The next call of a change, the store and the other changes being kept. -/
theorem Sound.update (hs : Sound u id edits p) {users : UsersStore} {i : ι} {prog : UsersProg}
    {last : ι → Option UsersCall} (hstored : ∃ v, Stored u id v users ∧ Same u v)
    (hstage : EditStage u id (edits i) prog) :
    Sound u id edits ⟨users, Function.update p.prog i prog, last⟩ := by
  refine ⟨hstored, fun j => ?_⟩
  by_cases hj : j = i
  · subst hj
    simpa only [Function.update_self] using hstage
  · simpa only [Function.update_of_ne hj] using hs.stage j

/-- What a call does: one that writes stores the profile read, with the change
    made, and no other one changes anything. -/
theorem Sound.step (hs : Sound u id edits p) (e : ι × Bool) :
    Sound u id edits (next g p e) ∧
      (writes p e = false → (next g p e).store = p.store) ∧
      ∀ myProfile, writes p e = true → p.prog e.1 = (edits e.1).writing myProfile →
        Same u myProfile.data ∧
          Stored u id ((edits e.1).apply myProfile.data) (next g p e).store := by
  obtain ⟨i, ok⟩ := e
  obtain ⟨v, hv, hsame⟩ := hs.stored
  rw [writes, next]
  generalize hprog : p.prog i = prog
  have hi := hprog ▸ hs.stage i
  cases hi with
  | done report =>
    rw [Pool.step_done hprog]
    exact ⟨hs, fun _ => rfl, fun _ h => absurd h Bool.false_ne_true⟩
  | start =>
    rw [Edit.prog_eq, DatabaseService.updateUserModel] at hprog ⊢
    rw [Pool.step_call hprog]
    refine ⟨hs.update ⟨v, hv, hsame⟩ ?_, fun _ => rfl, fun _ h => absurd h Bool.false_ne_true⟩
    cases ok with
    | false => exact .done _
    | true =>
      have hread : (Call.answer g profileOfUser true p.store (.getDocuments u.userID)).1 =
          some [⟨id, v.encode⟩] := congrArg some hv
      rw [hread]
      exact .writing v hsame
  | writing myProfile hmy =>
    rw [Edit.writing] at hprog ⊢
    rw [Pool.step_call hprog]
    cases ok with
    | false =>
      exact ⟨hs.update ⟨v, hv, hsame⟩ (.done _), fun _ => rfl,
        fun _ h => absurd h Bool.false_ne_true⟩
    | true =>
      have hwritten : Stored u id ((edits i).apply myProfile)
          (p.store.setData id ((edits i).apply myProfile).encode) :=
        Collection.query_setData_of_eq (hmy.apply _).profileOfUser_encode hv
      refine ⟨hs.update ⟨_, hwritten, hmy.apply _⟩ (.done _), fun h => absurd h.symm
        Bool.false_ne_true, fun d _ h => ?_⟩
      have hd := Edit.apply_eq_of_writing_eq h
      exact ⟨same_apply_iff.1 (hd ▸ hmy.apply _), hd ▸ hwritten⟩

omit [DecidableEq ι] in
/-- A change that writes has read a profile. -/
theorem Sound.exists_writing (hs : Sound u id edits p) {e : ι × Bool} (he : writes p e) :
    ∃ myProfile, p.prog e.1 = (edits e.1).writing myProfile := by
  rw [writes] at he
  generalize hprog : p.prog e.1 = prog at he
  have hstage := hprog ▸ hs.stage e.1
  cases hstage with
  | start =>
    rw [Edit.prog_eq] at he
    exact absurd he Bool.false_ne_true
  | writing v hsame => exact ⟨_, rfl⟩
  | done report => exact absurd he Bool.false_ne_true

/-! ## Runs -/

theorem Sound.of_run (hs : Sound u id edits p) (es : List (ι × Bool)) :
    Sound u id edits (after (next g) p es) :=
  AllSteps.invariant (P := fun _ _ => True) (fun _ e hp _ => (hp.step e).1) hs
    (allSteps_iff_forall.2 fun _ _ _ _ => trivial)

theorem written_append (p : EditsPool ι) (es es' : List (ι × Bool)) :
    written g edits p (es ++ es') =
      written g edits p es ++ written g edits (after (next g) p es) es' := by
  induction es generalizing p with
  | nil => rfl
  | cons e es ih =>
    rw [List.cons_append, written, written, after_cons, ih]
    split_ifs
    · rfl
    · rfl

/-- The last change of a run to write, if any does. -/
theorem exists_last_written (p : EditsPool ι) (es : List (ι × Bool)) :
    written g edits p es = [] ∨ ∃ es₁ e es₂, es = es₁ ++ e :: es₂ ∧
      writes (after (next g) p es₁) e ∧
      written g edits (next g (after (next g) p es₁) e) es₂ = [] := by
  induction es generalizing p with
  | nil => exact .inl rfl
  | cons e es ih =>
    rcases ih (next g p e) with hnone | ⟨es₁, e', es₂, rfl, hlast⟩
    · by_cases he : writes p e
      · exact .inr ⟨[], e, es, rfl, he, hnone⟩
      · exact .inl (by rw [written, if_neg he, hnone])
    · exact .inr ⟨e :: es₁, e', es₂, rfl, hlast⟩

/-- A run in which nothing is written. -/
theorem Sound.store_of_written_eq_nil (hs : Sound u id edits p) {es : List (ι × Bool)}
    (hnone : written g edits p es = []) : (after (next g) p es).store = p.store := by
  induction es generalizing p with
  | nil => rfl
  | cons e es ih =>
    rw [written] at hnone
    split_ifs at hnone with he
    obtain ⟨hnext, hkept, -⟩ := hs.step (g := g) e
    rw [after_cons, ih hnext hnone, hkept (Bool.eq_false_of_not_eq_true he)]

/-- The last change to write decides on the profile. -/
theorem Sound.lastSet_iff (hs : Sound u id edits p) {es₁ es₂ : List (ι × Bool)} {e : ι × Bool}
    {myProfile : Doc DocID UserModel} (he : writes (after (next g) p es₁) e)
    (hlast : written g edits (next g (after (next g) p es₁) e) es₂ = [])
    (hprog : (after (next g) p es₁).prog e.1 = (edits e.1).writing myProfile) :
    LastSet u (written g edits p (es₁ ++ e :: es₂))
        (after (next g) p (es₁ ++ e :: es₂)).store ↔
      (edits e.1).other myProfile.data = (edits e.1).other (edited u (written g edits p es₁)) := by
  obtain ⟨hnext, -, hwritten⟩ := (hs.of_run (g := g) es₁).step (g := g) e
  obtain ⟨hsame, hstored⟩ := hwritten myProfile he hprog
  rw [written_append, written, if_pos he, hlast, after_append, after_cons,
    hnext.store_of_written_eq_nil hlast]
  exact hstored.lastSet_apply_iff hsame _

omit [DecidableEq ι] in
theorem sound_start {users : UsersStore} {d : Doc DocID UserDoc}
    (hd : users.query (profileOfUser u.userID) = [d]) (hu : UserModel.decode d.data = some u)
    (edits : ι → Edit) : Sound u d.id edits (start users u.userID edits) := by
  refine ⟨⟨u, ?_, rfl, rfl, rfl⟩, fun _ => .start⟩
  rw [Stored, UserModel.encode_of_decode hu]
  exact hd

variable (g)

/-- **No change is lost** by the last one to write exactly if it is up to date, in
    every run of any number of changes of the only profile of a user. -/
theorem edited_iff {users : UsersStore} {uid : UID} {d : Doc DocID UserDoc}
    (hd : users.query (profileOfUser uid) = [d]) (hu : UserModel.decode d.data = some u)
    (edits : ι → Edit) (es : List (ι × Bool)) :
    LastSet u (written g edits (start users uid edits) es)
        (after (next g) (start users uid edits) es).store ↔
      LastUpToDate g edits u (start users uid edits) es := by
  obtain rfl : u.userID = uid := by
    have hmem : d ∈ users.query (profileOfUser uid) := hd ▸ List.mem_singleton_self d
    have huid := DocField.is_iff.1 (Collection.mem_query.1 hmem).2
    exact DocField.value.inj ((UserModel.userID_of_decode hu).symm.trans huid)
  have hs := sound_start hd hu edits
  constructor
  · rintro h es₁ e es₂ myProfile rfl he hlast hprog
    exact (hs.lastSet_iff he hlast hprog).1 h
  · intro h
    rcases @exists_last_written _ _ g edits (start users u.userID edits) es with
      hnone | ⟨es₁, e, es₂, rfl, he, hlast⟩
    · rw [hnone, hs.store_of_written_eq_nil hnone]
      have hstored : Stored u d.id u users := by
        rw [Stored, UserModel.encode_of_decode hu]
        exact hd
      exact (hstored.lastSet_iff ⟨rfl, rfl, rfl⟩ []).2 ⟨rfl, rfl⟩
    · obtain ⟨myProfile, hprog⟩ := (hs.of_run (g := g) es₁).exists_writing he
      exact (hs.lastSet_iff he hlast hprog).2 (h es₁ e es₂ myProfile rfl he hlast hprog)

/-- Ann has a profile. -/
def annsProfile : UserModel := ⟨"Ann", 0, "ann.jpg", "ann", "ann@yoyo"⟩

def annsUsers : UsersStore := Collection.empty.setData 1 annsProfile.encode

/-- She changes her name on a device, and her picture on another. -/
def annsEdits : Bool → Edit
  | false => .changeName "Anna"
  | true => .updateProfileURL "anna.jpg"

/-- One after the other. -/
def inTurn : List (Bool × Bool) := [(false, true), (false, true), (true, true), (true, true)]

/-- Both changes are made then. -/
theorem edited_inTurn :
    LastSet annsProfile (written succId annsEdits (start annsUsers "ann" annsEdits) inTurn)
      (after (next succId) (start annsUsers "ann" annsEdits) inTurn).store ∧
    LastUpToDate succId annsEdits annsProfile (start annsUsers "ann" annsEdits) inTurn := by
  have hset : LastSet annsProfile
      (written succId annsEdits (start annsUsers "ann" annsEdits) inTurn)
      (after (next succId) (start annsUsers "ann" annsEdits) inTurn).store :=
    ⟨_, { annsProfile with name := "Anna", profilePictureURL := "anna.jpg" }, rfl, rfl, rfl, rfl,
      rfl, rfl, rfl⟩
  refine ⟨hset, ?_⟩
  exact (edited_iff succId rfl (UserModel.decode_encode annsProfile) annsEdits inTurn).1 hset

/-- Both having read the profile before either writes it. -/
def interleaved : List (Bool × Bool) := [(false, true), (true, true), (false, true), (true, true)]

/-- Both report success, and she has her old name. -/
theorem not_lastSet_interleaved :
    (∀ i, ((after (next succId) (start annsUsers "ann" annsEdits) interleaved).prog i).result =
      some (.completed true)) ∧
    ¬ LastSet annsProfile (written succId annsEdits (start annsUsers "ann" annsEdits) interleaved)
      (after (next succId) (start annsUsers "ann" annsEdits) interleaved).store := by
  refine ⟨by decide, ?_⟩
  rintro ⟨d, v, hd, hv, hname, -⟩
  have hstored : (⟨1, { annsProfile with profilePictureURL := "anna.jpg" }.encode⟩ :
      Doc DocID UserDoc) = d := (List.cons.inj hd).1
  rw [← hstored, UserModel.decode_encode] at hv
  rw [← Option.some.inj hv] at hname
  exact absurd hname (by decide)

end YoYo.Profiles
