import YoYo.Profiles.Service
import YoYo.Storage.Service

/-!
# Changing the picture of a profile

A settings screen fetches the profile of its user. When he picks a new picture,
the old one, at the URL fetched, is deleted; then the new one is put, its URL is
got, and the profile is updated with it. Each of these is started when the one
before has succeeded, and the first one to fail is reported. Nothing keeps other
changes from being started meanwhile.

As the old picture is deleted first, the profile refers to nothing from then on,
until the new one has been put in its place, if it ever is. So the profile always
refers to a picture, and failing changes leave it as it was, in exactly the runs
in which no deletion succeeds, which change nothing (`neverDangles_iff`).
-/

namespace YoYo.Profiles

open DocStore Storage

variable {D : Type}

/-- The replies to the steps of a change: each may fail, with an error. -/
inductive PhotoReply
  | removed (error : Option String)
  | put (error : Option String)
  | downloadURL (url : Except String String)
  | answered (error : Option String)
  deriving DecidableEq, Repr

/-- How far a change has got, and what it has reported in the end. -/
inductive PhotoStage (D : Type)
  | removingImage (imageData : D) (imageURL : String)
  | puttingData (imageData : D)
  | gettingURL
  | updatingProfile (prog : UsersProg)
  | uploadImageStatus (status : Bool) (msg : String)
  | trapped

/-- The objects and the profiles. -/
structure Pictures (D : Type) where
  objects : Objects D
  users : UsersStore

section

variable (reference : String → List Char) (g : AutoId DocID) (uid : UID)

namespace SettingsService

/-- The change has the profile updated, or reports how this has ended. -/
def updatingProfile (error : Option String) : UsersProg → PhotoStage D
  | .done (.completed _) =>
    match error with
    | some msg => .uploadImageStatus false msg
    | none => .uploadImageStatus true "uploaded succesfully"
  | .done .trapped => .trapped
  | prog => .updatingProfile prog

/-- A change after a reply to its step, which has no effect on another one. -/
def replied (s : Pictures D) : PhotoStage D → PhotoReply → PhotoStage D × Pictures D
  | .removingImage imageData imageURL, .removed error =>
    match StorageService.removeImageFromStorage reference imageURL error s.objects with
    | (true, objects) => (.puttingData imageData, { s with objects })
    | (false, _) => (.uploadImageStatus false "Cannot delete old picture. try again later.", s)
  | .puttingData _, .put (some msg) => (.uploadImageStatus false msg, s)
  | .puttingData imageData, .put none =>
    let upload := StorageCall.uploadImageToStorage imageData "profile_pic" uid
    (.gettingURL, { s with objects := nextObjects s.objects upload })
  | .gettingURL, .downloadURL (.error msg) => (.uploadImageStatus false msg, s)
  | .gettingURL, .downloadURL (.ok url) =>
    (.updatingProfile (DatabaseService.updateProfileURL uid url), s)
  | .updatingProfile (.call c k), .answered error =>
    let (a, users) := Call.answer g profileOfUser error.isNone s.users c
    (updatingProfile error (k a), { s with users })
  | stage, _ => (stage, s)

end SettingsService

/-- What the profile of a user refers to: its URL, and the object there, if there is one. -/
def Pictures.picture (s : Pictures D) : Option (String × Option D) :=
  (DatabaseService.fetchUserModel uid s.users).map fun p =>
    (p.data.profilePictureURL, s.objects (reference p.data.profilePictureURL))

/-- A change: how far it has got, and what the profile referred to when it was
    started. (The source does not keep the latter.) -/
structure PhotoChange (D : Type) where
  stage : PhotoStage D
  before : Option (String × Option D)

/-- The state: what is stored, the profiles the screens of the user have fetched,
    each showing one of them, and the changes started there. -/
structure Settings (D : Type) where
  stored : Pictures D
  fetched : List UserModel
  changes : List (PhotoChange D)

/-- What happens: a screen fetches the profile, a new picture is picked in one
    showing the profile fetched as the `i`-th one, and a change is replied to. -/
inductive SettingsEvent (D : Type)
  | fetchUserProfile
  | changeProfilePhoto (i : ℕ) (imageData : D)
  | replied (i : ℕ) (reply : PhotoReply)

namespace Settings

/-- The state after an event, which has none where it is not waited for. -/
def next (s : Settings D) : SettingsEvent D → Settings D
  | .fetchUserProfile =>
    match DatabaseService.fetchUserModel uid s.stored.users with
    | some p => { s with fetched := s.fetched ++ [p.data] }
    | none => s
  | .changeProfilePhoto i imageData =>
    match s.fetched[i]? with
    | some userModel =>
      { s with
        changes := s.changes ++
          [⟨.removingImage imageData userModel.profilePictureURL, s.stored.picture reference uid⟩] }
    | none => s
  | .replied i reply =>
    match s.changes[i]? with
    | some change =>
      let (stage, stored) := SettingsService.replied reference g uid s.stored change.stage reply
      { s with stored, changes := s.changes.set i { change with stage } }
    | none => s

/-- Before any profile has been fetched. -/
def start (objects : Objects D) (users : UsersStore) : Settings D := ⟨⟨objects, users⟩, [], []⟩

/-- The profile refers to an object that exists. -/
def Refers (s : Settings D) : Prop :=
  ∃ url data, s.stored.picture reference uid = some (url, some data)

/-- A change that fails at this event leaves what the profile referred to before it. -/
def Restores (s : Settings D) : SettingsEvent D → Prop
  | .replied i reply => ∀ change msg, s.changes[i]? = some change →
    (∀ msg, change.stage ≠ .uploadImageStatus false msg) →
    (SettingsService.replied reference g uid s.stored change.stage reply).1 =
      .uploadImageStatus false msg →
    (s.next reference g uid (.replied i reply)).stored.picture reference uid = change.before
  | _ => True

/-- The event is a deletion without an error. -/
def Removes (s : Settings D) : SettingsEvent D → Prop
  | .replied i (.removed none) =>
    ∃ imageData imageURL before, s.changes[i]? = some ⟨.removingImage imageData imageURL, before⟩
  | _ => False

/-! ## Steps -/

variable {reference g uid} {objects : Objects D} {users : UsersStore} {p : Doc DocID UserModel}
  {s : Settings D} {stage : PhotoStage D}

/-- The change is at its start, or has failed there. -/
def Waits (imageURL : String) (stage : PhotoStage D) : Prop :=
  (∃ imageData, stage = .removingImage imageData imageURL) ∨
    ∃ msg, stage = .uploadImageStatus false msg

/-- Nothing stored has been changed, and nothing else has been fetched. -/
structure Unchanged (reference : String → List Char) (uid : UID) (pictures : Pictures D)
    (u : UserModel) (s : Settings D) : Prop where
  stored : s.stored = pictures
  fetched : ∀ userModel ∈ s.fetched, userModel = u
  waits : ∀ change ∈ s.changes, Waits u.profilePictureURL change.stage
  before : ∀ change ∈ s.changes, change.before = pictures.picture reference uid

/-- A reply to a change that waits, unless it is a deletion without an error. -/
theorem replied_of_waits {imageURL : String} (hstage : Waits imageURL stage) (stored : Pictures D)
    {reply : PhotoReply}
    (hreply : ∀ imageData imageURL, stage = .removingImage imageData imageURL →
      reply ≠ .removed none) :
    (SettingsService.replied reference g uid stored stage reply).2 = stored ∧
      Waits imageURL (SettingsService.replied reference g uid stored stage reply).1 := by
  obtain ⟨imageData, rfl⟩ | ⟨msg, rfl⟩ := hstage
  · cases reply with
    | removed error =>
      cases error with
      | none => exact absurd rfl (hreply _ _ rfl)
      | some msg =>
        have hfail : StorageService.removeImageFromStorage reference imageURL (some msg)
            stored.objects = (false, stored.objects) := if_neg fun h => Option.some_ne_none msg h.1
        rw [SettingsService.replied, hfail]
        exact ⟨rfl, .inr ⟨_, rfl⟩⟩
    | _ => exact ⟨rfl, .inl ⟨imageData, rfl⟩⟩
  · cases reply <;> exact ⟨rfl, .inr ⟨msg, rfl⟩⟩

variable {pictures : Pictures D} {u : UserModel}

/-- A profile is fetched. -/
theorem Unchanged.fetch (hs : Unchanged reference uid pictures u s) :
    Unchanged reference uid pictures u { s with fetched := s.fetched ++ [u] } := by
  refine ⟨hs.stored, fun userModel hmem => ?_, hs.waits, hs.before⟩
  rcases List.mem_append.1 hmem with hmem | hmem
  · exact hs.fetched userModel hmem
  · exact List.mem_singleton.1 hmem

/-- A change is started. -/
theorem Unchanged.append (hs : Unchanged reference uid pictures u s) (imageData : D) :
    Unchanged reference uid pictures u { s with
      changes := s.changes ++ [⟨.removingImage imageData u.profilePictureURL,
        s.stored.picture reference uid⟩] } := by
  refine ⟨hs.stored, hs.fetched, fun change hmem => ?_, fun change hmem => ?_⟩
  · rcases List.mem_append.1 hmem with hmem | hmem
    · exact hs.waits change hmem
    · exact .inl ⟨imageData, by rw [List.mem_singleton.1 hmem]⟩
  · rcases List.mem_append.1 hmem with hmem | hmem
    · exact hs.before change hmem
    · rw [List.mem_singleton.1 hmem, hs.stored]

/-- A change goes on waiting, and nothing is stored. -/
theorem Unchanged.set (hs : Unchanged reference uid pictures u s) {change : PhotoChange D}
    (hchange : change ∈ s.changes) {stored : Pictures D} (hstored : stored = s.stored)
    (hstage : Waits u.profilePictureURL stage) (i : ℕ) :
    Unchanged reference uid pictures u
      { s with stored, changes := s.changes.set i { change with stage } } := by
  refine ⟨hstored.trans hs.stored, hs.fetched, fun change' hmem => ?_, fun change' hmem => ?_⟩
  · rcases List.mem_or_eq_of_mem_set hmem with hmem | rfl
    · exact hs.waits change' hmem
    · exact hstage
  · rcases List.mem_or_eq_of_mem_set hmem with hmem | rfl
    · exact hs.before change' hmem
    · exact hs.before change hchange

/-- Steps without a deletion change nothing. -/
theorem Unchanged.step (hs : Unchanged reference uid pictures u s)
    (hp : (DatabaseService.fetchUserModel uid pictures.users).map Doc.data = some u)
    {e : SettingsEvent D} (he : ¬ s.Removes e) :
    Unchanged reference uid pictures u (s.next reference g uid e) ∧
      s.Restores reference g uid e := by
  cases e with
  | fetchUserProfile =>
    obtain ⟨p, hfetch, rfl⟩ := Option.map_eq_some_iff.1 hp
    simp only [next, hs.stored, hfetch]
    exact ⟨hs.stored ▸ hs.fetch, trivial⟩
  | changeProfilePhoto i imageData =>
    refine ⟨?_, trivial⟩
    rw [next]
    cases hi : s.fetched[i]? with
    | none => exact hs
    | some userModel =>
      obtain rfl := hs.fetched userModel (List.mem_of_getElem? hi)
      exact hs.append imageData
  | replied i reply =>
    cases hi : s.changes[i]? with
    | none =>
      refine ⟨?_, fun change msg h => absurd (hi.symm.trans h) (Option.some_ne_none _).symm⟩
      simpa only [next, hi] using hs
    | some change =>
      have hmem := List.mem_of_getElem? hi
      have hreply : ∀ imageData imageURL, change.stage = .removingImage imageData imageURL →
          reply ≠ .removed none := by
        rintro imageData imageURL hstage rfl
        exact he ⟨imageData, imageURL, change.before, by rw [hi, ← hstage]⟩
      obtain ⟨hstored, hwaits⟩ := @replied_of_waits _ reference g uid _ _ (hs.waits change hmem)
        s.stored _ hreply
      have hnext : Unchanged reference uid pictures u
          (s.next reference g uid (.replied i reply)) := by
        simp only [next, hi]
        exact hs.set hmem hstored hwaits i
      refine ⟨hnext, fun change' msg hchange' _ _ => ?_⟩
      rw [hnext.stored, ← Option.some.inj (hi.symm.trans hchange'), hs.before change hmem]

theorem removes_iff {e : SettingsEvent D} :
    s.Removes e ↔ ∃ i imageData imageURL before, e = .replied i (.removed none) ∧
      s.changes[i]? = some ⟨.removingImage imageData imageURL, before⟩ := by
  rw [Removes.eq_def]
  split
  · simp
  next hother =>
    refine iff_of_false id ?_
    rintro ⟨i, _, _, _, rfl, -⟩
    exact hother i rfl

/-- A deletion leaves the profile without a picture. -/
theorem Unchanged.not_refers (hs : Unchanged reference uid pictures u s)
    (hp : (DatabaseService.fetchUserModel uid pictures.users).map Doc.data = some u)
    (hdata : (pictures.objects (reference u.profilePictureURL)).isSome) {e : SettingsEvent D}
    (he : s.Removes e) : ¬ (s.next reference g uid e).Refers reference uid := by
  obtain ⟨i, imageData, imageURL, before, rfl, hi⟩ := removes_iff.1 he
  obtain rfl : imageURL = u.profilePictureURL := by
    rcases hs.waits _ (List.mem_of_getElem? hi) with ⟨_, hstage⟩ | ⟨_, hstage⟩
    · exact (PhotoStage.removingImage.inj hstage).2
    · simp at hstage
  have hremoved : StorageService.removeImageFromStorage reference u.profilePictureURL none
      pictures.objects =
        (true, Function.update pictures.objects (reference u.profilePictureURL) none) :=
    if_pos ⟨rfl, hdata⟩
  obtain ⟨p, hfetch, rfl⟩ := Option.map_eq_some_iff.1 hp
  rintro ⟨url, data, hpicture⟩
  simp only [next, hi, SettingsService.replied, hs.stored, hremoved, Pictures.picture, hfetch,
    Option.map_some, Function.update_self] at hpicture
  exact absurd (congrArg Prod.snd (Option.some.inj hpicture)) (Option.some_ne_none data).symm

/-! ## Runs -/

variable (reference g uid)

/-- **The picture of a profile never dangles**, and what has failed changes
    nothing, in exactly the runs without a deletion. -/
theorem neverDangles_iff (hp : DatabaseService.fetchUserModel uid users = some p)
    (hdata : (objects (reference p.data.profilePictureURL)).isSome) (es : List (SettingsEvent D)) :
    ((∀ es₁ es₂, es = es₁ ++ es₂ →
        (after (next reference g uid) (start objects users) es₁).Refers reference uid) ∧
      AllSteps (next reference g uid) (Restores reference g uid) (start objects users) es) ↔
      AllSteps (next reference g uid) (fun s e => ¬ s.Removes e) (start objects users) es := by
  have hu : (DatabaseService.fetchUserModel uid users).map Doc.data = some p.data :=
    congrArg (Option.map Doc.data) hp
  have hrefers : ∀ s, Unchanged reference uid ⟨objects, users⟩ p.data s →
      s.Refers reference uid := by
    intro s hs
    obtain ⟨data, hdata⟩ := Option.isSome_iff_exists.1 hdata
    refine ⟨p.data.profilePictureURL, data, ?_⟩
    rw [hs.stored, Pictures.picture, hp]
    exact congrArg (fun data => some (p.data.profilePictureURL, data)) hdata
  have hstart : Unchanged reference uid ⟨objects, users⟩ p.data (start objects users) :=
    ⟨rfl, fun _ h => absurd h List.not_mem_nil, fun _ h => absurd h List.not_mem_nil,
      fun _ h => absurd h List.not_mem_nil⟩
  rw [forall_prefix_iff, and_assoc, ← allSteps_and, and_iff_right (hrefers _ hstart)]
  refine allSteps_iff (P := fun _ _ => True) (fun s e hs _ he => (hs.step hu he).1)
    (fun s e hs _ => ?_) hstart (allSteps_iff_forall.2 fun _ _ _ _ => trivial)
  constructor
  · exact fun h he => hs.not_refers hu hdata he h.1
  · intro he
    obtain ⟨hnext, hrestores⟩ := hs.step (g := g) hu he
    exact ⟨hrefers _ hnext, hrestores⟩

/-- The path of Ann's picture, which is its URL here. -/
def annsPath : String := "images/ann_978307200.0_profile_pic.jpg"

/-- She has a profile, with a picture. -/
def annsSettings : Settings ℕ :=
  start (fun path => if path = annsPath.toList then some 1 else none)
    (Collection.empty.setData 1 (UserModel.encode ⟨"Ann", 0, annsPath, "ann", "ann@yoyo"⟩))

/-- She picks another one, and the old one cannot be deleted. -/
def keptPicture : List (SettingsEvent ℕ) :=
  [.fetchUserProfile, .changeProfilePhoto 0 2, .replied 0 (.removed (some "Network error"))]

/-- Then she has the old one. -/
theorem neverDangles_keptPicture :
    (after (next String.toList succId "ann") annsSettings keptPicture).Refers String.toList
      "ann" := by
  have hnone : AllSteps (next String.toList succId "ann") (fun s e => ¬ s.Removes e) annsSettings
      keptPicture := ⟨id, id, id, trivial⟩
  exact ((neverDangles_iff String.toList succId "ann" rfl rfl keptPicture).2 hnone).1 keptPicture []
    rfl

/-- It is deleted, but the new one cannot be put. -/
def lostPicture : List (SettingsEvent ℕ) :=
  [.fetchUserProfile, .changeProfilePhoto 0 2, .replied 0 (.removed none),
    .replied 0 (.put (some "Network error"))]

/-- Then she has none, and no later change succeeds. -/
theorem not_refers_lostPicture :
    ¬ (after (next String.toList succId "ann") annsSettings lostPicture).Refers String.toList
      "ann" ∧
    ¬ AllSteps (next String.toList succId "ann") (Restores String.toList succId "ann") annsSettings
      lostPicture ∧
    ((after (next String.toList succId "ann") annsSettings (lostPicture ++
      [.fetchUserProfile, .changeProfilePhoto 1 2, .replied 1 (.removed none)])).changes.map
        PhotoChange.stage).getLast? =
      some (.uploadImageStatus false "Cannot delete old picture. try again later.") := by
  have hlost : (after (next String.toList succId "ann") annsSettings lostPicture).stored.picture
      String.toList "ann" = some (annsPath, none) := by decide
  refine ⟨?_, fun h => ?_, rfl⟩
  · rintro ⟨url, data, hpicture⟩
    exact absurd (hlost.symm.trans hpicture) (by simp)
  · have hfailed := h.2.2.2.1 _ _ rfl (fun _ => by simp) rfl
    exact absurd (hlost.symm.trans hfailed) (by decide)

end Settings

end

end YoYo.Profiles
