import YoYo.Storage.Service

/-!
# Assets

What a story or a message refers to is an object, known by its path. As the
time in a path is a constant, two uploads with the same title, of the same user
or to the same one, have the same path, and the second one replaces the object
of the first. Assets keep their objects exactly in the runs in which no two of
them have names that agree (`assetsKept_iff`).
-/

namespace YoYo.Storage

open DocStore ObjectStore

variable {D : Type}

/-- The ids of the users and the titles make the same name: they are the same, up
    to runs of slashes and those an id starts with, or one of the names has the
    time in it once more, and is taken apart there. -/
def NamesAgree (userID fileName userID' fileName' : String) : Prop :=
  userPart userID = userPart userID' ∧ namePart fileName = namePart fileName' ∨
    MarkedAgain '_' timePart (userPart userID) (namePart fileName)
      (userPart userID') (namePart fileName') ∨
    MarkedAgain '_' timePart (userPart userID') (namePart fileName')
      (userPart userID) (namePart fileName)

namespace StorageCall

/-- Two stories, or two media of messages, of the same type, whose names agree. -/
def Agree : StorageCall D → StorageCall D → Prop
  | uploadStory _ mediaType fileName userID, uploadStory _ mediaType' fileName' userID' =>
    mediaType = mediaType' ∧ NamesAgree userID fileName userID' fileName'
  | uploadMedia _ mediaType fileName userID, uploadMedia _ mediaType' fileName' userID' =>
    mediaType = mediaType' ∧ NamesAgree userID fileName userID' fileName'
  | _, _ => False

end StorageCall

/-- No asset of the run is overwritten: any two have different paths, and from its
    upload on, the object under the path of an asset is what was uploaded for it. -/
structure AssetsKept (calls : List (StorageCall D)) : Prop where
  different : calls.Pairwise fun call call' =>
    call.IsAsset → call'.IsAsset → call.putData.path ≠ call'.putData.path
  kept : ∀ calls₁ call calls₂ calls₃, calls = calls₁ ++ call :: (calls₂ ++ calls₃) →
    call.IsAsset →
      after nextObjects (fun _ => none) (calls₁ ++ call :: calls₂) call.putData.path =
        some call.putData.data

/-! ## Paths -/

/-- Assets in the same folder have the same path if they have the same type and
    their names agree. -/
theorem path_eq_iff {ref fileName fileName' : String} {data data' : D}
    {mediaType mediaType' : MediaType} {userID userID' : UID} (href : IsComponent ref) :
    (StorageService.putData ref data (StorageService.fileExtension mediaType) fileName
        userID).path =
      (StorageService.putData ref data' (StorageService.fileExtension mediaType') fileName'
        userID').path ↔
      mediaType = mediaType' ∧ NamesAgree userID fileName userID' fileName' := by
  have hlen : ('.' :: (StorageService.fileExtension mediaType).toList).length =
      ('.' :: (StorageService.fileExtension mediaType').toList).length := by
    cases mediaType <;> cases mediaType' <;> decide
  have htype : '.' :: (StorageService.fileExtension mediaType).toList =
      '.' :: (StorageService.fileExtension mediaType').toList ↔ mediaType = mediaType' := by
    cases mediaType <;> cases mediaType' <;> decide
  have hassoc : ∀ a b e : List Char, a ++ '_' :: timePart ++ '_' :: (b ++ e) =
      a ++ '_' :: timePart ++ '_' :: b ++ e := fun a b e => by simp
  rw [path_putData href (isComponent_fileExtension _),
    path_putData href (isComponent_fileExtension _), List.append_cancel_left_eq, List.cons.injEq,
    and_iff_right rfl, hassoc, hassoc, ← htype, NamesAgree, ← append_mark_inj_iff (by decide)]
  constructor
  · exact fun h => (List.append_inj' h hlen).symm
  · rintro ⟨hext, hname⟩
    rw [hext, hname]

/-- The folder is the first part of a path. -/
theorem path_ne_of_ref_ne {ref ref' fileName fileName' fileExtension fileExtension' : String}
    {data data' : D} {userID userID' : UID} (href : IsComponent ref) (href' : IsComponent ref')
    (h : ref.toList ≠ ref'.toList) (hext : IsComponent fileExtension)
    (hext' : IsComponent fileExtension') :
    (StorageService.putData ref data fileExtension fileName userID).path ≠
      (StorageService.putData ref' data' fileExtension' fileName' userID').path := by
  rw [path_putData href hext, path_putData href' hext', Ne,
    append_cons_inj href.notMem href'.notMem]
  exact fun heq => h heq.1

namespace StorageCall

variable {call call' : StorageCall D}

/-- Assets have the same path exactly if they agree. -/
theorem path_eq_iff_agree (h : call.IsAsset) (h' : call'.IsAsset) :
    call.putData.path = call'.putData.path ↔ call.Agree call' := by
  have hne : StorageService.storyRef.toList ≠ StorageService.mediaRef.toList := by decide
  cases call with
  | uploadImageToStorage data fileName userID => exact h.elim
  | uploadStory data mediaType fileName userID =>
    cases call' with
    | uploadImageToStorage data' fileName' userID' => exact h'.elim
    | uploadStory data' mediaType' fileName' userID' => exact path_eq_iff isComponent_storyRef
    | uploadMedia data' mediaType' fileName' userID' =>
      exact iff_of_false (path_ne_of_ref_ne isComponent_storyRef isComponent_mediaRef hne
        (isComponent_fileExtension _) (isComponent_fileExtension _)) id
  | uploadMedia data mediaType fileName userID =>
    cases call' with
    | uploadImageToStorage data' fileName' userID' => exact h'.elim
    | uploadStory data' mediaType' fileName' userID' =>
      exact iff_of_false (path_ne_of_ref_ne isComponent_mediaRef isComponent_storyRef hne.symm
        (isComponent_fileExtension _) (isComponent_fileExtension _)) id
    | uploadMedia data' mediaType' fileName' userID' => exact path_eq_iff isComponent_mediaRef

/-- Calls that agree are of assets. -/
theorem Agree.isAsset (h : call.Agree call') : call.IsAsset ∧ call'.IsAsset := by
  cases call <;> cases call' <;> first | exact h.elim | exact ⟨trivial, trivial⟩

/-- The picture of a profile is under no path of an asset. -/
theorem path_ne_of_not_isAsset (h : ¬ call.IsAsset) (h' : call'.IsAsset) :
    call.putData.path ≠ call'.putData.path := by
  have hext : IsComponent "jpg" := isComponent_fileExtension .image
  cases call with
  | uploadImageToStorage data fileName userID =>
    cases call' with
    | uploadImageToStorage data' fileName' userID' => exact h'.elim
    | uploadStory data' mediaType' fileName' userID' =>
      exact path_ne_of_ref_ne isComponent_imagesRef isComponent_storyRef (by decide) hext
        (isComponent_fileExtension _)
    | uploadMedia data' mediaType' fileName' userID' =>
      exact path_ne_of_ref_ne isComponent_imagesRef isComponent_mediaRef (by decide) hext
        (isComponent_fileExtension _)
  | uploadStory data mediaType fileName userID => exact absurd trivial h
  | uploadMedia data mediaType fileName userID => exact absurd trivial h

end StorageCall

/-! ## Runs -/

/-- What is under a path that is not uploaded to stays there. -/
theorem after_nextObjects_of_ne {calls : List (StorageCall D)} {s : Objects D} {path : List Char}
    (h : ∀ call ∈ calls, call.putData.path ≠ path) : after nextObjects s calls path = s path := by
  induction calls generalizing s with
  | nil => rfl
  | cons call calls ih =>
    rw [after_cons, ih fun call' hcall' => h call' (.tail _ hcall'), nextObjects,
      Function.update_of_ne (h call List.mem_cons_self).symm]

/-- Whatever is uploaded, assets keep their objects exactly if no two of the same
    kind and type have names that agree. -/
theorem assetsKept_iff (calls : List (StorageCall D)) :
    AssetsKept calls ↔ calls.Pairwise fun call call' => ¬ call.Agree call' := by
  constructor
  · refine fun h => h.different.imp fun {call call'} hne hagree => ?_
    obtain ⟨hasset, hasset'⟩ := hagree.isAsset
    exact hne hasset hasset' ((StorageCall.path_eq_iff_agree hasset hasset').2 hagree)
  · intro h
    have hdifferent : calls.Pairwise fun call call' =>
        call.IsAsset → call'.IsAsset → call.putData.path ≠ call'.putData.path :=
      h.imp fun hnot hasset hasset' heq =>
        hnot ((StorageCall.path_eq_iff_agree hasset hasset').1 heq)
    refine ⟨hdifferent, ?_⟩
    rintro calls₁ call calls₂ calls₃ rfl hasset
    -- Nothing uploaded later is put under the path: assets have others, and so have profiles.
    have hlater := (List.pairwise_cons.1 (List.pairwise_append.1 hdifferent).2.1).1
    rw [after_append, after_cons, after_nextObjects_of_ne, nextObjects, Function.update_self]
    intro call' hcall'
    by_cases hasset' : call'.IsAsset
    · exact (hlater call' (List.mem_append_left _ hcall') hasset hasset').symm
    · exact StorageCall.path_ne_of_not_isAsset hasset' hasset

/-- Ann and bob each send cem a picture, with the same title. -/
def sameTitle : List (StorageCall ℕ) :=
  SendMediaMessageViewController.onSendButtonTapped ⟨1, .image⟩ none "hi" "cem" ++
    SendMediaMessageViewController.onSendButtonTapped ⟨2, .image⟩ none "hi" "cem"

/-- The first message refers to the second picture. -/
theorem not_assetsKept_sameTitle : ¬ AssetsKept sameTitle := by
  intro h
  have hkept := h.kept [] (.uploadMedia 1 .image "hi" "cem") [.uploadMedia 2 .image "hi" "cem"] []
    rfl trivial
  have hpath : (StorageCall.uploadMedia 1 .image "hi" "cem").putData.path =
      (StorageCall.uploadMedia 2 .image "hi" "cem").putData.path := rfl
  rw [List.nil_append, after_cons, after_cons, after_nil, hpath, nextObjects,
    Function.update_self] at hkept
  cases hkept

end YoYo.Storage
