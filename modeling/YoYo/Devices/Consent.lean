import YoYo.Devices.Offered

/-!
# Consent

What two users are to each other is what they have requested. Two of them are
friends, or block each other, only after one has sent a request to the other and
that one has accepted one; and whoever blocks, or is blocked, is so by an action
of the one blocking. This holds of every entry in every version of the collection
(`entries_justified`), whatever the calls of the operations overwrite, in whatever
order, and whichever fail, and although no action looks at the status it changes:
what a screen offers is justified by what its user has read, and what an operation
writes by what it has read and what it was requested as.

So nobody is ever shown the stories of a user unless the two have agreed on being
friends (`stories_consented`).
-/

namespace YoYo.Devices

open DocStore Reads FriendService

variable {ops ops' : List FriendOp} {op : FriendOp} {x y uid : UID} {f : Friend}
  {l : Option (List Friend)} {l' : List Friend}

/-- The user `x` has sent a request to `y`. -/
def Requested (ops : List FriendOp) (x y : UID) : Prop :=
  ∃ sent received, .sendFriendRequest x y sent received ∈ ops

/-- The user `x` has accepted a request, after `y` has sent one to him. -/
def Accepted (ops : List FriendOp) (x y : UID) : Prop :=
  ∃ ops₁ ops₂, ops = ops₁ ++ .performActionForFriend x y .accept :: ops₂ ∧ Requested ops₁ y x

/-- One of the two has accepted, after the other has sent a request. -/
def Consented (ops : List FriendOp) (x y : UID) : Prop := Accepted ops x y ∨ Accepted ops y x

/-- The user `x` has blocked `y`. -/
def HasBlocked (ops : List FriendOp) (x y : UID) : Prop :=
  .performActionForFriend x y .block ∈ ops

/-- An entry of the list of the user `uid` is of another user, and says no more
    than the two have requested. -/
def Justified (ops : List FriendOp) (uid : UID) (f : Friend) : Prop :=
  f.uid ≠ uid ∧
    match f.status with
    | .requestSend => Requested ops uid f.uid
    | .requested => Requested ops f.uid uid
    | .accpeted => Consented ops uid f.uid
    | .unblock => Consented ops uid f.uid ∧ HasBlocked ops uid f.uid
    | .blocked => Consented ops uid f.uid ∧ HasBlocked ops f.uid uid

/-- What an operation may rely on, if it has been offered. -/
def Granted (ops : List FriendOp) : FriendOp → Prop
  | .sendFriendRequest a b _ _ => b ≠ a ∧ Requested ops a b
  | .performActionForFriend a b .accept | .performActionForFriend a b .unblock =>
    Consented ops a b
  | .performActionForFriend a b .block => Consented ops a b ∧ HasBlocked ops a b
  | .performActionForFriend _ _ .cancel | .performActionForFriend _ _ .unfriend => True

/-! ## More requests -/

theorem Consented.symm (h : Consented ops x y) : Consented ops y x := Or.symm h

theorem Requested.mono (h : Requested ops x y) (hle : ops <+: ops') : Requested ops' x y :=
  h.imp fun _ => Exists.imp fun _ hmem => hle.subset hmem

theorem Accepted.mono (h : Accepted ops x y) (hle : ops <+: ops') : Accepted ops' x y := by
  obtain ⟨ops₁, ops₂, rfl, hrequested⟩ := h
  obtain ⟨ops₃, rfl⟩ := hle
  exact ⟨ops₁, ops₂ ++ ops₃, by simp, hrequested⟩

theorem Consented.mono (h : Consented ops x y) (hle : ops <+: ops') : Consented ops' x y :=
  h.imp (·.mono hle) (·.mono hle)

theorem HasBlocked.mono (h : HasBlocked ops x y) (hle : ops <+: ops') : HasBlocked ops' x y :=
  hle.subset h

theorem Justified.mono (h : Justified ops uid f) (hle : ops <+: ops') : Justified ops' uid f := by
  refine ⟨h.1, ?_⟩
  have hstatus := h.2
  cases hf : f.status with
  | requestSend | requested =>
    simp only [hf] at hstatus ⊢
    exact hstatus.mono hle
  | accpeted =>
    simp only [hf] at hstatus ⊢
    exact hstatus.mono hle
  | unblock | blocked =>
    simp only [hf] at hstatus ⊢
    exact ⟨hstatus.1.mono hle, hstatus.2.mono hle⟩

theorem Granted.mono (h : Granted ops op) (hle : ops <+: ops') : Granted ops' op := by
  cases op with
  | sendFriendRequest => exact ⟨h.1, h.2.mono hle⟩
  | performActionForFriend a b action =>
    cases action with
    | accept | unblock => exact Consented.mono h hle
    | block => exact ⟨h.1.mono hle, h.2.mono hle⟩
    | cancel | unfriend => trivial

/-! ## What an operation writes -/

/-- An entry of a list after an action was there before, or is one the action was
    performed on. -/
theorem mem_performAction {l : List Friend} {action : FriendAction} {blockedByMe : Bool}
    (h : performAction l uid action blockedByMe = some l') (hf : f ∈ l') :
    f ∈ l ∨ (∃ f₀ ∈ l, f₀.uid = uid) ∧ f.uid = uid ∧ action.removes = false ∧
      f.status = newStatus action blockedByMe := by
  cases hremoves : action.removes with
  | false =>
    rw [performAction_of_not_removes hremoves, Option.some.injEq] at h
    subst h
    obtain ⟨f₀, hf₀, rfl⟩ := List.mem_map.1 hf
    by_cases huid : f₀.uid = uid
    · exact .inr ⟨⟨f₀, hf₀, huid⟩, by simp [huid], rfl, by simp [huid]⟩
    · exact .inl (by simpa [huid] using hf₀)
  | true =>
    -- What is removed is the entry at the index found, or the app traps.
    rw [performAction, if_neg (by cases action <;> simp_all [FriendAction.removes])] at h
    simp only at h
    split at h
    · cases h
      exact .inl (List.mem_of_mem_eraseIdx hf)
    · cases h

/-- An entry an action has been performed on is justified, in both lists: by the
    consent of the two, and the block if it is one. -/
theorem justified_newStatus {action : FriendAction}
    (hgrant : Granted ops (.performActionForFriend x y action)) (hremoves : action.removes = false)
    (hne : y ≠ x) :
    (∀ f : Friend, f.uid = y → f.status = newStatus action (action = .block) →
      Justified ops x f) ∧
    ∀ f : Friend, f.uid = x → f.status = newStatus action false → Justified ops y f := by
  cases action with
  -- These remove the entry: nothing is left to justify.
  | cancel | unfriend => cases hremoves
  | accept | unblock =>
    refine ⟨fun f huid hstatus => ?_, fun f huid hstatus => ?_⟩
    · subst huid
      simp only [Justified, hstatus]
      exact ⟨hne, hgrant⟩
    · subst huid
      simp only [Justified, hstatus]
      exact ⟨hne.symm, Consented.symm hgrant⟩
  | block =>
    refine ⟨fun f huid hstatus => ?_, fun f huid hstatus => ?_⟩
    · subst huid
      simp only [Justified, hstatus]
      exact ⟨hne, hgrant⟩
    · subst huid
      simp only [Justified, hstatus]
      exact ⟨hne.symm, hgrant.1.symm, hgrant.2⟩

/-- What the first half of an operation writes is justified, if what it has read is. -/
theorem justified_myHalf (hgrant : Granted ops op)
    (hl : ∀ f ∈ l.getD [], Justified ops op.myUID f) (h : op.myHalf l = .ok l') :
    ∀ f ∈ l', Justified ops op.myUID f := by
  intro f hf
  cases op with
  | sendFriendRequest a b sent received =>
    cases h
    rcases List.mem_append.1 hf with hf | hf
    · exact hl f hf
    · rw [List.mem_singleton.1 hf]
      exact hgrant
  | performActionForFriend a b action =>
    cases l with
    | none => cases h
    | some l =>
      simp only [FriendOp.myHalf] at h
      split at h
      · cases h
      · rename_i l₁ hl₁
        cases h
        rcases mem_performAction hl₁ hf with hf | ⟨⟨f₀, hf₀, hfriend⟩, huid, hremoves, hstatus⟩
        · exact hl f hf
        · exact (justified_newStatus hgrant hremoves (hfriend ▸ (hl f₀ hf₀).1)).1 f huid hstatus

/-- So for the second half. -/
theorem justified_friendHalf (hgrant : Granted ops op)
    (hl : ∀ f ∈ l.getD [], Justified ops op.friendUID f) (h : op.friendHalf l = .ok l') :
    ∀ f ∈ l', Justified ops op.friendUID f := by
  intro f hf
  cases op with
  | sendFriendRequest a b sent received =>
    cases h
    rcases List.mem_append.1 hf with hf | hf
    · exact hl f hf
    · rw [List.mem_singleton.1 hf]
      exact ⟨hgrant.1.symm, hgrant.2⟩
  | performActionForFriend a b action =>
    cases l with
    | none => cases h
    | some l =>
      simp only [FriendOp.friendHalf] at h
      split at h
      · cases h
      · rename_i l₁ hl₁
        cases h
        rcases mem_performAction hl₁ hf with hf | ⟨⟨f₀, hf₀, hfriend⟩, huid, hremoves, hstatus⟩
        · exact hl f hf
        · have hne : a ≠ b := hfriend ▸ (hl f₀ hf₀).1
          exact (justified_newStatus hgrant hremoves hne.symm).2 f huid hstatus

/-! ## Documents -/

/-- The entries of a document that decodes are justified. -/
def DocJustified (ops : List FriendOp) (a : FriendsDoc) : Prop :=
  ∀ id l, FriendsList.decode ⟨id, a⟩ = some l → ∀ f ∈ l.friends, Justified ops l.uid f

theorem DocJustified.mono {a : FriendsDoc} (h : DocJustified ops a) (hle : ops <+: ops') :
    DocJustified ops' a :=
  fun id l hl f hf => (h id l hl f hf).mono hle

theorem docJustified_encode {l : FriendsList} (h : ∀ f ∈ l.friends, Justified ops l.uid f) :
    DocJustified ops l.encode := by
  intro id l' hl'
  rw [FriendsList.decode_encode, Option.some.injEq] at hl'
  subst hl'
  exact h

/-- The documents read are justified, and of the user asked for. -/
def ReadsJustified (w : Record) : (c : FriendsCall) → Answer c → Prop
  | .getDocuments uid, some documents =>
    ∀ d ∈ documents, DocJustified w.requested d.data ∧ ofUser uid d.data
  | .getDocuments _, none | .addDocument _, _ | .setData _ _, _ => True

/-- What is written is justified. -/
def WritesJustified (w : Record) : FriendsCall → Prop
  | .getDocuments _ => True
  | .addDocument a | .setData _ a => DocJustified w.requested a

/-- An operation, or what is left of it, writes what is justified. -/
abbrev Writing (w : Record) (p : FriendsProg) : Prop :=
  p.Along ReadsJustified WritesJustified (fun _ _ => True) w

theorem WritesJustified.mono {w w' : Record} (c : FriendsCall) (hle : w ≤ w')
    (h : WritesJustified w c) : WritesJustified w' c := by
  cases c with
  | getDocuments => trivial
  | addDocument a | setData id a => exact DocJustified.mono h hle.2

theorem writing_updateFriendsList {w : Record} {friendsList : FriendsList}
    {k : Bool → FriendsProg}
    (hl : ∀ f ∈ friendsList.friends, Justified w.requested friendsList.uid f)
    (hk : ∀ w', w ≤ w' → ∀ success, Writing w' (k success)) :
    Writing w (YoYo.DatabaseService.updateFriendsList friendsList k) := by
  refine ⟨trivial, fun w₁ hle a _ => ?_⟩
  cases a with
  | none => exact hk w₁ hle false
  | some documents =>
    -- It is added if there is no document of the user, and else replaces the first.
    have hwrites : ∀ c : FriendsCall, c = .addDocument friendsList.encode ∨
        (∃ id, c = .setData id friendsList.encode) → WritesJustified w₁ c := by
      rintro c (rfl | ⟨id, rfl⟩)
      · exact (docJustified_encode hl).mono hle.2
      · exact (docJustified_encode hl).mono hle.2
    simp only
    split
    · exact ⟨hwrites _ (.inl rfl), fun w₂ hle' success _ => hk w₂ (hle.trans hle') success⟩
    · split
      · rename_i id _
        exact ⟨hwrites _ (.inr ⟨id, rfl⟩), fun w₂ hle' success _ => hk w₂ (hle.trans hle') success⟩
      · exact hk w₁ hle false

/-- A half writes what is justified, if what it makes of a list is. -/
theorem writing_half {w : Record} {half : Option (List Friend) → Except Report (List Friend)}
    {k : Bool → FriendsProg}
    (hhalf : ∀ w', w ≤ w' → ∀ l l', (∀ f ∈ l.getD [], Justified w'.requested uid f) →
      half l = .ok l' → ∀ f ∈ l', Justified w'.requested uid f)
    (hk : ∀ w', w ≤ w' → ∀ success, Writing w' (k success)) :
    Writing w (FriendOp.half half uid k) := by
  rw [FriendOp.half, YoYo.fetchFriendsList_eq]
  refine ⟨trivial, fun w₁ hle a ha => ?_⟩
  cases a with
  | none => trivial
  | some documents =>
    cases hlist : (documents.filterMap FriendsList.decode).head? with
    | none =>
      simp only [hlist, Option.map_none]
      cases hhalf' : half none with
      | error r => trivial
      | ok friends =>
        refine writing_updateFriendsList ?_ fun w₂ hle' => hk w₂ (hle.trans hle')
        exact hhalf w₁ hle none friends (fun _ hf => absurd hf List.not_mem_nil) hhalf'
    | some friendsList =>
      -- The list read is that of a document of the user.
      obtain ⟨d, hd, hdecode⟩ := List.mem_filterMap.1 (List.mem_of_head? hlist)
      have huid : friendsList.uid = uid := by
        have huser := DocField.is_iff.1 (ha d hd).2
        rw [(FriendsList.of_decode hdecode).2, DocField.value.injEq] at huser
        exact huser
      have hread : ∀ f ∈ friendsList.friends, Justified w₁.requested uid f :=
        huid ▸ (ha d hd).1 d.id friendsList hdecode
      simp only [hlist, Option.map_some]
      cases hhalf' : half (some friendsList.friends) with
      | error r => trivial
      | ok friends =>
        refine writing_updateFriendsList ?_ fun w₂ hle' => hk w₂ (hle.trans hle')
        -- Rewriting a list keeps its user.
        simp only [FriendsList.rewritten, huid]
        exact hhalf w₁ hle (some friendsList.friends) friends hread hhalf'

/-- **An operation that has been offered** writes what is justified. -/
theorem writing_prog {w : Record} (hgrant : Granted w.requested op) : Writing w op.prog := by
  rw [FriendOp.prog_eq]
  refine writing_half (fun w' hle l l' => justified_myHalf (hgrant.mono hle.2))
    fun w₁ hle success => ?_
  refine writing_half (fun w' hle' l l' => ?_) fun _ _ _ => trivial
  exact justified_friendHalf (hgrant.mono (hle.2.trans hle'.2))

/-! ## Versions -/

/-- All entries stored are justified. -/
def VersionJustified (ops : List FriendOp) (v : FriendsStore) : Prop :=
  ∀ d ∈ v.docs, DocJustified ops d.data

theorem VersionJustified.mono {v : FriendsStore} (h : VersionJustified ops v)
    (hle : ops <+: ops') : VersionJustified ops' v :=
  fun d hd => (h d hd).mono hle

/-- So is every entry of the book. -/
theorem VersionJustified.of_book {v : FriendsStore} (h : VersionJustified ops v)
    (hf : f ∈ (book v uid).getD []) : Justified ops uid f := by
  cases hlist : listOf v uid with
  | none =>
    rw [book, hlist] at hf
    exact absurd hf List.not_mem_nil
  | some friendsList =>
    rw [book, hlist] at hf
    obtain ⟨huid, d, hd, -, hdecode⟩ := of_listOf hlist
    exact huid ▸ h d (Collection.mem_query.1 hd).1 d.id friendsList hdecode f hf

/-- A call answered by a version, and what it makes of it. -/
theorem justified_answer {w : Record} {g : AutoId DocID} {v : FriendsStore}
    (hv : VersionJustified w.requested v) (success : Bool) (c : FriendsCall)
    (hc : WritesJustified w c) :
    ReadsJustified w c (answer g success v c).1 ∧
      VersionJustified w.requested (answer g success v c).2 := by
  cases c with
  | getDocuments uid =>
    refine ⟨?_, hv⟩
    cases success with
    | false => trivial
    | true =>
      intro d hd
      obtain ⟨hmem, hofUser⟩ := Collection.mem_query.1 hd
      exact ⟨hv d hmem, hofUser⟩
  | addDocument a =>
    refine ⟨trivial, ?_⟩
    cases success with
    | false => exact hv
    | true =>
      intro d hd
      rcases Collection.mem_addDocument.1 hd with rfl | hd
      · exact hc
      · exact hv d hd
  | setData id a =>
    refine ⟨trivial, ?_⟩
    cases success with
    | false => exact hv
    | true =>
      intro d hd
      rcases Collection.mem_setData.1 hd with rfl | ⟨hd, -⟩
      · exact hc
      · exact hv d hd

/-- What a screen offers for an entry is what the entry justifies. -/
theorem Justified.granted (h : Justified ops x f) (hshown : f.status ≠ .blocked)
    {action : FriendAction} (hoffers : (cellForRowAt f.status).offers action) :
    Granted (ops ++ [.performActionForFriend x f.uid action])
      (.performActionForFriend x f.uid action) := by
  have hle : ops <+: ops ++ [.performActionForFriend x f.uid action] := List.prefix_append _ _
  have hstatus := h.2
  cases action with
  | cancel | unfriend => trivial
  | accept =>
    cases hf : f.status with
    | requested =>
      simp only [hf] at hstatus
      exact .inl ⟨ops, [], rfl, hstatus⟩
    | _ => simp [hf, cellForRowAt, HiddenButtons.offers] at hoffers
  | unblock =>
    cases hf : f.status with
    | unblock =>
      simp only [hf] at hstatus
      exact hstatus.1.mono hle
    | _ => simp [hf, cellForRowAt, HiddenButtons.offers] at hoffers
  | block =>
    cases hf : f.status with
    | accpeted =>
      simp only [hf] at hstatus
      exact ⟨hstatus.mono hle, List.mem_append_right _ (List.mem_singleton_self _)⟩
    -- A cell would offer it here, but those blocked are not shown.
    | blocked => exact absurd hf hshown
    | _ => simp [hf, cellForRowAt, HiddenButtons.offers] at hoffers

/-- An operation that has been offered, by versions that are justified, is granted. -/
theorem HasOffered.granted {h : History} (hop : HasOffered h op)
    (hversions : ∀ v ∈ h.seen, VersionJustified ops v) : Granted (ops ++ [op]) op := by
  cases op with
  | sendFriendRequest a b sent received =>
    obtain ⟨v, hv, hoffers⟩ := hop
    exact ⟨(SearchService.offers_iff.1 hoffers).1, sent, received,
      List.mem_append_right _ (List.mem_singleton_self _)⟩
  | performActionForFriend a b action =>
    obtain ⟨v, hv, f, hf, rfl, hoffers⟩ := hop
    obtain ⟨hmem, hshown⟩ := List.mem_filter.1 hf
    exact ((hversions v hv).of_book hmem).granted (by simpa using hshown) hoffers

/-! ## Runs -/

namespace App

variable {ι : Type} {contains : String → String → Bool} {lowercased : String → String}
  {g : AutoId DocID} {me : ι → UID} {s : App ι} {e : AppEvent ι}

/-- All versions are justified, and so is what is left of the operations running. -/
structure Accounted (s : App ι) : Prop where
  versions : ∀ v ∈ s.friends.seen, VersionJustified s.requested v
  running : ∀ r ∈ s.running, Writing s.record r.prog

theorem accounted_start (users : UsersStore) : (start .empty users : App ι).Accounted where
  versions v hv := by
    rw [start, Versions.mem_seen_init] at hv
    subst hv
    exact fun d hd => absurd hd List.not_mem_nil
  running r hr := absurd hr List.not_mem_nil

/-- Only the versions, the requests, and the operations running matter. -/
theorem Accounted.congr {s' : App ι} (hs : s.Accounted) (hrecord : s'.record = s.record)
    (hrunning : s'.running = s.running) : s'.Accounted := by
  have hfriends : s'.friends = s.friends := congrArg Record.friends hrecord
  have hrequested : s'.requested = s.requested := congrArg Record.requested hrecord
  constructor
  · rw [hfriends, hrequested]
    exact hs.versions
  · rw [hrunning, hrecord]
    exact hs.running

/-- An operation is requested that has been offered. -/
theorem Accounted.run (hs : s.Accounted) {request : ι × Option ℕ × FriendOp}
    (hrequest : HasOffered s.friends request.2.2) : (s.run request).Accounted where
  versions v hv := (hs.versions v hv).mono (List.prefix_append _ _)
  running r hr := by
    have hle : s.record ≤ (s.run request).record :=
      ⟨List.Subset.refl _, List.prefix_append _ _⟩
    rcases List.mem_append.1 hr with hr | hr
    · exact (hs.running r hr).mono WritesJustified.mono (fun _ _ h => h) hle
    · rw [List.mem_singleton.1 hr]
      exact writing_prog (hrequest.granted hs.versions)

variable [DecidableEq ι]

/-- An operation makes its next call. -/
theorem Accounted.called (hs : s.Accounted) (n : ℕ) (success : Bool) :
    (s.called g n success).Accounted := by
  rw [App.called]
  split
  · exact hs
  · rename_i operation hoperation
    have hwriting := hs.running operation (List.mem_of_getElem? hoperation)
    split
    · exact hs
    · rename_i c k hprog
      rw [hprog] at hwriting
      obtain ⟨hreads, hversion⟩ := justified_answer (g := g)
        (hs.versions s.friends.now (Versions.now_mem_seen _)) success c hwriting.1
      have hle : s.record ≤ ⟨s.friends.push (answer g success s.friends.now c).2, s.requested⟩ :=
        ⟨List.subset_cons_self _ _, List.prefix_rfl⟩
      have hnext : App.Accounted { s with
          friends := s.friends.push (answer g success s.friends.now c).2
          running := s.running.set n
            { operation with prog := k (answer g success s.friends.now c).1 } } := by
        constructor
        · intro v hv
          rcases Versions.mem_seen_push.1 hv with rfl | hv
          · exact hversion
          · exact hs.versions v hv
        · intro r hr
          rcases List.mem_or_eq_of_mem_set hr with hr | rfl
          · exact (hs.running r hr).mono WritesJustified.mono (fun _ _ h => h) hle
          · exact (hwriting.2 _ le_rfl _ hreads).mono WritesJustified.mono (fun _ _ h => h) hle
      simp only
      split
      · exact hnext
      -- Reporting the end changes the device only.
      · exact hnext.congr (record_ended _ _) (running_ended _ _)

theorem Accounted.next (hs : s.Accounted) (hsound : s.Sound me s.record) (e : AppEvent ι) :
    (s.next contains lowercased g me e).Accounted := by
  cases e with
  | friendsScreen | addFriendScreen | usersChanged => exact hs.congr rfl rfl
  | called n success => exact hs.called n success
  | buttonTapped | addButtonTapped =>
    rw [App.next]
    cases hrequest : s.request me _ with
    | none => exact hs
    | some request => exact hs.run (hsound.hasOffered hrequest)

variable (contains lowercased g me)

/-- Whatever has happened, all versions are justified. -/
theorem accounted_after (users : UsersStore) (es : List (AppEvent ι)) :
    (after (App.next contains lowercased g me) (start .empty users) es).Accounted := by
  refine (AllSteps.invariant (I := fun s : App ι => s.Accounted ∧ s.Sound me s.record)
    (P := fun _ _ => True) (fun s e hs _ => ?_) ⟨accounted_start users, sound_start _ users⟩
    (allSteps_iff_forall.2 fun _ _ _ _ => trivial)).1
  exact ⟨hs.1.next hs.2 e, (hs.2.next e).mono (record_le_next s e)⟩

/-- In every version, every entry of every document says no more than has been requested. -/
def EntriesJustified (s : App ι) : Prop :=
  ∀ v ∈ s.friends.seen, ∀ d ∈ v.docs, ∀ l, FriendsList.decode d = some l →
    ∀ f ∈ l.friends, Justified s.requested l.uid f

/-- **Nobody is a friend without consent**: in every run, of any number of devices,
    every entry there is, in any version, is justified by what has been requested. -/
theorem entries_justified (users : UsersStore) (es : List (AppEvent ι)) :
    (after (App.next contains lowercased g me) (start .empty users) es).EntriesJustified := by
  intro v hv d hd l hl f hf
  exact (accounted_after contains lowercased g me users es).versions v hv d hd d.id l hl f hf

end App

/-! ## Stories -/

/-- An entry of friends' stories is of one of the users asked for, and has no
    stories but his. -/
def OwnStories (uids : List UID) (entry : FriendStory) : Prop :=
  entry.userModel.data.userID ∈ uids ∧ ∀ stories, entry.stories = some stories →
    ∀ story ∈ stories, story.data.uid = entry.userModel.data.userID

/-- The entries of a reply are. -/
def EntriesOf (uids : List UID) (ending : Ending) : Prop :=
  ∀ entries error, ending = .delivered (.fetchFriendsStory entries error) →
    ∀ entry ∈ entries, OwnStories uids entry

theorem ownStories_friendsStory {uids : List UID} {userModels : List Profile}
    {stories : List (Doc DocID Story)} {entries : List FriendStory}
    (h : StoryService.friendsStory userModels stories uids = some entries) :
    ∀ entry ∈ entries, OwnStories uids entry := by
  rw [StoryService.friendsStory, Option.map_eq_some_iff] at h
  obtain ⟨all, hall, rfl⟩ := h
  rw [mapM_eq_some_iff] at hall
  intro entry hentry
  have hfound : some entry ∈ all.map some := List.mem_map_of_mem (List.mem_filter.1 hentry).1
  rw [← hall, List.mem_map] at hfound
  obtain ⟨uid, huid, hfound⟩ := hfound
  obtain ⟨userModel, hprofile, rfl⟩ := Option.map_eq_some_iff.1 hfound
  have huser := (of_profileOf hprofile).2
  refine ⟨huser ▸ huid, fun stories' heq story hstory => ?_⟩
  cases heq
  simpa [huser] using (List.mem_filter.1 hstory).2

/-- Without entries there is nothing to be said. -/
theorem entriesOf_nil (uids : List UID) (error : Option Error) :
    EntriesOf uids (.delivered (.fetchFriendsStory [] error)) := by
  intro entries error' heq entry hentry
  cases heq
  exact absurd hentry List.not_mem_nil

/-- What is delivered is of the friends in the list read, whatever is read of
    their profiles and stories, and whenever. -/
theorem entriesOf_run {uid : UID} {today : Date} {v : FriendsStore}
    {answers : ℕ → (c : ReadCall) → ReadAnswer c}
    (hread : answers 0 (.friendsOf uid) = .ok (v.query (ofUser uid))) :
    EntriesOf (((listOf v uid).map StoryService.acceptedUIDs).getD [])
      ((StoryService.fetchMyFriendsStories uid today).run answers).2 := by
  rw [StoryService.fetchMyFriendsStories, Reads.fetchFriendsList_eq, Prog.run_call, hread]
  refine Prog.Ends.run (P := EntriesOf _) ?_
  simp only
  rw [← listOf]
  cases listOf v uid with
  | none => exact fun _ _ heq => by cases heq
  | some friendsList =>
    simp only [Option.map_some, Option.getD_some, Reads.DatabaseService.fetchUserModels]
    split
    · rw [Prog.ends_call]
      intro userDocs
      cases userDocs with
      | error error => exact entriesOf_nil _ _
      | ok userDocs =>
        intro storyDocs
        cases storyDocs with
        | error error => exact entriesOf_nil _ _
        | ok storyDocs =>
          simp only
          split
          · exact fun _ _ heq => by cases heq
          · rename_i entries hentries
            intro entries' error heq
            cases heq
            exact ownStories_friendsStory hentries
    · exact fun _ _ heq => by cases heq

/-- **Nobody is shown the stories of a user without consent**: whatever version the
    list of friends is read in, and whatever is read of profiles and stories, and
    whenever, what is delivered are stories of users who have agreed with the one
    reading them on being friends. -/
theorem stories_consented {ι : Type} [DecidableEq ι] (contains : String → String → Bool)
    (lowercased : String → String) (g : AutoId DocID) (me : ι → UID) (users : UsersStore)
    (es : List (AppEvent ι)) {v : FriendsStore}
    (hv : v ∈ (after (App.next contains lowercased g me) (.start .empty users) es).friends.seen)
    {uid : UID} {today : Date} {answers : ℕ → (c : ReadCall) → ReadAnswer c}
    (hread : answers 0 (.friendsOf uid) = .ok (v.query (ofUser uid)))
    {entries : List FriendStory} {error : Option Error}
    (h : ((Request.fetchMyFriendsStories uid today).prog.run answers).2 =
      .delivered (.fetchFriendsStory entries error)) :
    ∀ entry ∈ entries, ∃ friendUID,
      Consented (after (App.next contains lowercased g me) (.start .empty users) es).requested uid
        friendUID ∧
      entry.userModel.data.userID = friendUID ∧ ∀ stories, entry.stories = some stories →
        ∀ story ∈ stories, story.data.uid = friendUID := by
  intro entry hentry
  obtain ⟨hfriend, hstories⟩ := entriesOf_run hread entries error h entry hentry
  refine ⟨_, ?_, rfl, hstories⟩
  have hjustified :=
    (App.accounted_after contains lowercased g me users es).versions v hv
  cases hlist : listOf v uid with
  | none =>
    rw [hlist] at hfriend
    exact absurd hfriend List.not_mem_nil
  | some friendsList =>
    rw [hlist] at hfriend
    obtain ⟨f, hf, huid⟩ := List.mem_map.1 hfriend
    obtain ⟨hf, hstatus⟩ := List.mem_filter.1 hf
    have hbook : f ∈ (book v uid).getD [] := by
      rw [book, hlist]
      exact hf
    have hjust := (hjustified.of_book hbook).2
    -- Stories are asked for of those accepted only.
    rw [of_decide_eq_true hstatus] at hjust
    exact huid ▸ hjust

/-- Ann and Bob have profiles. -/
def annAndBob : UsersStore :=
  DatabaseService.saveUserModel succId ⟨"Bob", 0, "bob.jpg", "bob", "bob@yoyo"⟩ <|
    DatabaseService.saveUserModel succId ⟨"Ann", 0, "ann.jpg", "ann", "ann@yoyo"⟩ .empty

/-- The device of Ann, and that of Bob. -/
def annOrBob (bobs : Bool) : UID := if bobs then "bob" else "ann"

/-- Ann searches for Bob, and sends him a request. -/
def requesting : List (AppEvent Bool) :=
  [.addFriendScreen false (.searchButtonClicked "Bob"),
    .addFriendScreen false (.answered 0 none), .addFriendScreen false (.answered 0 none),
    .addFriendScreen false (.cellForRowAt 0 0), .addButtonTapped false 0 1 2]

/-- He is shown it, and accepts it. -/
def accepting : List (AppEvent Bool) :=
  [.friendsScreen true (.detectFriendsChange true),
    .friendsScreen true (.answered 0 none), .friendsScreen true (.answered 0 none),
    .friendsScreen true .reloadData, .friendsScreen true (.cellForRowAt 0 0),
    .buttonTapped true 0 .accept]

/-- All calls of an operation. -/
def completing (operation : ℕ) : List (AppEvent Bool) := .replicate 6 (.called operation true)

/-- The app then. -/
def befriended : App Bool :=
  after (App.next (fun s text => s = text) id succId annOrBob) (.start .empty annAndBob)
    (requesting ++ completing 0 ++ (accepting ++ completing 1))

/-- A story of Bob. -/
def bobsStory : Story := ⟨"bob", "Hi", 10, "hi.jpg", [], .image⟩

/-- What Ann is delivered then: the story of Bob. -/
def annsStories : List FriendStory :=
  [⟨⟨2, ⟨"Bob", 0, "bob.jpg", "bob", "bob@yoyo"⟩⟩, some [⟨1, bobsStory⟩]⟩]

/-- What her queries are answered then. -/
def annsAnswers (_ : ℕ) (c : ReadCall) : ReadAnswer c :=
  let stories := Collection.addDocument .empty succId bobsStory.encode
  (Reads.answer none ⟨befriended.friends.now, annAndBob, stories, .empty⟩ c).1

/-- She is shown it as the two have agreed. -/
theorem stories_consented_befriended : Consented befriended.requested "ann" "bob" := by
  have hread : annsAnswers 0 (.friendsOf "ann") =
      .ok (befriended.friends.now.query (ofUser "ann")) := rfl
  have hrun : ((Request.fetchMyFriendsStories "ann" 5).prog.run annsAnswers).2 =
      .delivered (.fetchFriendsStory annsStories none) := by decide +kernel
  obtain ⟨friendUID, hconsented, rfl, -⟩ := stories_consented _ _ _ _ _ _
    (Versions.now_mem_seen befriended.friends) hread hrun _ List.mem_cons_self
  exact hconsented

end YoYo.Devices
