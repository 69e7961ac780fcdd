import YoYo.Devices.Offered
import YoYo.Friends.Interleaving

/-!
# Operations apart from each other

The devices run operations at the same time, call by call. Where no operation is
requested on a list that one still running is to rewrite, this makes no difference:
the app then refines the histories, in which every operation runs at once
(`operations_serialize`). The history is that of the operations in the order of
their requests, each has been offered in it by then, every list in a version there
has been is that of a version of the history, and when all operations have ended,
the lists stored are those it ends with.

* `Progress`: how far an operation has come in doing what it does at once;
* `Serial`: what the runs keep.
-/

namespace YoYo

open DocStore DatabaseService

/-- The users whose lists an operation rewrites. -/
def FriendOp.users (op : FriendOp) : List UID := [op.myUID, op.friendUID]

variable {g : AutoId DocID} {s s' : FriendsStore} {b : Book} {op : FriendOp} {p : FriendsProg}

/-! ## One operation -/

/-- An operation leaves the lists of the others alone. -/
theorem FriendOp.onBook_of_not_mem {uid : UID} (h : uid ∉ op.users) :
    (op.onBook b).2 uid = b uid := by
  obtain ⟨hmy, hfriend⟩ : uid ≠ op.myUID ∧ uid ≠ op.friendUID := by
    simpa [FriendOp.users] using h
  rw [FriendOp.onBook]
  split
  · rfl
  · simp only
    split
    · exact Function.update_of_ne hmy _ _
    · exact (Function.update_of_ne hfriend _ _).trans (Function.update_of_ne hmy _ _)

/-- It does nothing if its first half ends it. -/
theorem FriendOp.onBook_of_error {r : Report} (h : op.myHalf (b op.myUID) = .error r) :
    (op.onBook b).2 = b := by
  rw [FriendOp.onBook, h]

/-- Its two halves, on the lists of two users. -/
theorem FriendOp.onBook_of_ok (hne : op.myUID ≠ op.friendUID) {mine : List Friend}
    (h : op.myHalf (b op.myUID) = .ok mine) :
    (op.onBook b).2 op.myUID = some mine ∧
      (op.onBook b).2 op.friendUID =
        match op.friendHalf (b op.friendUID) with
        | .error _ => b op.friendUID
        | .ok theirs => some theirs := by
  rw [FriendOp.onBook, h]
  simp only [Function.update_of_ne hne.symm]
  cases op.friendHalf (b op.friendUID) with
  | error r => exact ⟨Function.update_self _ _ _, Function.update_of_ne hne.symm _ _⟩
  | ok theirs =>
    exact ⟨(Function.update_of_ne hne _ _).trans (Function.update_self _ _ _),
      Function.update_self _ _ _⟩

/-- Where an operation is that has found the lists of its users as in the book `b`:
    before one of its writes, or at its end. -/
inductive Progress (b : Book) (op : FriendOp) (s : FriendsStore) (p : FriendsProg) : Prop
  | first (last : Option FriendsCall) (h : HalfStage op.myHalf op.myUID op.rest s p last)
    (hmine : book s op.myUID = b op.myUID) (htheirs : book s op.friendUID = b op.friendUID)
  | second (last : Option FriendsCall)
    (h : HalfStage op.friendHalf op.friendUID
      (fun success1 => .done (.reported (true && success1))) s p last)
    (mine : List Friend) (hhalf : op.myHalf (b op.myUID) = .ok mine)
    (hmine : book s op.myUID = some mine) (htheirs : book s op.friendUID = b op.friendUID)
  | finished (r : Report) (hp : p = .done r)
    (hmine : book s op.myUID = (op.onBook b).2 op.myUID)
    (htheirs : book s op.friendUID = (op.onBook b).2 op.friendUID)

namespace Progress

/-- It starts with the lists as they are. -/
theorem start (hmine : book s op.myUID = b op.myUID)
    (htheirs : book s op.friendUID = b op.friendUID) : Progress b op s op.prog :=
  .first none (op.prog_eq ▸ .start none) hmine htheirs

/-- At its end it has done what it does at once. -/
theorem of_result (hs : Kept s) (h : Progress b op s p) (hp : p.result ≠ none) :
    ∀ uid ∈ op.users, book s uid = (op.onBook b).2 uid := by
  have hdone : ∃ r, p = .done r := by
    cases p with
    | done r => exact ⟨r, rfl⟩
    | call c k => exact absurd rfl hp
  obtain ⟨r, rfl⟩ := hdone
  intro uid huid
  cases h with
  | first _ h => exact (h.not_done hs).elim
  | second _ h => exact (h.not_done hs).elim
  | finished _ _ hmine htheirs =>
    rcases List.mem_pair.1 huid with rfl | rfl
    · exact hmine
    · exact htheirs

/-- The other operations do not matter that leave its lists alone. -/
theorem stable (hs : Kept s) (h : Progress b op s p)
    (hquery : ∀ uid ∈ op.users, s'.query (ofUser uid) = s.query (ofUser uid)) :
    Progress b op s' p := by
  have hmy := hquery op.myUID (List.mem_pair.2 (.inl rfl))
  have hfriend := hquery op.friendUID (List.mem_pair.2 (.inr rfl))
  have hbook : ∀ {uid}, s'.query (ofUser uid) = s.query (ofUser uid) →
      book s' uid = book s uid := fun h => by rw [book, book, listOf, listOf, h]
  cases h with
  | first last h hmine htheirs =>
    exact .first last (h.stable hs fun _ => hmy) ((hbook hmy).trans hmine)
      ((hbook hfriend).trans htheirs)
  | second last h mine hhalf hmine htheirs =>
    exact .second last (h.stable hs fun _ => hfriend) mine hhalf ((hbook hmy).trans hmine)
      ((hbook hfriend).trans htheirs)
  | finished r hp hmine htheirs =>
    exact .finished r hp ((hbook hmy).trans hmine) ((hbook hfriend).trans htheirs)

/-- What a call leaves: a store with the lists of other users as they were, and those
    of its own two as they were, or as the operation makes them. -/
structure Left (b : Book) (op : FriendOp) (s s' : FriendsStore) : Prop where
  kept : Kept s'
  query : ∀ uid ∉ op.users, s'.query (ofUser uid) = s.query (ofUser uid)
  lists : ∀ uid ∈ op.users, book s' uid = book s uid ∨ book s' uid = (op.onBook b).2 uid

theorem Left.refl (hs : Kept s) : Left b op s s := ⟨hs, fun _ _ => rfl, fun _ _ => .inl rfl⟩

/-- A list is written as the operation makes it. -/
theorem Left.of_write (hs : Kept s) {owner : UID} (howner : owner ∈ op.users)
    {friends : List Friend} (hb : (op.onBook b).2 owner = some friends)
    (hw : write g s (.rewritten (listOf s owner) owner friends) = some s') :
    Left b op s s' ∧ book s' = Function.update (book s) owner (some friends) := by
  obtain ⟨s'', hw', hkept, hbook⟩ := hs.exists_write (g := g) owner friends
  rw [hw, Option.some.injEq] at hw'
  subst hw'
  refine ⟨⟨hkept, fun uid huid => ?_, fun uid _ => ?_⟩, hbook⟩
  · refine query_write_of_ne (rewritten_readBack s owner friends) hw ?_
    rw [rewritten_uid]
    rintro rfl
    exact huid howner
  · by_cases hu : uid = owner
    · subst hu
      rw [hbook, Function.update_self, hb]
      exact .inr rfl
    · rw [hbook, Function.update_of_ne hu]
      exact .inl rfl

/-- What the next call of an operation does. -/
theorem step (hs : Kept s) (hne : op.myUID ≠ op.friendUID) {c : FriendsCall}
    {kk : Answer c → FriendsProg} (h : Progress b op s (.call c kk)) :
    Progress b op (answer g true s c).2 (kk (answer g true s c).1) ∧
      Left b op s (answer g true s c).2 := by
  cases h with
  | first last h hmine htheirs =>
    rcases h.step (g := g) hs with ⟨hstore, hnext⟩ | ⟨mine, hf, -, hw, hkk⟩
    · rw [hstore]
      refine ⟨?_, .refl hs⟩
      rcases hnext with ⟨r, herr, hkk⟩ | hhalf
      · -- The first half has ended the operation.
        rw [hmine] at herr
        rw [hkk]
        refine .finished r rfl ?_ ?_
        · rw [FriendOp.onBook_of_error herr, hmine]
        · rw [FriendOp.onBook_of_error herr, htheirs]
      · exact .first _ hhalf hmine htheirs
    · -- The list of the user has been written.
      rw [hmine] at hf
      obtain ⟨hleft, hbook⟩ := Left.of_write hs (List.mem_pair.2 (.inl rfl))
        (FriendOp.onBook_of_ok hne hf).1 hw
      refine ⟨?_, hleft⟩
      rw [hkk]
      refine .second none (.start none) mine hf ?_ ?_
      · rw [hbook, Function.update_self]
      · rw [hbook, Function.update_of_ne hne.symm, htheirs]
  | second last h mine hhalf hmine htheirs =>
    obtain ⟨hmy, hfriend⟩ := FriendOp.onBook_of_ok hne hhalf
    rcases h.step (g := g) hs with ⟨hstore, hnext⟩ | ⟨theirs, hf, -, hw, hkk⟩
    · rw [hstore]
      refine ⟨?_, .refl hs⟩
      rcases hnext with ⟨r, herr, hkk⟩ | hhalf'
      · -- So has the second half.
        rw [htheirs] at herr
        rw [herr] at hfriend
        rw [hkk]
        exact .finished r rfl (hmine.trans hmy.symm) (htheirs.trans hfriend.symm)
      · exact .second _ hhalf' mine hhalf hmine htheirs
    · -- The list of the friend has been written.
      rw [htheirs] at hf
      rw [hf] at hfriend
      obtain ⟨hleft, hbook⟩ := Left.of_write hs (List.mem_pair.2 (.inr rfl)) hfriend hw
      refine ⟨?_, hleft⟩
      rw [hkk]
      refine .finished _ rfl ?_ ?_
      · rw [hbook, Function.update_of_ne hne, hmine, hmy]
      · rw [hbook, Function.update_self, hfriend]
  | finished r hp => cases hp

end Progress

/-! ## Histories -/

/-- Whether an operation has been offered is a matter of the lists there have been. -/
theorem Devices.HasOffered.of_lists {h h' : History} (hop : Devices.HasOffered h op)
    (hlists : ∀ v ∈ h.seen, ∀ uid, ∃ v' ∈ h'.seen, book v uid = book v' uid) :
    Devices.HasOffered h' op := by
  cases op with
  | sendFriendRequest x y sent received =>
    obtain ⟨v, hv, hoffers⟩ := hop
    obtain ⟨v', hv', hbook⟩ := hlists v hv x
    refine ⟨v', hv', ?_⟩
    rw [SearchService.offers_iff] at hoffers ⊢
    rwa [← hbook]
  | performActionForFriend x y action =>
    obtain ⟨v, hv, hoffers⟩ := hop
    obtain ⟨v', hv', hbook⟩ := hlists v hv x
    refine ⟨v', hv', ?_⟩
    rw [FriendsScreenOffers] at hoffers ⊢
    rwa [← hbook]

/-- Nobody is offered himself. -/
theorem History.Sane.ne_of_hasOffered {h : History} (hI : h.Sane)
    (hop : Devices.HasOffered h op) : op.myUID ≠ op.friendUID := by
  cases op with
  | sendFriendRequest x y sent received =>
    have hsearched : h.Searched (.sendFriendRequest x y sent received) := hop
    exact hsearched.ne
  | performActionForFriend x y action => exact hI.ne_of_tappable hop

/-- What is offered keeps histories sane. -/
theorem History.Sane.next_of_hasOffered {h : History} (hI : h.Sane)
    (hop : Devices.HasOffered h op) : (h.next g op).Sane := by
  obtain ⟨-, hbook, hkept⟩ := exec_refines (g := g) hI.kept op
  refine ⟨hkept, fun v hv => ?_⟩
  rcases Versions.mem_seen_push.1 hv with rfl | hv
  · rw [nextStore, hbook]
    exact (hI.noSelf _ (Versions.now_mem_seen h)).onBook (hI.ne_of_hasOffered hop)
  · exact hI.noSelf v hv

namespace Devices.App

/-! ## The app -/

variable {ι : Type} {contains : String → String → Bool} {lowercased : String → String}
  {me : ι → UID} {s : App ι} {e : AppEvent ι} {n : ℕ} {uid : UID}

/-- The `n`-th operation requested is running, with `p` left of it. -/
structure IsRunning (s : App ι) (n : ℕ) (p : FriendsProg) (op : FriendOp) : Prop where
  running : (s.running[n]?).map Running.prog = some p
  requested : s.requested[n]? = some op
  result : p.result = none

/-- The operations that have not ended. -/
def unfinished (s : App ι) : List FriendOp :=
  (s.running.zip s.requested).filterMap fun r => if r.1.prog.result = none then some r.2 else none

theorem mem_unfinished : op ∈ s.unfinished ↔ ∃ n p, s.IsRunning n p op := by
  rw [unfinished, List.mem_filterMap]
  constructor
  · rintro ⟨r, hr, hop⟩
    obtain ⟨n, hn⟩ := List.mem_iff_getElem?.1 hr
    obtain ⟨hrunning, hrequested⟩ := List.getElem?_zip_eq_some.1 hn
    split_ifs at hop with hresult
    rw [← Option.some.inj hop]
    exact ⟨n, r.1.prog, by rw [hrunning]; rfl, hrequested, hresult⟩
  · rintro ⟨n, p, hrunning, hrequested, hresult⟩
    obtain ⟨r, hr, rfl⟩ := Option.map_eq_some_iff.1 hrunning
    refine ⟨(r, op), List.mem_iff_getElem?.2 ⟨n, List.getElem?_zip_eq_some.2 ⟨hr, hrequested⟩⟩, ?_⟩
    rw [if_pos hresult]

/-- No call fails. -/
def Succeeds : AppEvent ι → Bool
  | .called _ success => success
  | .friendsScreen _ _ | .addFriendScreen _ _ | .buttonTapped _ _ _ | .addButtonTapped _ _ _ _
  | .usersChanged _ => true

/-- No operation is requested on a list that one running is to rewrite, and all
    calls succeed. -/
def KeepsApart (me : ι → UID) (s : App ι) (e : AppEvent ι) : Prop :=
  (∀ request ∈ s.request me e, ∀ op ∈ s.unfinished, ∀ uid ∈ op.users, uid ∉ request.2.2.users) ∧
    Succeeds e

instance (me : ι → UID) (s : App ι) (e : AppEvent ι) : Decidable (s.KeepsApart me e) :=
  inferInstanceAs (Decidable (_ ∧ _))

/-- The history of the operations in the order of their requests, each run at once. -/
def history (g : AutoId DocID) (s : App ι) : History := after (History.next g) .init s.requested

/-- What the runs keep: the history is one of operations offered, the lists there
    have been are those of its versions, the operations running have no user in
    common, each is on its way to the lists of its users in the history, and all
    other lists are those of the history. -/
structure Serial (g : AutoId DocID) (s : App ι) : Prop where
  kept : Kept s.friends.now
  length : s.running.length = s.requested.length
  sane : (s.history g).Sane
  offered : AllSteps (History.next g) HasOffered .init s.requested
  lists : ∀ v ∈ s.friends.seen, ∀ uid, ∃ v' ∈ (s.history g).seen, book v uid = book v' uid
  apart : ∀ n m p p' op op', s.IsRunning n p op → s.IsRunning m p' op' → n ≠ m →
    ∀ uid ∈ op.users, uid ∉ op'.users
  running : ∀ n p op, s.IsRunning n p op → op.myUID ≠ op.friendUID ∧ ∃ b,
    (∀ uid ∈ op.users, book (s.history g).now uid = (op.onBook b).2 uid) ∧
    Progress b op s.friends.now p
  rest : ∀ uid, (∀ op ∈ s.unfinished, uid ∉ op.users) →
    book s.friends.now uid = book (s.history g).now uid

theorem serial_start (users : UsersStore) : (start .empty users : App ι).Serial g where
  kept := kept_empty
  length := rfl
  sane := History.sane_init
  offered := trivial
  lists v hv _ := ⟨v, hv, rfl⟩
  apart _ _ _ _ _ _ h := by cases h.requested
  running _ _ _ h := by cases h.requested
  rest _ _ := rfl

/-- Only the collection, the operations running and those requested matter. -/
theorem Serial.congr {s' : App ι} (hs : s.Serial g) (hrecord : s'.record = s.record)
    (hrunning : s'.running = s.running) : s'.Serial g := by
  have hfriends : s'.friends = s.friends := congrArg Record.friends hrecord
  have hrequested : s'.requested = s.requested := congrArg Record.requested hrecord
  obtain ⟨friends, users, devices, running, requested⟩ := s
  obtain ⟨friends', users', devices', running', requested'⟩ := s'
  cases hfriends
  cases hrequested
  cases hrunning
  exact ⟨hs.kept, hs.length, hs.sane, hs.offered, hs.lists,
    fun n m p p' op op' h h' => hs.apart n m p p' op op' ⟨h.1, h.2, h.3⟩ ⟨h'.1, h'.2, h'.3⟩,
    fun n p op h => hs.running n p op ⟨h.1, h.2, h.3⟩, hs.rest⟩

/-- An operation that starts is running, with those that were. -/
theorem isRunning_run {request : ι × Option ℕ × FriendOp}
    (hlength : s.running.length = s.requested.length) :
    (s.run request).IsRunning n p op ↔
      s.IsRunning n p op ∨ n = s.requested.length ∧ p = request.2.2.prog ∧ op = request.2.2 := by
  have hresult : request.2.2.prog.result = none := by
    obtain ⟨kk, hhalf, -⟩ := half_eq request.2.2.myHalf request.2.2.myUID request.2.2.rest
    rw [FriendOp.prog_eq, hhalf]
    rfl
  rcases lt_trichotomy n s.requested.length with hn | rfl | hn
  · have hrunning : (s.run request).running[n]? = s.running[n]? :=
      List.getElem?_append_left (hlength.symm ▸ hn)
    have hrequested : (s.run request).requested[n]? = s.requested[n]? :=
      List.getElem?_append_left hn
    constructor
    · exact fun h => .inl ⟨hrunning ▸ h.running, hrequested ▸ h.requested, h.result⟩
    · rintro (h | ⟨rfl, -⟩)
      · exact ⟨hrunning.symm ▸ h.running, hrequested.symm ▸ h.requested, h.result⟩
      · exact absurd hn (lt_irrefl _)
  · have hrunning : (s.run request).running[s.requested.length]? =
        some ⟨request.1, request.2.1, request.2.2.prog⟩ := by
      rw [← hlength]
      exact List.getElem?_concat_length
    have hrequested : (s.run request).requested[s.requested.length]? = some request.2.2 :=
      List.getElem?_concat_length
    constructor
    · rintro ⟨hp, hop, -⟩
      rw [hrunning] at hp
      rw [hrequested] at hop
      exact .inr ⟨rfl, (Option.some.inj hp).symm, (Option.some.inj hop).symm⟩
    · rintro (h | ⟨-, rfl, rfl⟩)
      · exact absurd (List.getElem?_eq_some_iff.1 h.requested).1 (lt_irrefl _)
      · exact ⟨by rw [hrunning]; rfl, hrequested, hresult⟩
  · have hnone : ∀ op, s.requested[n]? ≠ some op := fun op h =>
      absurd (List.getElem?_eq_some_iff.1 h).1 hn.not_gt
    constructor
    · rintro ⟨-, hop, -⟩
      have hlt : n < (s.requested ++ [request.2.2]).length := (List.getElem?_eq_some_iff.1 hop).1
      rw [List.length_append, List.length_singleton] at hlt
      omega
    · rintro (h | ⟨rfl, -⟩)
      · exact absurd h.requested (hnone op)
      · exact absurd hn (lt_irrefl _)

/-- The history goes on with the operation requested. -/
theorem history_run (request : ι × Option ℕ × FriendOp) :
    (s.run request).history g = (s.history g).next g request.2.2 := after_append _ _ _

/-- An operation is requested, apart from those running. -/
theorem Serial.run (hs : s.Serial g) {request : ι × Option ℕ × FriendOp}
    (hop : HasOffered s.friends request.2.2)
    (hapart : ∀ op ∈ s.unfinished, ∀ uid ∈ op.users, uid ∉ request.2.2.users) :
    (s.run request).Serial g := by
  have hop' : HasOffered (s.history g) request.2.2 := hop.of_lists hs.lists
  have hbook : book ((s.history g).next g request.2.2).now =
      (request.2.2.onBook (book (s.history g).now)).2 := (exec_refines hs.sane.kept _).2.1
  have hold : ∀ n p op, s.IsRunning n p op → ∀ uid ∈ op.users, uid ∉ request.2.2.users :=
    fun n p op h => hapart op (mem_unfinished.2 ⟨n, p, h⟩)
  refine ⟨hs.kept, ?_, ?_, ?_, ?_, ?_, ?_, ?_⟩
  · rw [App.run, List.length_append, List.length_append, hs.length]
    rfl
  · rw [history_run]
    exact hs.sane.next_of_hasOffered hop'
  · exact allSteps_append.2 ⟨hs.offered, hop', trivial⟩
  · intro v hv uid
    obtain ⟨v', hv', hlist⟩ := hs.lists v hv uid
    rw [history_run]
    exact ⟨v', Versions.mem_seen_push.2 (.inr hv'), hlist⟩
  · intro n m p p' op op' h h' hnm uid huid
    rcases (isRunning_run hs.length).1 h with h | ⟨rfl, rfl, rfl⟩
    -- Of two running, at most one is the new one.
    · rcases (isRunning_run hs.length).1 h' with h' | ⟨rfl, rfl, rfl⟩
      · exact hs.apart n m p p' op op' h h' hnm uid huid
      · exact hold n p op h uid huid
    · rcases (isRunning_run hs.length).1 h' with h' | ⟨rfl, rfl, rfl⟩
      · exact fun huid' => hold m p' op' h' uid huid' huid
      · exact absurd rfl hnm
  · intro n p op h
    rw [history_run, hbook]
    rcases (isRunning_run hs.length).1 h with h | ⟨rfl, rfl, rfl⟩
    · -- The lists of an operation running are not those of the new one.
      obtain ⟨hne, b, hb, hprogress⟩ := hs.running n p op h
      refine ⟨hne, b, fun uid huid => ?_, hprogress⟩
      rw [FriendOp.onBook_of_not_mem (hold n p op h uid huid)]
      exact hb uid huid
    · -- The new one finds its lists as they are in the history.
      have hrest : ∀ uid ∈ request.2.2.users,
          book s.friends.now uid = book (s.history g).now uid :=
        fun uid huid => hs.rest uid fun op hop huid' => hapart op hop uid huid' huid
      exact ⟨hs.sane.ne_of_hasOffered hop', _, fun _ _ => rfl,
        .start (hrest _ (List.mem_pair.2 (.inl rfl))) (hrest _ (List.mem_pair.2 (.inr rfl)))⟩
  · intro uid huid
    rw [history_run, hbook, FriendOp.onBook_of_not_mem]
    · refine hs.rest uid fun op hop => huid op ?_
      obtain ⟨n, p, h⟩ := mem_unfinished.1 hop
      exact mem_unfinished.2 ⟨n, p, (isRunning_run hs.length).2 (.inl h)⟩
    · exact huid _ (mem_unfinished.2 ⟨_, _, (isRunning_run hs.length).2 (.inr ⟨rfl, rfl, rfl⟩)⟩)

/-- The app with another store, and an operation with another program left of it. -/
def resumed (s : App ι) (n : ℕ) (operation : Running ι) (store : FriendsStore) : App ι :=
  { s with friends := s.friends.push store, running := s.running.set n operation }

theorem isRunning_resumed {m : ℕ} {operation operation' : Running ι} {store : FriendsStore}
    (hoperation : s.running[n]? = some operation) :
    (s.resumed n operation' store).IsRunning m p op ↔
      m ≠ n ∧ s.IsRunning m p op ∨
      m = n ∧ p = operation'.prog ∧ p.result = none ∧ s.requested[n]? = some op := by
  by_cases hm : m = n
  · subst hm
    have hrunning : (s.resumed m operation' store).running[m]? = some operation' :=
      List.getElem?_set_self (List.getElem?_eq_some_iff.1 hoperation).1
    constructor
    · rintro ⟨hp, hop, hresult⟩
      rw [hrunning] at hp
      exact .inr ⟨rfl, (Option.some.inj hp).symm, hresult, hop⟩
    · rintro (⟨hne, -⟩ | ⟨-, rfl, hresult, hop⟩)
      · exact absurd rfl hne
      · exact ⟨by rw [hrunning]; rfl, hop, hresult⟩
  · have hrunning : (s.resumed n operation' store).running[m]? = s.running[m]? :=
      List.getElem?_set_ne (Ne.symm hm)
    constructor
    · exact fun h => .inl ⟨hm, hrunning ▸ h.running, h.requested, h.result⟩
    · rintro (⟨-, h⟩ | ⟨h, -⟩)
      · exact ⟨hrunning.symm ▸ h.running, h.requested, h.result⟩
      · exact absurd h hm

/-- An operation makes its next call. -/
theorem Serial.resumed (hs : s.Serial g) {operation : Running ι}
    (hoperation : s.running[n]? = some operation) {c : FriendsCall} {k : Answer c → FriendsProg}
    (hprog : operation.prog = .call c k) :
    (s.resumed n { operation with prog := k (answer g true s.friends.now c).1 }
      (answer g true s.friends.now c).2).Serial g := by
  obtain ⟨op, hop⟩ : ∃ op, s.requested[n]? = some op := by
    have hn := (List.getElem?_eq_some_iff.1 hoperation).1
    rw [hs.length] at hn
    exact ⟨_, List.getElem?_eq_some_iff.2 ⟨hn, rfl⟩⟩
  have hrunning : s.IsRunning n (.call c k) op :=
    ⟨by rw [hoperation, Option.map_some, hprog], hop, rfl⟩
  obtain ⟨hne, b, hb, hprogress⟩ := hs.running n _ op hrunning
  obtain ⟨hprogress', hleft⟩ := hprogress.step (g := g) hs.kept hne
  have hother : ∀ uid ∉ op.users,
      book (answer g true s.friends.now c).2 uid = book s.friends.now uid :=
    fun uid huid => by rw [book, book, listOf, listOf, hleft.query uid huid]
  -- Whatever is running now was running before, for the same users.
  have hwas : ∀ m p op', (s.resumed n
      { operation with prog := k (answer g true s.friends.now c).1 }
      (answer g true s.friends.now c).2).IsRunning m p op' → ∃ p₀, s.IsRunning m p₀ op' := by
    intro m p op' h
    rcases (isRunning_resumed hoperation).1 h with ⟨-, h⟩ | ⟨rfl, -, -, hop'⟩
    · exact ⟨p, h⟩
    · exact ⟨_, hrunning.running, hop', rfl⟩
  refine ⟨hleft.kept, ?_, hs.sane, hs.offered, ?_, ?_, ?_, ?_⟩
  · exact (List.length_set ..).trans hs.length
  · intro v hv uid
    rcases Versions.mem_seen_push.1 hv with rfl | hv
    · obtain ⟨v', hv', hlist⟩ := hs.lists _ (Versions.now_mem_seen s.friends) uid
      -- A list is as it was, or as the history has it now.
      by_cases huid : uid ∈ op.users
      · rcases hleft.lists uid huid with hsame | hdone
        · exact ⟨v', hv', hsame.trans hlist⟩
        · exact ⟨_, Versions.now_mem_seen (s.history g), hdone.trans (hb uid huid).symm⟩
      · exact ⟨v', hv', (hother uid huid).trans hlist⟩
    · exact hs.lists v hv uid
  · intro m m' p p' op₁ op₂ h h' hm
    obtain ⟨p₀, h⟩ := hwas m p op₁ h
    obtain ⟨p₀', h'⟩ := hwas m' p' op₂ h'
    exact hs.apart m m' p₀ p₀' op₁ op₂ h h' hm
  -- The others have other users, whose lists the call has left alone.
  · intro m p op' h
    rcases (isRunning_resumed hoperation).1 h with ⟨hm, h⟩ | ⟨rfl, rfl, -, hop'⟩
    · obtain ⟨hne', b', hb', hprogress₀⟩ := hs.running m p op' h
      refine ⟨hne', b', hb', hprogress₀.stable hs.kept fun uid huid => ?_⟩
      exact hleft.query uid (hs.apart m n p _ op' op h hrunning hm uid huid)
    · rw [hop, Option.some.injEq] at hop'
      subst hop'
      exact ⟨hne, b, hb, hprogress'⟩
  · intro uid huid
    by_cases hmem : uid ∈ op.users
    · -- The operation has ended: its lists are those of the history.
      have hresult : (k (answer g true s.friends.now c).1).result ≠ none := fun hresult =>
        huid op (mem_unfinished.2 ⟨n, _, (isRunning_resumed hoperation).2
          (.inr ⟨rfl, rfl, hresult, hop⟩)⟩) hmem
      exact (hprogress'.of_result hleft.kept hresult uid hmem).trans (hb uid hmem).symm
    · refine (hother uid hmem).trans (hs.rest uid fun op' hop' huid' => ?_)
      obtain ⟨m, p, h⟩ := mem_unfinished.1 hop'
      -- The operation running for `uid` is another one, as `uid` is no user of `op`.
      by_cases hm : m = n
      · have hsame := h.requested
        rw [hm, hop, Option.some.injEq] at hsame
        exact hmem (hsame ▸ huid')
      · exact huid op' (mem_unfinished.2 ⟨m, p, (isRunning_resumed hoperation).2 (.inl ⟨hm, h⟩)⟩)
          huid'

variable [DecidableEq ι]

theorem Serial.called (hs : s.Serial g) (n : ℕ) : (s.called g n true).Serial g := by
  rw [App.called]
  split
  · exact hs
  · rename_i operation hoperation
    split
    · exact hs
    · rename_i c k hprog
      have hnext := hs.resumed hoperation hprog
      simp only
      split
      · exact hnext
      · exact hnext.congr (record_ended _ _) (running_ended _ _)

theorem Serial.next (hs : s.Serial g) (hsound : s.Sound me s.record) (hapart : s.KeepsApart me e) :
    (s.next contains lowercased g me e).Serial g := by
  cases e with
  | friendsScreen | addFriendScreen | usersChanged => exact hs.congr rfl rfl
  | called n success =>
    have hsuccess : success = true := hapart.2
    rw [hsuccess]
    exact hs.called n
  | buttonTapped | addButtonTapped =>
    rw [App.next]
    cases hrequest : s.request me _ with
    | none => exact hs
    | some request => exact hs.run (hsound.hasOffered hrequest) (hapart.1 request hrequest)

variable (contains lowercased g me)

/-- **Operations apart from each other serialize**: in every run, of any number of
    devices, in which no operation is requested on a list that one running is to
    rewrite, and all calls succeed, the requests are a run of the histories, in which
    each has been offered by then; every list there has been is that of a version of
    the history; and without an operation running, the lists are those it ends with. -/
theorem operations_serialize (users : UsersStore) (es : List (AppEvent ι))
    (hes : AllSteps (next contains lowercased g me) (KeepsApart me) (start .empty users) es) :
    let s := after (next contains lowercased g me) (start .empty users) es
    AllSteps (History.next g) HasOffered .init s.requested ∧
      (∀ v ∈ s.friends.seen, ∀ uid, ∃ v' ∈ (s.history g).seen, book v uid = book v' uid) ∧
      (s.unfinished = [] → book s.friends.now = book (s.history g).now) := by
  have hserial := (AllSteps.invariant
    (I := fun s : App ι => s.Serial g ∧ s.Sound me s.record) (fun s e hs hapart =>
      ⟨hs.1.next hs.2 hapart, (hs.2.next e).mono (record_le_next s e)⟩)
    ⟨serial_start users, sound_start _ users⟩ hes).1
  refine ⟨hserial.offered, hserial.lists, fun hended => ?_⟩
  funext uid
  exact hserial.rest uid fun op hop => absurd (hended ▸ hop) List.not_mem_nil

/-- The devices of Ann and Carl. -/
def annOrCarl (carls : Bool) : UID := if carls then "carl" else "ann"

/-- Bob and Dan have profiles. -/
def bobAndDan : UsersStore :=
  DatabaseService.saveUserModel succId ⟨"Dan", 0, "dan.jpg", "dan", "dan@yoyo"⟩ <|
    DatabaseService.saveUserModel succId ⟨"Bob", 0, "bob.jpg", "bob", "bob@yoyo"⟩ .empty

/-- Somebody is searched for, and found. -/
def finding (device : Bool) (name : String) : List (AppEvent Bool) :=
  [.addFriendScreen device (.searchButtonClicked name),
    .addFriendScreen device (.answered 0 none), .addFriendScreen device (.answered 0 none),
    .addFriendScreen device (.cellForRowAt 0 0)]

/-- Ann sends a request to Bob, and Carl one to Dan, their calls taking turns. -/
def requestingApart : List (AppEvent Bool) :=
  finding false "Bob" ++ finding true "Dan" ++
    [.addButtonTapped false 0 1 2, .addButtonTapped true 0 3 4] ++
    (List.replicate 6 [.called 0 true, .called 1 true]).flatten

/-- The app then. -/
def requestedApart : App Bool :=
  after (next (fun s text => s = text) id succId annOrCarl) (start .empty bobAndDan) requestingApart

/-- The lists are those of the one request after the other. -/
theorem operations_serialize_requestedApart :
    book requestedApart.friends.now = book (requestedApart.history succId).now := by
  have hrun : AllSteps (next (fun s text => s = text) id succId annOrCarl) (KeepsApart annOrCarl)
      (start .empty bobAndDan) requestingApart := by decide +kernel
  have hended : requestedApart.unfinished = [] := by decide +kernel
  exact (operations_serialize _ _ _ _ _ _ hrun).2.2 hended

end Devices.App

end YoYo
