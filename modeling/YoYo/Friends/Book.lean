import YoYo.Friends.Service

/-!
# The book of friends lists

What the collection `friends` is for: a *book*, with the list of each user, if
there is one. An operation on friendships is two *halves* on it: it rewrites
the list of the user performing it (`FriendOp.myHalf`), and then that of the
friend (`FriendOp.friendHalf`), each half possibly ending it instead.

* `FriendOp.prog_eq`: every operation of the service has this form;
* `listOf_write`, `listOf_write_of_ne`: what writing a list does to the lists
  read, whatever is stored;
* `exec_refines`: on a store whose documents decode (`Readable`), an operation
  run alone does to its book what it does to an abstract one (`FriendOp.onBook`);
  it neither makes a document unreadable, nor creates a second one for a user
  (`OneDoc`).
-/

namespace YoYo

open DocStore DatabaseService

/-- The friends list of each user, if there is one. -/
abbrev Book := UID → Option (List Friend)

/-- The book the documents of the store make. -/
def book (s : FriendsStore) : Book := fun uid => (listOf s uid).map FriendsList.friends

/-- A list read, with other friends: that of the user `uid` if there is none yet. -/
def FriendsList.rewritten (l : Option FriendsList) (uid : UID) (friends : List Friend) :
    FriendsList :=
  match l with
  | some l => { l with friends := friends }
  | none => ⟨none, uid, friends⟩

namespace FriendOp

/-- The first half: what the operation writes to the list of the user performing
    it, or how it ends instead. -/
def myHalf : FriendOp → Option (List Friend) → Except Report (List Friend)
  | sendFriendRequest _ b sent _, l => .ok (l.getD [] ++ [⟨b, sent, .requestSend⟩])
  | performActionForFriend _ _ _, none => .error (.reported false)
  | performActionForFriend _ b action, some l =>
    match FriendService.performAction l b action (action = .block) with
    | none => .error .trapped
    | some l' => .ok l'

/-- The second half: what it writes to the list of the friend. -/
def friendHalf : FriendOp → Option (List Friend) → Except Report (List Friend)
  | sendFriendRequest a _ _ received, l => .ok (l.getD [] ++ [⟨a, received, .requested⟩])
  | performActionForFriend _ _ _, none => .error .silent
  | performActionForFriend a _ action, some l =>
    match FriendService.performAction l a action false with
    | none => .error .trapped
    | some l' => .ok l'

/-- A half, on the list of the user `uid`: reading, and writing what `f` says. -/
def half (f : Option (List Friend) → Except Report (List Friend)) (uid : UID)
    (k : Bool → FriendsProg) : FriendsProg :=
  fetchFriendsList uid fun
    | .error _ => .done (.reported false)
    | .ok l =>
      match f (l.map FriendsList.friends) with
      | .error r => .done r
      | .ok friends => updateFriendsList (.rewritten l uid friends) k

/-- The second half, reporting also on the first. -/
def rest (op : FriendOp) (success : Bool) : FriendsProg :=
  half op.friendHalf op.friendUID fun success1 => .done (.reported (success && success1))

/-- Every operation is its two halves. -/
theorem prog_eq (op : FriendOp) : op.prog = half op.myHalf op.myUID op.rest := by
  cases op with
  | sendFriendRequest a b sent received =>
    have hrest : ∀ success, FriendService.createFriendRequestForFriend a b received
        (fun success1 => .done (.reported (success && success1))) =
          rest (.sendFriendRequest a b sent received) success := by
      intro success
      rw [FriendService.createFriendRequestForFriend, rest, half]
      congr 1
      funext r
      rcases r with _ | _ | l
      · simp
      · rfl
      · rfl
    rw [prog, FriendService.sendFriendRequest, half]
    simp only [hrest]
    congr 1
    funext r
    rcases r with _ | _ | l <;> rfl
  | performActionForFriend a b action =>
    have hrest : ∀ success, FriendService.performActionWithFriend b a action
        (fun success1 => .done (.reported (success && success1))) =
          rest (.performActionForFriend a b action) success := by
      intro success
      rw [FriendService.performActionWithFriend, rest, half]
      congr 1
      funext r
      rcases r with _ | _ | l
      · simp
      · rfl
      · simp only [friendHalf, Option.map_some, friendUID]
        split <;> simp_all [FriendsList.rewritten]
    rw [prog, FriendService.performActionForFriend, half]
    simp only [hrest]
    congr 1
    funext r
    rcases r with _ | _ | l
    · rfl
    · rfl
    · have hif : (if action = .block then FriendService.performAction l.friends b action true
          else FriendService.performAction l.friends b action false) =
            FriendService.performAction l.friends b action (action = .block) := by
        split <;> simp_all
      simp only [myHalf, Option.map_some, myUID, hif]
      split <;> simp_all [FriendsList.rewritten]

/-- The operation on a book. -/
def onBook (op : FriendOp) (b : Book) : Report × Book :=
  match op.myHalf (b op.myUID) with
  | .error r => (r, b)
  | .ok mine =>
    let b' := Function.update b op.myUID (some mine)
    match op.friendHalf (b' op.friendUID) with
    | .error r => (r, b')
    | .ok theirs => (.reported true, Function.update b' op.friendUID (some theirs))

end FriendOp

/-! ## Reading and writing -/

variable {g : AutoId DocID} {s s' : FriendsStore} {uid : UID}

theorem ofUser_encode (l : FriendsList) : ofUser uid l.encode = true ↔ l.uid = uid := by
  simp [ofUser, FriendsList.encode]

/-- A list read is that of a document of its owner. -/
theorem of_listOf {l : FriendsList} (h : listOf s uid = some l) :
    l.uid = uid ∧ ∃ d ∈ s.query (ofUser uid), l.id = some d.id ∧ FriendsList.decode d = some l := by
  obtain ⟨d, hd, hl⟩ := List.mem_filterMap.1 (List.mem_of_head? h)
  obtain ⟨hid, huid⟩ := FriendsList.of_decode hl
  have : d.data.uid = .value uid := by simpa [ofUser] using (Collection.mem_query.1 hd).2
  exact ⟨by simpa [this] using huid.symm, d, hd, hid, hl⟩

/-- Reading a list: its program goes on with the list read, if the query succeeds. -/
theorem fetchFriendsList_eq (uid : UID) (k : Except Unit (Option FriendsList) → FriendsProg) :
    fetchFriendsList uid k = .call (.getDocuments uid) fun
      | none => k (.error ())
      | some snapshot => k (.ok (snapshot.filterMap FriendsList.decode).head?) := by
  rw [fetchFriendsList]
  congr 1
  funext snapshot
  cases snapshot with
  | none => rfl
  | some snapshot =>
    cases snapshot with
    | nil => rfl
    | cons d snapshot =>
      simp only [List.isEmpty_cons, Bool.false_eq_true, if_false]
      split
      · rfl
      · rename_i hlen
        rw [List.eq_nil_of_length_eq_zero (Nat.eq_zero_of_not_pos hlen), List.head?_nil]

/-- The store after writing a list, if it can be: to a new document if its
    owner has none, and otherwise to the one of its id. -/
def write (g : AutoId DocID) (s : FriendsStore) (l : FriendsList) : Option FriendsStore :=
  if (s.query (ofUser l.uid)).isEmpty then some (s.addDocument g l.encode)
  else l.id.map fun id => s.setData id l.encode

/-- Among documents, the first one decoding stays so when rewritten. -/
theorem head?_filterMap_insertDoc {docs : List (Doc DocID FriendsDoc)} (hdocs : IdSorted docs)
    {id : DocID} {l l' : FriendsList} (h : (docs.filterMap FriendsList.decode).head? = some l)
    (hid : l.id = some id) :
    ((insertDoc ⟨id, l'.encode⟩ docs).filterMap FriendsList.decode).head? =
      some { l' with id := some id } := by
  induction docs with
  | nil => simp at h
  | cons e docs ih =>
    have hdocs' := List.pairwise_cons.1 hdocs
    cases he : FriendsList.decode e with
    | some m =>
      -- The list read is that of the first document, which is replaced.
      rw [List.filterMap_cons_some he, List.head?_cons, Option.some.injEq] at h
      subst h
      have : e.id = id := by
        have := (FriendsList.of_decode he).1
        rw [hid, Option.some.injEq] at this
        exact this.symm
      rw [insertDoc, if_neg (by simp [this]), if_pos this.symm]
      rw [List.filterMap_cons_some (FriendsList.decode_encode id l'), List.head?_cons]
    | none =>
      -- The first document does not decode: the one replaced comes after it.
      rw [List.filterMap_cons_none he] at h
      obtain ⟨d, hd, hl⟩ := List.mem_filterMap.1 (List.mem_of_head? h)
      have hlt : e.id < id := by
        have := (FriendsList.of_decode hl).1
        rw [hid, Option.some.injEq] at this
        exact this ▸ hdocs'.1 d hd
      rw [insertDoc, if_neg hlt.not_gt, if_neg hlt.ne', List.filterMap_cons_none he]
      exact ih hdocs'.2 h

/-- What writing a list back does: it creates a document if its owner has none,
    and replaces the one the list was read from otherwise. -/
theorem write_cases {l : FriendsList} (hid : l.id = (listOf s l.uid).bind FriendsList.id)
    (hw : write g s l = some s') :
    (s.query (ofUser l.uid) = [] ∧ s' = s.addDocument g l.encode) ∨
    ∃ m, listOf s l.uid = some m ∧ ∃ d ∈ s.query (ofUser l.uid), m.id = some d.id ∧
      s' = s.setData d.id l.encode := by
  rw [write] at hw
  split at hw
  · rename_i hnil
    cases hw
    exact .inl ⟨List.isEmpty_iff.1 hnil, rfl⟩
  · obtain ⟨id, hlid, rfl⟩ := Option.map_eq_some_iff.1 hw
    obtain ⟨m, hlist, hmid⟩ := Option.bind_eq_some_iff.1 (hid ▸ hlid)
    obtain ⟨-, d, hd, hdid, -⟩ := of_listOf hlist
    rw [hmid, Option.some.injEq] at hdid
    subst hdid
    exact .inr ⟨m, hlist, d, hd, hmid, rfl⟩

/-- A list written back to the store it was read from: what is read there afterwards. -/
theorem listOf_write {l : FriendsList} (hid : l.id = (listOf s l.uid).bind FriendsList.id)
    (hw : write g s l = some s') : ∃ id, listOf s' l.uid = some { l with id := some id } := by
  have hl : ofUser l.uid l.encode := (ofUser_encode l).2 rfl
  rcases write_cases hid hw with ⟨hnil, rfl⟩ | ⟨m, hlist, d, hd, hmid, rfl⟩
  · rw [listOf, Collection.query_addDocument_of_nil g hl hnil]
    exact ⟨_, rfl⟩
  · rw [listOf, Collection.query_setData, if_pos hl,
      head?_filterMap_insertDoc (s.sorted_query _) hlist hmid]
    exact ⟨_, rfl⟩

/-- It leaves the documents of the other users as they are. -/
theorem query_write_of_ne {l : FriendsList} (hid : l.id = (listOf s l.uid).bind FriendsList.id)
    (hw : write g s l = some s') (huid : uid ≠ l.uid) :
    s'.query (ofUser uid) = s.query (ofUser uid) := by
  have hl : ofUser uid l.encode = false :=
    Bool.eq_false_iff.2 fun h => huid ((ofUser_encode l).1 h).symm
  rcases write_cases hid hw with ⟨-, rfl⟩ | ⟨m, -, d, hd, -, rfl⟩
  · exact Collection.query_addDocument_of_not g hl
  · refine Collection.query_setData_of_not hl fun e he hed => huid ?_
    -- The document written is the owner's: it is no document of another user.
    have hde := Collection.eq_of_id_eq (Collection.mem_query.1 he).1
      (Collection.mem_query.1 hd).1 hed
    have hu := (Collection.mem_query.1 he).2
    have hu' := (Collection.mem_query.1 hd).2
    rw [hde] at hu
    simp only [ofUser, DocField.is_iff] at hu hu'
    rw [hu, DocField.value.injEq] at hu'
    exact hu'

theorem listOf_write_of_ne {l : FriendsList} (hid : l.id = (listOf s l.uid).bind FriendsList.id)
    (hw : write g s l = some s') (huid : uid ≠ l.uid) : listOf s' uid = listOf s uid := by
  rw [listOf, listOf, query_write_of_ne hid hw huid]

/-- What it does to the book. -/
theorem book_write {l : FriendsList} (hid : l.id = (listOf s l.uid).bind FriendsList.id)
    (hw : write g s l = some s') : book s' = Function.update (book s) l.uid (some l.friends) := by
  funext uid
  by_cases huid : uid = l.uid
  · obtain ⟨id, h⟩ := listOf_write hid hw
    rw [huid, Function.update_self, book, h, Option.map_some]
  · rw [Function.update_of_ne huid, book, book, listOf_write_of_ne hid hw huid]

@[simp] theorem rewritten_id (l : Option FriendsList) (uid : UID) (friends : List Friend) :
    (FriendsList.rewritten l uid friends).id = l.bind FriendsList.id := by
  cases l <;> rfl

@[simp] theorem rewritten_friends (l : Option FriendsList) (uid : UID) (friends : List Friend) :
    (FriendsList.rewritten l uid friends).friends = friends := by
  cases l <;> rfl

@[simp] theorem rewritten_uid (s : FriendsStore) (uid : UID) (friends : List Friend) :
    (FriendsList.rewritten (listOf s uid) uid friends).uid = uid := by
  cases h : listOf s uid with
  | none => rfl
  | some l => exact (of_listOf h).1

/-- A list read and rewritten can be written back to where it was read from. -/
theorem rewritten_readBack (s : FriendsStore) (uid : UID) (friends : List Friend) :
    (FriendsList.rewritten (listOf s uid) uid friends).id =
      (listOf s (FriendsList.rewritten (listOf s uid) uid friends).uid).bind FriendsList.id := by
  simp

/-! ## Running -/

/-- How the store answers, given which calls succeed. -/
abbrev answer (g : AutoId DocID) := Call.answer (κ := UID) g ofUser

/-- Writing a list, whichever calls succeed. -/
theorem exec_updateFriendsList (l : FriendsList) (k : Bool → FriendsProg) (ok : ℕ → Bool)
    (s : FriendsStore) : ∃ ok',
      (updateFriendsList l k).exec (answer g) ok s = (k false).exec (answer g) ok' s ∨
      ∃ s', write g s l = some s' ∧
        (updateFriendsList l k).exec (answer g) ok s = (k true).exec (answer g) ok' s' := by
  rw [updateFriendsList, write, Prog.exec_call]
  cases ok 0 with
  | false => exact ⟨_, .inl rfl⟩
  | true =>
    simp only [Call.answer, if_true]
    cases s.query (ofUser l.uid) with
    | nil =>
      simp only [List.take_nil, List.isEmpty_nil, if_true, Prog.exec_call, Call.answer]
      cases ok 1 with
      | false => exact ⟨_, .inl rfl⟩
      | true => exact ⟨_, .inr ⟨_, rfl, rfl⟩⟩
    | cons d docs =>
      simp only [List.take_succ_cons, List.isEmpty_cons, Bool.false_eq_true, if_false]
      cases l.id with
      | none =>
        -- There is a document, but the list has not been read from one.
        exact ⟨_, .inl rfl⟩
      | some id =>
        simp only [Prog.exec_call, Call.answer]
        cases ok 1 with
        | false => exact ⟨_, .inl rfl⟩
        | true => exact ⟨_, .inr ⟨_, rfl, rfl⟩⟩

/-- Writing a list that can be written, all calls succeeding. -/
theorem exec_updateFriendsList_of_write {l : FriendsList} (hw : write g s l = some s')
    (k : Bool → FriendsProg) :
    (updateFriendsList l k).exec (answer g) (fun _ => true) s =
      (k true).exec (answer g) (fun _ => true) s' := by
  rw [write] at hw
  rw [updateFriendsList, Prog.exec_call]
  simp only [Call.answer, if_true]
  split at hw
  · rename_i hnil
    cases hw
    rw [List.isEmpty_iff.1 hnil]
    rfl
  · rename_i hne
    obtain ⟨id, hid, rfl⟩ := Option.map_eq_some_iff.1 hw
    have htake : ((s.query (ofUser l.uid)).take 1).isEmpty = false := by
      cases hq : s.query (ofUser l.uid) with
      | nil => exact absurd (by rw [hq]; rfl) hne
      | cons d docs => rfl
    rw [htake, hid]
    rfl

/-- A half, whichever calls succeed: it fails or ends before writing, or goes on
    with a failed or successful write. -/
theorem exec_half (f : Option (List Friend) → Except Report (List Friend)) (uid : UID)
    (k : Bool → FriendsProg) (ok : ℕ → Bool) (s : FriendsStore) :
    (FriendOp.half f uid k).exec (answer g) ok s = (.reported false, s) ∨
    (∃ r, f (book s uid) = .error r ∧ (FriendOp.half f uid k).exec (answer g) ok s = (r, s)) ∨
    ∃ friends, f (book s uid) = .ok friends ∧ ∃ ok',
      (FriendOp.half f uid k).exec (answer g) ok s = (k false).exec (answer g) ok' s ∨
      ∃ s', write g s (.rewritten (listOf s uid) uid friends) = some s' ∧
        (FriendOp.half f uid k).exec (answer g) ok s = (k true).exec (answer g) ok' s' := by
  rw [FriendOp.half, fetchFriendsList_eq, Prog.exec_call]
  cases ok 0 with
  | false => exact .inl rfl
  | true =>
    refine .inr ?_
    simp only [Call.answer, if_true]
    rw [← listOf, ← book]
    cases f (book s uid) with
    | error r => exact .inl ⟨r, rfl, rfl⟩
    | ok friends => exact .inr ⟨friends, rfl, exec_updateFriendsList _ _ _ _⟩

/-- A half, all calls succeeding, on a list that can be written. -/
theorem exec_half_of_write {f : Option (List Friend) → Except Report (List Friend)} {uid : UID}
    {friends : List Friend} (hf : f (book s uid) = .ok friends)
    (hw : write g s (.rewritten (listOf s uid) uid friends) = some s') (k : Bool → FriendsProg) :
    (FriendOp.half f uid k).exec (answer g) (fun _ => true) s =
      (k true).exec (answer g) (fun _ => true) s' := by
  rw [FriendOp.half, fetchFriendsList_eq, Prog.exec_call]
  simp only [Call.answer, if_true]
  rw [← listOf, ← book, hf]
  exact exec_updateFriendsList_of_write hw k

/-- A half that reads its list, and ends the operation instead. -/
theorem exec_half_of_error {f : Option (List Friend) → Except Report (List Friend)} {uid : UID}
    {r : Report} {ok : ℕ → Bool} (hok : ok 0) (hf : f (book s uid) = .error r)
    (k : Bool → FriendsProg) : (FriendOp.half f uid k).exec (answer g) ok s = (r, s) := by
  rw [FriendOp.half, fetchFriendsList_eq, Prog.exec_call, hok]
  simp only [Call.answer, if_true]
  rw [← listOf, ← book, hf]
  rfl

/-! ## Stores keeping a book -/

/-- Whoever has documents has a list. -/
def Readable (s : FriendsStore) : Prop :=
  ∀ uid, listOf s uid = none → s.query (ofUser uid) = []

/-- No user has two documents. -/
def OneDoc (s : FriendsStore) : Prop := ∀ uid, (s.query (ofUser uid)).length ≤ 1

theorem readable_empty : Readable .empty := fun _ _ => rfl

theorem oneDoc_empty : OneDoc .empty := fun _ => Nat.zero_le _

theorem book_empty : book .empty = fun _ => none := rfl

theorem Readable.write (hs : Readable s) {l : FriendsList}
    (hid : l.id = (listOf s l.uid).bind FriendsList.id) (hw : write g s l = some s') :
    Readable s' := by
  intro uid h
  by_cases huid : uid = l.uid
  · obtain ⟨id, h'⟩ := listOf_write hid hw
    rw [huid, h'] at h
    cases h
  · rw [query_write_of_ne hid hw huid]
    exact hs uid (listOf_write_of_ne hid hw huid ▸ h)

theorem OneDoc.write (hs : OneDoc s) {l : FriendsList}
    (hid : l.id = (listOf s l.uid).bind FriendsList.id) (hw : write g s l = some s') :
    OneDoc s' := by
  intro uid
  by_cases huid : uid = l.uid
  · subst huid
    have hl : ofUser l.uid l.encode := (ofUser_encode l).2 rfl
    rcases write_cases hid hw with ⟨hnil, rfl⟩ | ⟨m, -, d, hd, -, rfl⟩
    · rw [Collection.query_addDocument_of_nil g hl hnil]
      rfl
    · obtain ⟨e, he⟩ : ∃ e, s.query (ofUser l.uid) = [e] :=
        List.length_eq_one_iff.1 (le_antisymm (hs l.uid) (List.length_pos_of_mem hd))
      rw [he, List.mem_singleton] at hd
      rw [Collection.query_setData_of_eq (b := d.data) hl (by rw [he, hd])]
      rfl
  · rw [query_write_of_ne hid hw huid]
    exact hs uid

/-- A list read from a readable store can be written back. -/
theorem Readable.exists_write (hs : Readable s) {l : FriendsList}
    (hid : l.id = (listOf s l.uid).bind FriendsList.id) : ∃ s', YoYo.write g s l = some s' := by
  rw [YoYo.write]
  split
  · exact ⟨_, rfl⟩
  · rename_i hne
    cases hlist : listOf s l.uid with
    | none => exact absurd (List.isEmpty_iff.2 (hs l.uid hlist)) hne
    | some m =>
      obtain ⟨-, d, -, hmid, -⟩ := of_listOf hlist
      rw [hid, hlist, Option.bind_some, hmid]
      exact ⟨_, rfl⟩

/-- A store keeping a book: one document at most for each user, which decodes. -/
structure Kept (s : FriendsStore) : Prop where
  readable : Readable s
  oneDoc : OneDoc s

theorem kept_empty : Kept .empty := ⟨readable_empty, oneDoc_empty⟩

/-- In a kept store, a list read is written back rewritten, and that is all. -/
theorem Kept.exists_write (hs : Kept s) (uid : UID) (friends : List Friend) :
    ∃ s', YoYo.write g s (.rewritten (listOf s uid) uid friends) = some s' ∧ Kept s' ∧
      book s' = Function.update (book s) uid (some friends) := by
  have hid := rewritten_readBack s uid friends
  obtain ⟨s', hw⟩ := hs.readable.exists_write (g := g) hid
  refine ⟨s', hw, ⟨hs.readable.write hid hw, hs.oneDoc.write hid hw⟩, ?_⟩
  rw [book_write hid hw, rewritten_uid, rewritten_friends]

/-- An operation run alone on a kept store does to its book what it does to an
    abstract one, and keeps it. -/
theorem exec_refines (hs : Kept s) (op : FriendOp) :
    (op.exec g s).1 = (op.onBook (book s)).1 ∧ book (op.exec g s).2 = (op.onBook (book s)).2 ∧
      Kept (op.exec g s).2 := by
  rw [FriendOp.exec, FriendOp.execWith, FriendOp.prog_eq, FriendOp.onBook]
  cases hmine : op.myHalf (book s op.myUID) with
  | error r =>
    rw [exec_half_of_error rfl hmine]
    exact ⟨rfl, rfl, hs⟩
  | ok mine =>
    obtain ⟨s₁, hw₁, hs₁, hb₁⟩ := hs.exists_write (g := g) op.myUID mine
    rw [exec_half_of_write hmine hw₁, FriendOp.rest]
    simp only [← hb₁]
    cases htheirs : op.friendHalf (book s₁ op.friendUID) with
    | error r =>
      rw [exec_half_of_error rfl htheirs]
      exact ⟨rfl, rfl, hs₁⟩
    | ok theirs =>
      obtain ⟨s₂, hw₂, hs₂, hb₂⟩ := hs₁.exists_write (g := g) op.friendUID theirs
      rw [exec_half_of_write htheirs hw₂, Prog.exec_done]
      exact ⟨rfl, hb₂, hs₂⟩

end YoYo
