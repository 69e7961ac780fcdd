import Mathlib.Data.Sym.Sym2
import YoYo.Friends.Invariant

/-!
# Operations interleaved

Nothing keeps other operations from being performed between the read of a list
and its write: any number of operations make their calls in any order, as a
`Pool`. Two of them reading the same list before either has written it both
write what they have read, so that one of them is lost (`lost_request`), or both
create a document for its owner.

* `HalfStage`, `Stage`: where an operation is, between two of its calls;
* `Stage.step`: what its next call does, to it and to the store;
* `noLostUpdate`: from any reachable store, operations on pairwise different
  pairs of users, no call of which writes a list another has read and not yet
  written (`Pool.NoOverlap`), do what each of them does alone.
-/

namespace YoYo

open DocStore DatabaseService

/-- The user whose documents a call queries. -/
def reads : FriendsCall → Option UID
  | .getDocuments uid => some uid
  | _ => none

/-- The user whose list a call writes. -/
def writes : FriendsCall → Option UID
  | .getDocuments _ => none
  | .addDocument d | .setData _ d => d.uid.required

/-- The pair of users of an operation. -/
def FriendOp.pair (op : FriendOp) : Sym2 UID := s(op.myUID, op.friendUID)

/-- Operations, each about to make its calls. -/
abbrev FriendsPool (ι : Type) := Pool ι FriendsStore FriendsCall Answer Report

variable {ι : Type} [DecidableEq ι]

/-- The next call of one of them, which succeeds. -/
abbrev poolStep (g : AutoId DocID) : FriendsPool ι → ι → FriendsPool ι := Pool.step (answer g true)

/-- All the operations, from the store `s`, their calls being made as scheduled. -/
def interleaved (g : AutoId DocID) (s : FriendsStore) (ops : ι → FriendOp) (sched : List ι) :
    FriendsPool ι :=
  after (poolStep g) (.start s fun i => (ops i).prog) sched

/-- No call writes a list another operation has read and not yet written. -/
def NoOverlap (g : AutoId DocID) (s : FriendsStore) (ops : ι → FriendOp) (sched : List ι) : Prop :=
  AllSteps (poolStep g) (Pool.NoOverlap reads writes) (.start s fun i => (ops i).prog) sched

/-! ## The stages of an operation -/

/-- What is left of writing the list `l`, its owner having been found to have a
    document or not. -/
def writeProg (s : FriendsStore) (l : FriendsList) (k : Bool → FriendsProg) : FriendsProg :=
  if (s.query (ofUser l.uid)).isEmpty then .call (.addDocument l.encode) k
  else match l.id with
    | some id => .call (.setData id l.encode) k
    | none => k false

/-- Where a half is, on the list of the user `uid`, before a call of its own: at
    its start, after reading the list, or after looking for its document. What
    it has read is what is stored. -/
inductive HalfStage (f : Option (List Friend) → Except Report (List Friend)) (uid : UID)
    (k : Bool → FriendsProg) (s : FriendsStore) : FriendsProg → Option FriendsCall → Prop
  | start (last : Option FriendsCall) : HalfStage f uid k s (FriendOp.half f uid k) last
  | read (friends : List Friend) (hf : f (book s uid) = .ok friends) :
    HalfStage f uid k s (updateFriendsList (.rewritten (listOf s uid) uid friends) k)
      (some (.getDocuments uid))
  | checked (friends : List Friend) (hf : f (book s uid) = .ok friends) :
    HalfStage f uid k s (writeProg s (.rewritten (listOf s uid) uid friends) k)
      (some (.getDocuments uid))

variable {g : AutoId DocID} {s s' : FriendsStore} {uid : UID} {l : FriendsList}
  {f : Option (List Friend) → Except Report (List Friend)} {k : Bool → FriendsProg}

/-- The first call of a half reads the list. -/
theorem half_eq (f : Option (List Friend) → Except Report (List Friend)) (uid : UID)
    (k : Bool → FriendsProg) :
    ∃ kk, FriendOp.half f uid k = .call (.getDocuments uid) kk ∧ ∀ s : FriendsStore,
      kk (some (s.query (ofUser uid))) =
        match f (book s uid) with
        | .error r => .done r
        | .ok friends => updateFriendsList (.rewritten (listOf s uid) uid friends) k := by
  rw [FriendOp.half, fetchFriendsList_eq]
  exact ⟨_, rfl, fun s => rfl⟩

/-- The next one looks for its document. -/
theorem updateFriendsList_eq (l : FriendsList) (k : Bool → FriendsProg) :
    ∃ kk, updateFriendsList l k = .call (.getDocuments l.uid) kk ∧
      ∀ s : FriendsStore, kk (some (s.query (ofUser l.uid))) = writeProg s l k := by
  refine ⟨_, rfl, fun s => ?_⟩
  rw [writeProg]
  cases s.query (ofUser l.uid) with
  | nil => rfl
  | cons d docs => rfl

/-- The last one writes the list, if the store is kept. -/
theorem Kept.writeProg_eq (hs : Kept s) (uid : UID) (friends : List Friend)
    (k : Bool → FriendsProg) :
    ∃ c kk, writeProg s (.rewritten (listOf s uid) uid friends) k = .call c kk ∧
      writes c = some uid ∧ kk (answer g true s c).1 = k true ∧
      write g s (.rewritten (listOf s uid) uid friends) = some (answer g true s c).2 := by
  obtain ⟨s', hw, -, -⟩ := hs.exists_write (g := g) uid friends
  have huid := rewritten_uid s uid friends
  revert hw huid
  generalize FriendsList.rewritten (listOf s uid) uid friends = l
  intro hw huid
  subst huid
  simp only [YoYo.write, writeProg] at *
  split at hw
  · rw [if_pos ‹_›, if_pos ‹_›]
    exact ⟨_, _, rfl, rfl, rfl, rfl⟩
  · obtain ⟨id, hid, -⟩ := Option.map_eq_some_iff.1 hw
    rw [if_neg ‹_›, if_neg ‹_›, hid]
    exact ⟨_, _, rfl, rfl, rfl, rfl⟩

/-- The next call of a half reads, and leaves the store as it is, or writes the
    list rewritten and goes on. -/
theorem HalfStage.step (hs : Kept s) {c : FriendsCall} {kk : Answer c → FriendsProg}
    {last : Option FriendsCall} (h : HalfStage f uid k s (.call c kk) last) :
    ((answer g true s c).2 = s ∧
      ((∃ r, f (book s uid) = .error r ∧ kk (answer g true s c).1 = .done r) ∨
        HalfStage f uid k s (kk (answer g true s c).1) (some c))) ∨
    ∃ friends, f (book s uid) = .ok friends ∧ writes c = some uid ∧
      write g s (.rewritten (listOf s uid) uid friends) = some (answer g true s c).2 ∧
      kk (answer g true s c).1 = k true := by
  generalize hq : Prog.call c kk = q at h
  cases h with
  | start =>
    obtain ⟨kk', hhalf, hkk'⟩ := half_eq f uid k
    rw [hhalf] at hq
    cases hq
    refine .inl ⟨rfl, ?_⟩
    have hk := hkk' s
    simp only [answer, Call.answer, if_true]
    rw [hk]
    cases hf : f (book s uid) with
    | error r => exact .inl ⟨r, rfl, rfl⟩
    | ok friends => exact .inr (.read friends hf)
  | read friends hf =>
    obtain ⟨kk', hupdate, hkk'⟩ := updateFriendsList_eq (.rewritten (listOf s uid) uid friends) k
    rw [hupdate, rewritten_uid] at hq
    cases hq
    refine .inl ⟨rfl, .inr ?_⟩
    have hk := hkk' s
    rw [rewritten_uid] at hk
    simp only [answer, Call.answer, if_true]
    rw [hk]
    exact .checked friends hf
  | checked friends hf =>
    -- This is the write: what was read is still what is stored.
    obtain ⟨c', kk', hprog, hwrites, hkk', hw⟩ := hs.writeProg_eq (g := g) uid friends k
    rw [hprog] at hq
    cases hq
    exact .inr ⟨friends, hf, hwrites, hw, hkk'⟩

/-- A half has a call to make. -/
theorem HalfStage.not_done (hs : Kept s) {r : Report} {last : Option FriendsCall} :
    ¬ HalfStage f uid k s (.done r) last := by
  intro h
  generalize hq : Prog.done r = q at h
  cases h with
  | start =>
    obtain ⟨kk, hhalf, -⟩ := half_eq f uid k
    rw [hhalf] at hq
    cases hq
  | read friends hf =>
    obtain ⟨kk, hupdate, -⟩ := updateFriendsList_eq (.rewritten (listOf s uid) uid friends) k
    rw [hupdate] at hq
    cases hq
  | checked friends hf =>
    obtain ⟨c, kk, hprog, -⟩ := hs.writeProg_eq (g := succId) uid friends k
    rw [hprog] at hq
    cases hq

/-- Writes to the lists of others, or before the list is read, do not matter to a half. -/
theorem HalfStage.stable (hs : Kept s) {q : FriendsProg} {last : Option FriendsCall}
    (h : HalfStage f uid k s q last)
    (hquery : Pool.windowOf reads q last = some uid →
      s'.query (ofUser uid) = s.query (ofUser uid)) : HalfStage f uid k s' q last := by
  have hlist : s'.query (ofUser uid) = s.query (ofUser uid) → listOf s' uid = listOf s uid :=
    fun h => by rw [listOf, listOf, h]
  cases h with
  | start => exact .start last
  | read friends hf =>
    obtain ⟨kk, hupdate, -⟩ := updateFriendsList_eq (.rewritten (listOf s uid) uid friends) k
    have hq := hquery (by rw [hupdate]; rfl)
    rw [← hlist hq]
    exact .read friends (by rw [book, hlist hq]; exact hf)
  | checked friends hf =>
    obtain ⟨c, kk, hprog, -⟩ := hs.writeProg_eq (g := succId) uid friends k
    have hq := hquery (by rw [hprog]; rfl)
    have heq : writeProg s (.rewritten (listOf s uid) uid friends) k =
        writeProg s' (.rewritten (listOf s' uid) uid friends) k := by
      rw [writeProg, writeProg, rewritten_uid, rewritten_uid, hq, hlist hq]
    rw [heq]
    exact .checked friends (by rw [book, hlist hq]; exact hf)

/-- Writing a list with other entries for one user, in a kept store. -/
theorem Kept.write_entries (hs : Kept s) {owner other : UID} {friends : List Friend}
    {effect : List Friend → List Friend}
    (hw : write g s (.rewritten (listOf s owner) owner friends) = some s')
    (heffect : ∀ v, entries (some friends) v =
      if v = other then effect (entries (book s owner) v) else entries (book s owner) v) :
    Kept s' ∧
    (∀ u v, entries (book s' u) v =
      if u = owner ∧ v = other then effect (entries (book s u) v) else entries (book s u) v) ∧
    ∀ u, u ≠ owner → s'.query (ofUser u) = s.query (ofUser u) := by
  obtain ⟨s'', hw', hkept, hbook⟩ := hs.exists_write (g := g) owner friends
  rw [hw, Option.some.injEq] at hw'
  subst hw'
  refine ⟨hkept, fun u v => ?_, fun u hu => ?_⟩
  · rw [hbook]
    by_cases hu : u = owner
    · subst hu
      simp [heffect]
    · rw [Function.update_of_ne hu, if_neg fun h => hu h.1]
  · exact query_write_of_ne (rewritten_readBack s owner friends) hw (by rwa [rewritten_uid])

/-- Where an operation is that found the book `b` at its start, before a call of
    its own, and the entries of its two users for each other. -/
inductive Stage (b : Book) (op : FriendOp) (s : FriendsStore) :
    FriendsProg → Option FriendsCall → Prop
  | first (q : FriendsProg) (last : Option FriendsCall)
    (h : HalfStage op.myHalf op.myUID op.rest s q last)
    (hmine : entries (book s op.myUID) op.friendUID = entries (b op.myUID) op.friendUID)
    (htheirs : entries (book s op.friendUID) op.myUID = entries (b op.friendUID) op.myUID) :
    Stage b op s q last
  | second (q : FriendsProg) (last : Option FriendsCall)
    (h : HalfStage op.friendHalf op.friendUID
      (fun success1 => .done (.reported (true && success1))) s q last)
    (hmine : entries (book s op.myUID) op.friendUID =
      op.myEffect (entries (b op.myUID) op.friendUID))
    (htheirs : entries (book s op.friendUID) op.myUID = entries (b op.friendUID) op.myUID) :
    Stage b op s q last
  | finished (r : Report) (last : Option FriendsCall)
    (hmine : entries (book s op.myUID) op.friendUID =
      op.myEffect (entries (b op.myUID) op.friendUID))
    (htheirs : entries (book s op.friendUID) op.myUID =
      op.friendEffect (entries (b op.friendUID) op.myUID)) :
    Stage b op s (.done r) last

section

variable {b : Book} {op : FriendOp} {l : Option (List Friend)}

/-- An operation whose first half fails to find a list is none adding entries. -/
theorem friendEffect_nil {r : Report} (herr : op.myHalf l = .error r) :
    op.friendEffect [] = [] := by
  cases op with
  | sendFriendRequest => cases herr
  | performActionForFriend x y action => exact acted_nil action false

/-- An operation that has ended has done what it does to the entries of its pair. -/
theorem Stage.of_done (hs : Kept s) {r : Report} {last : Option FriendsCall}
    (h : Stage b op s (.done r) last) :
    entries (book s op.myUID) op.friendUID = op.myEffect (entries (b op.myUID) op.friendUID) ∧
    entries (book s op.friendUID) op.myUID =
      op.friendEffect (entries (b op.friendUID) op.myUID) := by
  cases h with
  | first _ _ h => exact (h.not_done hs).elim
  | second _ _ h => exact (h.not_done hs).elim
  | finished _ _ hmine htheirs => exact ⟨hmine, htheirs⟩

/-- What is to be removed from the list of the user is in that of the friend. -/
theorem Book.Agrees.removesPresent (hb : b.Agrees) (hrem : op.RemovesPresent b) :
    op.removes → entries (b op.friendUID) op.myUID ≠ [] :=
  fun hr h => hrem hr (hb.entries_eq_nil h)

/-- The entries of two users for each other after an operation of theirs alone. -/
theorem Book.Agrees.entries_alone (hb : b.Agrees) (hne : op.myUID ≠ op.friendUID)
    (hrem : op.RemovesPresent b) :
    entries ((op.onBook b).2 op.myUID) op.friendUID =
      op.myEffect (entries (b op.myUID) op.friendUID) ∧
    entries ((op.onBook b).2 op.friendUID) op.myUID =
      op.friendEffect (entries (b op.friendUID) op.myUID) := by
  rw [FriendOp.onBook]
  cases hmine : op.myHalf (b op.myUID) with
  | error r =>
    obtain ⟨hnone, hmy⟩ := op.isHalf_myHalf.of_error hmine hrem
    have hnil : entries (b op.myUID) op.friendUID = [] := by rw [hnone, entries_none]
    simp only [hnil, hb.entries_eq_nil hnil, hmy, friendEffect_nil hmine]
    exact ⟨trivial, trivial⟩
  | ok mine =>
    have he := op.isHalf_myHalf.entries_eq hmine hrem op.friendUID
    rw [if_pos rfl] at he
    simp only [Function.update_of_ne hne.symm]
    cases htheirs : op.friendHalf (b op.friendUID) with
    | error r =>
      obtain ⟨hnone, hfriend⟩ := op.isHalf_friendHalf.of_error htheirs (hb.removesPresent hrem)
      have hnil : entries (b op.friendUID) op.myUID = [] := by rw [hnone, entries_none]
      simp only [Function.update_self, Function.update_of_ne hne.symm, he, hnil, hfriend]
      exact ⟨trivial, trivial⟩
    | ok theirs =>
      have he' := op.isHalf_friendHalf.entries_eq htheirs (hb.removesPresent hrem) op.myUID
      rw [if_pos rfl] at he'
      simp only [Function.update_self, Function.update_of_ne hne, he, he']
      exact ⟨trivial, trivial⟩

/-- What a call leaves alone: the entries of other pairs, and the documents of
    all users but the one whose list it writes. -/
structure Spares (op : FriendOp) (c : FriendsCall) (s s' : FriendsStore) : Prop where
  entries : ∀ u v, s(u, v) ≠ op.pair → entries (book s' u) v = entries (book s u) v
  query : ∀ u, writes c ≠ some u → s'.query (ofUser u) = s.query (ofUser u)

theorem Spares.refl (op : FriendOp) (c : FriendsCall) (s : FriendsStore) : Spares op c s s :=
  ⟨fun _ _ _ => rfl, fun _ _ => rfl⟩

/-- What the next call of an operation does. -/
theorem Stage.step (hs : Kept s) (hb : b.Agrees) (hne : op.myUID ≠ op.friendUID)
    (hrem : op.RemovesPresent b) {c : FriendsCall} {kk : Answer c → FriendsProg}
    {last : Option FriendsCall} (h : Stage b op s (.call c kk) last) :
    Kept (answer g true s c).2 ∧
      Stage b op (answer g true s c).2 (kk (answer g true s c).1) (some c) ∧
      Spares op c s (answer g true s c).2 := by
  generalize hq : Prog.call c kk = q at h
  cases h with
  | first _ _ h hmine htheirs =>
    -- The first half: the entries of both are as they were before the operation.
    subst hq
    have hrem₀ : op.removes → entries (book s op.myUID) op.friendUID ≠ [] := hmine ▸ hrem
    rcases h.step (g := g) hs with ⟨hstore, hnext⟩ | ⟨mine, hf, hwrites, hw, hkk⟩
    · rw [hstore]
      refine ⟨hs, ?_, .refl op c s⟩
      rcases hnext with ⟨r, herr, hkk⟩ | hhalf
      · -- Without a list, there are no entries, of either for the other.
        rw [hkk]
        obtain ⟨hnone, hmy⟩ := op.isHalf_myHalf.of_error herr hrem₀
        rw [hnone, entries_none] at hmine
        refine .finished r _ ?_ ?_
        · rw [hnone, entries_none, ← hmine, hmy]
        · rw [htheirs, hb.entries_eq_nil hmine.symm, friendEffect_nil herr]
      · exact .first _ _ hhalf hmine htheirs
    · -- The list of the user has been written, and the second half begins.
      obtain ⟨hkept, he, hquery⟩ := hs.write_entries hw (op.isHalf_myHalf.entries_eq hf hrem₀)
      refine ⟨hkept, ?_, fun u v huv => ?_, fun u hu => hquery u ?_⟩
      · rw [hkk]
        refine .second _ _ (.start _) ?_ ?_
        · rw [he, if_pos ⟨rfl, rfl⟩, hmine]
        · rw [he, if_neg fun h => hne h.2, htheirs]
      · rw [he, if_neg]
        rintro ⟨rfl, rfl⟩
        exact huv rfl
      · rintro rfl
        exact hu hwrites
  | second _ _ h hmine htheirs =>
    -- The second half: those of the user have changed, and those of the friend have not yet.
    subst hq
    have hrem₀ : op.removes → entries (book s op.friendUID) op.myUID ≠ [] :=
      htheirs ▸ hb.removesPresent hrem
    rcases h.step (g := g) hs with ⟨hstore, hnext⟩ | ⟨theirs, hf, hwrites, hw, hkk⟩
    · rw [hstore]
      refine ⟨hs, ?_, .refl op c s⟩
      rcases hnext with ⟨r, herr, hkk⟩ | hhalf
      · rw [hkk]
        obtain ⟨hnone, hfriend⟩ := op.isHalf_friendHalf.of_error herr hrem₀
        refine .finished r _ hmine ?_
        rw [← htheirs, hnone, entries_none, hfriend]
      · exact .second _ _ hhalf hmine htheirs
    · -- The list of the friend has been written, and the operation is finished.
      obtain ⟨hkept, he, hquery⟩ := hs.write_entries hw (op.isHalf_friendHalf.entries_eq hf hrem₀)
      refine ⟨hkept, ?_, fun u v huv => ?_, fun u hu => hquery u ?_⟩
      · rw [hkk]
        refine .finished _ _ ?_ ?_
        · rw [he, if_neg fun h => hne h.1, hmine]
        · rw [he, if_pos ⟨rfl, rfl⟩, htheirs]
      · rw [he, if_neg]
        rintro ⟨rfl, rfl⟩
        exact huv Sym2.eq_swap
      · rintro rfl
        exact hu hwrites
  | finished => cases hq

/-- The calls of the other operations do not matter, if they are on other pairs
    and do not write what has been read and not yet written. -/
theorem Stage.stable {op' : FriendOp} {c : FriendsCall} (hs : Kept s) {q : FriendsProg}
    {last : Option FriendsCall} (h : Stage b op s q last) (hpair : op.pair ≠ op'.pair)
    (hspares : Spares op' c s s')
    (hno : ∀ uid, writes c = some uid → Pool.windowOf reads q last ≠ some uid) :
    Stage b op s' q last := by
  have hquery : ∀ uid, Pool.windowOf reads q last = some uid →
      s'.query (ofUser uid) = s.query (ofUser uid) :=
    fun uid hwin => hspares.query uid fun hwrites => hno uid hwrites hwin
  have hmine' := hspares.entries op.myUID op.friendUID hpair
  have htheirs' := hspares.entries op.friendUID op.myUID (by rwa [Sym2.eq_swap])
  cases h with
  | first _ _ h hmine htheirs =>
    exact .first _ _ (h.stable hs (hquery _)) (hmine'.trans hmine) (htheirs'.trans htheirs)
  | second _ _ h hmine htheirs =>
    exact .second _ _ (h.stable hs (hquery _)) (hmine'.trans hmine) (htheirs'.trans htheirs)
  | finished r _ hmine htheirs => exact .finished r _ (hmine'.trans hmine) (htheirs'.trans htheirs)

end

/-! ## Runs -/

/-- Operations on pairwise different pairs of users, each finding what it is to
    remove, with a schedule of their calls without overlaps that completes them. -/
structure Batch (g : AutoId DocID) (s : FriendsStore) (ops : ι → FriendOp) (sched : List ι) :
    Prop where
  between : ∀ i, (ops i).myUID ≠ (ops i).friendUID
  pairs : ∀ i j, i ≠ j → (ops i).pair ≠ (ops j).pair
  removesPresent : ∀ i, (ops i).RemovesPresent (book s)
  noOverlap : NoOverlap g s ops sched
  finished : ∀ i, ∃ r, (interleaved g s ops sched).prog i = .done r

variable {ops : ι → FriendOp} {sched : List ι}

/-- At the end, each of them has done to the entries of its pair what it does
    alone, and the entries of all other pairs are as they were. -/
theorem Batch.entries_eq (h : Batch g s ops sched) (hs : Kept s) (hb : (book s).Agrees) :
    Kept (interleaved g s ops sched).store ∧
    (∀ u v, (∀ i, s(u, v) ≠ (ops i).pair) →
      entries (book (interleaved g s ops sched).store u) v = entries (book s u) v) ∧
    ∀ i u v, s(u, v) = (ops i).pair → entries (book (interleaved g s ops sched).store u) v =
      entries (((ops i).onBook (book s)).2 u) v := by
  have hstart : ∀ i, Stage (book s) (ops i) s (ops i).prog none := by
    intro i
    refine .first _ _ ?_ rfl rfl
    rw [FriendOp.prog_eq]
    exact .start _
  -- What all of them keep is that the entries of other pairs are as they were,
  -- and what each of them relies on is where it is (`Stage`).
  obtain ⟨⟨hkept, hframe⟩, hstage⟩ := Pool.rely_guarantee
    (I := fun s' => Kept s' ∧ ∀ u v, (∀ i, s(u, v) ≠ (ops i).pair) →
      entries (book s' u) v = entries (book s u) v)
    (L := fun i s' => Stage (book s) (ops i) s')
    (fun i s' c k l hI hL => by
      obtain ⟨hkept, hstage, hspares⟩ :=
        hL.step (g := g) hI.1 hb (h.between i) (h.removesPresent i)
      exact ⟨⟨hkept, fun u v huv => (hspares.entries u v (huv i)).trans (hI.2 u v huv)⟩, hstage⟩)
    (fun i j s' c k l q l' hji hI hL hL' hno => by
      obtain ⟨-, -, hspares⟩ := hL.step (g := g) hI.1 hb (h.between i) (h.removesPresent i)
      exact hL'.stable hI.1 (h.pairs j i hji) hspares hno)
    (p := .start s fun i => (ops i).prog) ⟨hs, fun _ _ _ => rfl⟩ hstart h.noOverlap
  refine ⟨hkept, hframe, fun i u v huv => ?_⟩
  obtain ⟨r, hr⟩ := h.finished i
  have hdone : Stage (book s) (ops i) (interleaved g s ops sched).store
      ((interleaved g s ops sched).prog i) _ := hstage i
  rw [hr] at hdone
  obtain ⟨hmine, htheirs⟩ := hdone.of_done hkept
  obtain ⟨hmine', htheirs'⟩ := hb.entries_alone (h.between i) (h.removesPresent i)
  rcases Sym2.eq_iff.1 huv with ⟨rfl, rfl⟩ | ⟨rfl, rfl⟩
  · exact hmine.trans hmine'.symm
  · exact htheirs.trans htheirs'.symm

/-- Sound operations interleaved keep the lists in agreement. -/
theorem Batch.agrees (h : Batch g s ops sched) (hs : Kept s) (hb : (book s).Agrees)
    (hsound : ∀ i, (ops i).Sound (book s)) :
    (book (interleaved g s ops sched).store).Agrees := by
  obtain ⟨-, hframe, halone⟩ := h.entries_eq hs hb
  have hagrees : ∀ i, ((ops i).onBook (book s)).2.Agrees := fun i => hb.onBook (hsound i)
  refine ⟨fun u => ?_, fun u v => ?_, fun u v => ?_⟩
  · rw [hframe u u fun i hi => h.between i ?_, hb.noSelf]
    rcases Sym2.eq_iff.1 hi with ⟨h₁, h₂⟩ | ⟨h₁, h₂⟩
    · exact h₁.symm.trans h₂
    · exact h₂.symm.trans h₁
  · by_cases hi : ∃ i, s(u, v) = (ops i).pair
    · obtain ⟨i, hi⟩ := hi
      rw [halone i u v hi]
      exact (hagrees i).single u v
    · rw [hframe u v fun i h => hi ⟨i, h⟩]
      exact hb.single u v
  · simp only [Book.statusOf]
    by_cases hi : ∃ i, s(u, v) = (ops i).pair
    · obtain ⟨i, hi⟩ := hi
      rw [halone i u v hi, halone i v u (Sym2.eq_swap.trans hi)]
      exact (hagrees i).complementary u v
    · have hvu : ∀ i, s(v, u) ≠ (ops i).pair := fun i h => hi ⟨i, Sym2.eq_swap.trans h⟩
      rw [hframe u v fun i h => hi ⟨i, h⟩, hframe v u hvu]
      exact hb.complementary u v

/-- The stores reached from no lists at all by sound operations, one after the
    other or interleaved without overlaps. -/
inductive Reachable (g : AutoId DocID) : FriendsStore → Prop
  | empty : Reachable g .empty
  | step {s : FriendsStore} {op : FriendOp} (hs : Reachable g s) (hop : op.Sound (book s)) :
    Reachable g (nextStore g s op)
  | interleaved {s : FriendsStore} {ι : Type} [DecidableEq ι] {ops : ι → FriendOp}
    {sched : List ι} (hs : Reachable g s) (hops : ∀ i, (ops i).Sound (book s))
    (h : Batch g s ops sched) : Reachable g (interleaved g s ops sched).store

/-- In all of these the lists agree. -/
theorem Reachable.agrees (h : Reachable g s) : Kept s ∧ (book s).Agrees := by
  induction h with
  | empty => exact ⟨kept_empty, book_empty ▸ .empty⟩
  | step _ hop ih => exact hop.nextStore ih.1 ih.2
  | interleaved _ hops h ih =>
    exact ⟨(h.entries_eq ih.1 ih.2).1, h.agrees ih.1 ih.2 hops⟩

/-- No update of the operations is lost in the store `s'`, performed from `s`:
    the entries of their pairs are as each one alone leaves them, and those of
    all other pairs as they were; there is one document at most for each user,
    and an entry for each request in the list of the user it was sent to. -/
structure NoLostUpdate (g : AutoId DocID) (s s' : FriendsStore) (ops : ι → FriendOp) : Prop where
  alone : ∀ i u v, s(u, v) = (ops i).pair →
    entries (book s' u) v = entries (book ((ops i).exec g s).2 u) v
  others : ∀ u v, (∀ i, s(u, v) ≠ (ops i).pair) → entries (book s' u) v = entries (book s u) v
  oneDoc : ∀ uid, (s'.query (ofUser uid)).length ≤ 1
  requests : ∀ i x y sent received, ops i = .sendFriendRequest x y sent received →
    ⟨x, received, .requested⟩ ∈ (book s' y).getD []

/-- From any store reached, no update of operations interleaved without overlaps is lost. -/
theorem noLostUpdate (hs : Reachable g s) (h : Batch g s ops sched) :
    NoLostUpdate g s (interleaved g s ops sched).store ops := by
  obtain ⟨hkept, hb⟩ := hs.agrees
  obtain ⟨hkept', hframe, halone⟩ := h.entries_eq hkept hb
  refine ⟨fun i u v huv => ?_, hframe, hkept'.oneDoc, fun i x y sent received hi => ?_⟩
  · rw [halone i u v huv, (exec_refines hkept (ops i)).2.1]
  · have hpair : s(y, x) = (ops i).pair := by
      rw [hi]
      exact Sym2.eq_swap
    have he := halone i y x hpair
    have hne := h.between i
    have hrem := h.removesPresent i
    rw [hi] at he hne hrem
    have heffect := he.trans (hb.entries_alone hne hrem).2
    have hmem : ⟨x, received, .requested⟩ ∈
        entries (book (interleaved g s ops sched).store y) x := by
      rw [heffect]
      exact List.mem_append_right _ (List.mem_singleton_self _)
    exact (List.mem_filter.1 hmem).1

/-- Two users sending a request to the same one. -/
def twoSenders : Bool → FriendOp
  | false => .sendFriendRequest "ann" "cem" 1 2
  | true => .sendFriendRequest "bob" "cem" 3 4

/-- Their calls in turns until each has written its own list, and then those of
    one after those of the other. -/
theorem noLostUpdate_twoSenders :
    NoLostUpdate succId .empty (interleaved succId .empty twoSenders
      [false, true, false, true, false, true, true, true, true, false, false, false]).store
      twoSenders :=
  noLostUpdate .empty
    { between := by decide
      pairs := by decide
      removesPresent := by decide
      noOverlap := by unfold NoOverlap; decide
      finished := fun i => ⟨.reported true, by cases i <;> rfl⟩ }

/-- With all of their calls in turns, both report a success, but the documents
    of the user they send to are two, of which the second is never read. -/
theorem lost_request :
    let p := interleaved succId .empty twoSenders
      [false, true, false, true, false, true, false, true, false, true, false, true]
    (∀ i, Offered .empty (twoSenders i)) ∧
      (∀ i j, i ≠ j → (twoSenders i).pair ≠ (twoSenders j).pair) ∧
      (∀ i, p.prog i = .done (.reported true)) ∧
      ¬ NoLostUpdate succId .empty p.store twoSenders := by
  refine ⟨by decide, by decide, fun i => by cases i <;> rfl, fun h => ?_⟩
  have hrequest := h.requests true "bob" "cem" 3 4 rfl
  revert hrequest
  decide

end YoYo
