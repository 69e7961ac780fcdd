import YoYo.Friends.Book

/-!
# Pairs of entries

An operation is about one pair of users, and changes only the two entries the
two have for each other. Each of its halves adds an entry to a list, or performs
an action on those there are (`FriendOp.IsHalf`); `entries_onBook` says what the
two do together, both finding what they act on (`FriendOp.Ready`). An action removing an
entry that is not there is another matter: it removes the first entry of the
list, or traps (`performAction_of_absent`).
-/

namespace YoYo

open DocStore FriendService

/-- The entries of a list for the user `uid`. -/
def entries (l : Option (List Friend)) (uid : UID) : List Friend :=
  (l.getD []).filter fun friend => friend.uid = uid

@[simp] theorem entries_none (uid : UID) : entries none uid = [] := rfl

theorem entries_some (l : List Friend) (uid : UID) :
    entries (some l) uid = l.filter fun friend => friend.uid = uid := rfl

theorem entries_eq_nil_iff {l : List Friend} {uid : UID} :
    entries (some l) uid = [] ↔ ∀ f ∈ l, f.uid ≠ uid := by
  simp [entries_some, List.filter_eq_nil_iff]

/-- No two entries of a list are for the same user iff there is one at most for each. -/
theorem nodup_uids_iff {l : List Friend} :
    (l.map Friend.uid).Nodup ↔ ∀ uid, (entries (some l) uid).length ≤ 1 := by
  rw [List.nodup_iff_count_le_one]
  refine forall_congr' fun uid => ?_
  rw [List.count, List.countP_map, List.countP_eq_length_filter, entries_some]
  have : ((fun x => x == uid) ∘ Friend.uid) = fun friend => decide (friend.uid = uid) := by
    funext f
    simp [beq_eq_decide]
  rw [this]

theorem filter_eraseP_of_not {α : Type*} {p q : α → Bool} (hpq : ∀ x, p x → q x = false)
    (l : List α) :
    (l.eraseP p).filter q = l.filter q := by
  induction l with
  | nil => rfl
  | cons x l ih =>
    by_cases hx : p x
    · rw [List.eraseP_cons_of_pos hx, List.filter_cons_of_neg (by simp [hpq x hx])]
    · rw [List.eraseP_cons_of_neg hx, List.filter_cons, List.filter_cons, ih]

theorem filter_eraseP_self {α : Type*} (p : α → Bool) (l : List α) :
    (l.eraseP p).filter p = (l.filter p).tail := by
  induction l with
  | nil => rfl
  | cons x l ih =>
    by_cases hx : p x
    · rw [List.eraseP_cons_of_pos hx, List.filter_cons_of_pos hx, List.tail_cons]
    · rw [List.eraseP_cons_of_neg hx, List.filter_cons_of_neg hx, List.filter_cons_of_neg hx, ih]

/-! ## Actions on a list -/

/-- What an action does to the entries of the friend it is performed on. -/
def acted (action : FriendAction) (blockedByMe : Bool) : List Friend → List Friend :=
  if action.removes then List.tail
  else List.map fun friend => { friend with status := newStatus action blockedByMe }

theorem acted_of_removes {action : FriendAction} (h : action.removes) (blockedByMe : Bool) :
    acted action blockedByMe = List.tail := by
  rw [acted, if_pos h]

theorem acted_of_not_removes {action : FriendAction} (h : action.removes = false)
    (blockedByMe : Bool) : acted action blockedByMe =
      List.map fun friend => { friend with status := newStatus action blockedByMe } := by
  rw [acted, if_neg (by simp [h])]

theorem acted_nil (action : FriendAction) (blockedByMe : Bool) :
    acted action blockedByMe [] = [] := by
  rw [acted]
  split <;> rfl

/-- An action not removing anything changes the status of the entries of the friend. -/
theorem performAction_of_not_removes {action : FriendAction} (h : action.removes = false)
    (l : List Friend) (uid : UID) (blockedByMe : Bool) :
    performAction l uid action blockedByMe = some (l.map fun friend =>
      if friend.uid = uid then { friend with status := newStatus action blockedByMe }
      else friend) := by
  rw [performAction, if_pos]
  cases action <;> simp_all [FriendAction.removes]

/-- A removing action removes the first entry of the friend, if there is one. -/
theorem performAction_of_removes {action : FriendAction} (h : action.removes) {l : List Friend}
    {uid : UID} (hmem : entries (some l) uid ≠ []) (blockedByMe : Bool) :
    performAction l uid action blockedByMe = some (l.eraseP fun friend => friend.uid = uid) := by
  have hsome : (l.findIdx? fun friend => friend.uid = uid).isSome := by
    rw [List.findIdx?_isSome]
    rw [Ne, entries_eq_nil_iff] at hmem
    push Not at hmem
    simpa using hmem
  obtain ⟨i, hi⟩ := Option.isSome_iff_exists.1 hsome
  have hlt : i < l.length := (List.findIdx?_eq_some_iff_getElem.1 hi).1
  rw [performAction, if_neg (by cases action <;> simp_all [FriendAction.removes]), hi,
    Option.getD_some, if_pos hlt, List.eraseP_eq_eraseIdx, hi]

/-- A removing action on a list without the friend removes the first entry, of
    whomever it is, and traps if there is none. -/
theorem performAction_of_absent {action : FriendAction} (h : action.removes) {l : List Friend}
    {uid : UID} (habs : entries (some l) uid = []) (blockedByMe : Bool) :
    performAction l uid action blockedByMe = if l = [] then none else some l.tail := by
  have hnone : (l.findIdx? fun friend => friend.uid = uid) = none := by
    rw [List.findIdx?_eq_none_iff]
    simpa using entries_eq_nil_iff.1 habs
  rw [performAction, if_neg (by cases action <;> simp_all [FriendAction.removes]), hnone,
    Option.getD_none]
  cases l <;> simp

/-- An action does not trap, on a list having the friend if it removes an entry. -/
theorem exists_performAction {action : FriendAction} {l : List Friend} {uid : UID}
    (h : action.removes → entries (some l) uid ≠ []) (blockedByMe : Bool) :
    ∃ l', performAction l uid action blockedByMe = some l' := by
  cases hrem : action.removes with
  | false => exact ⟨_, performAction_of_not_removes hrem l uid blockedByMe⟩
  | true => exact ⟨_, performAction_of_removes hrem (h hrem) blockedByMe⟩

/-- It changes the entries of the friend, and no others. -/
theorem entries_performAction {action : FriendAction} {l l' : List Friend} {uid : UID}
    {blockedByMe : Bool} (h : action.removes → entries (some l) uid ≠ [])
    (hl' : performAction l uid action blockedByMe = some l') (y : UID) :
    entries (some l') y =
      if y = uid then acted action blockedByMe (entries (some l) y) else entries (some l) y := by
  cases hrem : action.removes with
  | false =>
    rw [performAction_of_not_removes hrem, Option.some.injEq] at hl'
    rw [acted_of_not_removes hrem, ← hl', entries_some, entries_some]
    clear hl' h
    induction l with
    | nil => simp
    | cons f l ih =>
      rw [List.map_cons, List.filter_cons, List.filter_cons, ih]
      by_cases hf : f.uid = uid <;> by_cases hy : y = uid <;> by_cases hfy : f.uid = y <;> simp_all
  | true =>
    rw [performAction_of_removes hrem (h hrem), Option.some.injEq] at hl'
    rw [acted_of_removes hrem, ← hl', entries_some, entries_some]
    split_ifs with hy
    · subst hy
      exact filter_eraseP_self _ l
    · refine filter_eraseP_of_not (fun f hf => ?_) l
      have : f.uid = uid := by simpa using hf
      simpa [this] using Ne.symm hy

/-- An action adds nobody to a list. -/
theorem exists_uid_of_performAction {l l' : List Friend} {uid : UID} {action : FriendAction}
    {blockedByMe : Bool} (hl' : performAction l uid action blockedByMe = some l') {f : Friend}
    (hf : f ∈ l') : ∃ f₀ ∈ l, f₀.uid = f.uid := by
  cases hrem : action.removes with
  | false =>
    rw [performAction_of_not_removes hrem, Option.some.injEq] at hl'
    subst hl'
    obtain ⟨f₀, hf₀, rfl⟩ := List.mem_map.1 hf
    refine ⟨f₀, hf₀, ?_⟩
    split <;> rfl
  | true =>
    by_cases habs : entries (some l) uid = []
    · rw [performAction_of_absent hrem habs] at hl'
      split at hl'
      · cases hl'
      · cases hl'
        exact ⟨f, List.mem_of_mem_tail hf, rfl⟩
    · rw [performAction_of_removes hrem habs, Option.some.injEq] at hl'
      subst hl'
      exact ⟨f, List.mem_of_mem_eraseP hf, rfl⟩

/-! ## Operations on a pair -/

/-- The operation removes the entries of its two users for each other. -/
def FriendOp.removes : FriendOp → Bool
  | .sendFriendRequest _ _ _ _ => false
  | .performActionForFriend _ _ action => action.removes

namespace FriendOp

/-- What the first half does to the entries for the friend. -/
def myEffect : FriendOp → List Friend → List Friend
  | sendFriendRequest _ b sent _ => (· ++ [⟨b, sent, .requestSend⟩])
  | performActionForFriend _ _ action => acted action (action = .block)

/-- What the second half does to the entries for the user performing the operation. -/
def friendEffect : FriendOp → List Friend → List Friend
  | sendFriendRequest a _ _ received => (· ++ [⟨a, received, .requested⟩])
  | performActionForFriend _ _ action => acted action false

/-- A half finds what it acts on in the list `l`: for an action, there is a
    list, with the entry of the user `uid` if it is to be removed. -/
def Ready (op : FriendOp) (l : Option (List Friend)) (uid : UID) : Prop :=
  match op with
  | sendFriendRequest _ _ _ _ => True
  | performActionForFriend _ _ action => l.isSome ∧ (action.removes → entries l uid ≠ [])

theorem Ready.removes {op : FriendOp} {l : Option (List Friend)} {uid : UID}
    (h : op.Ready l uid) : op.removes → entries l uid ≠ [] := by
  cases op with
  | sendFriendRequest => exact nofun
  | performActionForFriend a b action => exact h.2

/-- Entries for the user acted on are all a half needs. -/
theorem ready_of_entries_ne_nil (op : FriendOp) {l : Option (List Friend)} {uid : UID}
    (h : entries l uid ≠ []) : op.Ready l uid := by
  cases op with
  | sendFriendRequest => trivial
  | performActionForFriend a b action =>
    cases l with
    | none => exact absurd rfl h
    | some l => exact ⟨rfl, fun _ => h⟩

theorem entries_append_singleton (l : Option (List Friend)) (f : Friend) (y : UID) :
    entries (some (l.getD [] ++ [f])) y =
      if y = f.uid then entries l y ++ [f] else entries l y := by
  rw [entries_some, List.filter_append]
  by_cases hy : f.uid = y
  · simp [entries, hy]
  · rw [if_neg (Ne.symm hy)]
    simp [entries, hy]

/-- What a half is, being about the entries for the user `uid`: it adds one of
    these, or performs an action on them, if there is a list. -/
inductive IsHalf (uid : UID) : (Option (List Friend) → Except Report (List Friend)) → Bool →
    (List Friend → List Friend) → Prop
  | adds (f : Friend) (hf : f.uid = uid) :
    IsHalf uid (fun l => .ok (l.getD [] ++ [f])) false (· ++ [f])
  | acts {half : Option (List Friend) → Except Report (List Friend)} {noList : Report}
    (action : FriendAction) (blockedByMe : Bool) (hnone : half none = .error noList)
    (hsome : ∀ l, half (some l) =
      match performAction l uid action blockedByMe with
      | none => .error .trapped
      | some l' => .ok l') :
    IsHalf uid half action.removes (acted action blockedByMe)

theorem isHalf_myHalf (op : FriendOp) : IsHalf op.friendUID op.myHalf op.removes op.myEffect := by
  cases op with
  | sendFriendRequest a b sent received => exact .adds ⟨b, sent, .requestSend⟩ rfl
  | performActionForFriend a b action => exact .acts action _ rfl fun _ => rfl

theorem isHalf_friendHalf (op : FriendOp) :
    IsHalf op.myUID op.friendHalf op.removes op.friendEffect := by
  cases op with
  | sendFriendRequest a b sent received => exact .adds ⟨a, received, .requested⟩ rfl
  | performActionForFriend a b action => exact .acts action _ rfl fun _ => rfl

namespace IsHalf

variable {uid : UID} {half : Option (List Friend) → Except Report (List Friend)} {removes : Bool}
  {effect : List Friend → List Friend} {l : Option (List Friend)}

/-- What a half writes, finding what it is to remove, has other entries for the
    user it is about, and for no others. -/
theorem entries_eq (h : IsHalf uid half removes effect) {l' : List Friend} (hl' : half l = .ok l')
    (hrem : removes → entries l uid ≠ []) (y : UID) :
    entries (some l') y = if y = uid then effect (entries l y) else entries l y := by
  cases h with
  | adds f hf =>
    cases hl'
    rw [entries_append_singleton, hf]
  | acts action blockedByMe hnone hsome =>
    cases l with
    | none => cases hnone.symm.trans hl'
    | some l =>
      obtain ⟨l₁, hl₁⟩ : ∃ l₁, performAction l uid action blockedByMe = some l₁ :=
        exists_performAction hrem _
      simp only [hsome, hl₁, Except.ok.injEq] at hl'
      exact hl' ▸ entries_performAction hrem hl₁ y

/-- Finding what it is to remove, a half fails only to find a list to act on. -/
theorem of_error (h : IsHalf uid half removes effect) {r : Report} (herr : half l = .error r)
    (hrem : removes → entries l uid ≠ []) : l = none ∧ effect [] = [] := by
  cases h with
  | adds f hf => cases herr
  | acts action blockedByMe hnone hsome =>
    cases l with
    | none => exact ⟨rfl, acted_nil action blockedByMe⟩
    | some l =>
      obtain ⟨l', hl'⟩ : ∃ l', performAction l uid action blockedByMe = some l' :=
        exists_performAction hrem _
      simp only [hsome, hl'] at herr
      cases herr

/-- Everybody on a list written was there before, or is the user the half is about. -/
theorem exists_uid (h : IsHalf uid half removes effect) {l' : List Friend} (hl' : half l = .ok l')
    {f : Friend} (hf : f ∈ l') : (∃ f₀ ∈ l.getD [], f₀.uid = f.uid) ∨ f.uid = uid := by
  cases h with
  | adds f₁ hf₁ =>
    cases hl'
    rcases List.mem_append.1 hf with hf | hf
    · exact .inl ⟨f, hf, rfl⟩
    · rw [List.mem_singleton.1 hf]
      exact .inr hf₁
  | acts action blockedByMe hnone hsome =>
    cases l with
    | none => cases hnone.symm.trans hl'
    | some l =>
      rw [hsome] at hl'
      split at hl'
      · cases hl'
      · rename_i hperf
        cases hl'
        exact .inl (exists_uid_of_performAction hperf hf)

end IsHalf

/-- A half finding what it acts on writes a list, with other entries for the
    user it is about, and for no others. -/
theorem exists_myHalf {op : FriendOp} {l : Option (List Friend)} (h : op.Ready l op.friendUID) :
    ∃ mine, op.myHalf l = .ok mine ∧ ∀ y, entries (some mine) y =
      if y = op.friendUID then op.myEffect (entries l y) else entries l y := by
  cases hmine : op.myHalf l with
  | error r =>
    cases op with
    | sendFriendRequest => cases hmine
    | performActionForFriend a b action =>
      obtain ⟨rfl, -⟩ := (isHalf_myHalf _).of_error hmine h.2
      cases h.1
  | ok mine => exact ⟨mine, rfl, op.isHalf_myHalf.entries_eq hmine h.removes⟩

theorem exists_friendHalf {op : FriendOp} {l : Option (List Friend)} (h : op.Ready l op.myUID) :
    ∃ theirs, op.friendHalf l = .ok theirs ∧ ∀ y, entries (some theirs) y =
      if y = op.myUID then op.friendEffect (entries l y) else entries l y := by
  cases htheirs : op.friendHalf l with
  | error r =>
    cases op with
    | sendFriendRequest => cases htheirs
    | performActionForFriend a b action =>
      obtain ⟨rfl, -⟩ := (isHalf_friendHalf _).of_error htheirs h.2
      cases h.1
  | ok theirs => exact ⟨theirs, rfl, op.isHalf_friendHalf.entries_eq htheirs h.removes⟩

/-- An operation of a user `x` on another, `y`, finding what it acts on in both
    lists, changes the entries the two have for each other, and succeeds. -/
theorem entries_onBook {op : FriendOp} {b : Book} {x y : UID} (hx : op.myUID = x)
    (hy : op.friendUID = y) (hne : x ≠ y) (hmine : op.Ready (b x) y) (htheirs : op.Ready (b y) x) :
    (op.onBook b).1 = .reported true ∧ ∀ u v, entries ((op.onBook b).2 u) v =
      if u = x ∧ v = y then op.myEffect (entries (b u) v)
      else if u = y ∧ v = x then op.friendEffect (entries (b u) v)
      else entries (b u) v := by
  subst hx hy
  obtain ⟨mine, hm, hmy⟩ := exists_myHalf hmine
  obtain ⟨theirs, ht, hty⟩ := exists_friendHalf htheirs
  have hother : Function.update b op.myUID (some mine) op.friendUID = b op.friendUID :=
    Function.update_of_ne hne.symm _ _
  rw [onBook, hm]
  simp only [hother, ht]
  refine ⟨trivial, fun u v => ?_⟩
  by_cases hu : u = op.friendUID
  · subst hu
    simp [hty, hne.symm]
  · rw [Function.update_of_ne hu]
    by_cases hu' : u = op.myUID
    · subst hu'
      simp [hmy, hne]
    · rw [Function.update_of_ne hu', if_neg fun h => hu' h.1, if_neg fun h => hu h.1]

end FriendOp

/-! ## Whom lists may have -/

/-- Every owner of a list is in the relation to everybody in it. -/
def Book.Relates (R : UID → UID → Prop) (b : Book) : Prop :=
  ∀ x, ∀ friend ∈ (b x).getD [], R x friend.uid

namespace Book.Relates

variable {R : UID → UID → Prop} {b : Book} {x y : UID}

/-- Rewriting one list, with nobody but those in it and the user `y`. -/
theorem update (hb : b.Relates R) (hxy : R x y) {l' : List Friend}
    (hl' : ∀ f ∈ l', (∃ f₀ ∈ (b x).getD [], f₀.uid = f.uid) ∨ f.uid = y) :
    Relates R (Function.update b x (some l')) := by
  intro u friend hfriend
  by_cases hu : u = x
  · subst hu
    rw [Function.update_self] at hfriend
    rcases hl' friend hfriend with ⟨f₀, hf₀, huid⟩ | huid
    · exact huid ▸ hb u f₀ hf₀
    · exact huid ▸ hxy
  · rw [Function.update_of_ne hu] at hfriend
    exact hb u friend hfriend

/-- An operation puts its two users in each other's lists, and nobody else anywhere. -/
theorem onBook (hb : b.Relates R) {op : FriendOp} (hmine : R op.myUID op.friendUID)
    (htheirs : R op.friendUID op.myUID) : (op.onBook b).2.Relates R := by
  rw [FriendOp.onBook]
  cases hl : op.myHalf (b op.myUID) with
  | error r => exact hb
  | ok mine =>
    have hb' := hb.update hmine fun f hf => op.isHalf_myHalf.exists_uid hl hf
    cases hm : op.friendHalf (Function.update b op.myUID (some mine) op.friendUID) with
    | error r =>
      simp only [hm]
      exact hb'
    | ok theirs =>
      simp only [hm]
      exact hb'.update htheirs fun f hf => op.isHalf_friendHalf.exists_uid hm hf

end Book.Relates

end YoYo
