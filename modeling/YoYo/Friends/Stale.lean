import YoYo.Friends.Invariant

/-!
# Taps on stale rows

The friends screen registers for changes of its list when it is loaded, and
stops listening when it disappears: a row it shows may be that of any earlier
snapshot of the list, and a tap on it performs an action whatever is stored by
then. So here runs go from one `History` to another, with the stores there have
been: a tap is possible if the screen offered it in one of these
(`History.Tappable`).

Nothing in an action looks at the status it changes: only the party entitled to
it changes a relation exactly in the runs each of whose actions is permitted by
the status then stored (`entitled_iff`). (What an action does that does not
find the entry it is to remove is the matter of `YoYo.Friends.Frame`.)
-/

namespace YoYo

open DocStore FriendService

/-- The store now, and those there have been: a row shown may be from any of these. -/
abbrev History := Versions FriendsStore

namespace History

/-- No lists, and nothing before. -/
abbrev init : History := Versions.init .empty

/-- The history after an operation run alone. -/
def next (g : AutoId DocID) (h : History) (op : FriendOp) : History := h.push (nextStore g h.now op)

@[simp] theorem now_next (g : AutoId DocID) (h : History) (op : FriendOp) :
    (h.next g op).now = nextStore g h.now op := rfl

/-- A request the search offers, or an action the friends screen has offered. -/
def Tappable (h : History) : FriendOp → Prop
  | .sendFriendRequest a b sent received => Offered h.now (.sendFriendRequest a b sent received)
  | .performActionForFriend a b action => ∃ s ∈ h.seen, FriendsScreenOffers s a b action

instance (h : History) : ∀ op, Decidable (h.Tappable op)
  | .sendFriendRequest a b sent received =>
    inferInstanceAs (Decidable (Offered h.now (.sendFriendRequest a b sent received)))
  | .performActionForFriend _ _ _ => inferInstanceAs (Decidable (∃ s ∈ h.seen, _))

/-- An entry to be removed is in the list of the user removing it. -/
def RemovesPresent (h : History) (op : FriendOp) : Prop := op.RemovesPresent (book h.now)

instance (h : History) (op : FriendOp) : Decidable (h.RemovesPresent op) :=
  inferInstanceAs (Decidable (op.RemovesPresent (book h.now)))

end History

variable {g : AutoId DocID} {h : History}

/-! ## Who changes a relation -/

/-- The user `x` blocks the user `y`. -/
def Blocks (s : FriendsStore) (x y : UID) : Prop :=
  (book s).statusOf x y = some .unblock ∧ (book s).statusOf y x = some .blocked

/-- The entries of `x` and `y` for each other are the same in both stores. -/
def SameEntries (s s' : FriendsStore) (x y : UID) : Prop :=
  entries (book s' x) y = entries (book s x) y ∧ entries (book s' y) x = entries (book s y) x

/-- A block stays as it is, in the step `op`, unless it is lifted by its owner. -/
def BlockKept (g : AutoId DocID) (h : History) (op : FriendOp) : Prop :=
  ∀ x y, Blocks h.now x y → op ≠ .performActionForFriend x y .unblock →
    SameEntries h.now (h.next g op).now x y

/-- A request becomes a friendship, in the step `op`, only if accepted by the
    user it was sent to. -/
def AcceptedByRequested (g : AutoId DocID) (h : History) (op : FriendOp) : Prop :=
  ∀ x y, (book h.now).statusOf x y = some .requestSend →
    (book h.now).statusOf y x = some .requested →
    (book (h.next g op).now).statusOf x y = some .accpeted →
    (book (h.next g op).now).statusOf y x = some .accpeted →
    op = .performActionForFriend y x .accept

/-- Only the entitled party changes a relation, in the run `ops`: from when a
    user blocks another, their entries stay the same until the block is lifted
    by its owner, and requests become friendships only as accepted by the users
    they were sent to. -/
structure Entitled (g : AutoId DocID) (h : History) (ops : List FriendOp) : Prop where
  blocks : ∀ ops₁ ops₂ ops₃, ops = ops₁ ++ (ops₂ ++ ops₃) → ∀ x y,
    Blocks (after (History.next g) h ops₁).now x y →
    .performActionForFriend x y .unblock ∉ ops₂ →
    SameEntries (after (History.next g) h ops₁).now
      (after (History.next g) h (ops₁ ++ ops₂)).now x y
  requests : AllSteps (History.next g) (AcceptedByRequested g) h ops

theorem SameEntries.blocks {s s' : FriendsStore} {x y : UID} (hs : SameEntries s s' x y)
    (hb : Blocks s x y) : Blocks s' x y := by
  simp only [Blocks, Book.statusOf] at *
  rw [hs.1, hs.2]
  exact hb

/-- What holds of a run from a block to its lifting is what holds of its steps. -/
theorem entitled_iff_allSteps {ops : List FriendOp} : Entitled g h ops ↔
    AllSteps (History.next g) (fun h op => BlockKept g h op ∧ AcceptedByRequested g h op)
      h ops := by
  rw [allSteps_and]
  refine ⟨fun hops => ⟨?_, hops.requests⟩, fun hops => ⟨?_, hops.2⟩⟩
  · have hblocks := hops.blocks
    clear hops
    induction ops generalizing h with
    | nil => trivial
    | cons op ops ih =>
      refine ⟨fun x y hb hop => ?_, ih fun ops₁ ops₂ ops₃ heq => ?_⟩
      · exact hblocks [] [op] ops rfl x y hb (by simpa using Ne.symm hop)
      · exact hblocks (op :: ops₁) ops₂ ops₃ (by rw [heq]; rfl)
  · rintro ops₁ ops₂ ops₃ rfl x y hb hnot
    rw [after_append]
    have hsteps := (allSteps_append.1 (allSteps_append.1 hops.1).2).1
    generalize after (History.next g) h ops₁ = h₀ at hb hsteps ⊢
    -- Until the block is lifted, the entries are those there were when it began.
    suffices ∀ h', SameEntries h₀.now h'.now x y → AllSteps (History.next g) (BlockKept g) h' ops₂ →
        SameEntries h₀.now (after (History.next g) h' ops₂).now x y from this h₀ ⟨rfl, rfl⟩ hsteps
    clear hsteps hops
    induction ops₂ with
    | nil => exact fun h' hsame _ => hsame
    | cons op ops₂ ih =>
      intro h' hsame hsteps
      rw [List.mem_cons, not_or] at hnot
      have hstep := hsteps.1 x y (hsame.blocks hb) (Ne.symm hnot.1)
      exact ih hnot.2 _ ⟨hstep.1.trans hsame.1, hstep.2.trans hsame.2⟩ hsteps.2

/-- The actions the status stored for a friend permits. -/
def Permits : Option FriendStatus → FriendAction → Bool
  | some .unblock, action => action = .unblock ∨ action = .block
  | some .blocked, _ => false
  | some .requestSend, action => action ≠ .accept ∧ action ≠ .unblock
  | some .requested, action => action ≠ .unblock
  | some .accpeted, _ => true
  | none, _ => true

/-- The action is one permitted by the status in the list of the user performing it. -/
def FriendOp.Permitted (b : Book) : FriendOp → Prop
  | .sendFriendRequest _ _ _ _ => True
  | .performActionForFriend x y action => Permits (b.statusOf x y) action

/-- The action is one the status stored now permits. -/
def History.Permitted (h : History) (op : FriendOp) : Prop := op.Permitted (book h.now)

instance (b : Book) : ∀ op, Decidable (FriendOp.Permitted b op)
  | .sendFriendRequest _ _ _ _ => .isTrue trivial
  | .performActionForFriend _ _ _ => inferInstanceAs (Decidable (_ = true))

instance (h : History) (op : FriendOp) : Decidable (h.Permitted op) :=
  inferInstanceAs (Decidable (op.Permitted (book h.now)))

theorem History.Tappable.sound {op : FriendOp} (hop : h.Tappable op) (hrem : h.RemovesPresent op) :
    op.Sound (book h.now) := by
  cases op with
  | sendFriendRequest => exact Offered.sound hop
  | performActionForFriend => exact hrem

/-- What a step does to the pair of `x` and `y` is something they are entitled to. -/
def EntitledPair (b b' : Book) (op : FriendOp) (x y : UID) : Prop :=
  (b.statusOf x y = some .unblock → b.statusOf y x = some .blocked →
    op ≠ .performActionForFriend x y .unblock →
      entries (b' x) y = entries (b x) y ∧ entries (b' y) x = entries (b y) x) ∧
  (b.statusOf x y = some .requestSend → b.statusOf y x = some .requested →
    b'.statusOf x y = some .accpeted → b'.statusOf y x = some .accpeted →
      op = .performActionForFriend y x .accept)

theorem entitledPair_iff {op : FriendOp} : BlockKept g h op ∧ AcceptedByRequested g h op ↔
    ∀ x y, EntitledPair (book h.now) (book (h.next g op).now) op x y := by
  refine ⟨fun hst x y => ⟨fun hx hy => hst.1 x y ⟨hx, hy⟩, hst.2 x y⟩, fun hst => ⟨?_, ?_⟩⟩
  · exact fun x y hb => (hst x y).1 hb.1 hb.2
  · exact fun x y => (hst x y).2

section

variable {b b' : Book} {op : FriendOp} {x y : UID}

/-- A pair whose entries a step leaves alone. -/
theorem EntitledPair.of_same (hxy : entries (b' x) y = entries (b x) y)
    (hyx : entries (b' y) x = entries (b y) x) : EntitledPair b b' op x y := by
  refine ⟨fun _ _ _ => ⟨hxy, hyx⟩, fun hs _ hs' => ?_⟩
  rw [Book.statusOf, hxy, ← Book.statusOf, hs] at hs'
  cases hs'

/-- Only the pair a step changes matters. -/
theorem entitledPair_of_pair {mine theirs : List Friend}
    (he : ∀ u v, entries (b' u) v =
      if u = x ∧ v = y then mine else if u = y ∧ v = x then theirs else entries (b u) v) :
    (∀ u v, EntitledPair b b' op u v) ↔ EntitledPair b b' op x y ∧ EntitledPair b b' op y x := by
  refine ⟨fun h => ⟨h x y, h y x⟩, fun h u v => ?_⟩
  by_cases h₁ : u = x ∧ v = y
  · exact h₁.1 ▸ h₁.2 ▸ h.1
  by_cases h₂ : u = y ∧ v = x
  · exact h₂.1 ▸ h₂.2 ▸ h.2
  refine .of_same ?_ ?_
  · rw [he, if_neg h₁, if_neg h₂]
  · rw [he, if_neg fun h => h₂ ⟨h.2, h.1⟩, if_neg fun h => h₁ ⟨h.2, h.1⟩]

/-- An action on an entry that is there does what the two users are entitled to
    exactly if the status of the entry permits it. -/
theorem entitledPair_perform_iff {action : FriendAction} (hb : b.Agrees)
    (hxy : entries (b x) y ≠ []) :
    (∀ u v, EntitledPair b (((FriendOp.performActionForFriend x y action).onBook b).2)
      (.performActionForFriend x y action) u v) ↔ Permits (b.statusOf x y) action := by
  have hne := hb.ne_of_entries_ne_nil hxy
  have he := (FriendOp.entries_perform hb hxy action).2
  rw [entitledPair_of_pair he]
  obtain ⟨f, hf⟩ := hb.entries_eq hxy
  obtain ⟨f', hf'⟩ := hb.entries_eq fun h' => hxy (hb.entries_eq_nil h')
  have hx := he x y
  have hy := he y x
  rw [if_pos ⟨rfl, rfl⟩, hf] at hx
  rw [if_neg (fun h => hne h.2), if_pos ⟨rfl, rfl⟩, hf'] at hy
  have hc := hb.complementary x y
  simp only [EntitledPair, Book.statusOf] at *
  rw [hx, hy, hf, hf'] at *
  obtain ⟨u, d, st⟩ := f
  obtain ⟨u', d', st'⟩ := f'
  cases st <;> cases st' <;> simp [Complementary] at hc <;> cases action <;>
    simp [acted, Permits, FriendAction.removes, newStatus, hne, hne.symm]

/-- A sound step does what the users are entitled to exactly if its action is permitted. -/
theorem entitledPair_onBook_iff (hb : b.Agrees) (hop : op.Sound b) :
    (∀ u v, EntitledPair b (op.onBook b).2 op u v) ↔ op.Permitted b := by
  cases op with
  | sendFriendRequest x y sent received =>
    obtain ⟨hne, hxy⟩ := hop
    refine iff_true_intro ?_
    rw [entitledPair_of_pair (FriendOp.entries_send hb hne hxy sent received)]
    -- Before a request, the two have no entries at all.
    have hx := statusOf_eq_none_iff.2 hxy
    have hy := statusOf_eq_none_iff.2 (hb.entries_eq_nil hxy)
    simp [EntitledPair, hx, hy]
  | performActionForFriend x y action =>
    by_cases hxy : entries (b x) y = []
    · have hrem : action.removes = false := Bool.eq_false_iff.2 fun hrem => hop hrem hxy
      have he := entries_onBook_of_absent hrem hxy (hb.entries_eq_nil hxy)
      rw [FriendOp.Permitted, statusOf_eq_none_iff.2 hxy]
      exact iff_of_true (fun u v => .of_same (he u v) (he v u)) rfl
    · exact entitledPair_perform_iff hb hxy

end

/-- The books of the runs in which the entries removed are there agree. -/
theorem agrees_next {op : FriendOp} (hI : Kept h.now ∧ (book h.now).Agrees)
    (hop : h.Tappable op ∧ h.RemovesPresent op) :
    Kept (h.next g op).now ∧ (book (h.next g op).now).Agrees :=
  (hop.1.sound hop.2).nextStore hI.1 hI.2

/-- In the runs in which the entries removed are there, only the entitled party
    changes a relation exactly if every action is one that the status then
    stored permits. -/
theorem entitled_iff {ops : List FriendOp}
    (htap : AllSteps (History.next g) History.Tappable .init ops)
    (hrem : AllSteps (History.next g) History.RemovesPresent .init ops) :
    Entitled g .init ops ↔ AllSteps (History.next g) History.Permitted .init ops := by
  rw [entitled_iff_allSteps]
  refine allSteps_iff (I := fun h => Kept h.now ∧ (book h.now).Agrees)
    (fun h op hI hop _ => agrees_next hI hop) (fun h op hI hop => ?_)
    ⟨kept_empty, book_empty ▸ .empty⟩ (allSteps_and.2 ⟨htap, hrem⟩)
  have hstep := entitledPair_onBook_iff hI.2 (hop.1.sound hop.2)
  rw [entitledPair_iff, History.now_next, nextStore, (exec_refines hI.1 op).2.1, hstep,
    History.Permitted]

/-- A row accepted, and a block lifted. -/
theorem entitled_exampleRun : Entitled succId .init exampleRun :=
  (entitled_iff (by decide) (by decide)).2 (by decide)

/-- A blocked user still shown the row of a friend can tap its buttons. -/
def staleRun : List FriendOp :=
  [.sendFriendRequest "ann" "bob" 1 2, .performActionForFriend "bob" "ann" .accept,
    .performActionForFriend "ann" "bob" .block, .performActionForFriend "bob" "ann" .block]

/-- A tap on such a row takes the block over. -/
theorem not_entitled_staleRun : AllSteps (History.next succId) History.Tappable .init staleRun ∧
    ¬ Entitled succId .init staleRun := by
  refine ⟨by decide, fun h => ?_⟩
  have := h.blocks (staleRun.take 3) (staleRun.drop 3) [] (by decide) "ann" "bob"
    (by unfold Blocks; decide) (by decide)
  revert this
  rw [SameEntries]
  decide

end YoYo
