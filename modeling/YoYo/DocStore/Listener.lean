import YoYo.DocStore.Collection

/-!
# Listeners

A listener on a query is delivered *snapshots* of its result, as the changes
since the snapshot delivered before (`documentChanges`): the first one delivers
everything there is as added. Snapshots are taken of the collection as it is
when they are, and may be on their way for any time, but arrive in order.

Over a collection that only grows, in a sense given by a relation `R` between
earlier and later results, all of the snapshots of a listener are so related
(`Listener.Ordered`).
-/

namespace DocStore

/-- How a document has changed. -/
inductive ChangeType
  | added
  | modified
  | removed
  deriving DecidableEq, Repr

/-- A change of a document: as it is now, or was before it was removed. -/
structure Change (K α : Type*) where
  type : ChangeType
  document : Doc K α

variable {K α : Type*}

section

variable [DecidableEq K] [DecidableEq α]

/-- How a document of a snapshot has changed since the snapshot before, if it has. -/
def changeOf (old : List (Doc K α)) (d : Doc K α) : Option (Change K α) :=
  match old.find? fun e => e.id = d.id with
  | none => some ⟨.added, d⟩
  | some e => if e = d then none else some ⟨.modified, d⟩

/-- The changes from one snapshot to the next one. -/
def documentChanges (old new : List (Doc K α)) : List (Change K α) :=
  (old.filter fun d => d.id ∉ new.map Doc.id).map (Change.mk .removed) ++
    new.filterMap (changeOf old)

end

/-- The documents changed in one way. -/
def documentsOf (type : ChangeType) (changes : List (Change K α)) : List (Doc K α) :=
  changes.filterMap fun change => if change.type = type then some change.document else none

theorem mem_documentsOf {type : ChangeType} {changes : List (Change K α)} {d : Doc K α} :
    d ∈ documentsOf type changes ↔ ⟨type, d⟩ ∈ changes := by
  rw [documentsOf, List.mem_filterMap]
  constructor
  · rintro ⟨change, hmem, h⟩
    split_ifs at h with htype
    cases h
    subst htype
    exact hmem
  · exact fun h => ⟨_, h, if_pos rfl⟩

theorem documentsOf_append (type : ChangeType) (changes changes' : List (Change K α)) :
    documentsOf type (changes ++ changes') =
      documentsOf type changes ++ documentsOf type changes' := List.filterMap_append

theorem documentsOf_cons (type : ChangeType) (change : Change K α) (changes : List (Change K α)) :
    documentsOf type (change :: changes) =
      if change.type = type then change.document :: documentsOf type changes
      else documentsOf type changes := by
  rw [documentsOf, List.filterMap_cons]
  split_ifs <;> rfl

section

variable [DecidableEq K] [DecidableEq α] {old new : List (Doc K α)} {d e : Doc K α}

theorem changeOf_of_notMem (h : d.id ∉ old.map Doc.id) : changeOf old d = some ⟨.added, d⟩ := by
  have hnone : (old.find? fun e => e.id = d.id) = none := by
    rw [List.find?_eq_none]
    intro e he hid
    exact h ((of_decide_eq_true hid : e.id = d.id) ▸ List.mem_map_of_mem he)
  rw [changeOf, hnone]

theorem exists_changeOf_of_mem (h : d.id ∈ old.map Doc.id) :
    ∃ e ∈ old, e.id = d.id ∧ changeOf old d = if e = d then none else some ⟨.modified, d⟩ := by
  cases he : old.find? fun e => e.id = d.id with
  | none =>
    obtain ⟨e, hmem, hid⟩ := List.mem_map.1 h
    exact absurd (decide_eq_true hid) (List.find?_eq_none.1 he e hmem)
  | some e =>
    refine ⟨e, List.mem_of_find?_eq_some he, by simpa using List.find?_some he, ?_⟩
    rw [changeOf, he]

/-- The documents added are those with a new id, in their order. -/
theorem documentsOf_added (old new : List (Doc K α)) :
    documentsOf .added (documentChanges old new) = new.filter fun d => d.id ∉ old.map Doc.id := by
  have hremoved : ∀ docs : List (Doc K α),
      documentsOf .added (docs.map (Change.mk .removed)) = [] := by
    intro docs
    rw [documentsOf, List.filterMap_map, List.filterMap_eq_nil_iff]
    exact fun _ _ => rfl
  have happend : documentsOf .added (documentChanges old new) =
      documentsOf .added (new.filterMap (changeOf old)) := by
    rw [documentChanges, documentsOf, List.filterMap_append, ← documentsOf, hremoved,
      List.nil_append, documentsOf]
  rw [happend]
  clear happend
  -- A document is added if there was none of its id, and otherwise modified or not changed.
  induction new with
  | nil => rfl
  | cons d new ih =>
    by_cases hid : d.id ∈ old.map Doc.id
    · rw [List.filter_cons_of_neg (by simpa using hid), ← ih]
      obtain ⟨e, -, -, hchange⟩ := exists_changeOf_of_mem hid
      by_cases hed : e = d
      · rw [List.filterMap_cons_none (hchange.trans (if_pos hed))]
      · rw [List.filterMap_cons_some (hchange.trans (if_neg hed)), documentsOf_cons,
          if_neg ChangeType.noConfusion]
    · rw [List.filter_cons_of_pos (by simpa using hid), ← ih,
        List.filterMap_cons_some (changeOf_of_notMem hid), documentsOf_cons, if_pos rfl]

/-- The documents modified are those with the id of another one before. -/
theorem mem_documentsOf_modified (hold : (old.map Doc.id).Nodup) :
    d ∈ documentsOf .modified (documentChanges old new) ↔
      d ∈ new ∧ ∃ e ∈ old, e.id = d.id ∧ e ≠ d := by
  rw [mem_documentsOf, documentChanges, List.mem_append, List.mem_map, List.mem_filterMap]
  constructor
  · rintro (⟨e, -, h⟩ | ⟨e, he, h⟩)
    · cases h
    · by_cases hid : e.id ∈ old.map Doc.id
      · obtain ⟨e', he', hid', hchange⟩ := exists_changeOf_of_mem hid
        rw [hchange] at h
        split_ifs at h with hne
        cases h
        exact ⟨he, e', he', hid', hne⟩
      · rw [changeOf_of_notMem hid] at h
        cases h
  · rintro ⟨hd, e, he, hid, hne⟩
    obtain ⟨e', he', hid', hchange⟩ := exists_changeOf_of_mem (List.mem_map.2 ⟨e, he, hid⟩)
    have heq : e' = e := List.inj_on_of_nodup_map hold he' he (hid'.trans hid.symm)
    exact .inr ⟨d, hd, hchange.trans (if_neg (heq ▸ hne))⟩

end

/-! ## Snapshots on their way -/

/-- A listener: the last snapshot delivered, and those on their way. -/
structure Listener (K α : Type*) where
  delivered : List (Doc K α)
  queue : List (List (Doc K α))

namespace Listener

/-- A listener to which nothing has been delivered. -/
def registered : Listener K α := ⟨[], []⟩

/-- A snapshot is taken. -/
def snapshot (l : Listener K α) (docs : List (Doc K α)) : Listener K α :=
  { l with queue := l.queue ++ [docs] }

/-- Everything has been delivered: there is nothing new in the result `docs` of the query. -/
def UpToDate (l : Listener K α) (docs : List (Doc K α)) : Prop := l.queue = [] ∧ l.delivered = docs

/-- The snapshots of a listener, in their order, and the result `docs` of the
    query now, are related. -/
def Ordered (R : List (Doc K α) → List (Doc K α) → Prop) (l : Listener K α)
    (docs : List (Doc K α)) : Prop :=
  (l.delivered :: (l.queue ++ [docs])).Pairwise R

variable {R : List (Doc K α) → List (Doc K α) → Prop} {l : Listener K α}
  {docs docs' : List (Doc K α)}

theorem Ordered.registered (h : R [] docs) : Ordered R registered docs := by
  simpa [Ordered, Listener.registered] using h

/-- What is delivered, or on its way, is related to the result of the query now. -/
theorem Ordered.rel_of_mem (h : l.Ordered R docs) {docs' : List (Doc K α)}
    (hmem : docs' ∈ l.delivered :: l.queue) : R docs' docs := by
  rw [Ordered, ← List.cons_append, List.pairwise_append] at h
  exact h.2.2 docs' hmem docs (List.mem_singleton_self docs)

/-- What is delivered is related to what is on its way. -/
theorem Ordered.rel_of_mem_queue (h : l.Ordered R docs) {docs' : List (Doc K α)}
    (hmem : docs' ∈ l.queue) : R l.delivered docs' :=
  (List.pairwise_cons.1 h).1 docs' (List.mem_append_left _ hmem)

theorem Ordered.snapshot (h : l.Ordered R docs) (hrefl : R docs docs) :
    (l.snapshot docs).Ordered R docs := by
  rw [Ordered, Listener.snapshot, ← List.cons_append, List.pairwise_append]
  refine ⟨h, List.pairwise_singleton _ _, fun docs₀ hmem docs₁ hmem₁ => ?_⟩
  rw [List.mem_singleton.1 hmem₁]
  rw [← List.cons_append, List.mem_append] at hmem
  rcases hmem with hmem | hmem
  · exact h.rel_of_mem hmem
  · exact List.mem_singleton.1 hmem ▸ hrefl

/-- The next snapshot is delivered. -/
theorem Ordered.tail {docs₀ : List (Doc K α)} {queue : List (List (Doc K α))}
    (h : l.Ordered R docs) (hqueue : l.queue = docs₀ :: queue) :
    Ordered R ⟨docs₀, queue⟩ docs := by
  simp only [Ordered] at *
  rw [hqueue] at h
  exact (List.pairwise_cons.1 h).2

/-- The result of the query grows. -/
theorem Ordered.mono (h : l.Ordered R docs) (htrans : ∀ docs₀, R docs₀ docs → R docs₀ docs') :
    l.Ordered R docs' := by
  simp only [Ordered] at *
  rw [← List.cons_append, List.pairwise_append] at *
  refine ⟨h.1, List.pairwise_singleton _ _, fun docs₀ hmem docs₁ hmem₁ => ?_⟩
  rw [List.mem_singleton.1 hmem₁]
  exact htrans docs₀ (h.2.2 docs₀ hmem docs (List.mem_singleton_self docs))

end Listener

end DocStore
