import Mathlib.Data.List.Sort
import Mathlib.Order.Lattice

/-!
# Collections of documents

A document store keeps *collections*: finite sets of documents, each under an
id of its own. A query returns the documents it matches in the order of their
ids, so a collection is the list of its documents in that order.

* `Collection.setData` writes the document of an id, replacing the one there or
  creating it;
* `Collection.addDocument` creates a document under an id the store generates
  (`AutoId`): any function picking an id not in use yet;
* `Collection.query` is the list of the documents matching a predicate.

`query_setData` says what a write does to any query, and everything else about
queries after writes follows from it.

What is stored is raw data, which a reader decodes: a field of it may be
missing, or of a type the reader refuses (`DocField`).
-/

namespace DocStore

/-- A document: its data, under its id. -/
structure Doc (K α : Type*) where
  id : K
  data : α
  deriving DecidableEq, Repr

variable {K α β : Type*} [LinearOrder K]

/-- The list of documents, in the order of their ids, with `d` written to it. -/
def insertDoc (d : Doc K α) : List (Doc K α) → List (Doc K α)
  | [] => [d]
  | e :: l =>
    if d.id < e.id then d :: e :: l else if d.id = e.id then d :: l else e :: insertDoc d l

/-- The documents are in the order of their ids, which are distinct. -/
abbrev IdSorted (l : List (Doc K α)) : Prop := l.Pairwise fun d e => d.id < e.id

theorem mem_insertDoc {d x : Doc K α} {l : List (Doc K α)} (hl : IdSorted l) :
    x ∈ insertDoc d l ↔ x = d ∨ (x ∈ l ∧ x.id ≠ d.id) := by
  induction l with
  | nil => simp [insertDoc]
  | cons e l ih =>
    rw [IdSorted, List.pairwise_cons] at hl
    rw [insertDoc]
    split_ifs with hlt heq
    · -- `d` comes first, so that no document of the list has its id.
      have hne : ∀ y ∈ e :: l, y.id ≠ d.id := by
        intro y hy
        rcases List.mem_cons.1 hy with rfl | hy
        · exact hlt.ne'
        · exact (hlt.trans (hl.1 y hy)).ne'
      rw [List.mem_cons]
      exact or_congr_right ⟨fun hx => ⟨hx, hne x hx⟩, And.left⟩
    · -- `d` replaces `e`, and no other document has its id.
      have hne : ∀ y ∈ l, y.id ≠ d.id := fun y hy => heq ▸ (hl.1 y hy).ne'
      rw [List.mem_cons, List.mem_cons]
      refine or_congr_right ⟨fun hx => ⟨.inr hx, hne x hx⟩, ?_⟩
      rintro ⟨rfl | hx, hid⟩
      · exact absurd heq.symm hid
      · exact hx
    · rw [List.mem_cons, List.mem_cons, ih hl.2]
      constructor
      · rintro (rfl | rfl | ⟨hx, hid⟩)
        · exact .inr ⟨.inl rfl, fun h => heq h.symm⟩
        · exact .inl rfl
        · exact .inr ⟨.inr hx, hid⟩
      · rintro (rfl | ⟨rfl | hx, hid⟩)
        · exact .inr (.inl rfl)
        · exact .inl rfl
        · exact .inr (.inr ⟨hx, hid⟩)

theorem IdSorted.insertDoc {l : List (Doc K α)} (hl : IdSorted l) (d : Doc K α) :
    IdSorted (insertDoc d l) := by
  induction l with
  | nil => simp [DocStore.insertDoc]
  | cons e l ih =>
    have hl' := List.pairwise_cons.1 hl
    rw [DocStore.insertDoc]
    split_ifs with hlt heq
    · refine List.pairwise_cons.2 ⟨fun x hx => ?_, hl⟩
      rcases List.mem_cons.1 hx with rfl | hx
      · exact hlt
      · exact hlt.trans (hl'.1 x hx)
    · exact List.pairwise_cons.2 ⟨fun x hx => heq ▸ hl'.1 x hx, hl'.2⟩
    · refine List.pairwise_cons.2 ⟨fun x hx => ?_, ih hl'.2⟩
      rcases (mem_insertDoc hl'.2).1 hx with rfl | hx
      · exact lt_of_le_of_ne (not_lt.1 hlt) fun h => heq h.symm
      · exact hl'.1 x hx.1

/-- Writing before the first document of a list. -/
theorem insertDoc_of_lt {d : Doc K α} {l : List (Doc K α)} (h : ∀ x ∈ l, d.id < x.id) :
    insertDoc d l = d :: l := by
  cases l with
  | nil => rfl
  | cons e l => rw [insertDoc, if_pos (h e List.mem_cons_self)]

/-- Writing and then filtering is filtering and then writing what passes. -/
theorem filter_insertDoc (p : Doc K α → Bool) (d : Doc K α) {l : List (Doc K α)}
    (hl : IdSorted l) :
    (insertDoc d l).filter p =
      if p d then insertDoc d (l.filter p) else (l.filter p).filter fun x => x.id ≠ d.id := by
  induction l with
  | nil => cases hp : p d <;> simp [insertDoc, hp]
  | cons e l ih =>
    have hl' := List.pairwise_cons.1 hl
    have hrest : d.id ≤ e.id → ∀ x ∈ l.filter p, d.id < x.id :=
      fun hle x hx => hle.trans_lt (hl'.1 x (List.mem_filter.1 hx).1)
    have hkeep : ∀ {m : List (Doc K α)}, (∀ x ∈ m, d.id < x.id) →
        (m.filter fun x => x.id ≠ d.id) = m :=
      fun hm => List.filter_eq_self.2 fun x hx => by simpa using (hm x hx).ne'
    rcases lt_trichotomy d.id e.id with hlt | heq | hgt
    · -- `d` is written first, and nothing is replaced.
      have hall : ∀ x ∈ (e :: l).filter p, d.id < x.id := by
        intro x hx
        rcases List.mem_cons.1 (List.mem_filter.1 hx).1 with rfl | hx
        · exact hlt
        · exact hlt.trans (hl'.1 x hx)
      rw [insertDoc, if_pos hlt, insertDoc_of_lt hall, hkeep hall, List.filter_cons]
    · -- `d` replaces `e`.
      rw [insertDoc, if_neg heq.not_lt, if_pos heq, List.filter_cons, List.filter_cons]
      by_cases he : p e
      · rw [if_pos he, insertDoc, if_neg heq.not_lt, if_pos heq,
          List.filter_cons_of_neg (by simpa using heq.symm), hkeep (hrest heq.le)]
      · rw [if_neg he, insertDoc_of_lt (hrest heq.le), hkeep (hrest heq.le)]
    · -- `d` is written further on.
      rw [insertDoc, if_neg hgt.not_gt, if_neg hgt.ne', List.filter_cons, List.filter_cons,
        ih hl'.2]
      by_cases he : p e
      · rw [if_pos he, if_pos he, insertDoc, if_neg hgt.not_gt, if_neg hgt.ne',
          List.filter_cons_of_pos (by simpa using hgt.ne)]
        split <;> rfl
      · rw [if_neg he, if_neg he]

/-- Writing a document that is not there. -/
theorem insertDoc_perm {d : Doc K α} {l : List (Doc K α)} (h : ∀ x ∈ l, x.id ≠ d.id) :
    (insertDoc d l).Perm (d :: l) := by
  induction l with
  | nil => exact .refl _
  | cons e l ih =>
    rw [insertDoc]
    split_ifs with hlt heq
    · exact .refl _
    · exact absurd heq.symm (h e List.mem_cons_self)
    · exact ((ih fun x hx => h x (List.mem_cons_of_mem _ hx)).cons e).trans (.swap d e l)

/-- Writing a document that is there. -/
theorem filterMap_insertDoc {f : Doc K α → Option β} {d e : Doc K α} {l : List (Doc K α)}
    (hl : IdSorted l) (he : e ∈ l) (hid : d.id = e.id) (hf : f d = f e) :
    (insertDoc d l).filterMap f = l.filterMap f := by
  induction l with
  | nil => exact absurd he List.not_mem_nil
  | cons e' l ih =>
    have hl' := List.pairwise_cons.1 hl
    rcases List.mem_cons.1 he with rfl | he
    · rw [insertDoc, if_neg hid.not_lt, if_pos hid, List.filterMap_cons, List.filterMap_cons, hf]
    · have hlt : e'.id < d.id := hid ▸ hl'.1 e he
      rw [insertDoc, if_neg hlt.not_gt, if_neg hlt.ne', List.filterMap_cons, List.filterMap_cons,
        ih hl'.2 he]

/-! ## Collections -/

/-- A collection: its documents, in the order of their ids. -/
structure Collection (K α : Type*) [LinearOrder K] where
  docs : List (Doc K α)
  sorted : IdSorted docs

/-- How the store generates ids: one not in use, whatever ids are. -/
structure AutoId (K : Type*) where
  next : List K → K
  next_notMem : ∀ ids, next ids ∉ ids

namespace Collection

/-- The collection without documents. -/
def empty : Collection K α := ⟨[], .nil⟩

variable (c : Collection K α)

/-- The ids in use. -/
def ids : List K := c.docs.map Doc.id

/-- The documents matching a predicate, in the order of their ids. -/
def query (p : α → Bool) : List (Doc K α) := c.docs.filter fun d => p d.data

/-- Writing the document of an id. -/
def setData (id : K) (a : α) : Collection K α := ⟨insertDoc ⟨id, a⟩ c.docs, c.sorted.insertDoc _⟩

/-- Creating a document, under a generated id. -/
def addDocument (g : AutoId K) (a : α) : Collection K α := c.setData (g.next c.ids) a

variable {c}

theorem mem_query {p : α → Bool} {d : Doc K α} : d ∈ c.query p ↔ d ∈ c.docs ∧ p d.data := by
  rw [query, List.mem_filter]

theorem sorted_query (c : Collection K α) (p : α → Bool) : IdSorted (c.query p) :=
  c.sorted.filter _

theorem mem_setData {id : K} {a : α} {d : Doc K α} :
    d ∈ (c.setData id a).docs ↔ d = ⟨id, a⟩ ∨ (d ∈ c.docs ∧ d.id ≠ id) := mem_insertDoc c.sorted

theorem mem_ids_of_mem {d : Doc K α} (hd : d ∈ c.docs) : d.id ∈ c.ids := List.mem_map_of_mem hd

/-- Generated ids are not those of the documents already there. -/
theorem id_ne_next (g : AutoId K) {d : Doc K α} (hd : d ∈ c.docs) : d.id ≠ g.next c.ids :=
  fun h => g.next_notMem c.ids (h ▸ mem_ids_of_mem hd)

theorem mem_addDocument {g : AutoId K} {a : α} {d : Doc K α} :
    d ∈ (c.addDocument g a).docs ↔ d = ⟨g.next c.ids, a⟩ ∨ d ∈ c.docs := by
  rw [addDocument, mem_setData]
  exact or_congr_right ⟨And.left, fun hd => ⟨hd, id_ne_next g hd⟩⟩

theorem nodup_ids (c : Collection K α) : c.ids.Nodup :=
  List.pairwise_map.2 (c.sorted.imp fun h => h.ne)

/-- There is one document per id. -/
theorem eq_of_id_eq {d e : Doc K α} (hd : d ∈ c.docs) (he : e ∈ c.docs) (h : d.id = e.id) :
    d = e := List.inj_on_of_nodup_map c.nodup_ids hd he h

/-- The data of the document of an id, if there is one. -/
def get? (c : Collection K α) (id : K) : Option α := (c.docs.find? fun d => d.id = id).map Doc.data

theorem get?_eq_some_iff {id : K} {a : α} : c.get? id = some a ↔ ⟨id, a⟩ ∈ c.docs := by
  rw [get?]
  constructor
  · intro h
    obtain ⟨d, hd, rfl⟩ := Option.map_eq_some_iff.1 h
    have hid : d.id = id := by simpa using List.find?_some hd
    subst hid
    exact List.mem_of_find?_eq_some hd
  · intro h
    cases hd : c.docs.find? fun d => d.id = id with
    | none => exact absurd (List.find?_eq_none.1 hd _ h) (by simp)
    | some d =>
      have hid : d.id = id := by simpa using List.find?_some hd
      rw [eq_of_id_eq (List.mem_of_find?_eq_some hd) h hid]
      rfl

theorem get?_setData (id id' : K) (a : α) :
    (c.setData id a).get? id' = if id' = id then some a else c.get? id' := by
  ext b
  rw [get?_eq_some_iff, mem_setData]
  by_cases hid : id' = id
  · subst hid
    simp [eq_comm]
  · simp [hid, get?_eq_some_iff]

theorem get?_next (g : AutoId K) : c.get? (g.next c.ids) = none := by
  refine Option.eq_none_iff_forall_ne_some.2 fun a h => ?_
  exact id_ne_next g (get?_eq_some_iff.1 h) rfl

theorem get?_addDocument (g : AutoId K) (id : K) (a : α) :
    (c.addDocument g a).get? id = if id = g.next c.ids then some a else c.get? id :=
  get?_setData _ _ _

/-- What a write does to a query: the document written is in its result or not,
    according to what was written, and the others are as before. -/
theorem query_setData (p : α → Bool) (id : K) (a : α) :
    (c.setData id a).query p =
      if p a then insertDoc ⟨id, a⟩ (c.query p) else (c.query p).filter fun d => d.id ≠ id :=
  filter_insertDoc (fun d => p d.data) ⟨id, a⟩ c.sorted

/-- A write of a document not matching a query, nor replacing one matching it. -/
theorem query_setData_of_not {p : α → Bool} {id : K} {a : α} (ha : p a = false)
    (hid : ∀ d ∈ c.query p, d.id ≠ id) : (c.setData id a).query p = c.query p := by
  rw [query_setData, if_neg (by simp [ha])]
  exact List.filter_eq_self.2 fun d hd => by simpa using hid d hd

/-- Rewriting the only document matching a query. -/
theorem query_setData_of_eq {p : α → Bool} {id : K} {a b : α} (ha : p a)
    (hc : c.query p = [⟨id, b⟩]) : (c.setData id a).query p = [⟨id, a⟩] := by
  rw [query_setData, if_pos ha, hc, insertDoc, if_neg (lt_irrefl _), if_pos rfl]

theorem query_addDocument_of_not {p : α → Bool} (g : AutoId K) {a : α} (ha : p a = false) :
    (c.addDocument g a).query p = c.query p :=
  query_setData_of_not ha fun _ hd => id_ne_next g (mem_query.1 hd).1

/-- Creating the first document matching a query. -/
theorem query_addDocument_of_nil {p : α → Bool} (g : AutoId K) {a : α} (ha : p a)
    (hc : c.query p = []) : (c.addDocument g a).query p = [⟨g.next c.ids, a⟩] := by
  rw [addDocument, query_setData, if_pos ha, hc, insertDoc]

/-- Creating a document adds one, somewhere among the others. -/
theorem docs_addDocument_perm (g : AutoId K) (a : α) :
    (c.addDocument g a).docs.Perm (⟨g.next c.ids, a⟩ :: c.docs) :=
  insertDoc_perm fun _ hd => id_ne_next g hd

/-- Rewriting a document changes nothing that is the same of what was and is written. -/
theorem filterMap_setData {f : Doc K α → Option β} {id : K} {a b : α} (hb : ⟨id, b⟩ ∈ c.docs)
    (hf : f ⟨id, a⟩ = f ⟨id, b⟩) : (c.setData id a).docs.filterMap f = c.docs.filterMap f :=
  filterMap_insertDoc c.sorted hb rfl hf

end Collection

/-! ## Fields -/

/-- A field of a stored document, as a reader expecting a value of type `α` finds it. -/
inductive DocField (α : Type*)
  | missing
  | value (a : α)
  | malformed
  deriving DecidableEq, Repr

namespace DocField

/-- A field the reader requires: decoding fails without it. -/
def required : DocField α → Option α
  | value a => some a
  | _ => none

/-- A field the reader does not require: it may be missing, but not malformed. -/
def optional : DocField α → Option (Option α)
  | missing => some none
  | value a => some (some a)
  | malformed => none

/-- How a value that may be absent is written. -/
def ofOption : Option α → DocField α
  | none => missing
  | some a => value a

@[simp] theorem required_value (a : α) : (value a).required = some a := rfl

theorem required_eq_some_iff {a : α} {f : DocField α} : f.required = some a ↔ f = value a := by
  cases f <;> simp [required]

@[simp] theorem optional_ofOption (a : Option α) : (ofOption a).optional = some a := by
  cases a <;> rfl

/-- The filter of an equality query: the field is there, with that value. -/
def is [DecidableEq α] (a : α) (f : DocField α) : Bool := f == value a

@[simp] theorem is_iff [DecidableEq α] {a : α} {f : DocField α} : f.is a = true ↔ f = value a := by
  simp [is]

end DocField

end DocStore
