import Mathlib

/-! # Keyed tables

A relational table as the verified program sees it: rows under primary keys
that are handed out in insertion order and never reused.  A row is found by its
key (`get?`), added under the next key (`insert`), rewritten in place (`update`,
`modify`), or removed (`filter`); a query keeps the matching rows (`select`) and
an aggregate adds a measure up over them (`sum`).

Everything is stated through `get?` and `sum`: a write is described by what it
does to the lookup of every key, and by how far it moves every aggregate.
-/
namespace Store

/-- A table: its rows in insertion order, each under its primary key, and the
key the next insertion will use. -/
structure Table (α : Type) where
  rows : List (ℕ × α)
  next : ℕ
  sorted : rows.Pairwise fun p q => p.1 < q.1
  bounded : ∀ p ∈ rows, p.1 < next

namespace Table
variable {α β : Type}

/-- The table with no rows. -/
def empty : Table α := ⟨[], 0, List.Pairwise.nil, by simp⟩

instance : Inhabited (Table α) := ⟨empty⟩

/-- The row under key `k`. -/
def get? (t : Table α) (k : ℕ) : Option α := (t.rows.find? fun p => p.1 = k).map Prod.snd

/-- Add a row under the next key. -/
def insert (t : Table α) (a : α) : Table α where
  rows := t.rows ++ [(t.next, a)]
  next := t.next + 1
  sorted := by
    refine List.pairwise_append.mpr ⟨t.sorted, List.pairwise_singleton _ _, ?_⟩
    intro p hp q hq
    rw [List.mem_singleton] at hq
    subst hq
    exact t.bounded p hp
  bounded := by
    intro p hp
    rcases List.mem_append.mp hp with hp | hp
    · exact Nat.lt_succ_of_lt (t.bounded p hp)
    · rw [List.mem_singleton] at hp
      subst hp
      exact Nat.lt_succ_self _

/-- Rewrite every row, each under its own key. -/
def update (t : Table α) (f : ℕ → α → α) : Table α where
  rows := t.rows.map fun p => (p.1, f p.1 p.2)
  next := t.next
  sorted := List.pairwise_map.mpr t.sorted
  bounded := by
    intro p hp
    obtain ⟨q, hq, rfl⟩ := List.mem_map.mp hp
    exact t.bounded q hq

/-- Rewrite the row under key `k`, if there is one. -/
def modify (t : Table α) (k : ℕ) (f : α → α) : Table α :=
  t.update fun j a => if j = k then f a else a

/-- Keep the rows that satisfy `p`. -/
def filter (t : Table α) (p : α → Prop) [DecidablePred p] : Table α where
  rows := t.rows.filter fun r => p r.2
  next := t.next
  sorted := t.sorted.sublist List.filter_sublist
  bounded := fun r hr => t.bounded r (List.mem_filter.mp hr).1

/-- The rows that satisfy `p`, with their keys, in insertion order. -/
def select (t : Table α) (p : α → Prop) [DecidablePred p] : List (ℕ × α) :=
  t.rows.filter fun r => p r.2

/-- The first row that satisfies `p`, with its key. -/
def find? (t : Table α) (p : α → Prop) [DecidablePred p] : Option (ℕ × α) :=
  t.rows.find? fun r => p r.2

/-- The aggregate of a measure over all rows. -/
def sum {M : Type} [AddCommMonoid M] (t : Table α) (g : ℕ → α → M) : M :=
  (t.rows.map fun p => g p.1 p.2).sum

/-! ## Lookups -/

theorem nodup (t : Table α) : (t.rows.map Prod.fst).Nodup :=
  (List.pairwise_map.mpr (t.sorted.imp fun h => Nat.ne_of_lt h))

/-- Keys identify rows. -/
theorem row_unique (t : Table α) {k : ℕ} {a b : α} (ha : (k, a) ∈ t.rows)
    (hb : (k, b) ∈ t.rows) : a = b := by
  have h := List.inj_on_of_nodup_map t.nodup ha hb rfl
  exact congrArg Prod.snd h

theorem get?_eq_some_iff {t : Table α} {k : ℕ} {a : α} :
    t.get? k = some a ↔ (k, a) ∈ t.rows := by
  constructor
  · intro h
    obtain ⟨⟨j, b⟩, hfind, rfl⟩ := Option.map_eq_some_iff.mp h
    have hj : j = k := by simpa using List.find?_some hfind
    subst hj
    exact List.mem_of_find?_eq_some hfind
  · intro h
    have hsome : (t.rows.find? fun p => p.1 = k).isSome :=
      List.find?_isSome.mpr ⟨(k, a), h, by simp⟩
    obtain ⟨⟨j, b⟩, hfind⟩ := Option.isSome_iff_exists.mp hsome
    have hj : j = k := by simpa using List.find?_some hfind
    subst hj
    rw [get?, hfind, t.row_unique h (List.mem_of_find?_eq_some hfind)]
    rfl

theorem get?_lt_next {t : Table α} {k : ℕ} {a : α} (h : t.get? k = some a) : k < t.next :=
  t.bounded _ (get?_eq_some_iff.mp h)

@[simp] theorem get?_next (t : Table α) : t.get? t.next = none := by
  cases h : t.get? t.next with
  | none => rfl
  | some a => exact absurd (get?_lt_next h) (Nat.lt_irrefl _)

@[simp] theorem get?_empty (k : ℕ) : (empty : Table α).get? k = none := rfl

theorem get?_empty_ne {k : ℕ} {a : α} {P : Prop} (h : (empty : Table α).get? k = some a) : P := by
  rw [get?_empty] at h
  cases h

theorem get?_insert (t : Table α) (a : α) (k : ℕ) :
    (t.insert a).get? k = if k = t.next then some a else t.get? k := by
  by_cases hk : k = t.next
  · subst hk
    rw [if_pos rfl, get?_eq_some_iff]
    exact List.mem_append_right _ (List.mem_singleton_self _)
  · rw [if_neg hk]
    refine Option.ext fun b => ?_
    rw [get?_eq_some_iff, get?_eq_some_iff]
    simp [insert, hk]

@[simp] theorem get?_insert_next (t : Table α) (a : α) : (t.insert a).get? t.next = some a := by
  simp [get?_insert]

theorem get?_insert_of_some {t : Table α} {k : ℕ} {b : α} (a : α) (h : t.get? k = some b) :
    (t.insert a).get? k = some b := by
  rw [get?_insert, if_neg (Nat.ne_of_lt (get?_lt_next h)), h]

theorem get?_insert_of_ne {t : Table α} {k : ℕ} (a : α) (h : k ≠ t.next) :
    (t.insert a).get? k = t.get? k := by
  rw [get?_insert, if_neg h]

@[simp] theorem get?_update (t : Table α) (f : ℕ → α → α) (k : ℕ) :
    (t.update f).get? k = (t.get? k).map (f k) := by
  refine Option.ext fun b => ?_
  rw [get?_eq_some_iff, Option.map_eq_some_iff]
  constructor
  · intro h
    obtain ⟨⟨j, a⟩, hmem, he⟩ := List.mem_map.mp h
    obtain ⟨rfl, rfl⟩ := Prod.mk.inj he
    exact ⟨a, get?_eq_some_iff.mpr hmem, rfl⟩
  · rintro ⟨a, ha, rfl⟩
    exact List.mem_map.mpr ⟨(k, a), get?_eq_some_iff.mp ha, rfl⟩

theorem get?_modify (t : Table α) (k : ℕ) (f : α → α) (j : ℕ) :
    (t.modify k f).get? j = if j = k then (t.get? j).map f else t.get? j := by
  unfold modify
  rw [get?_update]
  by_cases h : j = k
  · simp [h]
  · cases t.get? j <;> simp [h]

@[simp] theorem get?_modify_self (t : Table α) (k : ℕ) (f : α → α) :
    (t.modify k f).get? k = (t.get? k).map f := by
  rw [get?_modify, if_pos rfl]

theorem get?_modify_of_ne (t : Table α) {k j : ℕ} (f : α → α) (h : j ≠ k) :
    (t.modify k f).get? j = t.get? j := by
  rw [get?_modify, if_neg h]

/-! ### What every row satisfies -/

/-- Every row has a property. -/
def Every (p : α → Prop) (t : Table α) : Prop := ∀ k a, t.get? k = some a → p a

theorem every_insert_iff {p : α → Prop} {t : Table α} {a : α} :
    (t.insert a).Every p ↔ p a ∧ t.Every p := by
  constructor
  · intro h
    exact ⟨h t.next a (get?_insert_next t a), fun k b hk => h k b (get?_insert_of_some a hk)⟩
  · rintro ⟨ha, h⟩ k b hk
    rw [get?_insert] at hk
    split at hk
    · cases hk
      exact ha
    · exact h k b hk

theorem every_update_iff {p : α → Prop} {t : Table α} {f : ℕ → α → α} :
    (t.update f).Every p ↔ ∀ k a, t.get? k = some a → p (f k a) := by
  constructor
  · intro h k a hk
    refine h k (f k a) ?_
    rw [get?_update, hk]
    rfl
  · intro h k b hk
    rw [get?_update] at hk
    obtain ⟨a, ha, rfl⟩ := Option.map_eq_some_iff.mp hk
    exact h k a ha

theorem Every.modify {p : α → Prop} {t : Table α} (h : t.Every p) {k : ℕ} {f : α → α}
    (hf : ∀ a, p a → p (f a)) : (t.modify k f).Every p := by
  intro j b hj
  rw [get?_modify] at hj
  split at hj
  · obtain ⟨a, ha, rfl⟩ := Option.map_eq_some_iff.mp hj
    exact hf a (h j a ha)
  · exact h j b hj

/-- A rewrite is what it does to the row it meets. -/
theorem modify_congr {t : Table α} {k : ℕ} {a : α} (hk : t.get? k = some a) {f g : α → α}
    (h : f a = g a) : t.modify k f = t.modify k g := by
  have hrows : (t.modify k f).rows = (t.modify k g).rows := by
    unfold modify update
    refine List.map_congr_left fun p hp => ?_
    dsimp only
    by_cases he : p.1 = k
    · have hpa : p.2 = a := t.row_unique (he ▸ hp) (get?_eq_some_iff.mp hk)
      rw [if_pos he, if_pos he, hpa, h]
    · rw [if_neg he, if_neg he]
  unfold modify update at *
  rwa [Table.mk.injEq, and_iff_left rfl]

@[simp] theorem next_insert (t : Table α) (a : α) : (t.insert a).next = t.next + 1 := rfl
@[simp] theorem next_update (t : Table α) (f : ℕ → α → α) : (t.update f).next = t.next := rfl
@[simp] theorem next_modify (t : Table α) (k : ℕ) (f : α → α) : (t.modify k f).next = t.next := rfl

/-! ## Queries -/

section Queries
variable {t : Table α} {p : α → Prop} [DecidablePred p]

theorem mem_select {r : ℕ × α} : r ∈ t.select p ↔ t.get? r.1 = some r.2 ∧ p r.2 := by
  rw [get?_eq_some_iff]
  simp [select]

theorem select_nodup : ((t.select p).map Prod.fst).Nodup :=
  t.nodup.sublist (List.filter_sublist.map Prod.fst)

theorem find?_some {r : ℕ × α} (h : t.find? p = some r) : t.get? r.1 = some r.2 ∧ p r.2 := by
  refine ⟨get?_eq_some_iff.mpr (List.mem_of_find?_eq_some h), ?_⟩
  simpa using List.find?_some h

theorem find?_none (h : t.find? p = none) {k : ℕ} {a : α} (hk : t.get? k = some a) : ¬ p a := by
  have := List.find?_eq_none.mp h (k, a) (get?_eq_some_iff.mp hk)
  simpa using this

/-- A query that only one row can answer finds that row. -/
theorem find?_eq_some_of_unique {k : ℕ} {a : α} (hk : t.get? k = some a) (ha : p a)
    (huniq : ∀ j b, t.get? j = some b → p b → j = k) : t.find? p = some (k, a) := by
  cases h : t.find? p with
  | none => exact absurd ha (find?_none h hk)
  | some r =>
    obtain ⟨hr, hp⟩ := find?_some h
    obtain ⟨j, b⟩ := r
    have hj : j = k := huniq j b hr hp
    subst hj
    have hab : b = a := Option.some.inj (hr.symm.trans hk)
    rw [hab]

/-- The row a query finds is still the one it finds when that row is rewritten and still
matches. -/
theorem find?_modify {k : ℕ} {a : α} {f : α → α} (h : t.find? p = some (k, a)) (hf : p (f a)) :
    (t.modify k f).find? p = some (k, f a) := by
  obtain ⟨-, before, after, hrows, hbefore⟩ := List.find?_eq_some_iff_append.mp h
  refine List.find?_eq_some_iff_append.mpr ⟨by simpa using hf,
    before.map fun r => (r.1, if r.1 = k then f r.2 else r.2),
    after.map fun r => (r.1, if r.1 = k then f r.2 else r.2), ?_, ?_⟩
  · simp only [modify, update, hrows, List.map_append, List.map_cons, if_true]
  · intro r hr
    obtain ⟨r', hr', rfl⟩ := List.mem_map.mp hr
    have hlt : r'.1 < k := by
      have hsorted := t.sorted
      rw [hrows] at hsorted
      exact (List.pairwise_append.mp hsorted).2.2 r' hr' (k, a) List.mem_cons_self
    dsimp only
    rw [if_neg (Nat.ne_of_lt hlt)]
    exact hbefore r' hr'

theorem find?_insert_of_none {a : α} (h : t.find? p = none) (ha : p a) :
    (t.insert a).find? p = some (t.next, a) := by
  unfold find? insert at *
  rw [List.find?_append, h]
  simp [ha]

theorem find?_filter_none {q : α → Prop} [DecidablePred q] (h : ∀ a, q a → ¬ p a) :
    (t.filter q).find? p = none := by
  refine List.find?_eq_none.mpr fun r hr => ?_
  have hq := (List.mem_filter.mp hr).2
  simpa using h r.2 (by simpa using hq)

/-- A query that only one row answers answers that row. -/
theorem select_eq_singleton {k : ℕ} {a : α} (hk : t.get? k = some a) (ha : p a)
    (huniq : ∀ j b, t.get? j = some b → p b → j = k) : t.select p = [(k, a)] := by
  have hall : ∀ r ∈ t.select p, r = (k, a) := by
    rintro ⟨j, b⟩ hr
    obtain ⟨hget, hb⟩ := mem_select.mp hr
    obtain rfl := huniq j b hget hb
    exact Prod.ext rfl (Option.some.inj (hget.symm.trans hk))
  have hmem : (k, a) ∈ t.select p := mem_select.mpr ⟨hk, ha⟩
  have hnd : (t.select p).Nodup := List.Nodup.of_map Prod.fst select_nodup
  rw [List.eq_replicate_of_mem hall] at hnd hmem ⊢
  have hle := List.nodup_replicate.mp hnd
  have hpos := List.length_pos_of_mem hmem
  rw [List.length_replicate] at hpos
  rw [show (t.select p).length = 1 by omega]
  rfl

theorem select_eq_nil (h : ∀ k a, t.get? k = some a → ¬ p a) : t.select p = [] :=
  List.eq_nil_iff_forall_not_mem.mpr fun r hr =>
    h r.1 r.2 (mem_select.mp hr).1 (mem_select.mp hr).2

/-- Tables that agree on the rows a query matches answer it alike. -/
theorem select_congr {t' : Table α} (h : ∀ k a, p a → (t.get? k = some a ↔ t'.get? k = some a)) :
    t.select p = t'.select p := by
  have hsorted : ∀ u : Table α, (u.select p).Pairwise fun r s => r.1 < s.1 :=
    fun u => u.sorted.sublist List.filter_sublist
  have hperm : (t.select p).Perm (t'.select p) := by
    refine (List.perm_ext_iff_of_nodup (List.Nodup.of_map Prod.fst select_nodup)
      (List.Nodup.of_map Prod.fst select_nodup)).mpr fun r => ?_
    rw [mem_select, mem_select]
    exact and_congr_left fun hp => h r.1 r.2 hp
  refine hperm.eq_of_pairwise ?_ (hsorted t) (hsorted t')
  intro r s _ _ hrs hsr
  exact absurd hrs (Nat.lt_asymm hsr)

@[simp] theorem get?_filter (t : Table α) (p : α → Prop) [DecidablePred p] (k : ℕ) :
    (t.filter p).get? k = (t.get? k).filter p := by
  refine Option.ext fun b => ?_
  rw [get?_eq_some_iff, Option.filter_eq_some_iff, get?_eq_some_iff]
  simp [filter]

end Queries

/-! ## Aggregates -/

section Aggregates
variable {M : Type} [AddCommMonoid M]

@[simp] theorem sum_empty (g : ℕ → α → M) : (empty : Table α).sum g = 0 := rfl

@[simp] theorem sum_insert (t : Table α) (a : α) (g : ℕ → α → M) :
    (t.insert a).sum g = t.sum g + g t.next a := by
  simp [sum, insert]

@[simp] theorem sum_update (t : Table α) (f : ℕ → α → α) (g : ℕ → α → M) :
    (t.update f).sum g = t.sum fun k a => g k (f k a) := by
  simp [sum, update, Function.comp_def]

theorem sum_congr {t : Table α} {g h : ℕ → α → M}
    (heq : ∀ k a, t.get? k = some a → g k a = h k a) : t.sum g = t.sum h := by
  unfold sum
  refine congrArg List.sum (List.map_congr_left fun p hp => ?_)
  exact heq p.1 p.2 (get?_eq_some_iff.mpr hp)

theorem sum_zero {t : Table α} {g : ℕ → α → M} (h : ∀ k a, t.get? k = some a → g k a = 0) :
    t.sum g = 0 := by
  rw [sum_congr h]
  simp [sum]

theorem sum_add (t : Table α) (g h : ℕ → α → M) :
    (t.sum fun k a => g k a + h k a) = t.sum g + t.sum h := by
  simp [sum]

/-- A query's total is the table's, with the other rows measured at zero. -/
theorem sum_select (t : Table α) (p : α → Prop) [DecidablePred p] (g : ℕ → α → M) :
    ((t.select p).map fun r => g r.1 r.2).sum = t.sum fun k a => if p a then g k a else 0 := by
  unfold sum select
  induction t.rows with
  | nil => rfl
  | cons r rows ih =>
    by_cases hp : p r.2
    · rw [List.filter_cons_of_pos (by simpa using hp)]
      simp [hp, ih]
    · rw [List.filter_cons_of_neg (by simpa using hp)]
      simp [hp, ih]

/-- An aggregate over matching rows sees no other row. -/
theorem sum_congr_on {t t' : Table α} (p : α → Prop) [DecidablePred p] (g : ℕ → α → M)
    (h : ∀ k a, p a → (t.get? k = some a ↔ t'.get? k = some a)) :
    (t.sum fun k a => if p a then g k a else 0) = t'.sum fun k a => if p a then g k a else 0 := by
  rw [← sum_select, ← sum_select, select_congr h]

/-- An aggregate of a table whose rows are another's, rewritten. -/
theorem sum_of_map {t t' : Table α} {f : α → α} (g : ℕ → α → M)
    (h : ∀ k, t'.get? k = (t.get? k).map f) : t'.sum g = t.sum fun k a => g k (f a) := by
  have hsame : ∀ k a, True → (t'.get? k = some a ↔ (t.update fun _ => f).get? k = some a) :=
    fun k a _ => by rw [h, get?_update]
  have hrows := sum_congr_on (fun _ => True) g hsame
  simpa using hrows

/-- An aggregate that sees one row only. -/
theorem sum_at {t : Table α} {k : ℕ} {a : α} (hk : t.get? k = some a) (g : α → M) :
    (t.sum fun j b => if j = k then g b else 0) = g a := by
  obtain ⟨before, after, hrows⟩ := List.append_of_mem (get?_eq_some_iff.mp hk)
  have hnd := t.nodup
  rw [hrows, List.map_append, List.map_cons, List.nodup_middle, List.nodup_cons,
    List.mem_append, not_or] at hnd
  have hother : ∀ rows : List (ℕ × α), k ∉ rows.map Prod.fst →
      (rows.map fun p => if p.1 = k then g p.2 else 0).sum = 0 := by
    intro rows hnot
    refine List.sum_eq_zero fun x hx => ?_
    obtain ⟨p, hp, rfl⟩ := List.mem_map.mp hx
    exact if_neg fun he => hnot (List.mem_map.mpr ⟨p, hp, he⟩)
  rw [sum, hrows, List.map_append, List.map_cons, List.sum_append, List.sum_cons,
    hother before hnd.1.1, hother after hnd.1.2, if_pos rfl, zero_add, add_zero]

/-- Rewriting one row moves an aggregate by that row's change. -/
theorem sum_modify {t : Table α} {k : ℕ} {a : α} (hk : t.get? k = some a) (f : α → α)
    (g : ℕ → α → M) : (t.modify k f).sum g + g k a = t.sum g + g k (f a) := by
  have hmem := get?_eq_some_iff.mp hk
  have hnd := t.nodup
  unfold modify sum update
  simp only [List.map_map, Function.comp_def]
  generalize t.rows = rows at hmem hnd
  induction rows with
  | nil => exact absurd hmem List.not_mem_nil
  | cons r rows ih =>
    obtain ⟨hnot, hnd'⟩ := List.nodup_cons.mp hnd
    rcases List.mem_cons.mp hmem with he | hmem'
    · subst he
      have htail : (rows.map fun p => g p.1 (if p.1 = k then f p.2 else p.2)) =
          rows.map fun p => g p.1 p.2 := by
        refine List.map_congr_left fun p hp => ?_
        rw [if_neg]
        intro he
        exact hnot (List.mem_map.mpr ⟨p, hp, he⟩)
      rw [List.map_cons, List.map_cons, List.sum_cons, List.sum_cons, htail, if_pos rfl]
      exact (add_right_comm _ _ _).trans (by rw [add_comm (g k (f a)), add_right_comm])
    · have hne : r.1 ≠ k := by
        intro he
        exact hnot (List.mem_map.mpr ⟨(k, a), hmem', he.symm⟩)
      rw [List.map_cons, List.map_cons, List.sum_cons, List.sum_cons, if_neg hne,
        add_assoc, ih hmem' hnd', add_assoc]

/-- Rewriting one row leaves alone every aggregate that does not see the change. -/
theorem sum_modify_of_eq (t : Table α) (k : ℕ) (f : α → α) (g : ℕ → α → M)
    (h : ∀ a, t.get? k = some a → g k (f a) = g k a) : (t.modify k f).sum g = t.sum g := by
  unfold modify
  rw [sum_update]
  refine sum_congr fun j a ha => ?_
  by_cases hj : j = k
  · subst hj
    simpa using h a ha
  · simp [hj]

end Aggregates

theorem sum_nonneg {t : Table α} {g : ℕ → α → ℤ}
    (h : ∀ k a, t.get? k = some a → 0 ≤ g k a) : 0 ≤ t.sum g := by
  refine List.sum_nonneg fun x hx => ?_
  obtain ⟨p, hp, rfl⟩ := List.mem_map.mp hx
  exact h p.1 p.2 (get?_eq_some_iff.mpr hp)

/-- One row's measure is at most the aggregate of a non-negative measure. -/
theorem le_sum {t : Table α} {g : ℕ → α → ℤ} (h : ∀ k a, t.get? k = some a → 0 ≤ g k a)
    {k : ℕ} {a : α} (hk : t.get? k = some a) : g k a ≤ t.sum g := by
  refine List.single_le_sum ?_ _ (List.mem_map.mpr ⟨(k, a), get?_eq_some_iff.mp hk, rfl⟩)
  intro x hx
  obtain ⟨p, hp, rfl⟩ := List.mem_map.mp hx
  exact h p.1 p.2 (get?_eq_some_iff.mpr hp)

end Table
end Store
