import StapelBilling.Store.Query
import StapelBilling.Store.Transactions

/-! # Tables that are alike

Two runs of one program over two databases are compared row by row: two tables are alike
under a relation when they have the same keys in the same order, with related rows under
them.  Likeness goes through every write that treats related rows alike, a query that
cannot tell related rows apart answers with related rows, and a run whose every step keeps
two states related keeps them related.
-/
namespace Store
namespace Table
variable {α β : Type} {R : α → β → Prop} {t : Table α} {t' : Table β}

/-- The same keys with related rows. -/
structure Alike (R : α → β → Prop) (t : Table α) (t' : Table β) : Prop where
  rows : List.Forall₂ (fun p q => p.1 = q.1 ∧ R p.2 q.2) t.rows t'.rows
  next : t.next = t'.next

namespace Alike

theorem refl {R : α → α → Prop} (hR : ∀ a, R a a) (t : Table α) : Alike R t t :=
  ⟨List.forall₂_same.mpr fun p _ => ⟨rfl, hR p.2⟩, rfl⟩

theorem insert (h : Alike R t t') {a : α} {b : β} (hab : R a b) :
    Alike R (t.insert a) (t'.insert b) where
  rows := List.rel_append h.rows (.cons ⟨h.next, hab⟩ .nil)
  next := congrArg (· + 1) h.next

theorem update (h : Alike R t t') {S : α → β → Prop} {f : ℕ → α → α} {g : ℕ → β → β}
    (hfg : ∀ k a b, R a b → S (f k a) (g k b)) : Alike S (t.update f) (t'.update g) where
  rows := by
    refine List.forall₂_map_left_iff.mpr (List.forall₂_map_right_iff.mpr (h.rows.imp ?_))
    rintro ⟨k, a⟩ ⟨j, b⟩ ⟨hkey, hab⟩
    obtain rfl : k = j := hkey
    exact ⟨rfl, hfg k a b hab⟩
  next := h.next

/-- A table is alike its own rows rewritten. -/
theorem rewritten {S : α → β → Prop} {g : ℕ → α → β} (hg : ∀ k a, S a (g k a)) (t : Table α)
    {t' : Table β} (hrows : t'.rows = t.rows.map fun r => (r.1, g r.1 r.2))
    (hnext : t'.next = t.next) : Alike S t t' where
  rows := by
    rw [hrows]
    exact List.forall₂_map_right_iff.mpr (List.forall₂_same.mpr fun r _ => ⟨rfl, hg r.1 r.2⟩)
  next := hnext.symm

theorem modify (h : Alike R t t') {k : ℕ} {f : α → α} {g : β → β}
    (hfg : ∀ a b, R a b → R (f a) (g b)) : Alike R (t.modify k f) (t'.modify k g) := by
  refine h.update fun j a b hab => ?_
  by_cases hj : j = k
  · rw [if_pos hj, if_pos hj]
    exact hfg a b hab
  · rw [if_neg hj, if_neg hj]
    exact hab

/-- A lookup finds related rows. -/
theorem get?_some (h : Alike R t t') {k : ℕ} {a : α} (hk : t.get? k = some a) :
    ∃ b, t'.get? k = some b ∧ R a b := by
  have hmem := get?_eq_some_iff.mp hk
  have hrows := h.rows
  suffices ∃ b, (k, b) ∈ t'.rows ∧ R a b by
    obtain ⟨b, hb, hab⟩ := this
    exact ⟨b, get?_eq_some_iff.mpr hb, hab⟩
  revert hrows hmem
  generalize t.rows = rows
  generalize t'.rows = rows'
  intro hmem hrows
  induction hrows with
  | nil => cases hmem
  | @cons p q rows rows' hpq _ ih =>
    rcases List.mem_cons.mp hmem with heq | hmem
    · rw [← heq] at hpq
      obtain ⟨hkey, hab⟩ := hpq
      exact ⟨q.2, List.mem_cons.mpr (Or.inl (Prod.ext hkey rfl)), hab⟩
    · obtain ⟨b, hb, hab⟩ := ih hmem
      exact ⟨b, List.mem_cons_of_mem _ hb, hab⟩

theorem symm (h : Alike R t t') : Alike (fun b a => R a b) t' t where
  rows := h.rows.flip.imp fun _ _ hpq => ⟨hpq.1.symm, hpq.2⟩
  next := h.next.symm

theorem get?_none (h : Alike R t t') {k : ℕ} (hk : t.get? k = none) : t'.get? k = none := by
  cases hk' : t'.get? k with
  | none => rfl
  | some b =>
    obtain ⟨a, ha, -⟩ := h.symm.get?_some hk'
    rw [hk] at ha
    cases ha

/-- A query that cannot tell related rows apart answers with related rows. -/
theorem select (h : Alike R t t') {p : α → Prop} {q : β → Prop} [DecidablePred p] [DecidablePred q]
    (hpq : ∀ a b, R a b → (p a ↔ q b)) :
    List.Forall₂ (fun r s => r.1 = s.1 ∧ R r.2 s.2) (t.select p) (t'.select q) :=
  List.rel_filter (fun r s hrs => by simpa using hpq r.2 s.2 hrs.2) h.rows

/-- What related rows have in common, in the answers to such a query. -/
theorem map_select (h : Alike R t t') {p : α → Prop} {q : β → Prop} [DecidablePred p]
    [DecidablePred q] (hpq : ∀ a b, R a b → (p a ↔ q b)) {γ : Type} {f : ℕ → α → γ} {g : ℕ → β → γ}
    (hfg : ∀ k a b, R a b → f k a = g k b) :
    ((t.select p).map fun r => f r.1 r.2) = (t'.select q).map fun r => g r.1 r.2 := by
  refine List.forall₂_eq_eq_eq ▸ ?_
  refine List.forall₂_map_left_iff.mpr (List.forall₂_map_right_iff.mpr ((h.select hpq).imp ?_))
  rintro ⟨k, a⟩ ⟨j, b⟩ ⟨hkey, hab⟩
  obtain rfl : k = j := hkey
  exact hfg k a b hab

theorem select_keys (h : Alike R t t') {p : α → Prop} {q : β → Prop} [DecidablePred p]
    [DecidablePred q] (hpq : ∀ a b, R a b → (p a ↔ q b)) :
    (t.select p).map Prod.fst = (t'.select q).map Prod.fst :=
  h.map_select (f := fun k _ => k) (g := fun k _ => k) hpq fun _ _ _ _ => rfl

/-- What related rows have in common, row by row. -/
theorem map_rows (h : Alike R t t') {γ : Type} {f : ℕ → α → γ} {g : ℕ → β → γ}
    (hfg : ∀ k a b, R a b → f k a = g k b) :
    (t.rows.map fun r => f r.1 r.2) = t'.rows.map fun r => g r.1 r.2 := by
  refine List.forall₂_eq_eq_eq ▸ ?_
  refine List.forall₂_map_left_iff.mpr (List.forall₂_map_right_iff.mpr (h.rows.imp ?_))
  rintro ⟨k, a⟩ ⟨j, b⟩ ⟨hkey, hab⟩
  obtain rfl : k = j := hkey
  exact hfg k a b hab

end Alike
end Table

/-! ## Twin runs -/

section Twins
variable {σ κ ε : Type} {exec : κ → σ → Except ε σ}

/-- Why a call is refused, if it is. -/
def refusal (x : Except ε σ) : Option ε :=
  match x with
  | .ok _ => none
  | .error e => some e

/-- The refusals of a run, call by call. -/
def refusals (exec : κ → σ → Except ε σ) (calls : List κ) (s : σ) : List (Option ε) :=
  (trace exec calls s).map fun p => refusal (exec p.1 p.2)

/-- What is seen of two runs is the same after every call, refusals included. -/
def Twins (exec : κ → σ → Except ε σ) (Same : σ → σ → Prop) (calls : List κ) (s s' : σ) : Prop :=
  (∀ n, Same (run exec (calls.take n) s) (run exec (calls.take n) s')) ∧
    refusals exec calls s = refusals exec calls s'

/-- **The rule of twin runs.**  If calls that meet a condition keep two states related, with
the same answer, and the others show a difference at once, then the runs are twins exactly
when every call of the first meets the condition. -/
theorem twins_iff {R Same : σ → σ → Prop} {Q : κ → σ → Prop} (hsame : ∀ s s', R s s' → Same s s')
    (hstep : ∀ c s s', R s s' → Q c s → refusal (exec c s) = refusal (exec c s') ∧
      R (commit (exec c) s) (commit (exec c) s'))
    (hbreak : ∀ c s s', R s s' → ¬ Q c s → refusal (exec c s) = refusal (exec c s') →
      ¬ Same (commit (exec c) s) (commit (exec c) s'))
    {calls : List κ} {s s' : σ} (h : R s s') :
    Twins exec Same calls s s' ↔ ∀ p ∈ trace exec calls s, Q p.1 p.2 := by
  induction calls generalizing s s' with
  | nil =>
    refine iff_of_true ⟨fun n => ?_, rfl⟩ fun p hp => absurd hp List.not_mem_nil
    rw [List.take_nil]
    exact hsame s s' h
  | cons c calls ih =>
    rw [trace_cons, List.forall_mem_cons]
    constructor
    · rintro ⟨hall, hrefusals⟩
      obtain ⟨hhead, htail⟩ := List.cons.inj hrefusals
      have hmeets : Q c s := by
        by_contra hnot
        exact hbreak c s s' h hnot hhead (hall 1)
      refine ⟨hmeets, (ih (hstep c s s' h hmeets).2).mp ⟨fun n => hall (n + 1), htail⟩⟩
    · rintro ⟨hmeets, hrest⟩
      obtain ⟨hhead, hnext⟩ := hstep c s s' h hmeets
      obtain ⟨hall, htail⟩ := (ih hnext).mpr hrest
      refine ⟨fun n => ?_, List.cons_eq_cons.mpr ⟨hhead, htail⟩⟩
      cases n with
      | zero => exact hsame s s' h
      | succ n => exact hall n

end Twins
end Store
