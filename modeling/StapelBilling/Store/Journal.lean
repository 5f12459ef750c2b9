import StapelBilling.Store.Query

/-! # Journals with a running balance

A journal row says what it moved and what the balance is afterwards.  The rows of a
journal step from one balance to another when each starts where the one before it
ended.  A journal is only appended to, so what steps keeps stepping, and a journal
whose first row starts elsewhere never recovers.
-/
namespace Store

/-- The entries `(delta, balance)` lead from `before` to `after`, one by one. -/
def Steps : ℤ → List (ℤ × ℤ) → ℤ → Prop
  | before, [], after => before = after
  | before, (delta, balance) :: entries, after =>
    balance = before + delta ∧ Steps balance entries after

instance : ∀ (before : ℤ) (entries : List (ℤ × ℤ)) (after : ℤ),
    Decidable (Steps before entries after)
  | before, [], after => inferInstanceAs (Decidable (before = after))
  | before, (delta, balance) :: entries, after =>
    have := instDecidableSteps balance entries after
    inferInstanceAs (Decidable (balance = before + delta ∧ Steps balance entries after))

variable {before after middle : ℤ} {entries more : List (ℤ × ℤ)}

theorem Steps.append (h : Steps before entries middle) (h' : Steps middle more after) :
    Steps before (entries ++ more) after := by
  induction entries generalizing before with
  | nil =>
    obtain rfl : before = middle := h
    exact h'
  | cons entry entries ih => exact ⟨h.1, ih h.2⟩

/-- One more entry, which starts where the others ended. -/
theorem Steps.post {delta balance : ℤ} (h : Steps before entries middle)
    (hbalance : balance = middle + delta) : Steps before (entries ++ [(delta, balance)]) balance :=
  h.append ⟨hbalance, rfl⟩

/-- What one more entry has to say. -/
theorem Steps.last {delta balance : ℤ} (h : Steps before (entries ++ [(delta, balance)]) after)
    (hentries : Steps before entries middle) : balance = middle + delta := by
  induction entries generalizing before with
  | nil =>
    obtain rfl : before = middle := hentries
    exact h.1
  | cons entry entries ih => exact ih h.2 hentries.2

/-- Where a journal with an entry starts is read off its first entry. -/
theorem Steps.start_unique {before' after' : ℤ} {more' : List (ℤ × ℤ)} (hne : entries ≠ [])
    (h : Steps before (entries ++ more) after) (h' : Steps before' (entries ++ more') after') :
    before = before' := by
  cases entries with
  | nil => exact absurd rfl hne
  | cons entry entries =>
    have hfirst : entry.2 = before + entry.1 := h.1
    have hfirst' : entry.2 = before' + entry.1 := h'.1
    omega

/-! ## The journal of a table -/

namespace Table
variable {α : Type}

/-- The entries of the rows that satisfy `on`, from key `start` on, in key order. -/
def entriesFrom (t : Table α) (on : α → Prop) [DecidablePred on] (entry : α → ℤ × ℤ) (start : ℕ) :
    List (ℤ × ℤ) :=
  ((t.select on).filter fun r => start ≤ r.1).map fun r => entry r.2

variable {t : Table α} {on : α → Prop} [DecidablePred on] {entry : α → ℤ × ℤ} {start : ℕ}

/-- Nothing is written under a key that was not handed out. -/
theorem entriesFrom_of_le (hstart : t.next ≤ start) : t.entriesFrom on entry start = [] := by
  unfold entriesFrom
  have hnone : ((t.select on).filter fun r => start ≤ r.1) = [] := by
    refine List.filter_eq_nil_iff.mpr fun r hr => ?_
    have hlt := get?_lt_next (mem_select.mp hr).1
    simp only [decide_eq_true_eq]
    omega
  rw [hnone, List.map_nil]

theorem entriesFrom_next : t.entriesFrom on entry t.next = [] := entriesFrom_of_le le_rfl

theorem entriesFrom_insert (a : α) (hstart : start ≤ t.next) :
    (t.insert a).entriesFrom on entry start =
      t.entriesFrom on entry start ++ if on a then [entry a] else [] := by
  unfold entriesFrom select insert
  by_cases ha : on a
  · simp [List.filter_append, ha, hstart]
  · simp [List.filter_append, ha]

/-- A rewrite that entries do not see. -/
theorem entriesFrom_update {f : ℕ → α → α} (hon : ∀ k a, on (f k a) ↔ on a)
    (hentry : ∀ k a, entry (f k a) = entry a) :
    (t.update f).entriesFrom on entry start = t.entriesFrom on entry start := by
  unfold entriesFrom select update
  simp only [List.filter_map, List.map_map, Function.comp_def, hon, hentry]

theorem entriesFrom_modify {k : ℕ} {f : α → α} (hon : ∀ a, on (f a) ↔ on a)
    (hentry : ∀ a, entry (f a) = entry a) :
    (t.modify k f).entriesFrom on entry start = t.entriesFrom on entry start := by
  refine entriesFrom_update (fun j a => ?_) fun j a => ?_
  · split
    · exact hon a
    · exact Iff.rfl
  · split
    · exact hentry a
    · rfl

end Table
end Store
