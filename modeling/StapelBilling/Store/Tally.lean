import StapelBilling.Store.Transactions

/-! # Catching up with a cumulative target

A target is reported cumulatively, and each report takes what is missing to it.
What was taken so far is read back from a log; a log that other writes inflate
counts more than was taken, and the next report takes too little.  A tally keeps
the two apart: what was taken, and the `surplus` the log counts beyond it.  The
largest target is met exactly when some report of it finds the log without
surplus.
-/
namespace Store

/-- What was taken, and what the log counts beyond that. -/
structure Tally where
  taken : ℤ
  surplus : ℤ

namespace Tally

/-- The log's count. -/
def logged (t : Tally) : ℤ := t.taken + t.surplus

theorem ext_logged {t t' : Tally} (h : t.logged = t'.logged) (hs : t.surplus = t'.surplus) :
    t = t' := by
  cases t with
  | mk taken surplus =>
    cases t' with
    | mk taken' surplus' =>
      simp only [logged] at h hs
      obtain rfl := hs
      obtain rfl : taken = taken' := by omega
      rfl

/-- One step: the surplus drifts upwards, or a target is reported. -/
inductive Step : Option ℤ → Tally → Tally → Prop
  | drift {t t' : Tally} (taken : t'.taken = t.taken) (surplus : t.surplus ≤ t'.surplus) :
      Step none t t'
  | behind {t t' : Tally} {n : ℤ} (h : t.logged < n) (logged : t'.logged = n)
      (surplus : t'.surplus = t.surplus) : Step (some n) t t'
  | reached {t : Tally} {n : ℤ} (h : n ≤ t.logged) : Step (some n) t t

/-- A run with its trace: every report, or none, with the tally it met. -/
inductive Run : Tally → List (Option ℤ × Tally) → Tally → Prop
  | nil (t : Tally) : Run t [] t
  | cons {t t' t'' : Tally} {report : Option ℤ} {trace : List (Option ℤ × Tally)}
      (step : Step report t t') (rest : Run t' trace t'') : Run t ((report, t) :: trace) t''

variable {t t' : Tally} {report : Option ℤ} {trace : List (Option ℤ × Tally)} {n : ℤ}

theorem Step.surplus_le (h : Step report t t') : t.surplus ≤ t'.surplus := by
  cases h with
  | drift _ hle => exact hle
  | behind _ _ hsurplus => exact hsurplus.ge
  | reached _ => exact le_rfl

theorem Step.drift_trans {t'' : Tally} (h : Step none t t') (h' : Step none t' t'') :
    Step none t t'' := by
  cases h with
  | drift htaken hle =>
    cases h' with
    | drift htaken' hle' => exact .drift (htaken'.trans htaken) (hle.trans hle')

/-- The log's count never falls. -/
theorem Step.logged_le (h : Step report t t') : t.logged ≤ t'.logged := by
  cases h with
  | drift htaken hle =>
    unfold logged
    omega
  | behind hlt hlogged _ => omega
  | reached _ => exact le_rfl

/-- A reported target is counted. -/
theorem Step.counted (h : Step (some n) t t') : n ≤ t'.logged := by
  cases h with
  | behind _ hlogged _ => exact hlogged.ge
  | reached h => exact h

/-- Once the largest target is met, nothing more is taken. -/
theorem Run.stays (h : Run t trace t') (ht : t.taken = n) (hsurplus : 0 ≤ t.surplus)
    (hall : ∀ m s, (some m, s) ∈ trace → m ≤ n) : t'.taken = n := by
  induction h with
  | nil => exact ht
  | cons step _ ih =>
    refine ih ?_ (hsurplus.trans step.surplus_le) fun m s hm =>
      hall m s (List.mem_cons_of_mem _ hm)
    cases step with
    | drift htaken _ => rw [htaken, ht]
    | behind hlt _ _ =>
      have hle := hall _ _ List.mem_cons_self
      unfold logged at hlt
      omega
    | reached _ => exact ht

/-- **The largest target is met just when some report of it finds no surplus.** -/
theorem Run.taken_eq_iff (h : Run t trace t') (ht : t.taken < n) (hsurplus : 0 ≤ t.surplus)
    (hall : ∀ m s, (some m, s) ∈ trace → m ≤ n) :
    t'.taken = n ↔ ∃ s, (some n, s) ∈ trace ∧ s.surplus = 0 := by
  induction h with
  | nil => exact iff_of_false ht.ne fun ⟨_, hmem, _⟩ => List.not_mem_nil hmem
  | @cons t t₁ t' report trace step rest ih =>
    have hall' : ∀ m s, (some m, s) ∈ trace → m ≤ n :=
      fun m s hm => hall m s (List.mem_cons_of_mem _ hm)
    have hsurplus' : 0 ≤ t₁.surplus := hsurplus.trans step.surplus_le
    -- Unless this very report meets the target, the question is about the rest.
    have hrest : t₁.taken < n → ¬ (report = some n ∧ t.surplus = 0) →
        (t'.taken = n ↔ ∃ s, (some n, s) ∈ (report, t) :: trace ∧ s.surplus = 0) := by
      intro hlt hnot
      rw [ih hlt hsurplus' hall']
      constructor
      · rintro ⟨s, hmem, hs⟩
        exact ⟨s, List.mem_cons_of_mem _ hmem, hs⟩
      · rintro ⟨s, hmem, hs⟩
        rcases List.mem_cons.mp hmem with he | hmem
        · obtain ⟨hreport, rfl⟩ := Prod.mk.inj he
          exact absurd ⟨hreport.symm, hs⟩ hnot
        · exact ⟨s, hmem, hs⟩
    cases step with
    | drift htaken _ => exact hrest (by omega) fun h => by cases h.1
    | @behind _ _ m hlt hlogged hsame =>
      have hle := hall _ _ List.mem_cons_self
      unfold logged at hlt hlogged
      by_cases hmet : m = n ∧ t.surplus = 0
      · obtain ⟨rfl, hzero⟩ := hmet
        refine iff_of_true (rest.stays (by omega) hsurplus' hall') ⟨t, List.mem_cons_self, hzero⟩
      · refine hrest ?_ fun h => hmet ⟨Option.some.inj h.1, h.2⟩
        by_cases hm : m = n
        · have hne : t.surplus ≠ 0 := fun h => hmet ⟨hm, h⟩
          omega
        · omega
    | reached hge =>
      refine hrest ht fun h => ?_
      obtain ⟨he, hzero⟩ := h
      obtain rfl := Option.some.inj he
      unfold logged at hge
      omega

end Tally
end Store
