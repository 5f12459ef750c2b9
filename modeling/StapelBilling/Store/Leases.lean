import Mathlib

/-! # Leases

A thing that may be done once for each key, and parties that may do it.  A party takes the
lease of a key that is not done and that nobody else has, does the thing and marks the key
done, or drops the lease and has done nothing.

* `Leases.Step`: one step of one party.
* `Leases.Sound`: nobody has the lease of a key that is done, or one that another has.
* `Leases.Sound.done_iff`, `Leases.Sound.count_le`: what is done was done once.
-/
namespace Store
variable {ι Key : Type}

/-- The keys that are done, the lease each party has, and what was finished, in order. -/
structure Leases (ι Key : Type) where
  done : Key → Prop
  lease : ι → Option Key
  finished : List Key

namespace Leases

/-- **One step of one party.** -/
inductive Step [DecidableEq ι] (s : Leases ι Key) : Leases ι Key → Prop
  | take (i : ι) (key : Key) (hidle : s.lease i = none) (hundone : ¬ s.done key)
      (hfree : ∀ j, s.lease j ≠ some key) :
      Step s { s with lease := Function.update s.lease i (some key) }
  | finish (i : ι) (key : Key) (hlease : s.lease i = some key) :
      Step s
        { done := fun k => s.done k ∨ k = key
          lease := Function.update s.lease i none
          finished := s.finished ++ [key] }
  | drop (i : ι) : Step s { s with lease := Function.update s.lease i none }

/-- **Nothing is done twice**: the keys done are those done `before` and those finished
since, each once, and a lease is of a key still to be done and of nobody else. -/
structure Sound (before : Key → Prop) (s : Leases ι Key) : Prop where
  done : ∀ key, s.done key ↔ before key ∨ key ∈ s.finished
  undone : ∀ i key, s.lease i = some key → ¬ s.done key
  alone : ∀ i j key, s.lease i = some key → s.lease j = some key → i = j
  fresh : ∀ key ∈ s.finished, ¬ before key
  nodup : s.finished.Nodup

section Steps
variable [DecidableEq ι] {before : Key → Prop} {s s' : Leases ι Key}

/-- A party that lets go leaves the others their leases. -/
theorem lease_dropped {lease : ι → Option Key} {i j : ι} {key : Key}
    (h : Function.update lease i none j = some key) : j ≠ i ∧ lease j = some key := by
  by_cases hj : j = i
  · rw [hj, Function.update_self] at h
    cases h
  · rw [Function.update_of_ne hj] at h
    exact ⟨hj, h⟩

/-- **One step keeps leases sound.** -/
theorem Step.sound (h : s.Step s') (hs : s.Sound before) : s'.Sound before := by
  cases h with
  | take i key hidle hundone hfree =>
    refine ⟨hs.done, fun j k (hj : Function.update s.lease i (some key) j = some k) => ?_,
      fun j j' k (hj : Function.update s.lease i (some key) j = some k)
        (hj' : Function.update s.lease i (some key) j' = some k) => ?_, hs.fresh, hs.nodup⟩
    · by_cases hji : j = i
      · rw [hji, Function.update_self] at hj
        obtain rfl := Option.some.inj hj
        exact hundone
      · rw [Function.update_of_ne hji] at hj
        exact hs.undone j k hj
    · -- The new lease is of a key that nobody had.
      have hnew : ∀ p q, Function.update s.lease i (some key) p = some k →
          Function.update s.lease i (some key) q = some k → p = i → q = i := by
        intro p q hp hq hpi
        rw [hpi, Function.update_self] at hp
        obtain rfl := Option.some.inj hp
        by_contra hqi
        rw [Function.update_of_ne hqi] at hq
        exact hfree q hq
      by_cases hji : j = i
      · exact hji.trans (hnew j j' hj hj' hji).symm
      · by_cases hji' : j' = i
        · exact absurd (hnew j' j hj' hj hji') hji
        · rw [Function.update_of_ne hji] at hj
          rw [Function.update_of_ne hji'] at hj'
          exact hs.alone j j' k hj hj'
  | finish i key hlease =>
    have hundone := hs.undone i key hlease
    have hunfinished : key ∉ s.finished := fun hmem => hundone ((hs.done key).mpr (Or.inr hmem))
    refine ⟨fun k => ?_, fun j k hj => ?_, fun j j' k hj hj' => ?_, fun k hk => ?_, ?_⟩
    · show s.done k ∨ k = key ↔ before k ∨ k ∈ s.finished ++ [key]
      rw [hs.done, List.mem_append, List.mem_singleton, or_assoc]
    · obtain ⟨hji, hat⟩ := lease_dropped hj
      rintro (hdone | rfl)
      · exact hs.undone j k hat hdone
      · exact hji (hs.alone j i k hat hlease)
    · exact hs.alone j j' k (lease_dropped hj).2 (lease_dropped hj').2
    · rcases List.mem_append.mp hk with hold | hnew
      · exact hs.fresh k hold
      · rw [List.mem_singleton.mp hnew]
        exact fun hbefore => hundone ((hs.done key).mpr (Or.inl hbefore))
    · refine List.nodup_append.mpr ⟨hs.nodup, List.nodup_singleton _, fun a ha b hb => ?_⟩
      rintro rfl
      rw [List.mem_singleton.mp hb] at ha
      exact hunfinished ha
  | drop i =>
    exact ⟨hs.done, fun j k hj => hs.undone j k (lease_dropped hj).2,
      fun j j' k hj hj' => hs.alone j j' k (lease_dropped hj).2 (lease_dropped hj').2,
      hs.fresh, hs.nodup⟩

/-- **Every run keeps leases sound.** -/
theorem Sound.run (hs : s.Sound before) (h : Relation.ReflTransGen Step s s') :
    s'.Sound before := by
  induction h with
  | refl => exact hs
  | tail _ hstep ih => exact hstep.sound ih

end Steps

/-- Before anybody moves, leases are sound. -/
theorem Sound.opened (done : Key → Prop) :
    Sound done { done, lease := fun _ : ι => none, finished := [] } where
  done := fun key => by simp
  undone := fun _ _ h => by cases h
  alone := fun _ _ _ h => by cases h
  fresh := fun _ h => by cases h
  nodup := List.nodup_nil

variable {before : Key → Prop} {s : Leases ι Key}

/-- **Each key is finished at most once**, and never where it was done before. -/
theorem Sound.count_le [DecidableEq Key] (hs : s.Sound before) (key : Key) :
    s.finished.count key ≤ 1 ∧ (before key → s.finished.count key = 0) := by
  refine ⟨List.nodup_iff_count_le_one.mp hs.nodup key, fun hbefore => ?_⟩
  exact List.count_eq_zero.mpr fun hmem => hs.fresh key hmem hbefore

end Leases
end Store
