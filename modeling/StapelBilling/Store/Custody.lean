import StapelBilling.Store.Query

/-! # Rows with an owner

A table whose rows may have an owner, and an owner one row at most.  A new row is opened for an
owner without one, and a row that is given to an owner is given to one without another.  Where a
row may lose its owner and then never has one again, no row changes hands: such writes compose,
and leave every row with the owner it had or with none.
-/
namespace Store
variable {α β : Type} {owner : α → Option β} {t t' t'' : Table α}

/-- **An owner has one row at most.** -/
def Single (owner : α → Option β) (t : Table α) : Prop :=
  ∀ j k a b u, t.get? j = some a → t.get? k = some b → owner a = some u → owner b = some u → j = k

namespace Single

theorem empty : Single owner Table.empty := fun _ _ _ _ _ hj => Table.get?_empty_ne hj

/-- Rows that keep their owner or lose it. -/
theorem of_rows (hs : Single owner t) (hrows : ∀ k b u, t'.get? k = some b → owner b = some u →
    ∃ a, t.get? k = some a ∧ owner a = some u) : Single owner t' := by
  intro j k a b u hj hk ha hb
  obtain ⟨a', hj', ha'⟩ := hrows j a u hj ha
  obtain ⟨b', hk', hb'⟩ := hrows k b u hk hb
  exact hs j k a' b' u hj' hk' ha' hb'

/-- A row that is opened for somebody without one. -/
theorem insert {new : α} (hs : Single owner t)
    (hnew : ∀ k a u, t.get? k = some a → owner new = some u → owner a ≠ some u) :
    Single owner (t.insert new) := by
  intro j k a b u hj hk ha hb
  rw [Table.get?_insert] at hj hk
  split at hj
  · rename_i hjnext
    obtain rfl := Option.some.inj hj
    split at hk
    · rename_i hknext
      rw [hjnext, hknext]
    · exact absurd hb (hnew k b u hk ha)
  · split at hk
    · obtain rfl := Option.some.inj hk
      exact absurd ha (hnew j a u hj hb)
    · exact hs j k a b u hj hk ha hb

/-- A row that keeps its owner, or is given to one without another row. -/
theorem modify {i : ℕ} {f : α → α} (hs : Single owner t)
    (hgiven : ∀ a, t.get? i = some a → owner (f a) = owner a ∨
      ∀ k b u, k ≠ i → t.get? k = some b → owner (f a) = some u → owner b ≠ some u) :
    Single owner (t.modify i f) := by
  have hmeets : ∀ {a k b u}, k ≠ i → t.get? i = some a → t.get? k = some b →
      owner (f a) = some u → owner b ≠ some u := by
    intro a k b u hne ha hk hfa hb
    rcases hgiven a ha with hsame | hfree
    · exact hne (hs k i b a u hk ha hb (hsame ▸ hfa))
    · exact hfree k b u hne hk hfa hb
  intro j k a b u hj hk ha hb
  rw [Table.get?_modify] at hj hk
  split at hj
  · rename_i hji
    obtain ⟨old, hold, rfl⟩ := Option.map_eq_some_iff.mp hj
    split at hk
    · rename_i hki
      rw [hji, hki]
    · rename_i hki
      exact absurd hb (hmeets hki (hji ▸ hold) hk ha)
  · rename_i hji
    split at hk
    · rename_i hki
      obtain ⟨old, hold, rfl⟩ := Option.map_eq_some_iff.mp hk
      exact absurd ha (hmeets hji (hki ▸ hold) hj hb)
    · exact hs j k a b u hj hk ha hb

end Single

/-- **No row changes hands**, and no owner gets a second row. -/
structure Custody (owner : α → Option β) (t t' : Table α) : Prop where
  next_le : t.next ≤ t'.next
  owned : ∀ k b u, k < t.next → t'.get? k = some b → owner b = some u →
    ∃ a, t.get? k = some a ∧ owner a = some u
  single : Single owner t → Single owner t'

namespace Custody

theorem refl (owner : α → Option β) (t : Table α) : Custody owner t t :=
  ⟨le_rfl, fun _ b _ _ hk hb => ⟨b, hk, hb⟩, id⟩

theorem trans (h : Custody owner t t') (h' : Custody owner t' t'') : Custody owner t t'' where
  next_le := h.next_le.trans h'.next_le
  owned k b u hlt hk hb := by
    obtain ⟨a, ha, hau⟩ := h'.owned k b u (by have := h.next_le; omega) hk hb
    exact h.owned k a u hlt ha hau
  single hs := h'.single (h.single hs)

/-- Rows that keep their owner or lose it. -/
theorem of_rows (hnext : t'.next = t.next) (hrows : ∀ k b u, t'.get? k = some b → owner b = some u →
    ∃ a, t.get? k = some a ∧ owner a = some u) : Custody owner t t' :=
  ⟨hnext.ge, fun k b u _ hk hb => hrows k b u hk hb, fun hs => hs.of_rows hrows⟩

/-- A row that is opened for somebody without one. -/
theorem insert {new : α} (hnew : ∀ k a u, t.get? k = some a → owner new = some u → owner a ≠ some u) :
    Custody owner t (t.insert new) where
  next_le := by
    show t.next ≤ t.next + 1
    omega
  owned k b u hlt hk hb := by
    rw [Table.get?_insert_of_ne _ (by omega)] at hk
    exact ⟨b, hk, hb⟩
  single hs := hs.insert hnew

end Custody
end Store
