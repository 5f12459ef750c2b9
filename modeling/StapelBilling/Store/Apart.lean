import StapelBilling.Store.Query

/-! # Rows of somebody else

Two tables agree on the rows that have a property: each has the ones the other has, as they are.
Writes to rows that do not have it, before or after, keep the agreement, and so does adding such
a row.  When the property is ownership, this is what one owner's writes leave to another.
-/
namespace Store
variable {α : Type} {p : α → Prop} {t t' t'' : Table α}

/-- **The tables agree on the rows that have the property.** -/
def Apart (p : α → Prop) (t t' : Table α) : Prop :=
  ∀ k a, p a → (t.get? k = some a ↔ t'.get? k = some a)

namespace Apart

theorem refl (p : α → Prop) (t : Table α) : Apart p t t := fun _ _ _ => Iff.rfl

theorem trans (h : Apart p t t') (h' : Apart p t' t'') : Apart p t t'' :=
  fun k a ha => (h k a ha).trans (h' k a ha)

theorem insert {new : α} (hnew : ¬ p new) : Apart p t (t.insert new) := by
  intro k a ha
  rw [Table.get?_insert]
  split
  · rename_i hk
    rw [hk, Table.get?_next]
    refine iff_of_false nofun fun h => ?_
    obtain rfl := Option.some.inj h
    exact hnew ha
  · exact Iff.rfl

theorem modify {j : ℕ} {f : α → α} (hbefore : ∀ a, t.get? j = some a → ¬ p a)
    (hafter : ∀ a, t.get? j = some a → ¬ p (f a)) : Apart p t (t.modify j f) := by
  intro k a ha
  rw [Table.get?_modify]
  split
  · rename_i hk
    subst hk
    refine iff_of_false (fun h => hbefore a h ha) fun h => ?_
    obtain ⟨old, hold, rfl⟩ := Option.map_eq_some_iff.mp h
    exact hafter old hold ha
  · exact Iff.rfl

/-- Rewriting, read off the rows: what has the property stays as it is, what has it not stays
without. -/
theorem of_map {f : ℕ → α → α} (hrows : ∀ k, t'.get? k = (t.get? k).map (f k))
    (hkept : ∀ k a, t.get? k = some a → p a → f k a = a)
    (hnone : ∀ k a, t.get? k = some a → ¬ p a → ¬ p (f k a)) : Apart p t t' := by
  intro k a ha
  rw [hrows]
  constructor
  · intro h
    rw [h, Option.map_some, hkept k a h ha]
  · intro h
    obtain ⟨old, hold, rfl⟩ := Option.map_eq_some_iff.mp h
    by_cases hp : p old
    · rw [hold, hkept k old hold hp]
    · exact absurd ha (hnone k old hold hp)

end Apart
end Store
