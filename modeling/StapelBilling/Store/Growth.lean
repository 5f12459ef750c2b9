import StapelBilling.Store.Query

/-! # How a table grows

A store that is never deleted from only grows: every row is still there under its
key, up to the columns a write may change (`Same`), and every other row was added
under a key the table had not handed out yet (`New`).  Growth composes, so a
sequence of writes is described by what one write does.
-/
namespace Store
variable {α : Type}

/-- `t'` is `t` with rows rewritten within `Same` and rows added within `New`. -/
structure Grows (Same : α → α → Prop) (New : α → Prop) (t t' : Table α) : Prop where
  next_le : t.next ≤ t'.next
  kept : ∀ k a, t.get? k = some a → ∃ b, t'.get? k = some b ∧ Same a b
  origin : ∀ k b, t'.get? k = some b →
    (∃ a, t.get? k = some a ∧ Same a b) ∨ (t.next ≤ k ∧ New b)

namespace Grows
variable {Same : α → α → Prop} {New : α → Prop} {t t' t'' : Table α}

theorem refl (hrefl : ∀ a, Same a a) (t : Table α) : Grows Same New t t where
  next_le := le_rfl
  kept := fun _ a hk => ⟨a, hk, hrefl a⟩
  origin := fun _ a hk => Or.inl ⟨a, hk, hrefl a⟩

/-- **Growth composes**, when rewriting does and a new row stays one. -/
theorem trans (htrans : ∀ a b c, Same a b → Same b c → Same a c)
    (hnew : ∀ a b, New a → Same a b → New b) (h : Grows Same New t t')
    (h' : Grows Same New t' t'') : Grows Same New t t'' where
  next_le := h.next_le.trans h'.next_le
  kept := by
    intro k a hk
    obtain ⟨b, hb, hab⟩ := h.kept k a hk
    obtain ⟨c, hc, hbc⟩ := h'.kept k b hb
    exact ⟨c, hc, htrans a b c hab hbc⟩
  origin := by
    intro k c hk
    rcases h'.origin k c hk with ⟨b, hb, hbc⟩ | ⟨hle, hc⟩
    · rcases h.origin k b hb with ⟨a, ha, hab⟩ | ⟨hle, hb'⟩
      · exact Or.inl ⟨a, ha, htrans a b c hab hbc⟩
      · exact Or.inr ⟨hle, hnew b c hb' hbc⟩
    · exact Or.inr ⟨h.next_le.trans hle, hc⟩

theorem insert (hrefl : ∀ a, Same a a) {a : α} (ha : New a) : Grows Same New t (t.insert a) where
  next_le := Nat.le_succ _
  kept := fun _ b hk => ⟨b, Table.get?_insert_of_some a hk, hrefl b⟩
  origin := by
    intro k b hk
    rw [Table.get?_insert] at hk
    split at hk
    · rename_i hnext
      obtain rfl := Option.some.inj hk
      exact Or.inr ⟨hnext.ge, ha⟩
    · exact Or.inl ⟨b, hk, hrefl b⟩

/-- Rewriting, read off the rows. -/
theorem of_map {f : ℕ → α → α} (hnext : t'.next = t.next)
    (hrows : ∀ k, t'.get? k = (t.get? k).map (f k))
    (hf : ∀ k a, t.get? k = some a → Same a (f k a)) : Grows Same New t t' where
  next_le := hnext.ge
  kept := fun k a hk => ⟨f k a, by rw [hrows, hk]; rfl, hf k a hk⟩
  origin := by
    intro k b hk
    rw [hrows] at hk
    obtain ⟨a, ha, rfl⟩ := Option.map_eq_some_iff.mp hk
    exact Or.inl ⟨a, ha, hf k a ha⟩

theorem update {f : ℕ → α → α} (hf : ∀ k a, t.get? k = some a → Same a (f k a)) :
    Grows Same New t (t.update f) :=
  of_map rfl (Table.get?_update t f) hf

theorem modify {k : ℕ} {f : α → α} (hrefl : ∀ a, Same a a)
    (hf : ∀ a, t.get? k = some a → Same a (f a)) : Grows Same New t (t.modify k f) := by
  refine update fun j a ha => ?_
  split
  · rename_i hj
    subst hj
    exact hf a ha
  · exact hrefl a

theorem drain {sub : ℤ → α → α} {taken : List (ℕ × ℤ)} (hrefl : ∀ a, Same a a)
    (htrans : ∀ a b c, Same a b → Same b c → Same a c) (hsub : ∀ n a, Same a (sub n a)) :
    Grows Same New t (t.drain sub taken) := by
  unfold Table.drain
  induction taken generalizing t with
  | nil => exact refl hrefl t
  | cons p taken ih =>
    have hfirst : Grows Same New t (t.modify p.1 (sub p.2)) := modify hrefl fun a _ => hsub p.2 a
    -- No row is new here, so growth composes without a condition on new rows.
    refine ⟨hfirst.next_le.trans ih.next_le, fun k a hk => ?_, fun k c hk => ?_⟩
    · obtain ⟨b, hb, hab⟩ := hfirst.kept k a hk
      obtain ⟨c, hc, hbc⟩ := ih.kept k b hb
      exact ⟨c, hc, htrans a b c hab hbc⟩
    · rcases ih.origin k c hk with ⟨b, hb, hbc⟩ | hnew
      · rcases hfirst.origin k b hb with ⟨a, ha, hab⟩ | ⟨hle, -⟩
        · exact Or.inl ⟨a, ha, htrans a b c hab hbc⟩
        · exact absurd (Table.get?_lt_next hb) (Nat.not_lt.mpr hle)
      · exact Or.inr hnew

theorem mono {Same' : α → α → Prop} {New' : α → Prop} (hsame : ∀ a b, Same a b → Same' a b)
    (hnew : ∀ a, New a → New' a) (h : Grows Same New t t') : Grows Same' New' t t' where
  next_le := h.next_le
  kept := by
    intro k a hk
    obtain ⟨b, hb, hab⟩ := h.kept k a hk
    exact ⟨b, hb, hsame a b hab⟩
  origin := by
    intro k b hk
    rcases h.origin k b hk with ⟨a, ha, hab⟩ | ⟨hle, hb⟩
    · exact Or.inl ⟨a, ha, hsame a b hab⟩
    · exact Or.inr ⟨hle, hnew b hb⟩

/-- What rewriting makes of what every old row has, and every new row has, all rows
have. -/
theorem forall_image {P Q : α → Prop} (h : Grows Same New t t')
    (hold : ∀ k a, t.get? k = some a → P a) (hsame : ∀ a b, P a → Same a b → Q b)
    (hnew : ∀ a, New a → Q a) : ∀ k a, t'.get? k = some a → Q a := by
  intro k b hk
  rcases h.origin k b hk with ⟨a, ha, hab⟩ | ⟨-, hb⟩
  · exact hsame a b (hold k a ha) hab
  · exact hnew b hb

/-- What every old row has, and rewriting keeps, and every new row has, all rows
have. -/
theorem forall_rows {P : α → Prop} (h : Grows Same New t t') (hold : ∀ k a, t.get? k = some a → P a)
    (hsame : ∀ a b, P a → Same a b → P b) (hnew : ∀ a, New a → P a) :
    ∀ k a, t'.get? k = some a → P a :=
  h.forall_image hold hsame hnew

end Grows
end Store
