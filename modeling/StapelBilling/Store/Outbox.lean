import StapelBilling.Store.Growth

/-! # A log of what a table was given

Some rows of a table carry a value that others must hear of.  A log announces them, one entry
for each such row: its key and the value.  The log and the table match as long as a row with a
value is added together with its entry, no other row has a value, and values are not rewritten.

* `Announces`: the log matches the table.
* `Announces.grows`, `Announces.insert`: what keeps them matching.
* `Announces.total`: what a log adds up to is what the table adds up to.
-/
namespace Store
variable {α β : Type} {value : α → Option β} {t t' : Table α} {log : List (ℕ × β)}

/-- **The log matches the table**: it lists the rows with a value, each with its value and
each once. -/
structure Announces (value : α → Option β) (t : Table α) (log : List (ℕ × β)) : Prop where
  once : (log.map Prod.fst).Nodup
  listed : ∀ k v, (k, v) ∈ log ↔ ∃ a, t.get? k = some a ∧ value a = some v

namespace Announces

theorem empty : Announces value Table.empty [] where
  once := List.nodup_nil
  listed k v := by
    refine iff_of_false List.not_mem_nil ?_
    rintro ⟨a, hk, -⟩
    exact Table.get?_empty_ne hk

/-- Rows that keep their values, and new rows that have none. -/
theorem grows (h : Announces value t log)
    (hg : Grows (fun a b => value b = value a) (fun a => value a = none) t t') :
    Announces value t' log where
  once := h.once
  listed k v := by
    rw [h.listed]
    constructor
    · rintro ⟨a, hk, hv⟩
      obtain ⟨b, hk', hsame⟩ := hg.kept k a hk
      exact ⟨b, hk', hsame.trans hv⟩
    · rintro ⟨b, hk', hv⟩
      rcases hg.origin k b hk' with ⟨a, hk, hsame⟩ | ⟨-, hnone⟩
      · exact ⟨a, hk, hsame.symm.trans hv⟩
      · rw [hnone] at hv
        cases hv

/-- **A row with a value is announced with it.** -/
theorem insert {a : α} {v : β} (h : Announces value t log) (hv : value a = some v) :
    Announces value (t.insert a) (log ++ [(t.next, v)]) where
  once := by
    rw [List.map_append, List.map_singleton]
    refine List.nodup_append.mpr ⟨h.once, List.nodup_singleton _, ?_⟩
    -- A key that is handed out now was not announced before.
    intro k hk j hj he
    obtain ⟨⟨k, w⟩, hmem, rfl⟩ := List.mem_map.mp hk
    obtain ⟨old, hget, -⟩ := (h.listed k w).mp hmem
    rw [List.mem_singleton] at hj
    have hlt := Table.get?_lt_next hget
    dsimp only at he
    omega
  listed k w := by
    rw [List.mem_append, List.mem_singleton, h.listed, Table.get?_insert]
    constructor
    · rintro (⟨old, hget, hw⟩ | he)
      · have hne : k ≠ t.next := (Table.get?_lt_next hget).ne
        exact ⟨old, by rw [if_neg hne]; exact hget, hw⟩
      · obtain ⟨rfl, rfl⟩ := Prod.mk.inj he
        exact ⟨a, if_pos rfl, hv⟩
    · rintro ⟨old, hget, hw⟩
      split at hget
      · rename_i hk
        obtain rfl := Option.some.inj hget
        exact Or.inr (Prod.ext hk (Option.some.inj (hw.symm.trans hv)))
      · exact Or.inl ⟨old, hget, hw⟩

/-- **A log adds up to what its table adds up to.** -/
theorem total {log : List (ℕ × ℤ)} {value : α → Option ℤ} (h : Announces value t log) :
    (log.map Prod.snd).sum = t.sum fun _ a => (value a).getD 0 := by
  have hrows : log.Perm (t.rows.filterMap fun r => (value r.2).map fun v => (r.1, v)) := by
    refine (List.perm_ext_iff_of_nodup (List.Nodup.of_map Prod.fst h.once) ?_).mpr fun ⟨k, v⟩ => ?_
    · refine List.pairwise_filterMap.mpr (t.sorted.imp ?_)
      intro r s hlt a ha b hb he
      obtain ⟨v, -, rfl⟩ := Option.map_eq_some_iff.mp ha
      obtain ⟨w, -, rfl⟩ := Option.map_eq_some_iff.mp hb
      exact hlt.ne (Prod.mk.inj he).1
    · rw [h.listed, List.mem_filterMap]
      constructor
      · rintro ⟨a, hk, hv⟩
        exact ⟨(k, a), Table.get?_eq_some_iff.mp hk, by rw [hv]; rfl⟩
      · rintro ⟨⟨j, a⟩, hmem, hv⟩
        obtain ⟨v', hv', he⟩ := Option.map_eq_some_iff.mp hv
        obtain ⟨rfl, rfl⟩ := Prod.mk.inj he
        exact ⟨a, Table.get?_eq_some_iff.mpr hmem, hv'⟩
  rw [(hrows.map Prod.snd).sum_eq]
  unfold Table.sum
  induction t.rows with
  | nil => rfl
  | cons r rows ih =>
    cases hv : value r.2 with
    | none =>
      rw [List.filterMap_cons_none (by rw [hv]; rfl), ih, List.map_cons, List.sum_cons]
      simp [hv]
    | some v =>
      rw [List.filterMap_cons_some (b := (r.1, v)) (by rw [hv]; rfl), List.map_cons, List.sum_cons, ih,
        List.map_cons, List.sum_cons]
      simp [hv]

end Announces
end Store
