import StapelBilling.Store.Table

/-! # Ordered queries and walks over them

A query that names an order answers its rows sorted by a key (`orderBy`).  A
walk serves an amount out of such rows: each row gives what it holds until the
amount is covered (`draw`), and the amounts given are then taken off the rows
they came from (`Table.drain`).  The walk gives exactly the amount asked for
when the rows cover it, and never more than a row holds.
-/
namespace Store

/-! ## Ordering -/

section Ordering
variable {α κ : Type} [LinearOrder κ]

/-- The rows in ascending order of `key`. -/
def orderBy (key : α → κ) (rows : List α) : List α :=
  rows.insertionSort fun a b => key a ≤ key b

theorem orderBy_perm (key : α → κ) (rows : List α) : (orderBy key rows).Perm rows :=
  List.perm_insertionSort _ rows

@[simp] theorem mem_orderBy {key : α → κ} {rows : List α} {a : α} :
    a ∈ orderBy key rows ↔ a ∈ rows :=
  (orderBy_perm key rows).mem_iff

@[simp] theorem orderBy_nil (key : α → κ) : orderBy key [] = [] := rfl

@[simp] theorem orderBy_singleton (key : α → κ) (a : α) : orderBy key [a] = [a] := rfl

theorem orderBy_eq_nil_iff {key : α → κ} {rows : List α} : orderBy key rows = [] ↔ rows = [] :=
  ⟨fun h => List.perm_nil.mp (h ▸ (orderBy_perm key rows).symm), fun h => by rw [h]; rfl⟩

theorem orderBy_sum (key : α → κ) (rows : List α) (g : α → ℤ) :
    ((orderBy key rows).map g).sum = (rows.map g).sum :=
  ((orderBy_perm key rows).map g).sum_eq

theorem orderBy_nodup {γ : Type} {key : α → κ} {rows : List α} {f : α → γ}
    (h : (rows.map f).Nodup) : ((orderBy key rows).map f).Nodup :=
  ((orderBy_perm key rows).map f).nodup_iff.mpr h

/-- Rows that show the same key under another key show it in the same order. -/
theorem map_orderBy {β : Type} (f : α → β) {key : α → κ} {key' : β → κ} (rows : List α)
    (h : ∀ a, key a = key' (f a)) : (orderBy key rows).map f = orderBy key' (rows.map f) :=
  List.map_insertionSort _ _ f rows fun a _ b _ => by rw [h a, h b]

/-- The first row is the least. -/
theorem orderBy_head {key : α → κ} {rows : List α} {a : α} (h : (orderBy key rows).head? = some a) :
    a ∈ rows ∧ ∀ b ∈ rows, key a ≤ key b := by
  have hsorted : (orderBy key rows).Pairwise fun a b => key a ≤ key b :=
    List.pairwise_insertionSort _ rows
  have hmem : ∀ b, b ∈ orderBy key rows ↔ b ∈ rows := fun _ => mem_orderBy
  revert h hsorted hmem
  generalize orderBy key rows = sorted
  intro h hsorted hmem
  cases sorted with
  | nil => cases h
  | cons c sorted =>
    obtain rfl := Option.some.inj h
    refine ⟨(hmem c).mp List.mem_cons_self, fun b hb => ?_⟩
    rcases List.mem_cons.mp ((hmem b).mpr hb) with rfl | hb
    · exact le_rfl
    · exact (List.pairwise_cons.mp hsorted).1 b hb

/-- **The order is stable**: rows it does not tell apart stay in the order of their keys. -/
theorem orderBy_stable {key : ℕ × α → κ} {rows : List (ℕ × α)}
    (h : rows.Pairwise fun p q => p.1 < q.1) :
    (orderBy key rows).Pairwise fun p q => key p < key q ∨ key p = key q ∧ p.1 < q.1 := by
  have hinsert : ∀ (a : ℕ × α) (sorted : List (ℕ × α)), (∀ q ∈ sorted, a.1 < q.1) →
      sorted.Pairwise (fun p q => key p < key q ∨ key p = key q ∧ p.1 < q.1) →
      (sorted.orderedInsert (fun p q => key p ≤ key q) a).Pairwise
        fun p q => key p < key q ∨ key p = key q ∧ p.1 < q.1 := by
    intro a sorted hlater hsorted
    induction sorted with
    | nil => exact List.pairwise_singleton _ a
    | cons b sorted ih =>
      obtain ⟨hb, hrest⟩ := List.pairwise_cons.mp hsorted
      rw [List.orderedInsert]
      split
      · rename_i hle
        have hfirst : ∀ q ∈ b :: sorted, key a ≤ key q := by
          intro q hq
          rcases List.mem_cons.mp hq with rfl | hq
          · exact hle
          · rcases hb q hq with hlt | ⟨heq, -⟩
            · exact hle.trans hlt.le
            · exact hle.trans heq.le
        refine List.pairwise_cons.mpr ⟨fun q hq => ?_, hsorted⟩
        rcases (hfirst q hq).lt_or_eq with hlt | heq
        · exact Or.inl hlt
        · exact Or.inr ⟨heq, hlater q hq⟩
      · rename_i hgt
        refine List.pairwise_cons.mpr ⟨fun q hq => ?_,
          ih (fun q hq => hlater q (List.mem_cons_of_mem _ hq)) hrest⟩
        rcases (List.mem_orderedInsert _).mp hq with rfl | hq
        · exact Or.inl (not_le.mp hgt)
        · exact hb q hq
  induction rows with
  | nil => exact List.Pairwise.nil
  | cons a rows ih =>
    obtain ⟨ha, hrows⟩ := List.pairwise_cons.mp h
    exact hinsert a _ (fun q hq => ha q (mem_orderBy.mp hq)) (ih hrows)

end Ordering

/-! ## Walks -/

/-- Serve an amount out of holders in order: each gives the part of it that is
still outstanding, up to what it holds, and a holder with nothing is passed
over. -/
def draw : ℤ → List (ℕ × ℤ) → List (ℕ × ℤ)
  | _, [] => []
  | outstanding, (k, held) :: rest =>
    if outstanding ≤ 0 then []
    else if min outstanding held ≤ 0 then draw outstanding rest
    else (k, min outstanding held) :: draw (outstanding - min outstanding held) rest

/-- What a walk gave in total. -/
def drawn (taken : List (ℕ × ℤ)) : ℤ := (taken.map Prod.snd).sum

@[simp] theorem drawn_nil : drawn [] = 0 := rfl

@[simp] theorem drawn_cons (p : ℕ × ℤ) (taken : List (ℕ × ℤ)) :
    drawn (p :: taken) = p.2 + drawn taken := by simp [drawn]

/-- What was drawn from row `k`. -/
def drawnFrom (k : ℕ) (taken : List (ℕ × ℤ)) : ℤ := drawn (taken.filter fun p => p.1 = k)

/-- What was drawn from the rows in `P`. -/
theorem drawn_filter (P : ℕ → Prop) [DecidablePred P] (taken : List (ℕ × ℤ)) :
    drawn (taken.filter fun p => P p.1) = (taken.map fun p => if P p.1 then p.2 else 0).sum := by
  induction taken with
  | nil => rfl
  | cons p taken ih =>
    by_cases hP : P p.1
    · rw [List.filter_cons_of_pos (by simpa using hP), drawn_cons, List.map_cons, List.sum_cons,
        if_pos hP, ih]
    · rw [List.filter_cons_of_neg (by simpa using hP), List.map_cons, List.sum_cons, if_neg hP, ih,
        zero_add]

/-- A walk's total is what was drawn from the rows in `P` and from the others. -/
theorem drawn_filter_add (P : ℕ → Prop) [DecidablePred P] (taken : List (ℕ × ℤ)) :
    drawn (taken.filter fun p => P p.1) + drawn (taken.filter fun p => ¬ P p.1) = drawn taken := by
  induction taken with
  | nil => rfl
  | cons p taken ih =>
    rw [drawn_cons]
    by_cases hP : P p.1
    · rw [List.filter_cons_of_pos (by simpa using hP), List.filter_cons_of_neg (by simpa using hP),
        drawn_cons]
      omega
    · rw [List.filter_cons_of_neg (by simpa using hP), List.filter_cons_of_pos (by simpa using hP),
        drawn_cons]
      omega

/-- All was drawn from the rows in `P` when no other row gave anything. -/
theorem drawn_filter_eq_iff (P : ℕ → Prop) [DecidablePred P] {taken : List (ℕ × ℤ)}
    (hpos : ∀ p ∈ taken, 0 < p.2) :
    drawn (taken.filter fun p => P p.1) = drawn taken ↔ ∀ p ∈ taken, P p.1 := by
  have hsplit := drawn_filter_add P taken
  constructor
  · intro hall p hp
    by_contra hnot
    have hrest : ∀ x ∈ (taken.filter fun p => ¬ P p.1).map Prod.snd, 0 ≤ x := by
      intro x hx
      obtain ⟨q, hq, rfl⟩ := List.mem_map.mp hx
      exact (hpos q (List.mem_filter.mp hq).1).le
    have hmem : p.2 ∈ (taken.filter fun p => ¬ P p.1).map Prod.snd :=
      List.mem_map.mpr ⟨p, List.mem_filter.mpr ⟨hp, by simpa using hnot⟩, rfl⟩
    have hle : p.2 ≤ drawn (taken.filter fun p => ¬ P p.1) := List.single_le_sum hrest p.2 hmem
    have hp0 := hpos p hp
    omega
  · intro hall
    rw [List.filter_eq_self.mpr fun p hp => by simpa using hall p hp]

theorem drawnFrom_of_not_mem {k : ℕ} {taken : List (ℕ × ℤ)} (h : k ∉ taken.map Prod.fst) :
    drawnFrom k taken = 0 := by
  have hnone : taken.filter (fun p => p.1 = k) = [] := by
    rw [List.filter_eq_nil_iff]
    intro p hp hk
    exact h (List.mem_map.mpr ⟨p, hp, of_decide_eq_true hk⟩)
  rw [drawnFrom, hnone, drawn_nil]

/-- A row that was drawn once was drawn for its entry. -/
theorem drawnFrom_of_mem {k : ℕ} {n : ℤ} {taken : List (ℕ × ℤ)} (hnd : (taken.map Prod.fst).Nodup)
    (h : (k, n) ∈ taken) : drawnFrom k taken = n := by
  induction taken with
  | nil => cases h
  | cons p taken ih =>
    obtain ⟨hnot, hnd'⟩ := List.nodup_cons.mp hnd
    by_cases hp : p.1 = k
    · have hrest : drawnFrom k taken = 0 := drawnFrom_of_not_mem fun hmem => hnot (hp ▸ hmem)
      have hhead : p = (k, n) := by
        rcases List.mem_cons.mp h with he | hmem
        · exact he.symm
        · exact absurd (List.mem_map.mpr ⟨(k, n), hmem, hp.symm⟩) hnot
      unfold drawnFrom at hrest ⊢
      rw [List.filter_cons_of_pos (by simpa using hp), drawn_cons, hrest, hhead, add_zero]
    · have hmem : (k, n) ∈ taken := by
        rcases List.mem_cons.mp h with he | hmem
        · exact absurd (congrArg Prod.fst he).symm hp
        · exact hmem
      have hrest := ih hnd' hmem
      unfold drawnFrom at hrest ⊢
      rw [List.filter_cons_of_neg (by simpa using hp), hrest]

theorem draw_of_nonpos {n : ℤ} (h : n ≤ 0) (rows : List (ℕ × ℤ)) : draw n rows = [] := by
  cases rows with
  | nil => rfl
  | cons r rows => rw [draw, if_pos h]

/-- Every amount given is positive, and no holder gives more than it holds. -/
theorem draw_mem {rows : List (ℕ × ℤ)} : ∀ {n : ℤ} {k : ℕ} {m : ℤ}, (k, m) ∈ draw n rows →
    0 < m ∧ ∃ held, (k, held) ∈ rows ∧ m ≤ held := by
  induction rows with
  | nil => intro n k m h; cases h
  | cons r rows ih =>
    obtain ⟨j, held⟩ := r
    intro n k m h
    rw [draw] at h
    split at h
    · cases h
    split at h
    · obtain ⟨hpos, held', hmem, hle⟩ := ih h
      exact ⟨hpos, held', List.mem_cons_of_mem _ hmem, hle⟩
    · rename_i hmin
      rcases List.mem_cons.mp h with he | h
      · obtain ⟨rfl, rfl⟩ := Prod.mk.inj he
        exact ⟨by omega, held, List.mem_cons_self, min_le_right _ _⟩
      · obtain ⟨hpos, held', hmem, hle⟩ := ih h
        exact ⟨hpos, held', List.mem_cons_of_mem _ hmem, hle⟩

theorem draw_keys_sublist : ∀ (n : ℤ) (rows : List (ℕ × ℤ)),
    ((draw n rows).map Prod.fst).Sublist (rows.map Prod.fst)
  | _, [] => List.Sublist.refl _
  | n, (k, held) :: rows => by
      rw [draw]
      split
      · exact List.nil_sublist _
      split
      · exact (draw_keys_sublist n rows).cons k
      · exact (draw_keys_sublist _ rows).cons_cons k

theorem draw_nodup {n : ℤ} {rows : List (ℕ × ℤ)} (h : (rows.map Prod.fst).Nodup) :
    ((draw n rows).map Prod.fst).Nodup :=
  h.sublist (draw_keys_sublist n rows)

/-- **A walk reaches a holder** that has something when those ahead of it do not cover what was
asked. -/
theorem mem_draw_iff {ahead behind : List (ℕ × ℤ)} {k : ℕ} {held : ℤ}
    (hnd : ((ahead ++ (k, held) :: behind).map Prod.fst).Nodup) (hahead : ∀ p ∈ ahead, 0 ≤ p.2) :
    ∀ n, k ∈ (draw n (ahead ++ (k, held) :: behind)).map Prod.fst ↔ 0 < held ∧ drawn ahead < n := by
  induction ahead with
  | nil =>
    intro n
    have hrest : k ∉ (draw n behind).map Prod.fst := fun hmem =>
      (List.nodup_cons.mp hnd).1 ((draw_keys_sublist n behind).subset hmem)
    rw [List.nil_append, draw, drawn_nil]
    split
    · exact iff_of_false List.not_mem_nil (by omega)
    split
    · exact iff_of_false hrest (by omega)
    · exact iff_of_true List.mem_cons_self (by omega)
  | cons p ahead ih =>
    intro n
    obtain ⟨j, first⟩ := p
    obtain ⟨hnot, hnd'⟩ := List.nodup_cons.mp hnd
    have hrest := ih hnd' fun p hp => hahead p (List.mem_cons_of_mem _ hp)
    have hfirst : 0 ≤ first := hahead _ List.mem_cons_self
    have hsum : 0 ≤ drawn ahead := by
      refine List.sum_nonneg fun x hx => ?_
      obtain ⟨p, hp, rfl⟩ := List.mem_map.mp hx
      exact hahead p (List.mem_cons_of_mem _ hp)
    have hkj : k ≠ j := by
      rintro rfl
      exact hnot (List.mem_map.mpr ⟨(k, held), List.mem_append_right _ List.mem_cons_self, rfl⟩)
    rw [List.cons_append, draw, drawn_cons]
    split
    · exact iff_of_false List.not_mem_nil (by omega)
    split
    · rw [hrest]
      omega
    · rw [List.map_cons, List.mem_cons, or_iff_right hkj, hrest]
      omega

/-- **A walk stops at the first holder that does not give all it has**: it draws on the first of
them, and on all but the last of these in full. -/
theorem draw_prefix : ∀ (n : ℤ) (rows : List (ℕ × ℤ)), (∀ p ∈ rows, 0 < p.2) →
    (draw n rows).map Prod.fst <+: rows.map Prod.fst ∧ (draw n rows).dropLast <+: rows
  | _, [], _ => ⟨List.nil_prefix, List.nil_prefix⟩
  | n, (k, held) :: rows, hrows => by
      have hheld : 0 < held := hrows _ List.mem_cons_self
      by_cases hn : n ≤ 0
      · rw [draw_of_nonpos hn]
        exact ⟨List.nil_prefix, List.nil_prefix⟩
      · obtain ⟨hkeys, hfull⟩ := draw_prefix (n - min n held) rows
          fun p hp => hrows p (List.mem_cons_of_mem _ hp)
        rw [draw, if_neg hn, if_neg (by omega)]
        refine ⟨List.cons_prefix_cons.mpr ⟨rfl, hkeys⟩, ?_⟩
        by_cases hlast : n ≤ held
        · -- nothing is asked of the holders after this one
          rw [draw_of_nonpos (by omega)]
          exact List.nil_prefix
        · cases hrest : draw (n - min n held) rows with
          | nil => exact List.nil_prefix
          | cons q rest =>
            rw [hrest] at hfull
            rw [List.dropLast_cons_of_ne_nil (List.cons_ne_nil q rest), min_eq_right (by omega)]
            exact List.cons_prefix_cons.mpr ⟨rfl, hfull⟩

/-- **A walk gives what was asked, or all there is.** -/
theorem drawn_draw : ∀ {n : ℤ} {rows : List (ℕ × ℤ)}, 0 ≤ n → (∀ p ∈ rows, 0 ≤ p.2) →
    drawn (draw n rows) = min n (drawn rows)
  | n, [], hn, _ => by simp [draw, hn]
  | n, (k, held) :: rows, hn, hrows => by
      have hheld : 0 ≤ held := hrows _ List.mem_cons_self
      have htail : ∀ p ∈ rows, 0 ≤ p.2 := fun p hp => hrows p (List.mem_cons_of_mem _ hp)
      have hsum : 0 ≤ drawn rows := by
        refine List.sum_nonneg fun x hx => ?_
        obtain ⟨p, hp, rfl⟩ := List.mem_map.mp hx
        exact htail p hp
      rw [draw]
      split
      · simp only [drawn_nil, drawn_cons]; omega
      split
      · rw [drawn_draw hn htail]
        simp only [drawn_cons]; omega
      · rw [drawn_cons, drawn_draw (by omega) htail]
        simp only [drawn_cons]; omega

/-- **A walk over any holders**: one that holds less than nothing gives nothing. -/
theorem drawn_draw_max : ∀ (n : ℤ) (rows : List (ℕ × ℤ)),
    drawn (draw n rows) = min (max n 0) (rows.map fun p => max p.2 0).sum
  | n, [] => by
      simp only [draw, drawn_nil, List.map_nil, List.sum_nil]
      omega
  | n, (k, held) :: rows => by
      have hsum : 0 ≤ (rows.map fun p => max p.2 0).sum := by
        refine List.sum_nonneg fun x hx => ?_
        obtain ⟨p, -, rfl⟩ := List.mem_map.mp hx
        exact le_max_right _ _
      rw [draw, List.map_cons, List.sum_cons]
      split
      · rw [drawn_nil]
        omega
      split
      · rw [drawn_draw_max n rows]
        omega
      · rw [drawn_cons, drawn_draw_max (n - min n held) rows]
        omega

/-- **A walk empties its holders in order**: of those that come first it takes what was asked,
or all they hold. -/
theorem drawn_draw_filter {P : ℕ → Prop} [DecidablePred P] {rows : List (ℕ × ℤ)}
    (hfirst : rows.Pairwise fun p q => P q.1 → P p.1) (hrows : ∀ p ∈ rows, 0 ≤ p.2) :
    ∀ {n : ℤ}, 0 ≤ n → drawn ((draw n rows).filter fun p => P p.1) =
      min n (drawn (rows.filter fun p => P p.1)) := by
  induction rows with
  | nil =>
    intro n hn
    simp [draw, hn]
  | cons r rows ih =>
    obtain ⟨k, held⟩ := r
    intro n hn
    obtain ⟨hk, htail⟩ := List.pairwise_cons.mp hfirst
    have hheld : 0 ≤ held := hrows _ List.mem_cons_self
    have hrest : ∀ p ∈ rows, 0 ≤ p.2 := fun p hp => hrows p (List.mem_cons_of_mem _ hp)
    by_cases hP : P k
    · have hsum : 0 ≤ drawn (rows.filter fun p => P p.1) := by
        refine List.sum_nonneg fun x hx => ?_
        obtain ⟨p, hp, rfl⟩ := List.mem_map.mp hx
        exact hrest p (List.mem_filter.mp hp).1
      rw [List.filter_cons_of_pos (by simpa using hP), drawn_cons, draw]
      split
      · rw [List.filter_nil, drawn_nil]
        omega
      split
      · rw [ih htail hrest hn]
        omega
      · rw [List.filter_cons_of_pos (by simpa using hP), drawn_cons, ih htail hrest (by omega)]
        dsimp only
        omega
    · -- Past the first holder outside nothing of those that come first is left.
      have hnone : ∀ p ∈ (k, held) :: rows, ¬ P p.1 := by
        intro p hp hin
        rcases List.mem_cons.mp hp with rfl | hp
        · exact hP hin
        · exact hP (hk p hp hin)
      have hgiven : (draw n ((k, held) :: rows)).filter (fun p => P p.1) = [] := by
        rw [List.filter_eq_nil_iff]
        intro p hp hin
        obtain ⟨-, h, hmem, -⟩ := draw_mem (k := p.1) (m := p.2) hp
        exact hnone _ hmem (of_decide_eq_true hin)
      have hall : ((k, held) :: rows).filter (fun p => P p.1) = [] := by
        rw [List.filter_eq_nil_iff]
        exact fun p hp hin => hnone p hp (of_decide_eq_true hin)
      rw [hgiven, hall, drawn_nil]
      omega

/-! ## Taking the amounts off -/

namespace Table
variable {α : Type}

/-- Take each amount off the row it was drawn from. -/
def drain (t : Table α) (sub : ℤ → α → α) (taken : List (ℕ × ℤ)) : Table α :=
  taken.foldl (fun t p => t.modify p.1 (sub p.2)) t

variable {t : Table α} {sub : ℤ → α → α} {taken : List (ℕ × ℤ)}

@[simp] theorem drain_nil : t.drain sub [] = t := rfl

@[simp] theorem next_drain (t : Table α) (sub : ℤ → α → α) (taken : List (ℕ × ℤ)) :
    (t.drain sub taken).next = t.next := by
  unfold drain
  induction taken generalizing t with
  | nil => rfl
  | cons p taken ih => rw [List.foldl_cons, ih]; rfl

theorem get?_drain_of_not_mem {k : ℕ} (h : k ∉ taken.map Prod.fst) :
    (t.drain sub taken).get? k = t.get? k := by
  unfold drain
  induction taken generalizing t with
  | nil => rfl
  | cons p taken ih =>
    rw [List.map_cons, List.mem_cons, not_or] at h
    rw [List.foldl_cons, ih h.2, get?_modify_of_ne _ _ h.1]

theorem get?_drain_of_mem {k : ℕ} {n : ℤ} (hnd : (taken.map Prod.fst).Nodup)
    (h : (k, n) ∈ taken) : (t.drain sub taken).get? k = (t.get? k).map (sub n) := by
  induction taken generalizing t with
  | nil => cases h
  | cons p taken ih =>
    obtain ⟨hnot, hnd'⟩ := List.nodup_cons.mp hnd
    rcases List.mem_cons.mp h with he | h
    · subst he
      exact (get?_drain_of_not_mem (t := t.modify k (sub n)) hnot).trans (get?_modify_self _ _ _)
    · have hne : k ≠ p.1 := by
        intro he
        exact hnot (List.mem_map.mpr ⟨(k, n), h, he⟩)
      have := ih (t := t.modify p.1 (sub p.2)) hnd' h
      rwa [get?_modify_of_ne _ _ hne] at this

/-- A drain changes no column that taking off leaves alone. -/
theorem map_get?_drain {β : Type} {f : α → β} (h : ∀ n a, f (sub n a) = f a) (k : ℕ) :
    ((t.drain sub taken).get? k).map f = (t.get? k).map f := by
  unfold drain
  induction taken generalizing t with
  | nil => rfl
  | cons p taken ih =>
    rw [List.foldl_cons, ih, get?_modify]
    split
    · rw [Option.map_map]
      exact congrArg (fun g => (t.get? k).map g) (funext fun a => h p.2 a)
    · rfl

/-- A drained row is an old row, possibly with one amount taken off. -/
theorem get?_drain {k : ℕ} {a : α} (hnd : (taken.map Prod.fst).Nodup)
    (h : (t.drain sub taken).get? k = some a) :
    ∃ b, t.get? k = some b ∧ (a = b ∨ ∃ n, (k, n) ∈ taken ∧ a = sub n b) := by
  by_cases hk : k ∈ taken.map Prod.fst
  · obtain ⟨⟨j, n⟩, hmem, rfl⟩ := List.mem_map.mp hk
    rw [get?_drain_of_mem hnd hmem] at h
    obtain ⟨b, hb, rfl⟩ := Option.map_eq_some_iff.mp h
    exact ⟨b, hb, Or.inr ⟨n, hmem, rfl⟩⟩
  · rw [get?_drain_of_not_mem hk] at h
    exact ⟨a, h, Or.inl rfl⟩

/-- **A drain lowers an aggregate by what was drawn** from the rows the measure sees. -/
theorem sum_drain_filter {g : ℕ → α → ℤ} {P : ℕ → Prop} [DecidablePred P]
    (hnd : (taken.map Prod.fst).Nodup) (h : ∀ k n, (k, n) ∈ taken →
      ∃ a, t.get? k = some a ∧ g k (sub n a) = g k a - if P k then n else 0) :
    (t.drain sub taken).sum g = t.sum g - drawn (taken.filter fun p => P p.1) := by
  unfold drain
  induction taken generalizing t with
  | nil => simp
  | cons p taken ih =>
    obtain ⟨k, n⟩ := p
    obtain ⟨hnot, hnd'⟩ := List.nodup_cons.mp hnd
    obtain ⟨a, ha, hg⟩ := h k n List.mem_cons_self
    have hrest : ∀ j m, (j, m) ∈ taken → ∃ b, (t.modify k (sub n)).get? j = some b ∧
        g j (sub m b) = g j b - if P j then m else 0 := by
      intro j m hmem
      have hne : j ≠ k := by
        intro he
        exact hnot (List.mem_map.mpr ⟨(j, m), hmem, he⟩)
      obtain ⟨b, hb, hgb⟩ := h j m (List.mem_cons_of_mem _ hmem)
      exact ⟨b, by rw [get?_modify_of_ne _ _ hne, hb], hgb⟩
    have hstep := sum_modify ha (sub n) g
    rw [List.foldl_cons, ih hnd' hrest]
    by_cases hP : P k
    · rw [List.filter_cons_of_pos (by simpa using hP), drawn_cons]
      rw [if_pos hP] at hg
      omega
    · rw [List.filter_cons_of_neg (by simpa using hP)]
      rw [if_neg hP] at hg
      omega

/-- A measure that sees each row give its amount is lowered by all that was drawn. -/
theorem sum_drain {g : ℕ → α → ℤ} (hnd : (taken.map Prod.fst).Nodup)
    (h : ∀ k n, (k, n) ∈ taken → ∃ a, t.get? k = some a ∧ g k (sub n a) = g k a - n) :
    (t.drain sub taken).sum g = t.sum g - drawn taken := by
  have hall := @sum_drain_filter _ t sub taken g (fun _ => True) _ hnd fun k n hkn => by
    obtain ⟨a, ha, hg⟩ := h k n hkn
    exact ⟨a, ha, hg.trans (by rw [if_pos trivial])⟩
  rwa [List.filter_eq_self.mpr fun _ _ => decide_eq_true trivial] at hall

end Table
end Store
