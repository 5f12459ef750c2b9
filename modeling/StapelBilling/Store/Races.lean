import Mathlib.Logic.Function.Basic
import Mathlib.Data.List.Basic

/-! # Transactions that read, then write

A transaction reads a shared value, decides on what it read, and later writes over whatever
the value has become.  Nothing keeps two of them apart: their steps interleave freely.
-/
namespace Store

/-! ## Interleavings -/

/-- `zs` takes the steps of `xs` and of `ys`, each in its own order. -/
inductive Interleaving {α : Type} : List α → List α → List α → Prop
  | nil : Interleaving [] [] []
  | left {x : α} {xs ys zs : List α} (h : Interleaving xs ys zs) :
      Interleaving (x :: xs) ys (x :: zs)
  | right {y : α} {xs ys zs : List α} (h : Interleaving xs ys zs) :
      Interleaving xs (y :: ys) (y :: zs)

namespace Interleaving
variable {α : Type} {xs ys zs : List α}

theorem swap (h : Interleaving xs ys zs) : Interleaving ys xs zs := by
  induction h with
  | nil => exact nil
  | left _ ih => exact ih.right
  | right _ ih => exact ih.left

theorem nil_left (h : Interleaving [] ys zs) : zs = ys := by
  induction ys generalizing zs with
  | nil =>
    cases h
    rfl
  | cons y ys ih =>
    cases h with
    | right h' => rw [ih h']

theorem nil_right (h : Interleaving xs [] zs) : zs = xs := h.swap.nil_left

/-- An interleaving has no steps of its own. -/
theorem mem {a : α} (h : Interleaving xs ys zs) (ha : a ∈ zs) : a ∈ xs ∨ a ∈ ys := by
  induction h with
  | nil => exact Or.inl ha
  | left _ ih =>
    rcases List.mem_cons.mp ha with rfl | ha
    · exact Or.inl List.mem_cons_self
    · exact (ih ha).imp_left (List.mem_cons_of_mem _)
  | right _ ih =>
    rcases List.mem_cons.mp ha with rfl | ha
    · exact Or.inr List.mem_cons_self
    · exact (ih ha).imp_right (List.mem_cons_of_mem _)

/-- **Two steps against two steps** interleave in six ways. -/
theorem pairs {a b c d : α} (h : Interleaving [a, b] [c, d] zs) :
    zs = [a, b, c, d] ∨ zs = [a, c, b, d] ∨ zs = [a, c, d, b] ∨ zs = [c, a, b, d] ∨
      zs = [c, a, d, b] ∨ zs = [c, d, a, b] := by
  cases h with
  | left h =>
    cases h with
    | left h => exact Or.inl (by rw [h.nil_left])
    | right h =>
      cases h with
      | left h => exact Or.inr (Or.inl (by rw [h.nil_left]))
      | right h => exact Or.inr (Or.inr (Or.inl (by rw [h.nil_right])))
  | right h =>
    cases h with
    | left h =>
      cases h with
      | left h => exact Or.inr (Or.inr (Or.inr (Or.inl (by rw [h.nil_left]))))
      | right h => exact Or.inr (Or.inr (Or.inr (Or.inr (Or.inl (by rw [h.nil_right])))))
    | right h => exact Or.inr (Or.inr (Or.inr (Or.inr (Or.inr (by rw [h.nil_right])))))

end Interleaving

/-! ## Reads and writes -/

/-- A step of one of the transactions. -/
inductive Access (ι : Type)
  | read (i : ι)
  | write (i : ι)
  deriving DecidableEq

/-- The shared value, and what each transaction has read of it. -/
structure Shared (ι σ : Type) where
  value : σ
  seen : ι → Option σ

section Runs
variable {ι σ : Type} [DecidableEq ι]

/-- Before any step. -/
def Shared.start (s : σ) : Shared ι σ := ⟨s, fun _ => none⟩

/-- One step: a read remembers the value, and a write puts over the present value what the
transaction made of the one it read. -/
def Access.step (patch : ι → σ → σ → σ) (shared : Shared ι σ) : Access ι → Shared ι σ
  | .read i => { shared with seen := Function.update shared.seen i (some shared.value) }
  | .write i =>
    match shared.seen i with
    | none => shared
    | some old => { shared with value := patch i old shared.value }

/-- The value after a schedule. -/
def outcome (patch : ι → σ → σ → σ) (schedule : List (Access ι)) (s : σ) : σ :=
  (schedule.foldl (Access.step patch) (Shared.start s)).value

/-- Both transactions read before either writes, and `i` writes last. -/
def Overwrites (i j : ι) (schedule : List (Access ι)) : Prop :=
  schedule = [.read i, .read j, .write j, .write i] ∨
    schedule = [.read j, .read i, .write j, .write i]

variable {patch : ι → σ → σ → σ} {i j : ι} {schedule : List (Access ι)}

/-- **What is read before the other writes and written after it** is put over the other's
value. -/
theorem outcome_of_overwrites (hij : i ≠ j) (h : Overwrites i j schedule) (s : σ) :
    outcome patch schedule s = patch i s (patch j s s) := by
  rcases h with rfl | rfl <;>
    simp [outcome, Access.step, Shared.start, Function.update_of_ne hij,
      Function.update_of_ne hij.symm]

/-- **Otherwise** the two run one after the other, or it is `j` that writes last. -/
theorem outcome_of_not_overwrites (patch : ι → σ → σ → σ) (hij : i ≠ j)
    (h : Interleaving [.read i, .write i] [.read j, .write j] schedule)
    (hnot : ¬ Overwrites i j schedule) (s : σ) :
    outcome patch schedule s = patch j (patch i s s) (patch i s s) ∨
      outcome patch schedule s = patch i (patch j s s) (patch j s s) ∨
      outcome patch schedule s = patch j s (patch i s s) := by
  rcases h.pairs with rfl | rfl | rfl | rfl | rfl | rfl
  · refine Or.inl ?_
    simp [outcome, Access.step, Shared.start]
  · refine Or.inr (Or.inr ?_)
    simp [outcome, Access.step, Shared.start, Function.update_of_ne hij]
  · exact absurd (Or.inl rfl) hnot
  · refine Or.inr (Or.inr ?_)
    simp [outcome, Access.step, Shared.start, Function.update_of_ne hij.symm]
  · exact absurd (Or.inr rfl) hnot
  · refine Or.inr (Or.inl ?_)
    simp [outcome, Access.step, Shared.start]

end Runs
end Store
