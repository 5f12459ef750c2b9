import Mathlib.Order.WithBot
import Mathlib.Data.List.Induction

/-! # The newest event wins

A state carries the rank of the newest event it has taken up; an event of lower rank is
dropped, one of equal or higher rank replaces what was there.  Deliveries in any order, with
any repetition, end where the last delivery of the highest rank left the state.
-/
namespace Store

variable {σ ε κ : Type} [LinearOrder κ]

/-- One delivery takes up an event that is not older than the state and drops an older
one. -/
structure TakesUp (clock : σ → WithBot κ) (rank : ε → κ) (receive : σ → ε → σ) (e : ε) : Prop where
  accepts : ∀ s, clock s ≤ rank e → clock (receive s e) = rank e
  drops : ∀ s, ¬ clock s ≤ rank e → receive s e = s

variable {clock : σ → WithBot κ} {rank : ε → κ} {receive : σ → ε → σ}

theorem TakesUp.clock_le {e : ε} (h : TakesUp clock rank receive e) (s : σ) :
    clock s ≤ clock (receive s e) ∧ (rank e : WithBot κ) ≤ clock (receive s e) := by
  by_cases hle : clock s ≤ rank e
  · rw [h.accepts s hle]
    exact ⟨hle, le_rfl⟩
  · rw [h.drops s hle]
    exact ⟨le_rfl, (not_le.mp hle).le⟩

/-- No delivery moves the clock back. -/
theorem TakesUp.le_foldl {s : σ} {events : List ε} (h : ∀ e ∈ events, TakesUp clock rank receive e) :
    clock s ≤ clock (events.foldl receive s) := by
  induction events generalizing s with
  | nil => exact le_rfl
  | cons e events ih =>
    exact ((h e List.mem_cons_self).clock_le s).1.trans
      (ih fun d hd => h d (List.mem_cons_of_mem _ hd))

/-- A list has one place after which neither of two elements of it comes again. -/
theorem split_unique {x y : ε} {before after before' after' : List ε}
    (h : before ++ x :: after = before' ++ y :: after') (hx : x ∉ after') (hy : y ∉ after) :
    x = y := by
  rcases List.append_eq_append_iff.mp h with ⟨c, -, hc⟩ | ⟨c, -, hc⟩
  · cases c with
    | nil => exact (List.cons.inj hc).1
    | cons z c =>
      obtain ⟨-, htail⟩ := List.cons.inj hc
      exact absurd (by rw [htail]; exact List.mem_append_right _ List.mem_cons_self) hy
  · cases c with
    | nil => exact (List.cons.inj hc).1.symm
    | cons z c =>
      obtain ⟨-, htail⟩ := List.cons.inj hc
      exact absurd (by rw [htail]; exact List.mem_append_right _ List.mem_cons_self) hx

/-- **The newest-event rule.**  After any deliveries either all of them were older than the
state, and it is what it was, or it is what the last delivery of the highest rank made of
the state before it. -/
theorem foldl_newest {s : σ} {events : List ε} (h : ∀ e ∈ events, TakesUp clock rank receive e) :
    (events.foldl receive s = s ∧ ∀ e ∈ events, (rank e : WithBot κ) < clock s) ∨
    ∃ before e after, events = before ++ e :: after ∧
      clock (before.foldl receive s) ≤ rank e ∧
      (∀ d ∈ events, rank d ≤ rank e) ∧ (∀ d ∈ after, rank d < rank e) ∧
      events.foldl receive s = receive (before.foldl receive s) e := by
  induction events using List.reverseRecOn with
  | nil => exact Or.inl ⟨rfl, fun _ h => absurd h List.not_mem_nil⟩
  | append_singleton events d ih =>
    have hd : TakesUp clock rank receive d := h d (List.mem_append_right _ List.mem_cons_self)
    rw [List.foldl_append, List.foldl_cons, List.foldl_nil]
    rcases ih fun e he => h e (List.mem_append_left _ he) with
      ⟨hsame, hold⟩ | ⟨before, e, after, rfl, hclock, hmax, hafter, hend⟩
    · rw [hsame]
      by_cases hle : clock s ≤ rank d
      · -- The first event that is taken up.
        refine Or.inr ⟨events, d, [], rfl, by rw [hsame]; exact hle, fun b hb => ?_,
          fun _ hb => absurd hb List.not_mem_nil, by rw [hsame]⟩
        rcases List.mem_append.mp hb with hb | hb
        · exact WithBot.coe_le_coe.mp ((hold b hb).le.trans hle)
        · rw [List.mem_singleton.mp hb]
      · refine Or.inl ⟨hd.drops s hle, fun b hb => ?_⟩
        rcases List.mem_append.mp hb with hb | hb
        · exact hold b hb
        · rw [List.mem_singleton.mp hb]
          exact not_le.mp hle
    · have he : TakesUp clock rank receive e :=
        h e (List.mem_append_left _ (List.mem_append_right _ List.mem_cons_self))
      rw [hend]
      have hnow := he.accepts _ hclock
      by_cases hle : clock (receive (before.foldl receive s) e) ≤ rank d
      · rw [hnow, WithBot.coe_le_coe] at hle
        refine Or.inr ⟨before ++ e :: after, d, [], rfl, ?_, fun b hb => ?_,
          fun _ hb => absurd hb List.not_mem_nil, ?_⟩
        · rw [hend, hnow, WithBot.coe_le_coe]
          exact hle
        · rcases List.mem_append.mp hb with hb | hb
          · exact (hmax b hb).trans hle
          · rw [List.mem_singleton.mp hb]
        · rw [hend]
      · rw [hd.drops _ hle]
        rw [hnow, WithBot.coe_le_coe, not_le] at hle
        refine Or.inr ⟨before, e, after ++ [d], by rw [List.append_assoc]; rfl, hclock,
          fun b hb => ?_, fun b hb => ?_, rfl⟩
        · rcases List.mem_append.mp hb with hb | hb
          · exact hmax b hb
          · rw [List.mem_singleton.mp hb]
            exact hle.le
        · rcases List.mem_append.mp hb with hb | hb
          · exact hafter b hb
          · rw [List.mem_singleton.mp hb]
            exact hle

end Store
