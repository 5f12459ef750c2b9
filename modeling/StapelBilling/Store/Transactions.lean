import Mathlib

/-! # Transactions that commit or roll back

A call on a store either succeeds with the next state or fails, and a failed
call leaves the state it found: `commit`.  A serial run is a list of calls, each
committed or rolled back before the next (`run`).  The rules below are the
ones every statement about runs is proved with: an invariant that each
successful call keeps holds after the run, one that each keeps under a guard holds
throughout exactly when the guards are met, and a reflexive and transitive
relation that each successful call respects relates the run's two ends.  The
`trace` of a run pairs every call with the state it met.
-/
namespace Store
variable {σ ε κ : Type}

/-- The state after one call: its result if it succeeds, the old state if not. -/
def commit (exec : σ → Except ε σ) (s : σ) : σ :=
  match exec s with
  | .ok s' => s'
  | .error _ => s

theorem commit_ok {exec : σ → Except ε σ} {s s' : σ} (h : exec s = .ok s') :
    commit exec s = s' := by
  simp [commit, h]

theorem commit_error {exec : σ → Except ε σ} {s : σ} {e : ε} (h : exec s = .error e) :
    commit exec s = s := by
  simp [commit, h]

/-- The state after a list of calls, each a transaction of its own. -/
def run (exec : κ → σ → Except ε σ) (calls : List κ) (s : σ) : σ :=
  calls.foldl (fun s c => commit (exec c) s) s

variable {exec : κ → σ → Except ε σ}

@[simp] theorem run_nil (s : σ) : run exec [] s = s := rfl

@[simp] theorem run_cons (c : κ) (calls : List κ) (s : σ) :
    run exec (c :: calls) s = run exec calls (commit (exec c) s) := rfl

theorem run_append (cs ds : List κ) (s : σ) :
    run exec (cs ++ ds) s = run exec ds (run exec cs s) := by
  simp [run]

/-- **The invariant rule.**  An invariant kept by every successful call of the
run holds after it. -/
theorem run_invariant {I : σ → Prop} {calls : List κ} {s : σ}
    (hstep : ∀ c ∈ calls, ∀ s s', I s → exec c s = .ok s' → I s') (hs : I s) :
    I (run exec calls s) := by
  induction calls generalizing s with
  | nil => exact hs
  | cons c calls ih =>
    rw [run_cons]
    refine ih (fun c' hc' => hstep c' (List.mem_cons_of_mem _ hc')) ?_
    cases h : exec c s with
    | ok s' => rw [commit_ok h]; exact hstep c List.mem_cons_self s s' hs h
    | error e => rw [commit_error h]; exact hs

/-- **The relation rule.**  Under an invariant, a reflexive and transitive
relation respected by every successful call relates the ends of the run. -/
theorem run_relation {I : σ → Prop} {R : σ → σ → Prop} {calls : List κ} {s : σ}
    (hrefl : ∀ s, R s s) (htrans : ∀ s t u, R s t → R t u → R s u)
    (hinv : ∀ c ∈ calls, ∀ s s', I s → exec c s = .ok s' → I s')
    (hstep : ∀ c ∈ calls, ∀ s s', I s → exec c s = .ok s' → R s s') (hs : I s) :
    R s (run exec calls s) := by
  induction calls generalizing s with
  | nil => exact hrefl s
  | cons c calls ih =>
    have ih' := @ih (commit (exec c) s) (fun c' hc' => hinv c' (List.mem_cons_of_mem _ hc'))
      (fun c' hc' => hstep c' (List.mem_cons_of_mem _ hc'))
    cases h : exec c s with
    | ok s' =>
      rw [commit_ok h] at ih'
      rw [run_cons, commit_ok h]
      exact htrans _ _ _ (hstep c List.mem_cons_self s s' hs h)
        (ih' (hinv c List.mem_cons_self s s' hs h))
    | error e =>
      rw [commit_error h] at ih'
      rw [run_cons, commit_error h]
      exact ih' hs

/-- **The guard rule.**  Where a successful call keeps an invariant exactly under a guard, the
invariant holds at every moment of a run exactly when each successful call meets its guard. -/
theorem run_always_iff {I : σ → Prop} {G : κ → σ → Prop} {calls : List κ} {s : σ} (hs : I s)
    (hstep : ∀ c ∈ calls, ∀ s s', I s → exec c s = .ok s' → (I s' ↔ G c s)) :
    (∀ n, I (run exec (calls.take n) s)) ↔ ∀ n c s', calls[n]? = some c →
      exec c (run exec (calls.take n) s) = .ok s' → G c (run exec (calls.take n) s) := by
  have hnext : ∀ n c, calls[n]? = some c → run exec (calls.take (n + 1)) s =
      commit (exec c) (run exec (calls.take n) s) := by
    intro n c hc
    rw [List.take_add_one, hc, run_append]
    rfl
  constructor
  · intro h n c s' hc hok
    have hafter := h (n + 1)
    rw [hnext n c hc, commit_ok hok] at hafter
    exact (hstep c (List.mem_of_getElem? hc) _ s' (h n) hok).mp hafter
  · intro h n
    induction n with
    | zero => exact hs
    | succ n ih =>
      cases hc : calls[n]? with
      | none =>
        rw [List.take_add_one, hc, Option.toList_none, List.append_nil]
        exact ih
      | some c =>
        rw [hnext n c hc]
        cases hok : exec c (run exec (calls.take n) s) with
        | ok s' =>
          rw [commit_ok hok]
          exact (hstep c (List.mem_of_getElem? hc) _ s' ih hok).mpr (h n c s' hc hok)
        | error e =>
          rw [commit_error hok]
          exact ih

/-- **The relation rule between two moments** of one run. -/
theorem run_take_relation {R : σ → σ → Prop} {calls : List κ} {s : σ} {m n : ℕ} (hle : m ≤ n)
    (hrefl : ∀ s, R s s) (htrans : ∀ s t u, R s t → R t u → R s u)
    (hstep : ∀ c ∈ calls, ∀ s s', exec c s = .ok s' → R s s') :
    R (run exec (calls.take m) s) (run exec (calls.take n) s) := by
  obtain ⟨d, rfl⟩ := Nat.exists_eq_add_of_le hle
  rw [List.take_add, run_append]
  refine run_relation (I := fun _ => True) hrefl htrans (fun _ _ _ _ _ _ => trivial) ?_ trivial
  exact fun c hc s s' _ h => hstep c (List.mem_of_mem_drop (List.mem_of_mem_take hc)) s s' h

/-- **The clocked rule.**  Under a clock that never goes back, what holds at a moment,
stays so later and is kept by every successful call at its own moment holds after the
run, at any moment not before its last call. -/
theorem run_clocked {T : Type} [Preorder T] {clock : κ → T} {I : T → σ → Prop} {calls : List κ}
    {s : σ} {t u : T} (hlater : ∀ t u s, t ≤ u → I t s → I u s)
    (hstep : ∀ c ∈ calls, ∀ s s', I (clock c) s → exec c s = .ok s' → I (clock c) s')
    (hsorted : calls.Pairwise fun c d => clock c ≤ clock d) (hfrom : ∀ c ∈ calls, t ≤ clock c)
    (hto : ∀ c ∈ calls, clock c ≤ u) (htu : t ≤ u) (hs : I t s) : I u (run exec calls s) := by
  induction calls generalizing s t with
  | nil => exact hlater t u s htu hs
  | cons c calls ih =>
    obtain ⟨hhead, htail⟩ := List.pairwise_cons.mp hsorted
    have hnow : I (clock c) s := hlater t _ s (hfrom c List.mem_cons_self) hs
    rw [run_cons]
    refine ih (fun c' hc' => hstep c' (List.mem_cons_of_mem _ hc')) htail hhead
      (fun c' hc' => hto c' (List.mem_cons_of_mem _ hc')) (hto c List.mem_cons_self) ?_
    cases h : exec c s with
    | ok s' =>
      rw [commit_ok h]
      exact hstep c List.mem_cons_self s s' hnow h
    | error e =>
      rw [commit_error h]
      exact hnow

/-- **The last switch.**  A property that a run brings about is brought about by one of its
calls and stays from then on. -/
theorem run_last_switch {P : σ → Prop} {calls : List κ} {s : σ} (hstart : ¬ P s)
    (hend : P (run exec calls s)) : ∃ earlier c later, calls = earlier ++ c :: later ∧
      ¬ P (run exec earlier s) ∧
      ∀ n, P (run exec (later.take n) (commit (exec c) (run exec earlier s))) := by
  induction hlen : calls.length using Nat.strong_induction_on generalizing calls s with
  | _ len ih =>
    cases calls with
    | nil => exact absurd hend hstart
    | cons c calls =>
      by_cases hstays : ∀ n, P (run exec (calls.take n) (commit (exec c) s))
      · exact ⟨[], c, calls, rfl, hstart, hstays⟩
      · -- It fails again somewhere: the last switch is after that.
        obtain ⟨n, hfails⟩ := not_forall.mp hstays
        have hsplit : run exec (calls.drop n) (run exec (calls.take n) (commit (exec c) s)) =
            run exec (c :: calls) s := by
          rw [← run_append, List.take_append_drop]
          rfl
        have hshort : (calls.drop n).length < len := by
          rw [← hlen, List.length_drop, List.length_cons]
          omega
        obtain ⟨earlier, d, later, hcalls, hbefore, hafter⟩ :=
          ih _ hshort hfails (by rw [hsplit]; exact hend) rfl
        have hrun : run exec (c :: (calls.take n ++ earlier)) s =
            run exec earlier (run exec (calls.take n) (commit (exec c) s)) := by
          rw [run_cons, run_append]
        refine ⟨c :: (calls.take n ++ earlier), d, later, ?_, ?_, ?_⟩
        · rw [List.cons_append, List.append_assoc, ← hcalls, List.take_append_drop]
        · rw [hrun]
          exact hbefore
        · rw [hrun]
          exact hafter

/-! ## Traces -/

/-- Every call of a run with the state it met. -/
def trace (exec : κ → σ → Except ε σ) : List κ → σ → List (κ × σ)
  | [], _ => []
  | c :: calls, s => (c, s) :: trace exec calls (commit (exec c) s)

@[simp] theorem trace_nil (s : σ) : trace exec [] s = [] := rfl

@[simp] theorem trace_cons (c : κ) (calls : List κ) (s : σ) :
    trace exec (c :: calls) s = (c, s) :: trace exec calls (commit (exec c) s) := rfl

theorem mem_of_mem_trace {calls : List κ} {s : σ} {p : κ × σ} (h : p ∈ trace exec calls s) :
    p.1 ∈ calls := by
  induction calls generalizing s with
  | nil => cases h
  | cons c calls ih =>
    rcases List.mem_cons.mp h with rfl | h
    · exact List.mem_cons_self
    · exact List.mem_cons_of_mem _ (ih h)

/-- **The prefix rule.**  If a property survives a call exactly when the call meets a
condition, it holds after every prefix of a run exactly when every call of the run
meets the condition. -/
theorem run_prefix_iff {I P : σ → Prop} {Q : κ → σ → Prop} {calls : List κ} {s : σ}
    (hinv : ∀ c ∈ calls, ∀ s, I s → I (commit (exec c) s))
    (hstep : ∀ c ∈ calls, ∀ s, I s → P s → (P (commit (exec c) s) ↔ Q c s)) (hI : I s) (hP : P s) :
    (∀ n, P (run exec (calls.take n) s)) ↔ ∀ p ∈ trace exec calls s, Q p.1 p.2 := by
  induction calls generalizing s with
  | nil =>
    refine iff_of_true (fun n => ?_) fun p hp => absurd hp List.not_mem_nil
    rw [List.take_nil]
    exact hP
  | cons c calls ih =>
    have hhead := hstep c List.mem_cons_self s hI hP
    have hprefixes : (∀ n, P (run exec ((c :: calls).take n) s)) ↔
        ∀ n, P (run exec (calls.take n) (commit (exec c) s)) := by
      constructor
      · exact fun h n => h (n + 1)
      · intro h n
        cases n with
        | zero => exact hP
        | succ n => exact h n
    rw [hprefixes, trace_cons, List.forall_mem_cons]
    by_cases hnext : P (commit (exec c) s)
    · rw [ih (fun c' hc' => hinv c' (List.mem_cons_of_mem _ hc'))
        (fun c' hc' => hstep c' (List.mem_cons_of_mem _ hc')) (hinv c List.mem_cons_self s hI) hnext]
      exact ⟨fun h => ⟨hhead.mp hnext, h⟩, fun h => h.2⟩
    · exact iff_of_false (fun h => hnext (h 0)) fun h => hnext (hhead.mpr h.1)

/-- **The invariant rule for runs whose calls meet a condition.** -/
theorem run_take_invariant {I : σ → Prop} {Q : κ → σ → Prop} {calls : List κ} {s : σ}
    (hstep : ∀ c s, I s → Q c s → I (commit (exec c) s)) (hs : I s)
    (hmeets : ∀ p ∈ trace exec calls s, Q p.1 p.2) (n : ℕ) : I (run exec (calls.take n) s) := by
  induction calls generalizing s n with
  | nil =>
    rw [List.take_nil]
    exact hs
  | cons c calls ih =>
    rw [trace_cons, List.forall_mem_cons] at hmeets
    cases n with
    | zero => exact hs
    | succ n => exact ih (hstep c s hs hmeets.1) hmeets.2 n

/-- **The invariant rule for traces.**  An invariant kept by every successful call
holds of every state a call meets. -/
theorem trace_invariant {I : σ → Prop} {calls : List κ} {s : σ}
    (hstep : ∀ c ∈ calls, ∀ s s', I s → exec c s = .ok s' → I s') (hs : I s) :
    ∀ p ∈ trace exec calls s, I p.2 := by
  induction calls generalizing s with
  | nil => exact fun p hp => absurd hp List.not_mem_nil
  | cons c calls ih =>
    intro p hp
    rcases List.mem_cons.mp hp with rfl | hp
    · exact hs
    · refine ih (fun c' hc' => hstep c' (List.mem_cons_of_mem _ hc')) ?_ p hp
      cases h : exec c s with
      | ok s' => rw [commit_ok h]; exact hstep c List.mem_cons_self s s' hs h
      | error e => rw [commit_error h]; exact hs

end Store
