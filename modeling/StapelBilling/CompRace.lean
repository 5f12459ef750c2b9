import StapelBilling.Homes
import StapelBilling.CompPeriods

/-! # Comp time given twice

Several operators extend one subscription at once.  Each call reads whether there is a window,
then whether a comp bundle is alive, and writes in a transaction of its own; nothing holds the
subscription in between.

* `CompRace.step`: one step of one call.
* `CompRace.Alone`: the invariant, that no two calls are past the guard.
* `one_window_of_checks_alone`: one window at most, where every guard is read while no other
  call is on its way to its write and the window of an earlier one is still ahead.
* `two_windows`: two calls that read before either writes.
-/
namespace StapelBilling
open Store

/-! ## The race -/

/-- How far a call has come; `now` is the moment it began. -/
inductive ExtendStage
  | called
  | guarded (now : Time) (preview : CompPeriodPreview)
  | priced (now : Time) (preview : CompPeriodPreview)
  | ended (answer : Except ExtendError CompPeriodPreview)

/-- The database, and every call. -/
structure CompRace where
  db : Db
  stage : ℕ → ExtendStage

namespace CompRace

/-- Before the first step of any call. -/
def start (db : Db) : CompRace := ⟨db, fun _ => .called⟩

/-- Call `i` moves on. -/
def move (race : CompRace) (i : ℕ) (stage : ExtendStage) : CompRace :=
  { race with stage := Function.update race.stage i stage }

/-- The write of call `i`, rolled back where it fails. -/
def write (env : Env) (now : Time) (args : ExtendArgs) (preview : CompPeriodPreview) (i : ℕ)
    (race : CompRace) : CompRace :=
  match writeExtension env now args preview race.db with
  | .error e => race.move i (.ended (.error e))
  | .ok (written, db) => { race with db }.move i (.ended (.ok written))

/-- **One step of one call**: its guard, its look at the bundles, or its write. -/
def step (calls : ℕ → ExtendArgs) (env : Env) (i : ℕ) (race : CompRace) : CompRace :=
  match race.stage i with
  | .called =>
    match previewExtension env ((calls i).now.getD env.now) (calls i) race.db with
    | .error e => race.move i (.ended (.error e))
    | .ok preview => race.move i (.guarded ((calls i).now.getD env.now) preview)
  | .guarded now preview => race.move i (.priced now (previewBundle env now (calls i) preview race.db))
  | .priced now preview => race.write env now (calls i) preview i
  | .ended _ => race

end CompRace

/-- A schedule: whose step comes next, and when. -/
def raceStep (calls : ℕ → ExtendArgs) (c : Env × ℕ) (race : CompRace) : Except ExtendError CompRace :=
  .ok (race.step calls c.1 c.2)

/-- Is a call between its guard and its write? -/
def ExtendStage.isUnderway : ExtendStage → Bool
  | .guarded _ _ | .priced _ _ => true
  | _ => false

/-- Did a call write its window? -/
def ExtendStage.hasWritten : ExtendStage → Bool
  | .ended (.ok _) => true
  | _ => false

/-- **One window at most**: no two calls write, what ends besides the one that wrote ends in an
error, and over the database before there is one window more at most and one lot. -/
structure CompRace.OneWindow (before : Db) (race : CompRace) : Prop where
  alone : ∀ i j, (race.stage i).hasWritten = true → (race.stage j).hasWritten = true → i = j
  others : ∀ i, (race.stage i).hasWritten = true → ∀ j answer, j ≠ i →
    race.stage j = .ended answer → ∃ e, answer = .error e
  windows : race.db.compPeriods.next ≤ before.compPeriods.next + 1
  lots : race.db.lots.next ≤ before.lots.next + 1

/-- **The guard is read alone**: where this step is a guard, no other call is between its guard
and its write, and every window written since the start is still ahead. -/
def CompRace.ChecksAlone (calls : ℕ → ExtendArgs) (before : Db) (c : Env × ℕ) (race : CompRace) : Prop :=
  race.stage c.2 = .called → (∀ j, (race.stage j).isUnderway = false) ∧
    ∀ k comp, before.compPeriods.next ≤ k → race.db.compPeriods.get? k = some comp →
      (calls c.2).now.getD c.1.now < comp.endsAt

/-! ## What each step does -/

section Steps
variable {env : Env} {args : ExtendArgs} {now : Time} {preview written : CompPeriodPreview}
  {db db' : Db} {s : ℕ}

/-- A window that is ahead stops an unstacked extension. -/
theorem previewExtension_stops (hstack : args.stack = false) {k : ℕ} {comp : CompPeriod}
    (hk : db.compPeriods.get? k = some comp) (hahead : comp.Ahead args.subscription now) :
    ∃ e, previewExtension env now args db = .error e := by
  obtain ⟨r, hr⟩ : ∃ r, latestCompPeriod args.subscription now db = some r := by
    refine Option.ne_none_iff_exists'.mp fun hnone => ?_
    have hempty := List.head?_eq_none_iff.mp hnone
    rw [orderBy_eq_nil_iff] at hempty
    have hmem : (k, comp) ∈ db.compPeriods.select (CompPeriod.Ahead args.subscription now) :=
      Table.mem_select.mpr ⟨hk, hahead⟩
    rw [hempty] at hmem
    cases hmem
  unfold previewExtension
  cases checkExtend env args with
  | error e => exact ⟨e, rfl⟩
  | ok entry =>
    simp only [hr, hstack, Bool.false_eq_true, if_false]
    exact ⟨_, rfl⟩

/-- A credit writes no window, leaves the subscriptions alone and makes one lot at most. -/
theorem credit_windows {args : CreditArgs} {t : ℕ} (h : credit env args db = .ok (t, db')) :
    db'.compPeriods = db.compPeriods ∧ db'.lots.next ≤ db.lots.next + 1 := by
  refine ⟨?_, ?_⟩
  · refine Moves.invariant (I := fun d => d.compPeriods = db.compPeriods) ?_ (credit_moves h) rfl
    rintro m db₁ db₂ hm hI hs
    cases hs with
    | openWallet _ _ | sync | expire _ _ _ | grant _ _ | collect _ _ _ _ _ _ _ => exact hI
    | _ => exact hm.elim
  · obtain ⟨w, db₁, hlock, -, -, hcase⟩ := credit_cases h
    have hlocked : db₁.lots = db.lots := by
      rcases lockWallet_cases hlock with ⟨rfl, -⟩ | ⟨-, rfl, -⟩
      · rfl
      · rfl
    rcases hcase with ⟨row, -, rfl⟩ | ⟨-, -, hcase⟩
    · rw [hlocked]
      omega
    · have hgranted : (grant env w args (db₁.swept env w)).lots.next = db.lots.next + 1 := by
        rw [← hlocked, ← @expireDueLots_lots_next env w db₁]
        rfl
      rcases hcase with ⟨-, rfl⟩ | ⟨-, n, hsettle⟩
      · omega
      · have hcollected : db'.lots.next = (grant env w args (db₁.swept env w)).lots.next := by
          refine Moves.invariant (I := fun d => d.lots.next = (grant env w args
            (db₁.swept env w)).lots.next) ?_ (settleDebts_ok (P := fun m =>
              ∃ k debt amount taken, m = .collect k debt amount taken)
              (fun k debt amount taken => ⟨k, debt, amount, taken, rfl⟩) hsettle) rfl
          rintro m db₂ db₃ ⟨k, debt, amount, taken, rfl⟩ hI hs
          cases hs with
          | collect _ _ _ _ _ _ _ => exact (Table.next_drain _ _ _).trans hI
        omega

/-- **A write** adds its window, which is not withdrawn, and one lot at most. -/
theorem writeExtension_adds (h : writeExtension env now args preview db = .ok (written, db')) :
    ∃ comp, db'.compPeriods = db.compPeriods.insert comp ∧ comp.subscription = args.subscription ∧
      comp.revokedAt = none ∧ db'.lots.next ≤ db.lots.next + 1 := by
  have hannounced : ∀ d : Db, (announceComp env now args.sub preview.endsAt d).compPeriods =
      d.compPeriods ∧ (announceComp env now args.sub preview.endsAt d).lots = d.lots := by
    intro d
    unfold announceComp
    split
    · exact ⟨rfl, rfl⟩
    · exact ⟨rfl, rfl⟩
  have hbundle : ∀ {comp : ℕ} {d d' : Db} {txn : Option ℕ},
      grantCompBundle env args preview comp d = .ok (txn, d') →
        d'.compPeriods = d.compPeriods ∧ d'.lots.next ≤ d.lots.next + 1 := by
    intro comp d d' txn hgrant
    unfold grantCompBundle at hgrant
    split at hgrant
    · split at hgrant
      · rw [← (Prod.mk.inj (Except.ok.inj hgrant)).2]
        exact ⟨rfl, by omega⟩
      · split at hgrant
        · cases hgrant
        · rename_i hcredit
          rw [← (Prod.mk.inj (Except.ok.inj hgrant)).2]
          exact credit_windows hcredit
    · rw [← (Prod.mk.inj (Except.ok.inj hgrant)).2]
      exact ⟨rfl, by omega⟩
  unfold writeExtension at h
  split at h
  · cases h
  · dsimp only at h
    split at h
    · cases h
    · rename_i txn granted hgrant
      obtain ⟨hwindows, hlots⟩ := hbundle hgrant
      rw [← (Prod.mk.inj (Except.ok.inj h)).2, (hannounced granted).1, (hannounced granted).2]
      exact ⟨_, hwindows, rfl, rfl, hlots⟩

end Steps

/-! ## The invariant -/

/-- Is a call past its guard, underway or done? -/
def ExtendStage.Engaged (stage : ExtendStage) : Prop :=
  stage.isUnderway = true ∨ stage.hasWritten = true

/-- **No two calls are past the guard**, and the windows and lots are those from before, with
those of the one that wrote. -/
structure CompRace.Alone (s : ℕ) (before : Db) (race : CompRace) : Prop where
  engaged : ∀ i j, (race.stage i).Engaged → (race.stage j).Engaged → i = j
  quiet : (∀ i, (race.stage i).hasWritten = false) →
    race.db.compPeriods = before.compPeriods ∧ race.db.lots.next = before.lots.next
  written : ∀ i, (race.stage i).hasWritten = true → ∃ comp,
    race.db.compPeriods = before.compPeriods.insert comp ∧ comp.subscription = s ∧
      comp.revokedAt = none ∧ race.db.lots.next ≤ before.lots.next + 1

namespace CompRace
variable {s : ℕ} {before : Db} {race : CompRace} {calls : ℕ → ExtendArgs} {env : Env} {i : ℕ}

theorem start_alone (s : ℕ) (before : Db) : (start before).Alone s before where
  engaged := by
    rintro i j (hi | hi) -
    · cases hi
    · cases hi
  quiet := fun _ => ⟨rfl, rfl⟩
  written := fun i hi => by cases hi

/-- A call that has not written and does not write now moves on; to get past the guard it has
to be alone. -/
theorem Alone.move (h : race.Alone s before) {stage : ExtendStage}
    (hold : (race.stage i).hasWritten = false) (hnew : stage.hasWritten = false)
    (halone : stage.isUnderway = true → ∀ j, j ≠ i → ¬ (race.stage j).Engaged) :
    (race.move i stage).Alone s before := by
  have hother : ∀ {j}, j ≠ i → (race.move i stage).stage j = race.stage j := fun hj =>
    Function.update_of_ne hj _ _
  have hself : (race.move i stage).stage i = stage := Function.update_self _ _ _
  have hwritten : ∀ j, ((race.move i stage).stage j).hasWritten = (race.stage j).hasWritten := by
    intro j
    by_cases hj : j = i
    · rw [hj, hself, hold, hnew]
    · rw [hother hj]
  have hmoved : ((race.move i stage).stage i).Engaged → stage.isUnderway = true := by
    rw [hself]
    rintro (hunder | hwrote)
    · exact hunder
    · rw [hnew] at hwrote
      cases hwrote
  refine ⟨fun j k hj hk => ?_, fun hnone => h.quiet fun j => hwritten j ▸ hnone j,
    fun j hj => h.written j (hwritten j ▸ hj)⟩
  by_cases hji : j = i
  · by_cases hki : k = i
    · rw [hji, hki]
    · rw [hji] at hj
      rw [hother hki] at hk
      exact absurd hk (halone (hmoved hj) k hki)
  · by_cases hki : k = i
    · rw [hki] at hk
      rw [hother hji] at hj
      exact absurd hj (halone (hmoved hk) j hji)
    · rw [hother hji] at hj
      rw [hother hki] at hk
      exact h.engaged j k hj hk

/-- Where one call is past the guard, nobody else has written. -/
theorem Alone.others (h : race.Alone s before) (hi : (race.stage i).Engaged) :
    ∀ j, j ≠ i → ¬ (race.stage j).Engaged := fun j hj hengaged => hj (h.engaged j i hengaged hi)

/-- **A write by the only call past its guard.** -/
theorem Alone.write (h : race.Alone (calls i).subscription before) {now : Time}
    {preview : CompPeriodPreview} (hi : race.stage i = .priced now preview) :
    (race.write env now (calls i) preview i).Alone (calls i).subscription before := by
  have hengaged : (race.stage i).Engaged := by
    rw [hi]
    exact Or.inl rfl
  have hunwritten : (race.stage i).hasWritten = false := by rw [hi]; rfl
  unfold CompRace.write
  cases hwrite : writeExtension env now (calls i) preview race.db with
  | error e => exact h.move hunwritten rfl fun hunder => by cases hunder
  | ok p =>
    obtain ⟨written, db⟩ := p
    have hnobody : ∀ j, (race.stage j).hasWritten = false := by
      intro j
      by_cases hj : j = i
      · rw [hj, hunwritten]
      · by_contra hwrote
        exact h.others hengaged j hj (Or.inr (Bool.not_eq_false _ ▸ hwrote))
    obtain ⟨hwindows, hlots⟩ := h.quiet hnobody
    obtain ⟨comp, hcomp, hsub, hrevoked, hone⟩ := writeExtension_adds hwrite
    have hself : ({ race with db }.move i (.ended (.ok written))).stage i = .ended (.ok written) :=
      Function.update_self _ _ _
    have hother : ∀ {j}, j ≠ i → ({ race with db }.move i (.ended (.ok written))).stage j =
        race.stage j := fun hj => Function.update_of_ne hj _ _
    have honly : ∀ j, (({ race with db }.move i (.ended (.ok written))).stage j).Engaged → j = i := by
      intro j hj
      by_contra hji
      rw [hother hji] at hj
      exact h.others hengaged j hji hj
    refine ⟨fun j k hj hk => (honly j hj).trans (honly k hk).symm, fun hnone => ?_, fun _ _ => ?_⟩
    · have hwrote := hnone i
      rw [hself] at hwrote
      cases hwrote
    · refine ⟨comp, ?_, hsub, hrevoked, ?_⟩
      · rw [← hwindows]
        exact hcomp
      · rw [← hlots]
        exact hone

/-- **One step keeps the calls apart**, where its guard is read alone. -/
theorem Alone.step (h : race.Alone s before) (hcalls : ∀ i, (calls i).subscription = s)
    (hstack : ∀ i, (calls i).stack = false) (hchecks : ChecksAlone calls before (env, i) race) :
    (race.step calls env i).Alone s before := by
  unfold CompRace.step
  cases hi : race.stage i with
  | called =>
    have hunwritten : (race.stage i).hasWritten = false := by rw [hi]; rfl
    dsimp only
    cases hguard : previewExtension env ((calls i).now.getD env.now) (calls i) race.db with
    | error e => exact h.move hunwritten rfl fun hunder => by cases hunder
    | ok preview =>
      refine h.move hunwritten rfl fun _ j hj hengaged => ?_
      obtain ⟨hnobody, hopen⟩ := hchecks hi
      rcases hengaged with hunder | hwrote
      · rw [hnobody j] at hunder
        cases hunder
      · -- a window that was written would have stopped the guard
        obtain ⟨comp, hwindows, hsub, hrevoked, -⟩ := h.written j hwrote
        have hcomp : race.db.compPeriods.get? before.compPeriods.next = some comp := by
          rw [hwindows]
          exact Table.get?_insert_next _ _
        have hahead : comp.Ahead (calls i).subscription ((calls i).now.getD env.now) :=
          ⟨hsub.trans (hcalls i).symm, hrevoked, hopen _ comp le_rfl hcomp⟩
        obtain ⟨e, he⟩ := @previewExtension_stops env _ _ _ (hstack i) _ _ hcomp hahead
        rw [hguard] at he
        cases he
  | guarded now preview =>
    have hengaged : (race.stage i).Engaged := by
      rw [hi]
      exact Or.inl rfl
    exact h.move (by rw [hi]; rfl) rfl fun _ => h.others hengaged
  | priced now preview =>
    have hwrite := hcalls i ▸ h
    exact hcalls i ▸ hwrite.write hi
  | ended answer => exact h

theorem Alone.oneWindow (h : race.Alone s before) : race.OneWindow before := by
  have hone : race.db.compPeriods.next ≤ before.compPeriods.next + 1 ∧
      race.db.lots.next ≤ before.lots.next + 1 := by
    by_cases hwrote : ∃ i, (race.stage i).hasWritten = true
    · obtain ⟨i, hi⟩ := hwrote
      obtain ⟨comp, hwindows, -, -, hlots⟩ := h.written i hi
      rw [hwindows]
      exact ⟨le_rfl, hlots⟩
    · obtain ⟨hwindows, hlots⟩ := h.quiet fun i => Bool.eq_false_iff.mpr fun hi => hwrote ⟨i, hi⟩
      rw [hwindows, hlots]
      exact ⟨by omega, by omega⟩
  refine ⟨fun i j hi hj => h.engaged i j (Or.inr hi) (Or.inr hj), fun i hi j answer hj hended => ?_,
    hone.1, hone.2⟩
  cases answer with
  | error e => exact ⟨e, rfl⟩
  | ok written =>
    have hengaged : (race.stage j).Engaged := by
      rw [hended]
      exact Or.inr rfl
    exact absurd (h.engaged j i hengaged (Or.inr hi)) hj

end CompRace

/-- **One window at most**, however many extensions of a subscription run at once and however
their steps are ordered, where every guard is read while no other call is between its guard and
its write and every window written since the start is still ahead. -/
theorem one_window_of_checks_alone {s : ℕ} {calls : ℕ → ExtendArgs}
    (hcalls : ∀ i, (calls i).subscription = s ∧ (calls i).apply = true ∧ (calls i).stack = false)
    {db : Db} {schedule : List (Env × ℕ)}
    (hchecks : ∀ p ∈ trace (raceStep calls) schedule (CompRace.start db),
      CompRace.ChecksAlone calls db p.1 p.2) (n : ℕ) :
    (run (raceStep calls) (schedule.take n) (CompRace.start db)).OneWindow db := by
  refine CompRace.Alone.oneWindow (s := s) ?_
  refine run_take_invariant (I := CompRace.Alone s db) (fun c race hrace hchecks => ?_)
    (CompRace.start_alone s db) hchecks n
  exact hrace.step (fun i => (hcalls i).1) (fun i => (hcalls i).2.2) hchecks

/-- An account on no plan. -/
def plainAccount : Db :=
  { users := [1]
    wallets := Table.empty.insert { user := some 1 }
    subscriptions := Table.empty.insert { user := some 1 } }

/-- A month of `pro` with its bundle, asked for by one of two operators. -/
def monthOfPro (_ : ℕ) : ExtendArgs :=
  { subscription := 0
    sub := { user := some 1 }
    days := some 30
    reason := "outage"
    plan := some "pro"
    grantBundle := true
    apply := true }

/-- Three steps of the first operator. -/
def firstOperator : List (Env × ℕ) := [(Env.plain 0, 0), (Env.plain 0, 0), (Env.plain 0, 0)]

theorem one_window_of_checks_alone_first : (run (raceStep monthOfPro) (firstOperator.take 3)
    (CompRace.start plainAccount)).OneWindow plainAccount := by
  refine one_window_of_checks_alone (s := 0) (fun _ => ⟨rfl, rfl, rfl⟩) ?_ 3
  have hguarded : ((run (raceStep monthOfPro) (firstOperator.take 1)
      (CompRace.start plainAccount)).stage 0).isUnderway = true := by decide +kernel
  have hpriced : ((run (raceStep monthOfPro) (firstOperator.take 2)
      (CompRace.start plainAccount)).stage 0).isUnderway = true := by decide +kernel
  refine List.forall_mem_cons.mpr ⟨fun _ => ⟨fun _ => rfl, fun k comp _ hk => by cases hk⟩,
    List.forall_mem_cons.mpr ⟨fun hcalled => ?_, List.forall_mem_singleton.mpr fun hcalled => ?_⟩⟩
  · exact absurd (hguarded.symm.trans (congrArg ExtendStage.isUnderway hcalled)) (by decide)
  · exact absurd (hpriced.symm.trans (congrArg ExtendStage.isUnderway hcalled)) (by decide)

/-- **Two operators, two windows**: both read the guard and the bundles before either writes. -/
theorem two_windows : ∃ schedule : List (Env × ℕ),
    (run (raceStep monthOfPro) schedule (CompRace.start plainAccount)).db.compPeriods.next = 2 ∧
      (run (raceStep monthOfPro) schedule (CompRace.start plainAccount)).db.lots.next = 2 ∧
      ¬ (run (raceStep monthOfPro) schedule (CompRace.start plainAccount)).OneWindow plainAccount := by
  have hwindows : (run (raceStep monthOfPro) ([0, 1, 0, 1, 0, 1].map fun i => (Env.plain 0, i))
      (CompRace.start plainAccount)).db.compPeriods.next = 2 := by decide +kernel
  refine ⟨[0, 1, 0, 1, 0, 1].map fun i => (Env.plain 0, i), hwindows, by decide +kernel, fun hone => ?_⟩
  have hle := hone.windows
  rw [hwindows] at hle
  exact absurd hle (by decide)

end StapelBilling
