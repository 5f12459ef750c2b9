import StapelBilling.CarryTime

/-! # What a comp does to the effective plan

The plan that governs is the higher of what the provider and what the best open window
entitle to.  The default plan is not one of the two: it is the answer where there is neither.
One window more can therefore take an account off the default plan for a plan that ranks below
it, and does nothing worse than that.

* `Settings.height`: the rank of a plan, below every rank for one that is not configured.
* `effectivePlan_height`: the effective plan by its height.
* `comp_never_lowers_iff`: one window more, and one window withdrawn.
-/
namespace StapelBilling
open Store

/-! ## Heights -/

/-- Where a plan stands: its rank, and below every rank where it is not configured. -/
def Settings.height (s : Settings) (slug : String) : ℤ := ((s.planRank slug).map Int.ofNat).getD (-1)

theorem outranks_iff {s : Settings} {slug other : String} :
    s.outranks slug other = true ↔ s.height other < s.height slug := by
  unfold Settings.outranks Settings.height
  cases s.planRank slug with
  | none =>
    cases s.planRank other with
    | none => exact iff_of_false Bool.false_ne_true (lt_irrefl _)
    | some base =>
      refine iff_of_false Bool.false_ne_true ?_
      show ¬ (base : ℤ) < -1
      omega
  | some rank =>
    cases s.planRank other with
    | none =>
      refine iff_of_true rfl ?_
      show (-1 : ℤ) < rank
      omega
    | some base =>
      show decide (base < rank) = true ↔ (base : ℤ) < rank
      rw [decide_eq_true_eq]
      omega

/-! ## One window more -/

/-- A database with one window more. -/
def Db.withComp (w : CompPeriod) (db : Db) : Db := { db with compPeriods := db.compPeriods.insert w }

/-- A database in which one window is withdrawn. -/
def Db.revoke (k : ℕ) (t : Time) (db : Db) : Db :=
  { db with compPeriods := db.compPeriods.modify k fun comp => { comp with revokedAt := some t } }

/-- The windows of `db'` that are open are those of `db`, and `w` where it is open. -/
structure Db.OneMore (w : CompPeriod) (db db' : Db) : Prop where
  subscriptions : db'.subscriptions = db.subscriptions
  windows : ∀ s now comp, ((∃ k, db'.compPeriods.get? k = some comp) ∧ comp.Open s now) ↔
    ((∃ k, db.compPeriods.get? k = some comp) ∧ comp.Open s now) ∨ comp = w ∧ w.Open s now

section Ranks
variable {env : Env} {user : UserId} {now : Time} {db db' : Db} {w : CompPeriod} {s : ℕ}

theorem oneMore_withComp (w : CompPeriod) (db : Db) : db.OneMore w (db.withComp w) where
  subscriptions := rfl
  windows := by
    intro s now comp
    constructor
    · rintro ⟨⟨k, hk⟩, hopen⟩
      unfold Db.withComp at hk
      rw [Table.get?_insert] at hk
      split at hk
      · obtain rfl := Option.some.inj hk
        exact Or.inr ⟨rfl, hopen⟩
      · exact Or.inl ⟨⟨k, hk⟩, hopen⟩
    · rintro (⟨⟨k, hk⟩, hopen⟩ | ⟨rfl, hopen⟩)
      · exact ⟨⟨k, Table.get?_insert_of_some _ hk⟩, hopen⟩
      · exact ⟨⟨_, Table.get?_insert_next _ _⟩, hopen⟩

theorem oneMore_revoke {k : ℕ} {t : Time} (hk : db.compPeriods.get? k = some w) :
    (db.revoke k t).OneMore w db where
  subscriptions := rfl
  windows := by
    intro s now comp
    constructor
    · rintro ⟨⟨j, hj⟩, hopen⟩
      by_cases hjk : j = k
      · rw [hjk, hk] at hj
        obtain rfl := Option.some.inj hj
        exact Or.inr ⟨rfl, hopen⟩
      · exact Or.inl ⟨⟨j, (Table.get?_modify_of_ne _ _ hjk).trans hj⟩, hopen⟩
    · rintro (⟨⟨j, hj⟩, hopen⟩ | ⟨rfl, hopen⟩)
      · unfold Db.revoke at hj
        rw [Table.get?_modify] at hj
        split at hj
        · -- a window that was withdrawn is not open
          obtain ⟨old, -, rfl⟩ := Option.map_eq_some_iff.mp hj
          cases hopen.1.2.1
        · exact ⟨⟨j, hj⟩, hopen⟩
      · exact ⟨⟨k, hk⟩, hopen⟩

/-! ## What governs -/

/-- No open window ranks above the one that governs. -/
theorem governing_some {k : ℕ} {best : CompPeriod}
    (h : governingCompPeriod env s now db = some (k, best)) :
    db.compPeriods.get? k = some best ∧ best.Open s now ∧
      ∀ j comp, db.compPeriods.get? j = some comp → comp.Open s now →
        env.settings.height comp.plan ≤ env.settings.height best.plan := by
  obtain ⟨hmem, hleast⟩ := orderBy_head h
  obtain ⟨hbest, hopen⟩ := Table.mem_select.mp hmem
  refine ⟨hbest, hopen, fun j comp hj hcomp => ?_⟩
  have hkey := OrderDual.toDual_le_toDual.mp
    (hleast (j, comp) (Table.mem_select.mpr ⟨hj, hcomp⟩))
  rcases Prod.Lex.toLex_le_toLex.mp hkey with hlt | ⟨heq, -⟩
  · exact hlt.le
  · exact heq.le

theorem governing_none (h : governingCompPeriod env s now db = none) {k : ℕ} {comp : CompPeriod}
    (hk : db.compPeriods.get? k = some comp) : ¬ comp.Open s now := by
  intro hopen
  have hempty := orderBy_eq_nil_iff.mp (List.head?_eq_none_iff.mp h)
  have hmem : (k, comp) ∈ db.compPeriods.select (CompPeriod.Open s now) :=
    Table.mem_select.mpr ⟨hk, hopen⟩
  rw [hempty] at hmem
  cases hmem

/-- What the provider entitles to, if it does. -/
def Subscription.paidPlan (sub : Subscription) : Option String :=
  if sub.status.isGranting then nonempty (some sub.plan) else none

/-- Does no window govern? -/
def Db.NoneOpen (db : Db) (s : ℕ) (now : Time) : Prop :=
  ∀ k comp, db.compPeriods.get? k = some comp → ¬ comp.Open s now

/-- The higher of what is paid for and what is given, and the default of neither. -/
def highest (env : Env) (paid comp : Option String) : String :=
  match paid, comp with
  | some plan, some comp => if env.settings.outranks comp plan then comp else plan
  | some plan, none => plan
  | none, some comp => comp
  | none, none => defaultPlan

theorem effectivePlan_eq {sub : Subscription}
    (hsub : findSubscription (some user) Subscription.user db = some (s, sub)) :
    effectivePlan env user now db =
      highest env sub.paidPlan (nonempty (compPlanForUser env user now db)) := by
  unfold effectivePlan
  rw [hsub]
  rfl

/-- A paid plan is never undercut. -/
theorem le_effectivePlan_of_paid {sub : Subscription} {plan : String} (hpaid : sub.paidPlan = some plan)
    (hsub : findSubscription (some user) Subscription.user db = some (s, sub)) :
    env.settings.height plan ≤ env.settings.height (effectivePlan env user now db) := by
  rw [effectivePlan_eq hsub, hpaid]
  cases nonempty (compPlanForUser env user now db) with
  | none => exact le_rfl
  | some comp =>
    unfold highest
    dsimp only
    split
    · rename_i hup
      exact (outranks_iff.mp hup).le
    · exact le_rfl

/-- **The effective plan by its height**: the default where nothing entitles, and otherwise no
lower than the paid plan, no lower than any open window, and as high as one of them. -/
theorem effectivePlan_height {sub : Subscription}
    (hnamed : ∀ k comp, db.compPeriods.get? k = some comp → comp.plan ≠ "")
    (hsub : findSubscription (some user) Subscription.user db = some (s, sub)) :
    (sub.paidPlan = none ∧ db.NoneOpen s now ∧ effectivePlan env user now db = defaultPlan) ∨
      ((∀ plan ∈ sub.paidPlan,
          env.settings.height plan ≤ env.settings.height (effectivePlan env user now db)) ∧
        (∀ k comp, db.compPeriods.get? k = some comp → comp.Open s now →
          env.settings.height comp.plan ≤ env.settings.height (effectivePlan env user now db)) ∧
        (effectivePlan env user now db ∈ sub.paidPlan ∨ ∃ k comp,
          db.compPeriods.get? k = some comp ∧ comp.Open s now ∧
            effectivePlan env user now db = comp.plan)) := by
  rw [effectivePlan_eq hsub]
  have hgoverns : compPlanForUser env user now db =
      (governingCompPeriod env s now db).map fun comp => comp.2.plan := by
    unfold compPlanForUser
    rw [hsub]
    rfl
  rw [hgoverns]
  cases hbest : governingCompPeriod env s now db with
  | none =>
    have hnone := fun k comp hk => @governing_none env _ _ _ hbest k comp hk
    cases hpaid : sub.paidPlan with
    | none => exact Or.inl ⟨rfl, hnone, rfl⟩
    | some plan =>
      refine Or.inr ⟨fun p hp => ?_, fun k comp hk hopen => absurd hopen (hnone k comp hk), Or.inl rfl⟩
      obtain rfl := Option.some.inj hp
      exact le_rfl
  | some r =>
    obtain ⟨k, best⟩ := r
    obtain ⟨hk, hopen, hgreatest⟩ := governing_some hbest
    have hplan : nonempty (some best.plan) = some best.plan := by
      unfold nonempty
      exact if_neg (hnamed k best hk)
    show _ ∨ _
    rw [Option.map_some, hplan]
    refine Or.inr ?_
    cases hpaid : sub.paidPlan with
    | none => exact ⟨fun p hp => absurd hp (Option.not_mem_none p), hgreatest, Or.inr ⟨k, best, hk, hopen, rfl⟩⟩
    | some plan =>
      unfold highest
      dsimp only
      by_cases hup : env.settings.outranks best.plan plan = true
      · rw [if_pos hup]
        refine ⟨fun p hp => ?_, hgreatest, Or.inr ⟨k, best, hk, hopen, rfl⟩⟩
        obtain rfl := Option.some.inj hp
        exact (outranks_iff.mp hup).le
      · rw [if_neg hup]
        have hle := not_lt.mp (mt outranks_iff.mpr hup)
        refine ⟨fun p hp => ?_, fun j comp hj hcomp => (hgreatest j comp hj hcomp).trans hle, Or.inl rfl⟩
        obtain rfl := Option.some.inj hp
        exact le_rfl

/-- **One window more is a step down** where it is open, nothing else entitles the account to
anything, and its plan stands below the default plan. -/
def StepsDown (env : Env) (user : UserId) (now : Time) (w : CompPeriod) (db : Db) : Prop :=
  ∃ s sub, findSubscription (some user) Subscription.user db = some (s, sub) ∧
    sub.paidPlan = none ∧ db.NoneOpen s now ∧ w.Open s now ∧
    env.settings.height w.plan < env.settings.height defaultPlan

theorem oneMore_height (h : db.OneMore w db')
    (hnamed : ∀ k comp, db.compPeriods.get? k = some comp → comp.plan ≠ "")
    (hnamed' : ∀ k comp, db'.compPeriods.get? k = some comp → comp.plan ≠ "") :
    env.settings.height (effectivePlan env user now db) ≤
        env.settings.height (effectivePlan env user now db') ↔ ¬ StepsDown env user now w db := by
  have hfind : findSubscription (some user) Subscription.user db' =
      findSubscription (some user) Subscription.user db := by
    unfold findSubscription
    rw [h.subscriptions]
  cases hsub : findSubscription (some user) Subscription.user db with
  | none =>
    have hdefault : ∀ d : Db, findSubscription (some user) Subscription.user d = none →
        effectivePlan env user now d = defaultPlan := by
      intro d hd
      unfold effectivePlan
      rw [hd]
    rw [hdefault db hsub, hdefault db' (hfind.trans hsub)]
    refine iff_of_true le_rfl ?_
    rintro ⟨s, sub, hsome, -⟩
    rw [hsub] at hsome
    cases hsome
  | some r =>
    obtain ⟨s, sub⟩ := r
    -- windows that were open are still there
    have hkept : ∀ k comp, db.compPeriods.get? k = some comp → comp.Open s now →
        ∃ j, db'.compPeriods.get? j = some comp := fun k comp hk hopen =>
      ((h.windows s now comp).mpr (Or.inl ⟨⟨k, hk⟩, hopen⟩)).1
    rcases @effectivePlan_height env _ now _ _ _ hnamed hsub with
      ⟨hpaid, hnone, hdefault⟩ | ⟨-, -, hpaid | ⟨k, comp, hk, hopen, hplan⟩⟩
    · -- nothing entitled before, so what governs now is the new window or the default
      rw [hdefault]
      rcases @effectivePlan_height env _ now _ _ _ hnamed' (hfind.trans hsub) with
        ⟨-, hnone', hdefault'⟩ | ⟨-, -, hpaid' | ⟨k, comp, hk, hopen, hplan⟩⟩
      · rw [hdefault']
        refine iff_of_true le_rfl ?_
        rintro ⟨s', sub', hfound, -, -, hopen, -⟩
        rw [hsub] at hfound
        obtain ⟨rfl, rfl⟩ := Prod.mk.inj (Option.some.inj hfound)
        obtain ⟨⟨k, hk⟩, -⟩ := (h.windows s now w).mpr (Or.inr ⟨rfl, hopen⟩)
        exact hnone' k w hk hopen
      · rw [hpaid] at hpaid'
        cases hpaid'
      · rw [hplan]
        rcases (h.windows s now comp).mp ⟨⟨k, hk⟩, hopen⟩ with ⟨⟨j, hj⟩, -⟩ | ⟨rfl, -⟩
        · exact absurd hopen (hnone j comp hj)
        · constructor
          · rintro hle ⟨s', sub', -, -, -, -, hlt⟩
            exact absurd hlt (not_lt.mpr hle)
          · intro hnot
            by_contra hlt
            exact hnot ⟨s, sub, hsub, hpaid, hnone, hopen, not_le.mp hlt⟩
    · -- what was paid for still is
      refine iff_of_true ?_ ?_
      · rcases @effectivePlan_height env _ now _ _ _ hnamed' (hfind.trans hsub) with
          ⟨hnot, -⟩ | ⟨hgreater, -⟩
        · rw [hnot] at hpaid
          cases hpaid
        · exact hgreater _ hpaid
      · rintro ⟨s', sub', hfound, hnot, -⟩
        rw [hsub] at hfound
        obtain ⟨rfl, rfl⟩ := Prod.mk.inj (Option.some.inj hfound)
        rw [hnot] at hpaid
        cases hpaid
    · -- the window that governed is still open
      obtain ⟨j, hj⟩ := hkept k comp hk hopen
      refine iff_of_true ?_ ?_
      · rcases @effectivePlan_height env _ now _ _ _ hnamed' (hfind.trans hsub) with
          ⟨-, hnone', -⟩ | ⟨-, hgreater, -⟩
        · exact absurd hopen (hnone' j comp hj)
        · rw [hplan]
          exact hgreater j comp hj hopen
      · rintro ⟨s', sub', hfound, -, hnone, -⟩
        rw [hsub] at hfound
        obtain ⟨rfl, rfl⟩ := Prod.mk.inj (Option.some.inj hfound)
        exact hnone k comp hk hopen

/-- **A comp steps down only from the default plan.**  One window more never lowers the
effective plan, and one window withdrawn never raises it, but where the window is all that
entitles the account and its plan stands below the default plan. -/
theorem comp_never_lowers_iff (env : Env) (user : UserId) (now : Time) {db : Db}
    (hnamed : ∀ k comp, db.compPeriods.get? k = some comp → comp.plan ≠ "") :
    (∀ w : CompPeriod, w.revokedAt = none → w.plan ≠ "" →
      (env.settings.height (effectivePlan env user now db) ≤
        env.settings.height (effectivePlan env user now (db.withComp w)) ↔
          ¬ StepsDown env user now w db)) ∧
    ∀ k w t, db.compPeriods.get? k = some w → w.revokedAt = none →
      (env.settings.height (effectivePlan env user now (db.revoke k t)) ≤
        env.settings.height (effectivePlan env user now db) ↔
          ¬ StepsDown env user now w (db.revoke k t)) := by
  refine ⟨fun w _ hplan => oneMore_height (oneMore_withComp w db) hnamed fun k comp hk => ?_,
    fun k w t hk _ => oneMore_height (oneMore_revoke hk) (fun j comp hj => ?_) hnamed⟩
  · unfold Db.withComp at hk
    rw [Table.get?_insert] at hk
    split at hk
    · obtain rfl := Option.some.inj hk
      exact hplan
    · exact hnamed k comp hk
  · unfold Db.revoke at hj
    rw [Table.get?_modify] at hj
    split at hj
    · obtain ⟨old, hold, rfl⟩ := Option.map_eq_some_iff.mp hj
      exact hnamed _ old hold
    · exact hnamed j comp hj

end Ranks

/-! ## A plan the host retired -/

/-- A month of a plan the host sells no more. -/
def retiredMonth : CompPeriod :=
  { subscription := 0
    plan := "legacy"
    startsAt := 0
    endsAt := 30 * day
    reason := "outage" }

theorem comp_never_lowers_iff_paid : (Env.plain 0).settings.height
      (effectivePlan (Env.plain 0) 1 0 paidAccount) ≤
    (Env.plain 0).settings.height (effectivePlan (Env.plain 0) 1 0 (paidAccount.withComp retiredMonth)) := by
  refine ((comp_never_lowers_iff (Env.plain 0) 1 0 fun k comp hk => Table.get?_empty_ne hk).1
    retiredMonth rfl (by decide)).mpr ?_
  rintro ⟨s, sub, hsub, hpaid, -⟩
  have hfound : findSubscription (some 1) Subscription.user paidAccount = some (0, paidMonth) := by
    decide +kernel
  rw [hfound] at hsub
  obtain ⟨rfl, rfl⟩ := Prod.mk.inj (Option.some.inj hsub)
  exact absurd hpaid (by decide +kernel)

/-- An account whose subscription has ended. -/
def lapsedAccount : Db :=
  { users := [1]
    subscriptions := Table.empty.insert
      { user := some 1
        plan := "pro"
        status := .cancelled } }

/-- **A retired plan takes the default plan's place**, and ranks below it. -/
theorem retired_comp_lowers :
    effectivePlan (Env.plain 0) 1 0 lapsedAccount = "free" ∧
      effectivePlan (Env.plain 0) 1 0 (lapsedAccount.withComp retiredMonth) = "legacy" ∧
      ¬ (Env.plain 0).settings.height (effectivePlan (Env.plain 0) 1 0 lapsedAccount) ≤
        (Env.plain 0).settings.height
          (effectivePlan (Env.plain 0) 1 0 (lapsedAccount.withComp retiredMonth)) := by
  decide +kernel

end StapelBilling
