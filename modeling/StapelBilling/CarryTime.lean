import StapelBilling.Calls
import StapelBilling.CompPeriods

/-! # Where carry time opens

A comp that is no upgrade is meant to be added to the service an account has: to the period
it paid for, and to the comp windows that are there.  A window that is stacked opens where the
last one closes, and the paid period is not asked.

`carry_time_iff` says when that is the same.
-/
namespace StapelBilling
open Store

section Carry
variable {env : Env} {args : ExtendArgs} {preview : CompPeriodPreview} {db db' : Db} {now : Time}

/-- The plan a call names. -/
def ExtendArgs.slug (args : ExtendArgs) : String := (nonempty args.plan).getD args.sub.plan

/-- A call that is no upgrade, or that asks for the end of the period. -/
def ExtendArgs.Carries (env : Env) (args : ExtendArgs) : Prop :=
  args.starts = some "period_end" ∨ args.starts = none ∧ isUpgrade env args.slug args.sub = false

/-- **A window that opens after everything else**: not in the past, not before the end of the
paid period that is still running, not before the end of a window that is there. -/
structure ExtendArgs.OpensAfter (args : ExtendArgs) (now : Time) (db : Db) (startsAt : Time) : Prop where
  clock : now ≤ startsAt
  paid : ∀ finish ∈ args.sub.currentPeriodEnd, now < finish → finish ≤ startsAt
  windows : ∀ k comp, db.compPeriods.get? k = some comp → comp.subscription = args.subscription →
    comp.revokedAt = none → comp.endsAt ≤ startsAt

/-- **The windows reach past the paid period**: where one is ahead and the paid period is still
running, one that is ahead closes no earlier than it. -/
def ExtendArgs.PeriodCovered (args : ExtendArgs) (now : Time) (db : Db) : Prop :=
  ∀ k comp, db.compPeriods.get? k = some comp → comp.Ahead args.subscription now →
    ∀ finish ∈ args.sub.currentPeriodEnd, now < finish →
      ∃ j last, db.compPeriods.get? j = some last ∧ last.Ahead args.subscription now ∧
        finish ≤ last.endsAt

/-- The latest window is ahead, and none that is ahead closes later. -/
theorem latestCompPeriod_some {s k : ℕ} {last : CompPeriod}
    (h : latestCompPeriod s now db = some (k, last)) :
    db.compPeriods.get? k = some last ∧ last.Ahead s now ∧
      ∀ j comp, db.compPeriods.get? j = some comp → comp.Ahead s now → comp.endsAt ≤ last.endsAt := by
  obtain ⟨hmem, hleast⟩ := orderBy_head h
  obtain ⟨hlast, hahead⟩ := Table.mem_select.mp hmem
  refine ⟨hlast, hahead, fun j comp hj hcomp => ?_⟩
  exact OrderDual.toDual_le_toDual.mp (hleast (j, comp) (Table.mem_select.mpr ⟨hj, hcomp⟩))

theorem latestCompPeriod_none {s : ℕ} (h : latestCompPeriod s now db = none) (k : ℕ)
    (comp : CompPeriod) (hk : db.compPeriods.get? k = some comp) : ¬ comp.Ahead s now := by
  intro hahead
  have hempty := orderBy_eq_nil_iff.mp (List.head?_eq_none_iff.mp h)
  have hmem : (k, comp) ∈ db.compPeriods.select (CompPeriod.Ahead s now) :=
    Table.mem_select.mpr ⟨hk, hahead⟩
  rw [hempty] at hmem
  cases hmem

theorem getPlan_slug {settings : Settings} {slug : String} {entry : PlanCatalogEntry}
    (h : settings.getPlan (some slug) = some entry) : entry.slug = slug := by
  unfold Settings.getPlan at h
  split at h
  · cases h
  · rename_i hslug
    obtain rfl := Option.some.inj hslug
    split at h
    · cases h
    · simpa using List.find?_some h

theorem checkExtend_slug {entry : PlanCatalogEntry} (h : checkExtend env args = .ok entry) :
    entry.slug = args.slug := by
  unfold checkExtend at h
  split at h
  · cases h
  split at h
  · cases h
  split at h
  · cases h
  split at h
  · cases h
  dsimp only at h
  split at h
  · cases h
  split at h
  · cases h
  · rename_i hplan
    obtain rfl := Except.ok.inj h
    exact getPlan_slug hplan

theorem previewExtension_startsAt (h : previewExtension env now args db = .ok preview) :
    preview.startsAt = compStart (isUpgrade env args.slug args.sub) args now
      ((latestCompPeriod args.subscription now db).map Prod.snd) := by
  unfold previewExtension at h
  cases hcheck : checkExtend env args with
  | error e =>
    rw [hcheck] at h
    cases h
  | ok entry =>
    simp only [hcheck] at h
    split at h
    · cases h
    · split at h
      · cases h
      · rw [← Except.ok.inj h, checkExtend_slug hcheck]

theorem previewBundle_startsAt (preview : CompPeriodPreview) :
    (previewBundle env now args preview db).startsAt = preview.startsAt := by
  unfold previewBundle
  split <;> rfl

theorem writeExtension_startsAt {written : CompPeriodPreview}
    (h : writeExtension env now args preview db = .ok (written, db')) :
    written.startsAt = preview.startsAt := by
  unfold writeExtension at h
  split at h
  · cases h
  · dsimp only at h
    split at h
    · cases h
    · rw [← (Prod.mk.inj (Except.ok.inj h)).1]

/-- What an extension that is granted opens with. -/
theorem extendSubscription_startsAt (h : extendSubscription env args db = .ok (preview, db')) :
    preview.startsAt = compStart (isUpgrade env args.slug args.sub) args (args.now.getD env.now)
      ((latestCompPeriod args.subscription (args.now.getD env.now) db).map Prod.snd) := by
  unfold extendSubscription at h
  dsimp only at h
  cases hguard : previewExtension env (args.now.getD env.now) args db with
  | error e =>
    rw [hguard] at h
    cases h
  | ok guarded =>
    simp only [hguard] at h
    rw [← previewExtension_startsAt hguard, ← previewBundle_startsAt guarded]
    split at h
    · exact writeExtension_startsAt h
    · rw [← (Prod.mk.inj (Except.ok.inj h)).1]

/-- A call that carries does not open now. -/
theorem not_now (hcarry : args.Carries env) : ¬ (args.starts = some "now" ∨
    (args.starts = none ∧ isUpgrade env args.slug args.sub = true)) := by
  rcases hcarry with hend | ⟨hnone, hplain⟩
  · rw [hend]
    simp
  · rw [hnone, hplain]
    simp

/-- A window nobody stacks on opens with the end of the paid period, or now. -/
theorem opensAfter_paidUntil (halone : ∀ k comp, db.compPeriods.get? k = some comp →
    ¬ comp.Ahead args.subscription now) : args.OpensAfter now db (paidUntil args.sub now) := by
  have hlater : now ≤ paidUntil args.sub now := by
    unfold paidUntil
    split
    · split
      · rename_i hrunning
        exact le_of_lt hrunning
      · exact le_rfl
    · exact le_rfl
  refine ⟨hlater, fun finish hfinish hrunning => ?_, fun k comp hk hsub hrevoked => ?_⟩
  · rw [paidUntil, hfinish]
    simp only [if_pos hrunning]
    exact le_rfl
  · have hpast : comp.endsAt ≤ now := by
      by_contra hopen
      exact halone k comp hk ⟨hsub, hrevoked, not_le.mp hopen⟩
    exact hpast.trans hlater

/-- **Carry time opens after everything else exactly where the windows reach past the paid
period.** -/
theorem carry_time_iff (hcarry : args.Carries env)
    (h : extendSubscription env args db = .ok (preview, db')) :
    args.OpensAfter (args.now.getD env.now) db preview.startsAt ↔
      args.PeriodCovered (args.now.getD env.now) db := by
  rw [extendSubscription_startsAt h]
  unfold compStart
  rw [if_neg (not_now hcarry)]
  cases hlatest : latestCompPeriod args.subscription (args.now.getD env.now) db with
  | none =>
    have halone := latestCompPeriod_none hlatest
    refine iff_of_true (opensAfter_paidUntil halone) fun k comp hk hahead => ?_
    exact absurd hahead (halone k comp hk)
  | some r =>
    obtain ⟨k, last⟩ := r
    obtain ⟨hlast, hahead, hgreatest⟩ := latestCompPeriod_some hlatest
    constructor
    · intro hopens _ _ _ _ finish hfinish hrunning
      exact ⟨k, last, hlast, hahead, hopens.paid finish hfinish hrunning⟩
    · intro hcovered
      refine ⟨hahead.2.2.le, fun finish hfinish hrunning => ?_, fun j comp hj hsub hrevoked => ?_⟩
      · obtain ⟨j, comp, hj, hcomp, hreaches⟩ := hcovered k last hlast hahead finish hfinish hrunning
        exact hreaches.trans (hgreatest j comp hj hcomp)
      · by_cases hcomp : args.now.getD env.now < comp.endsAt
        · exact hgreatest j comp hj ⟨hsub, hrevoked, hcomp⟩
        · exact (not_lt.mp hcomp).trans hahead.2.2.le

end Carry

/-! ## An upgrade that ends first -/

/-- A subscription to `pro`, paid for a month. -/
def paidMonth : Subscription :=
  { user := some 1
    plan := "pro"
    currentPeriodEnd := some (30 * day) }

/-- A database with that subscription and nothing else. -/
def paidAccount : Db :=
  { users := [1]
    wallets := Table.empty.insert { user := some 1 }
    subscriptions := Table.empty.insert paidMonth }

/-- `team` for a week, at once. -/
def weekOfTeam : ExtendArgs :=
  { subscription := 0
    sub := paidMonth
    days := some 7
    reason := "trial"
    plan := some "team"
    apply := true }

/-- A week of the paid plan, on top. -/
def weekOnTop : ExtendArgs :=
  { subscription := 0
    sub := paidMonth
    days := some 7
    reason := "outage"
    stack := true
    apply := true }

/-- A second week goes on top of the first, which reaches past the month that was paid for. -/
theorem carry_time_iff_stacked : ∃ first carried second final,
    extendSubscription (Env.plain 0) weekOnTop paidAccount = .ok (first, carried) ∧
      extendSubscription (Env.plain 0) weekOnTop carried = .ok (second, final) ∧
      second.startsAt = 37 * day ∧ weekOnTop.OpensAfter 0 carried second.startsAt := by
  refine ⟨_, _, _, _, rfl, rfl, rfl,
    (@carry_time_iff (Env.plain 0) _ _ _ _ (Or.inr ⟨rfl, by decide +kernel⟩) rfl).mpr ?_⟩
  intro k comp hk hahead finish hfinish hrunning
  obtain rfl := Option.some.inj hfinish
  exact ⟨0, _, rfl, ⟨rfl, rfl, by decide +kernel⟩, by decide +kernel⟩

/-- **Carry time spent under a paid period**: stacked on an upgrade that lasts a week, it opens
with the second week of the month that was paid for. -/
theorem carry_opens_early : ∃ first upgraded second final,
    extendSubscription (Env.plain 0) weekOfTeam paidAccount = .ok (first, upgraded) ∧
      weekOnTop.Carries (Env.plain 0) ∧
      extendSubscription (Env.plain 0) weekOnTop upgraded = .ok (second, final) ∧
      ¬ weekOnTop.OpensAfter 0 upgraded second.startsAt := by
  refine ⟨_, _, _, _, rfl, Or.inr ⟨rfl, by decide +kernel⟩, rfl, fun hopens => ?_⟩
  exact absurd (hopens.paid (30 * day) rfl (by decide)) (by decide +kernel)

end StapelBilling
