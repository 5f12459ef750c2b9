import StapelBilling.BundlePeriod
import StapelBilling.Comm

/-! # The pre-flight and the charge

`can_afford` asks the live lots of the wallet there is; a debit and a hold ask what is left of
the lots after their sweep, in a wallet they may have to open first.  Whether the account is
internal comes first for the one and last for the others.  They agree on every wallet.

* `Db.available`: what the lots of a user can pay.
* `debit_succeeds_iff`, `hold_succeeds_iff`, `partial_debit_owes`: the charges.
* `preflight_agrees`: the answer and the charges.
-/
namespace StapelBilling
open Store

section Charges
variable {env : Env} {db db' : Db} {w : ℕ} {user : UserId}

/-! ## What a user can pay -/

/-- The live credits of the wallet a user has. -/
def Db.available (db : Db) (user : UserId) (now : Time) : ℤ :=
  match db.wallets.find? fun wallet => wallet.user = some user with
  | some (w, _) => db.liveBalance w now
  | none => 0

/-- Every lot is some wallet's. -/
def Db.LotsOwned (db : Db) : Prop := ∀ k lot, db.lots.get? k = some lot → db.HasWallet lot.wallet

/-- A sweep leaves what is live. -/
theorem swept_liveBalance (db : Db) (w : ℕ) : (db.swept env w).liveBalance w env.now =
    db.liveBalance w env.now := by
  have hall : ∀ d : Db, d.liveIn (fun _ => True) w env.now = d.liveBalance w env.now := by
    intro d
    unfold Db.liveIn Db.liveBalance
    simp only [if_true]
  rw [← hall, ← hall, swept_liveIn]

/-- The wallet a call locks holds what its user can pay, also when the call opens it. -/
theorem lockWallet_available (hlots : db.LotsOwned) (hlock : lockWallet user db = (w, db')) (now : Time) :
    db'.liveBalance w now = db.available user now := by
  cases hfind : db.wallets.find? fun wallet => wallet.user = some user with
  | some r =>
    have hfound : lockWallet user db = (r.1, db) := by
      unfold lockWallet
      rw [hfind]
    have hamount : db.available user now = db.liveBalance r.1 now := by
      unfold Db.available
      rw [hfind]
    rw [hfound] at hlock
    obtain ⟨rfl, rfl⟩ := Prod.mk.inj hlock
    exact hamount.symm
  | none =>
    have hopened : lockWallet user db = (db.wallets.next,
        { db with wallets := db.wallets.insert { user := some user } }) := by
      unfold lockWallet
      rw [hfind]
    have hamount : db.available user now = 0 := by
      unfold Db.available
      rw [hfind]
    rw [hopened] at hlock
    obtain ⟨rfl, rfl⟩ := Prod.mk.inj hlock
    rw [hamount]
    -- no lot is a wallet's that is not there yet
    refine Table.sum_zero fun k lot hk => if_neg fun hlive => ?_
    obtain ⟨wallet, hwallet⟩ := hlots k lot hk
    exact absurd (Table.get?_lt_next hwallet) (by rw [hlive.1]; exact Nat.lt_irrefl _)

/-- What the live lots can pay is taken, and no more. -/
theorem takeCredits_succeeds_iff {n : ℤ} {now : Time} :
    (∃ r, takeCredits w n now db = .ok r) ↔ n ≤ db.liveBalance w now := by
  unfold takeCredits
  by_cases hzero : n = 0
  · rw [if_pos hzero]
    exact iff_of_true ⟨_, rfl⟩ (hzero ▸ liveBalance_nonneg db w now)
  · rw [if_neg hzero]
    constructor
    · rintro ⟨r, hr⟩
      by_contra hshort
      unfold consumeLots at hr
      rw [if_pos (by rw [liveLots_total]; omega)] at hr
      cases hr
    · intro hle
      obtain ⟨taken, htaken⟩ := consumeLots_of_le hle
      exact ⟨_, htaken⟩

/-! ## Fresh keys -/

/-- No ledger row stands under the key of a debit. -/
def DebitArgs.Fresh (env : Env) (args : DebitArgs) (db : Db) : Prop :=
  existingCall env (lockWallet args.user db).1 args.idempotencyKey (lockWallet args.user db).2 = none

/-- A hold has a key, and no hold of the wallet stands under it. -/
def HoldArgs.Fresh (args : HoldArgs) (db : Db) : Prop :=
  args.idempotencyKey ≠ "" ∧ (lockWallet args.user db).2.holds.find? (fun held =>
    held.wallet = (lockWallet args.user db).1 ∧ held.idempotencyKey = args.idempotencyKey) = none

/-! ## When a charge goes through -/

/-- **When a debit under a fresh key goes through.** -/
theorem debit_succeeds_iff (hlots : db.LotsOwned) {args : DebitArgs} (hpos : 0 < args.credits)
    (hfresh : args.Fresh env db) (hfull : args.allowPartial = false) :
    (∃ r, debit env args db = .ok r) ↔ env.settings.meterOnly (some args.user) = true ∨
      args.credits ≤ db.available args.user env.now := by
  unfold debit DebitArgs.Fresh at *
  rcases hlock : lockWallet args.user db with ⟨w, db₁⟩
  have hlive : (expireDueLots env w db₁).2.liveBalance w env.now = db.available args.user env.now :=
    (swept_liveBalance db₁ w).trans (lockWallet_available hlots hlock env.now)
  have htaken := @takeCredits_succeeds_iff (expireDueLots env w db₁).2 w args.credits env.now
  rw [hlock] at hfresh
  rw [if_neg (by omega), ← hlive, ← htaken]
  dsimp only at hfresh ⊢
  rw [hfresh]
  by_cases hmeter : env.settings.meterOnly (some args.user) = true
  · simp only [if_pos hmeter]
    exact iff_of_true ⟨_, rfl⟩ (Or.inl hmeter)
  · simp only [hfull, Bool.false_eq_true, if_false, hmeter, false_or]
    cases takeCredits w args.credits env.now (expireDueLots env w db₁).2 with
    | error e => exact iff_of_false (by rintro ⟨r, hr⟩; cases hr) (by rintro ⟨r, hr⟩; cases hr)
    | ok r => exact iff_of_true ⟨_, rfl⟩ ⟨_, rfl⟩

/-- What a hold reserves is what the live lots can pay. -/
theorem reserve_succeeds_iff {args : HoldArgs} {existing : Option ℕ} :
    (∃ r, reserve env w args existing db = .ok r) ↔
      env.settings.meterOnly (some args.user) = true ∨ args.credits ≤ db.liveBalance w env.now := by
  have hlive : (expireDueLots env w db).2.liveBalance w env.now = db.liveBalance w env.now :=
    swept_liveBalance db w
  unfold reserve
  dsimp only
  by_cases hmeter : env.settings.meterOnly (some args.user) = true
  · simp only [if_pos hmeter, takeCredits, if_true]
    exact iff_of_true ⟨_, rfl⟩ (Or.inl hmeter)
  · have htaken := @takeCredits_succeeds_iff (expireDueLots env w db).2 w args.credits env.now
    simp only [Bool.false_eq_true, if_false, hmeter, false_or]
    rw [← hlive, ← htaken]
    cases takeCredits w args.credits env.now (expireDueLots env w db).2 with
    | error e => exact iff_of_false (by rintro ⟨r, hr⟩; cases hr) (by rintro ⟨r, hr⟩; cases hr)
    | ok r => exact iff_of_true ⟨_, rfl⟩ ⟨_, rfl⟩

/-- **When a hold under a fresh key goes through.** -/
theorem hold_succeeds_iff (hlots : db.LotsOwned) {args : HoldArgs} (hpos : 0 < args.credits)
    (hfresh : args.Fresh db) : (∃ r, hold env args db = .ok r) ↔
      env.settings.meterOnly (some args.user) = true ∨ args.credits ≤ db.available args.user env.now := by
  unfold hold HoldArgs.Fresh at *
  rcases hlock : lockWallet args.user db with ⟨w, db₁⟩
  rw [hlock] at hfresh
  obtain ⟨hkey, hnone⟩ := hfresh
  rw [if_neg (by omega), if_neg hkey, ← lockWallet_available hlots hlock]
  dsimp only at hnone ⊢
  rw [hnone]
  exact reserve_succeeds_iff

/-- The debt a partial debit opens: none without a shortfall, else a new one of just that. -/
structure DebitResult.Owes (result : DebitResult) (n : ℤ) (db db' : Db) : Prop where
  shortfall : result.shortfall = n
  covered : n = 0 → result.debt = none ∧ db'.debts = db.debts
  owed : n ≠ 0 → ∃ k debt, result.debt = some k ∧ db.debts.get? k = none ∧
    db'.debts.get? k = some debt ∧ debt.creditsInitial = n ∧ debt.creditsOutstanding = n

/-- **A partial debit under a fresh key** always goes through, and owes what the lots cannot
pay. -/
theorem partial_debit_owes (hlots : db.LotsOwned) {args : DebitArgs} (hpos : 0 < args.credits)
    (hfresh : args.Fresh env db) (howing : args.allowPartial = true) :
    ∃ result db', debit env args db = .ok (.result result, db') ∧
      result.Owes (if env.settings.meterOnly (some args.user) = true then 0
        else max (args.credits - db.available args.user env.now) 0) db db' := by
  unfold debit DebitArgs.Fresh at *
  rcases hlock : lockWallet args.user db with ⟨w, db₁⟩
  have hlive : (expireDueLots env w db₁).2.liveBalance w env.now = db.available args.user env.now :=
    (swept_liveBalance db₁ w).trans (lockWallet_available hlots hlock env.now)
  have hdebts : (expireDueLots env w db₁).2.debts = db.debts := by
    rw [(expireDueLots_frame db₁).2]
    rcases lockWallet_cases hlock with ⟨rfl, -⟩ | ⟨-, rfl, -⟩
    · rfl
    · rfl
  have hnonneg := liveBalance_nonneg (expireDueLots env w db₁).2 w env.now
  rw [hlock] at hfresh
  rw [if_neg (by omega)]
  dsimp only at hfresh ⊢
  rw [hfresh]
  by_cases hmeter : env.settings.meterOnly (some args.user) = true
  · simp only [if_pos hmeter, meterOnlyDebit, howing, if_true]
    exact ⟨_, _, rfl, rfl, fun _ => ⟨rfl, hdebts⟩, fun hne => absurd rfl hne⟩
  · simp only [if_neg hmeter, howing, if_true]
    obtain ⟨⟨taken, db₂⟩, htaken⟩ := takeCredits_succeeds_iff.mpr (min_le_right args.credits
      ((expireDueLots env w db₁).2.liveBalance w env.now))
    rw [htaken]
    obtain ⟨-, -, hspent⟩ := takeCredits_ok (le_min hpos.le hnonneg) htaken
    have hdebts₂ : db₂.debts = db.debts := by rw [hspent]; exact hdebts
    have hshort : args.credits - min args.credits ((expireDueLots env w db₁).2.liveBalance w env.now) =
        max (args.credits - db.available args.user env.now) 0 := by
      rw [hlive]
      omega
    unfold chargeDebit
    rw [hshort]
    by_cases hcovered : max (args.credits - db.available args.user env.now) 0 = 0
    · simp only [hcovered, if_true, howing]
      exact ⟨_, _, rfl, rfl, fun _ => ⟨rfl, hdebts₂⟩, fun hne => absurd rfl hne⟩
    · simp only [if_neg hcovered, howing, if_true]
      refine ⟨_, _, rfl, rfl, fun hzero => absurd hzero hcovered, fun _ => ⟨db₂.debts.next, _, rfl, ?_,
        Table.get?_insert_next _ _, rfl, rfl⟩⟩
      rw [← hdebts₂]
      exact Table.get?_next _

/-! ## The pre-flight -/

/-- What `can_afford` says of a user. -/
theorem canAfford_user {credits : ℤ} (hpos : 0 < credits) : ∃ answer,
    canAfford env (some user) none credits db = .ok answer ∧
      answer.balance = db.available user env.now ∧
      (answer.affordable = true ↔ env.settings.meterOnly (some user) = true ∨
        credits ≤ db.available user env.now) ∧
      answer.shortfall = if env.settings.meterOnly (some user) = true then 0
        else max (credits - db.available user env.now) 0 := by
  have heq : canAfford env (some user) none credits db =
      if env.settings.meterOnly (some user) = true then .ok
        { affordable := true
          balance := db.available user env.now
          requested := credits
          shortfall := 0 }
      else .ok
        { affordable := credits ≤ db.available user env.now
          balance := db.available user env.now
          requested := credits
          shortfall := max (credits - db.available user env.now) 0 } := by
    unfold canAfford
    rw [if_neg (by omega), if_neg (by simp)]
    rfl
  rw [heq]
  by_cases hmeter : env.settings.meterOnly (some user) = true
  · rw [if_pos hmeter, if_pos hmeter]
    exact ⟨_, rfl, rfl, iff_of_true rfl (Or.inl hmeter), rfl⟩
  · rw [if_neg hmeter, if_neg hmeter]
    refine ⟨_, rfl, rfl, ?_, rfl⟩
    rw [decide_eq_true_eq]
    exact ⟨Or.inr, fun h => h.resolve_left hmeter⟩

/-- **The answer and the charges agree**: a debit and a hold of these credits under a fresh key
go through exactly when they are affordable, and a partial debit owes the shortfall. -/
structure Affordability.AgreesWithCharges (env : Env) (user : UserId) (credits : ℤ) (db : Db)
    (answer : Affordability) : Prop where
  debit : ∀ args : DebitArgs, args.user = user → args.credits = credits → args.allowPartial = false →
    args.Fresh env db → (answer.affordable = true ↔ ∃ r, StapelBilling.debit env args db = .ok r)
  hold : ∀ args : HoldArgs, args.user = user → args.credits = credits → args.Fresh db →
    (answer.affordable = true ↔ ∃ r, StapelBilling.hold env args db = .ok r)
  partialDebit : ∀ args : DebitArgs, args.user = user → args.credits = credits →
    args.allowPartial = true → args.Fresh env db → ∃ result db',
      StapelBilling.debit env args db = .ok (.result result, db') ∧
        result.Owes answer.shortfall db db'
  covered : answer.affordable = true ↔ answer.shortfall = 0

/-- **The pre-flight agrees with the charge**, for every user and on every wallet, swept or not
and whatever its cached balance. -/
theorem preflight_agrees (env : Env) (hlots : db.LotsOwned) (user : UserId) {credits : ℤ}
    (hpos : 0 < credits) : ∃ answer, canAfford env (some user) none credits db = .ok answer ∧
      answer.AgreesWithCharges env user credits db := by
  obtain ⟨answer, hanswer, -, haffordable, hshortfall⟩ := @canAfford_user env db user _ hpos
  refine ⟨answer, hanswer, fun args huser hcredits hfull hfresh => ?_,
    fun args huser hcredits hfresh => ?_, fun args huser hcredits howing hfresh => ?_, ?_⟩
  · subst huser hcredits
    rw [haffordable, debit_succeeds_iff hlots hpos hfresh hfull]
  · subst huser hcredits
    rw [haffordable, hold_succeeds_iff hlots hpos hfresh]
  · subst huser hcredits
    rw [hshortfall]
    exact partial_debit_owes hlots hpos hfresh howing
  · rw [haffordable, hshortfall]
    by_cases hmeter : env.settings.meterOnly (some user) = true
    · rw [if_pos hmeter]
      exact iff_of_true (Or.inl hmeter) rfl
    · rw [if_neg hmeter]
      constructor
      · intro h
        have hle := h.resolve_left hmeter
        omega
      · intro h
        exact Or.inr (by omega)

end Charges

/-- A wallet whose row still counts a lot that has expired: thirty credits are left of a hundred
and thirty. -/
def staleWallet : Db :=
  { users := [1]
    wallets := Table.empty.insert
      { user := some 1
        balance := 130 }
    lots := (Table.empty.insert
      { wallet := 0
        source := .subscription
        creditsInitial := 100
        creditsRemaining := 100
        expiresAt := some 0
        createdAt := 0
        uuid := 0 }).insert
      { wallet := 0
        source := .purchase
        creditsInitial := 30
        creditsRemaining := 30
        createdAt := 0
        uuid := 1 } }

theorem staleWallet_lotsOwned : staleWallet.LotsOwned := by
  intro k lot hk
  have hwallet : lot.wallet = 0 := by
    unfold staleWallet at hk
    dsimp only at hk
    rw [Table.get?_insert, Table.get?_insert] at hk
    split at hk
    · rw [← Option.some.inj hk]
    · split at hk
      · rw [← Option.some.inj hk]
      · cases hk
  rw [hwallet]
  exact ⟨_, rfl⟩

theorem preflight_agrees_stale : ∃ answer,
    canAfford (Env.plain 1) (some 1) none 50 staleWallet = .ok answer ∧
      answer.AgreesWithCharges (Env.plain 1) 1 50 staleWallet :=
  preflight_agrees (Env.plain 1) staleWallet_lotsOwned 1 (by decide)

end StapelBilling
