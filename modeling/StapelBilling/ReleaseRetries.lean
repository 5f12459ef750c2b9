import StapelBilling.HoldLifecycle

/-! # A release delivered again

A released hold can be taken up again under its key, on the same row and under the same
identifier.  A message that releases it and is delivered a second time then gives up the
new reservation; as long as nobody has taken the hold up again, it changes nothing.
-/
namespace StapelBilling
open Store

variable {env : Env} {db db' : Db}

/-- Is this hold open? -/
def Db.IsHeld (h : ℕ) (db : Db) : Prop := ∃ held, db.holds.get? h = some held ∧ held.status = .held

/-- No lot, no balance and no hold's status changed. -/
structure Db.MoneyKept (db db' : Db) : Prop where
  lots : ∀ k, db'.lots.get? k = db.lots.get? k
  balances : ∀ w, (db'.wallets.get? w).map Wallet.balance = (db.wallets.get? w).map Wallet.balance
  statuses : ∀ h, (db'.holds.get? h).map CreditHold.status = (db.holds.get? h).map CreditHold.status

/-- A `hold` under its key takes the resolved hold up again in this run, and nothing resolves
it afterwards. -/
def TakenUpAgain (h : ℕ) (calls : List (Env × LifecycleCall)) (db : Db) : Prop :=
  ∃ earlier env args later held,
    calls = earlier ++ (env, .wallet (.hold args)) :: later ∧
    (runLifecycle earlier db).holds.get? h = some held ∧ held.status ≠ .held ∧
    args.idempotencyKey = held.idempotencyKey ∧
    ∀ n, (runLifecycle (later.take n) (Store.commit
      (LifecycleCall.exec env (.wallet (.hold args))) (runLifecycle earlier db))).IsHeld h

/-! ## One release -/

/-- A release leaves its hold resolved. -/
theorem release_not_isHeld {args : ReleaseArgs} (h : release env args db = .ok db') :
    ∃ held, db'.holds.get? args.hold = some held ∧ held.status ≠ .held := by
  obtain ⟨held, hheld, ⟨hstatus, rfl⟩ | ⟨hstatus, rfl⟩⟩ := release_cases h
  · exact ⟨held, hheld, hstatus⟩
  · have hmoves := @releaseHeld_moves env _ args _ held hheld rfl hstatus
    obtain ⟨held', hheld', -⟩ := hmoves.grows.holds.kept _ held hheld
    refine ⟨held', hheld', ?_⟩
    obtain ⟨old, -, rfl⟩ :=
      Option.map_eq_some_iff.mp ((Table.get?_modify_self _ _ _).symm.trans hheld')
    dsimp only
    split <;> decide

/-- **A release changes nothing exactly when its hold is not open.** -/
theorem release_moneyKept_iff (args : ReleaseArgs) (hr : db.Referenced) :
    db.MoneyKept (Store.commit (release env args) db) ↔ ¬ db.IsHeld args.hold := by
  constructor
  · rintro hkept ⟨held, hheld, hstatus⟩
    obtain ⟨wallet, hwallet⟩ := hr.holds _ held hheld
    have hexec : release env args db = .ok (releaseHeld env held.wallet held args db) := by
      simp only [release, holdWallet, hheld, releaseLocked, hwallet, hstatus, if_true]
    obtain ⟨held', hheld', hresolved⟩ := release_not_isHeld hexec
    have hsame := hkept.statuses args.hold
    rw [Store.commit_ok hexec, hheld', hheld] at hsame
    exact hresolved ((Option.some.inj hsame).trans hstatus)
  · intro hnot
    have hsame : Store.commit (release env args) db = db := by
      cases hexec : release env args db with
      | error e => exact Store.commit_error hexec
      | ok db' =>
        rw [Store.commit_ok hexec]
        obtain ⟨held, hheld, ⟨-, rfl⟩ | ⟨hstatus, -⟩⟩ := release_cases hexec
        · rfl
        · exact absurd ⟨held, hheld, hstatus⟩ hnot
    rw [hsame]
    exact ⟨fun _ => rfl, fun _ => rfl, fun _ => rfl⟩

/-! ## Runs -/

/-- **What every wallet operation keeps**, every lifecycle call keeps. -/
theorem LifecycleCall.exec_invariant {I : Db → Prop} {c : LifecycleCall}
    (hstep : ∀ c db db', I db → WalletCall.exec env c db = .ok db' → I db') (hI : I db)
    (h : c.exec env db = .ok db') : I db' := by
  cases c with
  | wallet c => exact hstep c db db' hI h
  | expireHolds =>
    obtain ⟨calls, rfl, -⟩ := @LifecycleCall.exec_run env db db' .expireHolds trivial h
    exact Store.run_invariant (fun c _ d d' hd hok => hstep c d d' hd hok) hI
  | expireCreditLots =>
    obtain ⟨calls, rfl, -⟩ := @LifecycleCall.exec_run env db db' .expireCreditLots trivial h
    exact Store.run_invariant (fun c _ d d' hd hok => hstep c d d' hd hok) hI

theorem runLifecycle_referenced (calls : List (Env × LifecycleCall)) (hr : db.Referenced) :
    (runLifecycle calls db).Referenced :=
  Store.run_invariant (I := Db.Referenced) (fun _ _ _ _ hI h =>
    LifecycleCall.exec_invariant (fun _ _ _ hd hok => exec_referenced hd hok) hI h) hr

/-- The row of a hold stays. -/
theorem runLifecycle_hold_kept {h : ℕ} {held : CreditHold} (calls : List (Env × LifecycleCall))
    (hk : db.holds.get? h = some held) :
    ∃ held', (runLifecycle calls db).holds.get? h = some held' := by
  refine Store.run_invariant (I := fun d : Db => ∃ held', d.holds.get? h = some held')
    (fun c _ d d' hd hexec => ?_) ⟨held, hk⟩
  refine LifecycleCall.exec_invariant (I := fun d => ∃ held', d.holds.get? h = some held')
    (fun c₁ d₁ d₂ hd₁ hok => ?_) hd hexec
  obtain ⟨held₁, hk₁⟩ := hd₁
  obtain ⟨held₂, hk₂, -⟩ := (exec_moves hok).grows.holds.kept h held₁ hk₁
  exact ⟨held₂, hk₂⟩

/-- **A resolved hold is open after a run exactly when it was taken up again.** -/
theorem isHeld_iff_takenUpAgain {h : ℕ} {held : CreditHold} (calls : List (Env × LifecycleCall))
    (hk : db.holds.get? h = some held) (hstatus : held.status ≠ .held) :
    (runLifecycle calls db).IsHeld h ↔ TakenUpAgain h calls db := by
  constructor
  · intro hend
    have hstart : ¬ db.IsHeld h := by
      rintro ⟨held', hk', hopen⟩
      obtain rfl := Option.some.inj (hk.symm.trans hk')
      exact hstatus hopen
    obtain ⟨earlier, c, later, hcalls, hbefore, hafter⟩ := Store.run_last_switch hstart hend
    obtain ⟨env, c⟩ := c
    obtain ⟨held₁, hk₁⟩ := runLifecycle_hold_kept earlier hk
    have hresolved : held₁.status ≠ .held := fun hopen => hbefore ⟨held₁, hk₁, hopen⟩
    obtain ⟨held₂, hk₂, hopen⟩ := hafter 0
    cases hexec : c.exec env (runLifecycle earlier db) with
    | error e =>
      -- A refused call does not open the hold.
      have hsame : Store.commit (c.exec env) (runLifecycle earlier db) = runLifecycle earlier db :=
        Store.commit_error hexec
      refine absurd ⟨held₂, ?_, hopen⟩ hbefore
      exact (congrArg (fun d : Db => d.holds.get? h) hsame).symm.trans hk₂
    | ok d =>
      have hd : Store.commit (c.exec env) (runLifecycle earlier db) = d := Store.commit_ok hexec
      have hk₂' : d.holds.get? h = some held₂ :=
        (congrArg (fun d : Db => d.holds.get? h) hd).symm.trans hk₂
      rcases LifecycleCall.exec_resolved hexec hk₁ hresolved with hsame | ⟨-, args, rfl, hkey⟩
      · obtain rfl := Option.some.inj (hsame.symm.trans hk₂')
        exact absurd hopen hresolved
      · exact ⟨earlier, env, args, later, held₁, hcalls, hk₁, hresolved, hkey, hafter⟩
  · rintro ⟨earlier, env, args, later, -, rfl, -, -, -, hafter⟩
    have hend := hafter later.length
    rw [List.take_length] at hend
    have hrun : runLifecycle (earlier ++ (env, .wallet (.hold args)) :: later) db =
        runLifecycle later (Store.commit (LifecycleCall.exec env (.wallet (.hold args)))
          (runLifecycle earlier db)) := Store.run_append _ _ _
    rw [hrun]
    exact hend

/-- **When a release delivered again changes nothing.**  In every run from a database
without wallets: a release is applied once, wallet operations and workers follow, and the
same release arrives again.  It changes no lot, no balance and no hold's status exactly
when no `hold` under the hold's key has taken it up again since, or that reservation is
resolved too. -/
theorem release_again_iff (hbare : db.Bare) {before : List (Env × LifecycleCall)} {first : Env}
    {args : ReleaseArgs} {db₁ : Db} (h : release first args (runLifecycle before db) = .ok db₁)
    (between : List (Env × LifecycleCall)) (again : Env) :
    (runLifecycle between db₁).MoneyKept
        (Store.commit (release again args) (runLifecycle between db₁)) ↔
      ¬ TakenUpAgain args.hold between db₁ := by
  have hr : db₁.Referenced :=
    exec_referenced (c := .release args) (runLifecycle_referenced before hbare.holdsSound.referenced) h
  obtain ⟨held, hheld, hstatus⟩ := release_not_isHeld h
  rw [release_moneyKept_iff args (runLifecycle_referenced between hr),
    isHeld_iff_takenUpAgain between hheld hstatus]

/-- A reservation that is given up. -/
def reservedOnce : List (Env × LifecycleCall) :=
  [(Env.plain 0, .wallet (.credit
      { user := 7
        credits := 100
        type := .creditPurchase
        source := .purchase })),
    (Env.plain 10, .wallet (.hold
      { user := 7
        credits := 40
        type := .aiCharge
        idempotencyKey := "job" }))]

/-- The next attempt at the job reserves under the same key. -/
def reservedAgain : List (Env × LifecycleCall) :=
  [(Env.plain 30, .wallet (.hold
      { user := 7
        credits := 40
        type := .aiCharge
        idempotencyKey := "job" }))]

theorem release_again_iff_job : ∃ db₁,
    release (Env.plain 20) { hold := 0 } (runLifecycle reservedOnce Db.empty) = .ok db₁ ∧
    ((runLifecycle reservedAgain db₁).MoneyKept
        (Store.commit (release (Env.plain 40) { hold := 0 }) (runLifecycle reservedAgain db₁)) ↔
      ¬ TakenUpAgain 0 reservedAgain db₁) := by
  obtain ⟨db₁, h⟩ : ∃ db₁, release (Env.plain 20) { hold := 0 }
      (runLifecycle reservedOnce Db.empty) = .ok db₁ := ⟨_, rfl⟩
  exact ⟨db₁, h, release_again_iff ⟨rfl, rfl, rfl, rfl, rfl⟩ h reservedAgain (Env.plain 40)⟩

/-- Delivered again, the release of the first attempt gives up the second. -/
theorem release_again_frees : ∃ db₁ db₂,
    release (Env.plain 20) { hold := 0 } (runLifecycle reservedOnce Db.empty) = .ok db₁ ∧
    release (Env.plain 40) { hold := 0 } (runLifecycle reservedAgain db₁) = .ok db₂ ∧
    (((runLifecycle reservedAgain db₁).holds.get? 0).map CreditHold.status = some .held ∧
      ((runLifecycle reservedAgain db₁).wallets.get? 0).map Wallet.balance = some 60) ∧
    ((db₂.holds.get? 0).map CreditHold.status = some .released ∧
      (db₂.wallets.get? 0).map Wallet.balance = some 100) ∧
    ¬ (runLifecycle reservedAgain db₁).MoneyKept db₂ := by
  refine ⟨_, _, rfl, rfl, ⟨rfl, rfl⟩, ⟨rfl, rfl⟩, fun hkept => ?_⟩
  have hstatus := hkept.statuses 0
  exact absurd hstatus (by decide)

end StapelBilling
