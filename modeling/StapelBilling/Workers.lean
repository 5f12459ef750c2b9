import StapelBilling.Holds

/-! # The scheduled workers

The expiry worker sweeps every wallet that has a due lot, the hold worker gives back
what nobody came back for, and the reconciliation reports the wallets whose cached
balance is not what their live lots hold.
-/
namespace StapelBilling
open Store

/-- Sweep these wallets, one after the other; one that is gone is passed over.  Returns
the credits expired. -/
def expireWallets (env : Env) : List ℕ → Db → ℤ × Db
  | [], db => (0, db)
  | w :: wallets, db =>
    match db.wallets.get? w with
    | none => expireWallets env wallets db
    | some _ =>
      let (expired, db) := expireDueLots env w db
      let (rest, db) := expireWallets env wallets db
      (expired + rest, db)

/-- The wallets with a due lot, each once. -/
def Db.dueWallets (db : Db) (now : Time) : List ℕ :=
  ((db.lots.select (CreditLot.Due now)).map fun r => r.2.wallet).dedup

/-- `expire_credit_lots`. -/
def expireCreditLots (env : Env) (db : Db) : ℤ × Db :=
  expireWallets env (db.dueWallets env.now) db

/-- Is this an abandoned reservation? -/
def CreditHold.Stale (now : Time) (held : CreditHold) : Prop :=
  held.status = .held ∧ dueAt now held.expiresAt

instance (now : Time) : DecidablePred (CreditHold.Stale now) := fun held => by
  unfold CreditHold.Stale; infer_instance

/-- Release these holds, each in a transaction of its own; a failure ends the loop. -/
def releaseStale (env : Env) : List ℕ → Db → Db
  | [], db => db
  | h :: holds, db =>
    match release env { hold := h, expired := true } db with
    | .ok db => releaseStale env holds db
    | .error _ => db

/-- The abandoned reservations as the worker lists them: the newest hold first. -/
def Db.staleHolds (now : Time) (db : Db) : List ℕ :=
  (orderBy (fun r : ℕ × CreditHold => OrderDual.toDual r.2.createdAt)
    (db.holds.select (CreditHold.Stale now))).map Prod.fst

/-- `expire_holds`. -/
def expireHolds (env : Env) (db : Db) : Db := releaseStale env (db.staleHolds env.now) db

/-- `reconcile_wallet_balances`: the wallets whose cache is not the sum of their live
lots, with both numbers. -/
def reconcileWalletBalances (now : Time) (db : Db) : List (ℕ × ℤ × ℤ) :=
  (db.wallets.rows.map fun r => (r.1, r.2.balance, db.liveBalance r.1 now)).filter
    fun r => r.2.1 ≠ r.2.2

end StapelBilling
