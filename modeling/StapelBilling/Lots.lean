import StapelBilling.Conf

/-! # Credit lots: expiry, consumption and the cached balance

A wallet is its lots.  A lot is live while it holds credits and its deadline is
ahead; the sweep zeroes the lots whose deadline has passed, one ledger row each,
and a spend walks the live lots expiring-soonest first.  `Wallet.balance` caches
the live total.  Every helper assumes the wallet's row lock is held.
-/
namespace StapelBilling
open Store

/-! ## Live and due -/

/-- `expires_at IS NULL OR expires_at > now`. -/
def aliveAt (now : Time) : Option Time → Prop
  | none => True
  | some e => now < e

/-- `expires_at <= now`; a lot without a deadline never is. -/
def dueAt (now : Time) : Option Time → Prop
  | none => False
  | some e => e ≤ now

instance (now : Time) (e : Option Time) : Decidable (aliveAt now e) := by
  cases e <;> unfold aliveAt <;> infer_instance

instance (now : Time) (e : Option Time) : Decidable (dueAt now e) := by
  cases e <;> unfold dueAt <;> infer_instance

theorem not_aliveAt_iff {now : Time} {e : Option Time} : ¬ aliveAt now e ↔ dueAt now e := by
  cases e <;> simp [aliveAt, dueAt]

/-- What is due stays due. -/
theorem dueAt_of_le {now later : Time} (hle : now ≤ later) {e : Option Time} (h : dueAt now e) :
    dueAt later e := by
  cases e with
  | none => exact h.elim
  | some deadline => exact le_trans h hle

namespace CreditLot

/-- Can this lot still be spent? -/
def Live (now : Time) (lot : CreditLot) : Prop :=
  0 < lot.creditsRemaining ∧ aliveAt now lot.expiresAt

/-- Has this lot died with credits left in it? -/
def Due (now : Time) (lot : CreditLot) : Prop :=
  0 < lot.creditsRemaining ∧ dueAt now lot.expiresAt

instance (now : Time) : DecidablePred (Live now) := fun lot => by unfold Live; infer_instance
instance (now : Time) : DecidablePred (Due now) := fun lot => by unfold Due; infer_instance

/-- Take `n` credits out of the lot. -/
def spend (n : ℤ) (lot : CreditLot) : CreditLot :=
  { lot with creditsRemaining := lot.creditsRemaining - n }

/-- Empty the lot. -/
def zero (lot : CreditLot) : CreditLot := { lot with creditsRemaining := 0 }

/-- The consumption order: expiring soonest first, without deadline last, then by
creation stamp and identifier. -/
def spendKey (r : ℕ × CreditLot) : WithTop Time ×ₗ Time ×ₗ ℕ :=
  toLex (match r.2.expiresAt with | none => ⊤ | some e => (e : WithTop Time),
    toLex (r.2.createdAt, r.2.uuid))

end CreditLot

/-! ## The ledger -/

/-- The row `Transaction.objects.create` inserts: the caller's columns, with the
creation stamp and identifier of the key it lands on. -/
def Db.addTransaction (env : Env) (row : Time → ℕ → Transaction) (db : Db) : Db :=
  { db with
    transactions := db.transactions.insert
      (row (env.createdAt db.transactions.next) (env.uuid db.transactions.next)) }

namespace Db
variable (db : Db)

/-- The wallet's live lots in the order a spend walks them. -/
def liveLotsOrdered (w : ℕ) (now : Time) : List (ℕ × CreditLot) :=
  orderBy CreditLot.spendKey (db.lots.select fun lot => lot.wallet = w ∧ lot.Live now)

/-- Sum of the live lots. -/
def liveBalance (w : ℕ) (now : Time) : ℤ :=
  db.lots.sum fun _ lot => if lot.wallet = w ∧ lot.Live now then lot.creditsRemaining else 0

/-- Recompute the cached balance from the lots. -/
def syncBalance (w : ℕ) (now : Time) : Db :=
  { db with
    wallets := db.wallets.modify w fun wallet =>
      { wallet with balance := db.liveBalance w now } }

/-- The lots a sweep empties, earliest deadline first. -/
def dueLots (w : ℕ) (now : Time) : List (ℕ × CreditLot) :=
  orderBy CreditLot.spendKey (db.lots.select fun lot => lot.wallet = w ∧ lot.Due now)

end Db

/-! ## The wallet -/

/-- `_lock_wallet`: the user's wallet, created when there is none. -/
def lockWallet (user : UserId) (db : Db) : ℕ × Db :=
  match db.wallets.find? fun wallet => wallet.user = some user with
  | some (w, _) => (w, db)
  | none => (db.wallets.next, { db with wallets := db.wallets.insert { user := some user } })

/-! ## Expiry -/

/-- Empty one due lot and write its row; `running` is the balance after it. -/
def expireLot (env : Env) (w k : ℕ) (lot : CreditLot) (running : ℤ) (db : Db) : Db :=
  { db with lots := db.lots.modify k CreditLot.zero }.addTransaction env fun createdAt uuid =>
    { wallet := w
      lot := some k
      type := .expiration
      amountCents := none
      creditsDelta := -lot.creditsRemaining
      balanceAfter := running
      description := some s!"Credits expired ({lot.source.display})"
      metadata := ((Metadata.empty.set .lotId (.ref .lot k)).set .source
        (.str lot.source.value)).set .expiresAt ((lot.expiresAt.map Json.time).getD .null)
      createdAt
      uuid }

def expireLots (env : Env) (w : ℕ) : List (ℕ × CreditLot) → ℤ → Db → Db
  | [], _, db => db
  | (k, lot) :: due, running, db =>
    expireLots env w due (running - lot.creditsRemaining)
      (expireLot env w k lot (running - lot.creditsRemaining) db)

/-- Zero this wallet's expired lots, one expiry row each.  Returns the credits
expired. -/
def expireDueLots (env : Env) (w : ℕ) (db : Db) : ℤ × Db :=
  let due := db.dueLots w env.now
  if due = [] then (0, db)
  else
    let expired := (due.map fun r => r.2.creditsRemaining).sum
    (expired, (expireLots env w due (db.liveBalance w env.now + expired) db).syncBalance w env.now)

/-! ## Consumption -/

/-- Take `credits` out of the live lots, expiring first; refused when they are
short. -/
def consumeLots (w : ℕ) (credits : ℤ) (now : Time) (db : Db) :
    Except BillingError (List (ℕ × ℤ) × Db) :=
  let lots := db.liveLotsOrdered w now
  let available := (lots.map fun r => r.2.creditsRemaining).sum
  if available < credits then .error (.insufficientCredits available credits)
  else
    let taken := draw credits (lots.map fun r => (r.1, r.2.creditsRemaining))
    .ok (taken, { db with lots := db.lots.drain CreditLot.spend taken })

/-- The one lot an operation touched, if it was one. -/
def singleLot : List (ℕ × ℤ) → Option ℕ
  | [(k, _)] => some k
  | _ => none

/-! ## Idempotency keys -/

/-- The row a previous call with this key wrote: the indexed column first, then
the key mirrored into metadata; the newest row answers. -/
def transactionByIdempotencyKey (env : Env) (w : ℕ) (key : String) (db : Db) :
    Option (ℕ × Transaction) :=
  let newestFirst := orderBy fun r : ℕ × Transaction => OrderDual.toDual r.2.createdAt
  match (newestFirst (db.transactions.select fun row =>
      row.wallet = w ∧ row.idempotencyKey = key)).head? with
  | some existing => some existing
  | none =>
    if env.settings.legacyIdempotencyJsonLookup then
      (newestFirst (db.transactions.select fun row =>
        row.wallet = w ∧ row.metadata .idempotencyKey = some (.str key))).head?
    else none

/-- The lookup a call makes; an empty key is no key. -/
def existingCall (env : Env) (w : ℕ) (key : String) (db : Db) : Option (ℕ × Transaction) :=
  if key = "" then none else transactionByIdempotencyKey env w key db

end StapelBilling
