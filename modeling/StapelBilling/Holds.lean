import StapelBilling.Spending

/-! # Reservations

A hold takes its credits out of the lots at once and remembers, allocation by
allocation, which lot each came from; no ledger row is written.  `capture` bills
what the work cost and writes the row, `release` gives everything back, and what
is not billed returns as a new lot with the deadline and the grant of the lot it
was taken from.

`capture` and `release` choose the wallet to lock from a first, unlocked read of
the hold and read the hold again under that lock.  The part that runs under the
lock is a function of its own, so that something else may commit in between.
-/
namespace StapelBilling
open Store

/-! ## Hold -/

/-- The arguments of `hold`. -/
structure HoldArgs where
  user : UserId
  credits : ℤ
  type : TransactionType
  idempotencyKey : String
  description : Option String := none
  metadata : Metadata := Metadata.empty
  expiresAt : Option Time := none

/-- The allocation rows `bulk_create` appends, one per lot drawn from. -/
def appendAllocations (env : Env) (taken : List (ℕ × ℤ)) (allocations : Table HoldAllocation) :
    Table HoldAllocation :=
  taken.foldl (fun allocations p => allocations.insert
    { lot := p.1
      credits := p.2
      createdAt := env.createdAt allocations.next
      uuid := env.uuid allocations.next }) allocations

/-- The deadline of a new hold: the caller's, else the default, else none. -/
def holdDeadline (env : Env) (expiresAt : Option Time) : Option Time :=
  match expiresAt with
  | some e => some e
  | none =>
    if env.settings.holdTtl = 0 then none
    else some (env.now + seconds env.settings.holdTtl)

/-- The row a reservation leaves: a new hold, or the released or expired one under
the same key armed again with fresh allocations. -/
def armHold (env : Env) (w : ℕ) (args : HoldArgs) (credits : ℤ) (metadata : Metadata)
    (existing : Option ℕ) (taken : List (ℕ × ℤ)) (db : Db) : ℕ × Db :=
  let allocations := appendAllocations env taken Table.empty
  match existing with
  | some k =>
    (k, { db with
      holds := db.holds.modify k fun held =>
        { held with
          credits
          type := args.type
          description := args.description
          metadata
          status := .held
          expiresAt := holdDeadline env args.expiresAt
          resolvedAt := none
          allocations } })
  | none =>
    (db.holds.next, { db with
      holds := db.holds.insert
        { wallet := w
          credits
          type := args.type
          description := args.description
          metadata
          idempotencyKey := args.idempotencyKey
          status := .held
          expiresAt := holdDeadline env args.expiresAt
          createdAt := env.createdAt db.holds.next
          allocations } })

/-- Sweep, take the credits out of the lots, arm the row and refresh the balance.
An internal account's reservation reserves nothing and is marked. -/
def reserve (env : Env) (w : ℕ) (args : HoldArgs) (existing : Option ℕ) (db : Db) :
    Except BillingError (ℕ × Db) :=
  let db := (expireDueLots env w db).2
  let waived := env.settings.meterOnly (some args.user)
  let metadata := if waived then args.metadata.mark args.credits else args.metadata
  let credits := if waived then 0 else args.credits
  match takeCredits w credits env.now db with
  | .error e => .error e
  | .ok (taken, db) =>
    let (k, db) := armHold env w args credits metadata existing taken db
    .ok (k, db.syncBalance w env.now)

/-- Reserve credits before doing work whose cost is not known yet.  Returns the
hold. -/
def hold (env : Env) (args : HoldArgs) (db : Db) : Except BillingError (ℕ × Db) :=
  if args.credits ≤ 0 then .error (.valueError "credits must be positive")
  else if args.idempotencyKey = "" then .error (.valueError "idempotency_key is required")
  else
    let (w, db) := lockWallet args.user db
    match db.holds.find? fun h => h.wallet = w ∧ h.idempotencyKey = args.idempotencyKey with
    | some (k, existing) =>
      match existing.status with
      | .captured => .error (.holdKeyResolved k existing.status)
      | .held => .ok (k, db)
      | .released | .expired => reserve env w args (some k) db
    | none => reserve env w args none db

/-! ## Giving credits back -/

/-- The newest allocation first. -/
def HoldAllocation.newest (r : ℕ × HoldAllocation) : (Time ×ₗ ℕ)ᵒᵈ :=
  OrderDual.toDual (toLex (r.2.createdAt, r.2.uuid))

/-- Return part of one allocation as a lot with the deadline and the grant of the
lot it came from. -/
def refundAllocation (env : Env) (h w a : ℕ) (alloc : HoldAllocation) (amount : ℤ) (db : Db) : Db :=
  let source := db.lots.get? alloc.lot
  { db with
    lots := db.lots.insert
      { wallet := w
        source := .holdRelease
        creditsInitial := amount
        creditsRemaining := amount
        expiresAt := source.bind CreditLot.expiresAt
        grantingTransaction := source.bind CreditLot.grantingTransaction
        createdAt := env.createdAt db.lots.next
        uuid := env.uuid db.lots.next }
    holds := db.holds.modify h fun held =>
      { held with
        allocations := held.allocations.modify a fun alloc =>
          { alloc with credits := alloc.credits - amount } } }

def refundEach (env : Env) (h w : ℕ) : List (ℕ × HoldAllocation) → ℤ → Db → Db
  | [], _, db => db
  | (a, alloc) :: allocations, outstanding, db =>
    if outstanding ≤ 0 then db
    else
      let amount := min outstanding alloc.credits
      if amount ≤ 0 then refundEach env h w allocations outstanding db
      else refundEach env h w allocations (outstanding - amount)
        (refundAllocation env h w a alloc amount db)

/-- Hand `credits` of a hold back, newest allocation first. -/
def refundAllocations (env : Env) (h : ℕ) (held : CreditHold) (credits : ℤ) (db : Db) : Db :=
  refundEach env h held.wallet (orderBy HoldAllocation.newest held.allocations.rows) credits db

/-! ## Capture and release -/

/-- `_settle`: record the outcome of a hold. -/
def settleHold (env : Env) (h : ℕ) (status : HoldStatus) (db : Db) : Db :=
  { db with
    holds := db.holds.modify h fun held =>
      { held with
        status
        resolvedAt := some env.now } }

/-- The arguments of `capture`. -/
structure CaptureArgs where
  hold : ℕ
  actualCredits : Option ℤ := none
  description : Option String := none
  metadata : Metadata := Metadata.empty

/-- The charge row a captured hold names. -/
def captureRow (w h : ℕ) (db : Db) : Option (ℕ × Transaction) :=
  (orderBy (fun r : ℕ × Transaction => OrderDual.toDual r.2.createdAt)
    (db.transactions.select fun row =>
      row.wallet = w ∧ row.metadata .holdId = some (.ref .hold h))).head?

/-- What the hold is charged for: its allocations, oldest first, that hold
anything. -/
def chargedAllocations (held : CreditHold) : List (ℕ × ℤ) :=
  ((orderBy (fun r : ℕ × HoldAllocation => toLex (r.2.createdAt, r.2.uuid))
    held.allocations.rows).filter fun r => 0 < r.2.credits).map fun r => (r.2.lot, r.2.credits)

/-- Bill a waived hold at zero and settle it. -/
def meterOnlyCapture (env : Env) (w : ℕ) (held : CreditHold) (actual : ℤ) (args : CaptureArgs)
    (db : Db) : ℕ × Db :=
  let balance := db.liveBalance w env.now
  let db := db.syncBalance w env.now
  let txn := db.transactions.next
  let db := db.addTransaction env fun createdAt uuid =>
    { wallet := w
      lot := none
      type := held.type
      amountCents := none
      creditsDelta := 0
      balanceAfter := balance
      description := orText args.description held.description
      metadata := (((held.metadata.merge args.metadata).set .holdId (.ref .hold args.hold)).set
        .lots (.lots [])).mark actual
      createdAt
      uuid }
  (txn, settleHold env args.hold .captured db)

/-- Allocate further draws to a hold. -/
def allocateMore (env : Env) (h : ℕ) (taken : List (ℕ × ℤ)) (db : Db) : Db :=
  { db with
    holds := db.holds.modify h fun held =>
      { held with allocations := appendAllocations env taken held.allocations } }

/-- Move the hold's reservation to what the work cost: more is drawn from the live
lots and allocated, less is handed back. -/
def adjustHold (env : Env) (w : ℕ) (held : CreditHold) (actual : ℤ) (args : CaptureArgs)
    (db : Db) : Except BillingError Db :=
  if held.credits < actual then
    match consumeLots w (actual - held.credits) env.now db with
    | .error e => .error e
    | .ok (taken, db) => .ok (allocateMore env args.hold taken db)
  else if actual < held.credits then
    .ok (expireDueLots env w
      (refundAllocations env args.hold held (held.credits - actual) db)).2
  else .ok db

/-- Write the charge row of an adjusted hold and settle it. -/
def billHold (env : Env) (w : ℕ) (held : CreditHold) (actual : ℤ) (args : CaptureArgs)
    (db : Db) : ℕ × Db :=
  let balance := db.liveBalance w env.now
  let db := db.syncBalance w env.now
  let charged := match db.holds.get? args.hold with
    | some held => chargedAllocations held
    | none => []
  let txn := db.transactions.next
  let db := db.addTransaction env fun createdAt uuid =>
    { wallet := w
      lot := singleLot charged
      type := held.type
      amountCents := none
      creditsDelta := -actual
      balanceAfter := balance
      description := orText args.description held.description
      metadata := ((held.metadata.merge args.metadata).set .holdId (.ref .hold args.hold)).set
        .lots (.lots charged)
      createdAt
      uuid }
  (txn, settleHold env args.hold .captured db)

/-- `capture` once it has locked wallet `w` and read the hold again. -/
def captureLocked (env : Env) (w : ℕ) (args : CaptureArgs) (db : Db) :
    Except BillingError (ℕ × Db) :=
  match db.wallets.get? w, db.holds.get? args.hold with
  | some _, some held =>
    match held.status with
    | .captured =>
      match captureRow w args.hold db with
      | some (txn, _) => .ok (txn, db)
      | none => .error (.chargeMissing args.hold)
    | .released | .expired => .error (.holdState args.hold held.status)
    | .held =>
      let actual := args.actualCredits.getD held.credits
      if actual < 0 then .error (.valueError "actual_credits must not be negative")
      else if held.metadata.wasWaived then .ok (meterOnlyCapture env w held actual args db)
      else
        match adjustHold env w held actual args (expireDueLots env w db).2 with
        | .error e => .error e
        | .ok db => .ok (billHold env w held actual args db)
  | _, _ => .error .doesNotExist

/-- The unlocked read that names the wallet to lock. -/
def holdWallet (h : ℕ) (db : Db) : Except BillingError ℕ :=
  match db.holds.get? h with
  | some held => .ok held.wallet
  | none => .error (.holdNotFound h)

/-- Bill a hold for what the work cost.  Returns the charge row. -/
def capture (env : Env) (args : CaptureArgs) (db : Db) : Except BillingError (ℕ × Db) :=
  match holdWallet args.hold db with
  | .error e => .error e
  | .ok w => captureLocked env w args db

/-- The arguments of `release`. -/
structure ReleaseArgs where
  hold : ℕ
  expired : Bool := false

/-- Give back everything a held hold still draws from the lots and settle it. -/
def releaseHeld (env : Env) (w : ℕ) (held : CreditHold) (args : ReleaseArgs) (db : Db) : Db :=
  let db := (expireDueLots env w db).2
  let outstanding := held.allocations.sum fun _ alloc => alloc.credits
  let db := refundAllocations env args.hold held outstanding db
  let db := (expireDueLots env w db).2
  settleHold env args.hold (if args.expired then .expired else .released)
    (db.syncBalance w env.now)

/-- `release` once it has locked wallet `w` and read the hold again. -/
def releaseLocked (env : Env) (w : ℕ) (args : ReleaseArgs) (db : Db) : Except BillingError Db :=
  match db.wallets.get? w, db.holds.get? args.hold with
  | some _, some held =>
    if held.status = .held then .ok (releaseHeld env w held args db) else .ok db
  | _, _ => .error .doesNotExist

/-- Give a hold's credits back; a hold that is not held stays as it is. -/
def release (env : Env) (args : ReleaseArgs) (db : Db) : Except BillingError Db :=
  match holdWallet args.hold db with
  | .error e => .error e
  | .ok w => releaseLocked env w args db

end StapelBilling
