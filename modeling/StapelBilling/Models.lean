import StapelBilling.Store.Query

/-! # The billing tables

The rows of the service: wallets, credit lots, the transaction ledger, holds
with their allocations, debts, local subscriptions, parked billing periods and
provider claims.  A foreign key is the key of the row it points at.  Rows that a
query orders by `created_at, id` carry both: the creation stamp and the order of
their random identifier, neither of which follows insertion order.

Credits and cents are unbounded integers, so that a negative number would show;
instants are microseconds.
-/
namespace StapelBilling
open Store

/-- An instant, in microseconds since the epoch. -/
abbrev Time := ℤ

/-- `timedelta(seconds=n)`. -/
def seconds (n : ℤ) : Time := n * 1000000

/-- An account of the host's user table. -/
abbrev UserId := ℕ

/-! ## Enumerations -/

inductive SubscriptionStatus
  | active | trialing | pastDue | cancelled | incomplete | incompleteExpired | unpaid | paused
  deriving DecidableEq, Repr

inductive TransactionType
  | creditPurchase | transcriptionCharge | aiCharge | subscriptionBonus | refund | adjustment
  | expiration
  deriving DecidableEq, Repr

/-- The stored word of a transaction type. -/
def TransactionType.value : TransactionType → String
  | .creditPurchase => "credit_purchase"
  | .transcriptionCharge => "transcription_charge"
  | .aiCharge => "ai_charge"
  | .subscriptionBonus => "subscription_bonus"
  | .refund => "refund"
  | .adjustment => "adjustment"
  | .expiration => "expiration"

inductive DebtReason
  | partialDebit | clawback
  deriving DecidableEq, Repr

def DebtReason.value : DebtReason → String
  | .partialDebit => "partial_debit"
  | .clawback => "clawback"

inductive LotSource
  | purchase | subscription | grant | adjustment | holdRelease
  deriving DecidableEq, Repr

def LotSource.value : LotSource → String
  | .purchase => "purchase"
  | .subscription => "subscription"
  | .grant => "grant"
  | .adjustment => "adjustment"
  | .holdRelease => "hold_release"

/-- `get_source_display()`. -/
def LotSource.display : LotSource → String
  | .purchase => "Purchase"
  | .subscription => "Subscription"
  | .grant => "Grant"
  | .adjustment => "Adjustment"
  | .holdRelease => "Hold Release"

inductive HoldStatus
  | held | captured | released | expired
  deriving DecidableEq, Repr

/-- The kind of object a claim names; the last two are letters that were sent. -/
inductive GrantScope
  | checkoutSession | invoice | clawback | planBundle | notifyPayment | notifyPaymentFailed
  deriving DecidableEq, Repr

/-! ## Metadata -/

/-- The tables whose identifiers travel as text. -/
inductive TableName
  | wallet | lot | transaction | hold | debt | compPeriod
  deriving DecidableEq, Repr

/-- A JSON value.  The text of a row's identifier is `ref`, every other string
`str`; `lots` is the per-lot split the module writes, `compound` any other array
or object, known by its size. -/
inductive Json
  | null
  | bool (b : Bool)
  | int (n : ℤ)
  | float (q : ℚ)
  | str (s : String)
  | ref (table : TableName) (key : ℕ)
  | time (t : Time)
  | lots (taken : List (ℕ × ℤ))
  | compound (size tag : ℕ)
  deriving DecidableEq

/-- Python's truth value. -/
def Json.truthy : Json → Bool
  | .null => false
  | .bool b => b
  | .int n => n ≠ 0
  | .float q => q ≠ 0
  | .str s => s ≠ ""
  | .ref _ _ => true
  | .time _ => true
  | .lots taken => !taken.isEmpty
  | .compound size _ => size ≠ 0

/-- The keys the module itself writes into a metadata column, and every other
key a caller may use. -/
inductive MetaKey
  | idempotencyKey | lots | partialCharge | requestedCredits | shortfall | debtId
  | internalMeterOnly | waivedCredits | holdId | lotId | source | expiresAt
  | debtSettlement | debtReason | clawbackOf | requested | reclaimed | forgiven | outstanding
  | reversed | reversedBy | cancelledBy | clawbackReason | stripeEventId | stripeObjectId
  | disputeWon | reverses | merge | mergedWalletId | mergeForfeit
  | package | plan | simulated | stripeSessionId | stripePaymentIntent | stripeInvoiceId
  | stripeChargeId | stripeSubscriptionId
  | other (name : String)
  deriving DecidableEq

/-- A metadata dictionary. -/
abbrev Metadata := MetaKey → Option Json

namespace Metadata

/-- `{}`. -/
def empty : Metadata := fun _ => none

/-- `{**m, key: value}`. -/
def set (m : Metadata) (key : MetaKey) (value : Json) : Metadata :=
  fun k => if k = key then some value else m k

/-- A copy without one key. -/
def erase (m : Metadata) (key : MetaKey) : Metadata :=
  fun k => if k = key then none else m k

/-- `{**m, **n}`. -/
def merge (m n : Metadata) : Metadata := fun k => (n k).or (m k)

/-- `bool(m.get(key))`. -/
def truthy (m : Metadata) (key : MetaKey) : Bool := ((m key).getD .null).truthy

@[simp] theorem set_same (m : Metadata) (key : MetaKey) (v : Json) : m.set key v key = some v := by
  simp [set]

theorem set_of_ne (m : Metadata) {key k : MetaKey} (v : Json) (h : k ≠ key) :
    m.set key v k = m k := by
  simp [set, h]

theorem erase_of_ne (m : Metadata) {key k : MetaKey} (h : k ≠ key) : m.erase key k = m k := by
  simp [erase, h]

end Metadata

/-! ## Rows -/

/-- One account's credit balance.  `balance` caches the live lots; `mergedInto`
marks a wallet closed by a merge. -/
structure Wallet where
  user : Option UserId
  mergedInto : Option ℕ := none
  balance : ℤ := 0
  currency : String := "USD"
  autoRechargeEnabled : Bool := false
  autoRechargeThreshold : ℤ := 0
  autoRechargePackage : Option String := none
  lowBalanceAlert : ℤ := 0

/-- One batch of credits with a common origin and a common expiry. -/
structure CreditLot where
  wallet : ℕ
  source : LotSource
  creditsInitial : ℤ
  creditsRemaining : ℤ
  expiresAt : Option Time := none
  grantingTransaction : Option ℕ := none
  createdAt : Time
  uuid : ℕ

/-- A ledger entry. -/
structure Transaction where
  wallet : ℕ
  lot : Option ℕ := none
  type : TransactionType
  amountCents : Option ℤ := none
  creditsDelta : ℤ
  balanceAfter : ℤ
  description : Option String := none
  metadata : Metadata := Metadata.empty
  idempotencyKey : String := ""
  createdAt : Time
  uuid : ℕ

/-- How much of a hold came out of which lot. -/
structure HoldAllocation where
  lot : ℕ
  credits : ℤ
  createdAt : Time
  uuid : ℕ

/-- A reservation, with the allocation rows of its `allocations` relation. -/
structure CreditHold where
  wallet : ℕ
  credits : ℤ
  type : TransactionType
  description : Option String := none
  metadata : Metadata := Metadata.empty
  idempotencyKey : String
  status : HoldStatus := .held
  expiresAt : Option Time := none
  resolvedAt : Option Time := none
  createdAt : Time
  allocations : Table HoldAllocation

/-- Credits a wallet owes. -/
structure CreditDebt where
  wallet : ℕ
  creditsInitial : ℤ
  creditsOutstanding : ℤ
  reason : DebtReason
  type : TransactionType
  description : Option String := none
  metadata : Metadata := Metadata.empty
  idempotencyKey : String := ""
  transaction : Option ℕ := none
  settledAt : Option Time := none
  createdAt : Time
  uuid : ℕ

/-- The local mirror of a provider subscription. -/
structure Subscription where
  user : Option UserId
  plan : String := "free"
  status : SubscriptionStatus := .active
  stripeSubscriptionId : Option String := none
  stripeCustomerId : Option String := none
  lastProviderEventAt : Option Time := none
  currentPeriodStart : Option Time := none
  currentPeriodEnd : Option Time := none
  cancelAtPeriodEnd : Bool := false
  cancelledAt : Option Time := none
  deriving DecidableEq

/-- A billing period that arrived before the subscription it belongs to. -/
structure PendingSubscriptionPeriod where
  stripeSubscriptionId : String
  stripeCustomerId : String := ""
  status : String := ""
  currentPeriodStart : Option Time := none
  currentPeriodEnd : Option Time := none
  providerEventAt : Option Time := none
  deriving DecidableEq

/-- Subscription time the operator gave away, not the provider sold. -/
structure CompPeriod where
  subscription : ℕ
  plan : String
  startsAt : Time
  endsAt : Time
  reason : String
  grantedBy : String := ""
  revokedAt : Option Time := none
  deriving DecidableEq

/-- One provider object, one grant. -/
structure ProviderGrant where
  provider : String := "stripe"
  scope : GrantScope
  externalId : String
  deriving DecidableEq

/-- A fact the outbox carries to other services. -/
inductive Fact
  | paymentCompleted (user : UserId) (amountCents : ℤ) (currency : String) (transaction : ℕ)
      (extra : Metadata)
  | subscriptionChanged (user : Option UserId) (plan : String) (status : SubscriptionStatus)
      (currentPeriodEnd : Option Time) (cancelAtPeriodEnd : Bool)
  | paymentFailed (user : UserId) (amountCents : ℤ) (currency : String) (createdAt : Time)
      (extra : Metadata)
  | subscriptionComped (user : UserId) (plan : String) (status : SubscriptionStatus)
      (currentPeriodEnd : Option Time) (cancelAtPeriodEnd : Bool) (compedUntil : Time)

/-- The database. -/
structure Db where
  users : List UserId := []
  wallets : Table Wallet := Table.empty
  lots : Table CreditLot := Table.empty
  transactions : Table Transaction := Table.empty
  holds : Table CreditHold := Table.empty
  debts : Table CreditDebt := Table.empty
  subscriptions : Table Subscription := Table.empty
  pendingPeriods : Table PendingSubscriptionPeriod := Table.empty
  providerGrants : Table ProviderGrant := Table.empty
  compPeriods : Table CompPeriod := Table.empty
  outbox : List Fact := []

/-- The database before the first wallet. -/
def Db.empty : Db := {}

/-! ## Errors -/

/-- The letters the module asks for. -/
inductive NotificationType
  | paymentSucceeded | paymentFailed
  deriving DecidableEq, Repr

/-- What a service call raises. -/
inductive BillingError
  | valueError (message : String)
  | typeError (message : String)
  | validationError
  | insufficientCredits (balance required : ℤ)
  | holdNotFound (hold : ℕ)
  | holdState (hold : ℕ) (status : HoldStatus)
  | chargeMissing (hold : ℕ)
  | holdKeyResolved (hold : ℕ) (status : HoldStatus)
  | doesNotExist
  | multipleObjectsReturned
  | integrityError
  | attributeError (message : String)
  | notificationNotQueued (type : NotificationType) (externalId : String)
  deriving DecidableEq, Repr

/-! ## Texts -/

/-- Is this a blank to `str.isspace`? -/
def isSpace (c : Char) : Bool :=
  let n := c.toNat
  (9 ≤ n && n ≤ 13) || (28 ≤ n && n ≤ 32) || n = 0x85 || n = 0xa0 || n = 0x1680 ||
    (0x2000 ≤ n && n ≤ 0x200a) || n = 0x2028 || n = 0x2029 || n = 0x202f || n = 0x205f ||
    n = 0x3000

/-- `str.strip`: a text without the blanks around it. -/
def strip (text : String) : String :=
  String.ofList ((text.toList.dropWhile isSpace).reverse.dropWhile isSpace).reverse

/-- The zeros of the decimal digits that `int` reads, as of Unicode 14: each is followed by
the nine other digits of its script. -/
def decimalZeros : List ℕ :=
  [0x30, 0x660, 0x6f0, 0x7c0, 0x966, 0x9e6, 0xa66, 0xae6, 0xb66, 0xbe6, 0xc66, 0xce6, 0xd66, 0xde6,
    0xe50, 0xed0, 0xf20, 0x1040, 0x1090, 0x17e0, 0x1810, 0x1946, 0x19d0, 0x1a80, 0x1a90, 0x1b50,
    0x1bb0, 0x1c40, 0x1c50, 0xa620, 0xa8d0, 0xa900, 0xa9d0, 0xa9f0, 0xaa50, 0xabf0, 0xff10, 0x104a0,
    0x10d30, 0x11066, 0x110f0, 0x11136, 0x111d0, 0x112f0, 0x11450, 0x114d0, 0x11650, 0x116c0,
    0x11730, 0x118e0, 0x11950, 0x11c50, 0x11d50, 0x11da0, 0x16a60, 0x16ac0, 0x16b50, 0x1d7ce,
    0x1d7d8, 0x1d7e2, 0x1d7ec, 0x1d7f6, 0x1e140, 0x1e2f0, 0x1e950, 0x1fbf0]

/-- The value of a decimal digit of any script. -/
def decimalDigit (c : Char) : Option ℕ :=
  (decimalZeros.find? fun first => first ≤ c.toNat && c.toNat < first + 10).map fun first =>
    c.toNat - first

/-- The decimal digits of an integer literal, single underscores between them
allowed. -/
def digitsValue (acc : ℕ) (afterDigit : Bool) : List Char → Option ℕ
  | [] => if afterDigit then some acc else none
  | c :: cs =>
    match decimalDigit c with
    | some d => digitsValue (acc * 10 + d) true cs
    | none => if c = '_' ∧ afterDigit then digitsValue acc false cs else none

/-- The text of an integer literal: blanks around it, an optional sign, digits. -/
def intLiteral (s : String) : Option ℤ :=
  match (strip s).toList with
  | '-' :: digits => (digitsValue 0 false digits).map fun n => -(n : ℤ)
  | '+' :: digits => (digitsValue 0 false digits).map fun n => (n : ℤ)
  | digits => (digitsValue 0 false digits).map fun n => (n : ℤ)

example : strip "\u00a0two words\u2003" = "two words" ∧ intLiteral " -٤2 " = some (-42) := by
  decide +kernel

/-- Python's `int()` on a metadata value. -/
def Json.toInt : Json → Except BillingError ℤ
  | .int n => .ok n
  | .bool b => .ok (if b then 1 else 0)
  | .float q => .ok (q.num.tdiv q.den)
  | .str s => match intLiteral s with
    | some n => .ok n
    | none => .error (.valueError "invalid literal for int() with base 10")
  | .ref _ _ | .time _ => .error (.valueError "invalid literal for int() with base 10")
  | .null | .lots _ | .compound _ _ =>
    .error (.typeError "int() argument must be a string, a bytes-like object or a real number")

/-- `int(m.get(key) or 0)`. -/
def Metadata.intOrZero (m : Metadata) (key : MetaKey) : Except BillingError ℤ :=
  if m.truthy key then ((m key).getD .null).toInt else .ok 0

/-- `filter(pk=value).first()` on one table: the text of a row's identifier finds
that row, an absent value or another identifier finds nothing, and a value that is
no identifier at all is refused. -/
def lookupPk {α : Type} (t : Table α) (name : TableName) : Option Json →
    Except BillingError (Option (ℕ × α))
  | some (.ref table k) =>
    .ok (if table = name then (t.get? k).map fun a => (k, a) else none)
  | none | some .null | some (.int _) | some (.bool _) => .ok none
  | some _ => .error .validationError

/-- `text or fallback`. -/
def orText (text fallback : Option String) : Option String :=
  match text with
  | some t => if t = "" then fallback else some t
  | none => fallback

end StapelBilling
