import StapelBilling.Marks
import StapelBilling.Service

/-! # Retries

A credit or a debit under an idempotency key writes one ledger row that carries the key.
The next call under the key finds that row and answers from it.  So the key column says
which calls were made: a wallet has at most one row under a key, no other row of the
ledger spells the key in its metadata, and a debt names the row of the charge it came
from.
-/
namespace StapelBilling
open Store

variable {env : Env} {w : ℕ} {db db' : Db}

/-- A key spelt in the metadata of the row is the key of the row. -/
def Transaction.Mirrored (row : Transaction) : Prop :=
  ∀ s, row.metadata .idempotencyKey = some (.str s) → row.idempotencyKey = s

/-- Row `t` is the one a call with key `key` on wallet `w` wrote. -/
structure Db.KeyedRow (db : Db) (w : ℕ) (key : String) (t : ℕ) (row : Transaction) : Prop where
  posted : db.transactions.get? t = some row
  wallet : row.wallet = w
  key : row.idempotencyKey = key

/-- No row's metadata spells another key than the row's own. -/
def Db.Mirrored (db : Db) : Prop := ∀ t row, db.transactions.get? t = some row → row.Mirrored

/-- **Retry keys are in place**: rows spell none but their own, reservations none at all. -/
structure Db.KeysInPlace (db : Db) : Prop where
  mirrored : db.Mirrored
  holds : ∀ h held, db.holds.get? h = some held → held.metadata .idempotencyKey = none

/-- What the tables keep for the answers to retries, whatever posts to them. -/
structure Db.Filed (db : Db) : Prop extends db.KeysInPlace where
  debts : ∀ j debt t, db.debts.get? j = some debt → debt.transaction = some t →
    t < db.transactions.next ∧
      ∀ i other, db.debts.get? i = some other → other.transaction = some t → i = j
  users : db.UsersUnique

/-! ## One move -/

/-- The key of the call that posts the row, if it has one. -/
def Move.retryKey : Move → String
  | .grant args => args.idempotencyKey
  | .meter args | .charge args _ _ => args.idempotencyKey
  | _ => ""

/-- The move writes no retry key that a caller hid in metadata, and takes nothing back. -/
def Move.Unkeyed : Move → Prop
  | .grant args => args.metadata .idempotencyKey = none
  | .meter args | .charge args _ _ => args.metadata .idempotencyKey = none
  | .arm args _ _ => args.metadata .idempotencyKey = none
  | .bill args held | .waive args held =>
    args.metadata .idempotencyKey = none ∧ held.metadata .idempotencyKey = none
  | .clawback _ _ _ _ _ _ | .cancel _ | .restore _ _ | .mark _ => False
  | _ => True

theorem Move.Unkeyed.isPlain {m : Move} (hm : m.Unkeyed) : m.IsPlain := by
  cases m <;> first | exact hm.elim | exact trivial

/-- The key of a call is mirrored into metadata that brings none. -/
theorem keyedMetadata_mirrored {m : Metadata} {key s : String} (hm : m .idempotencyKey = none)
    (h : keyedMetadata m key .idempotencyKey = some (.str s)) : key = s := by
  unfold keyedMetadata at h
  split at h
  · rw [hm] at h
    cases h
  · rw [Metadata.set_same] at h
    cases h
    rfl

theorem mark_unkeyed (m : Metadata) (n : ℤ) :
    m.mark n .idempotencyKey = m .idempotencyKey := by
  unfold Metadata.mark
  rw [Metadata.set_of_ne _ _ (by decide), Metadata.set_of_ne _ _ (by decide)]

theorem debitMetadata_key (args : DebitArgs) (taken : List (ℕ × ℤ)) (shortfall : ℤ) :
    debitMetadata args taken shortfall .idempotencyKey =
      keyedMetadata args.metadata args.idempotencyKey .idempotencyKey := by
  have hlots : ((keyedMetadata args.metadata args.idempotencyKey).set .lots (.lots taken))
      .idempotencyKey = keyedMetadata args.metadata args.idempotencyKey .idempotencyKey :=
    Metadata.set_of_ne _ _ (by decide)
  simp only [debitMetadata]
  split
  · exact hlots
  · rw [Metadata.set_of_ne _ _ (by decide), Metadata.set_of_ne _ _ (by decide),
      Metadata.set_of_ne _ _ (by decide), hlots]

/-- **The row a move posts**, if it posts one: it is the wallet's, its key is the call's,
and its metadata spells no other. -/
theorem Step.row_posted {m : Move} (h : Step env w m db db') (hm : m.Unkeyed) :
    (db'.transactions = db.transactions ∧ m.retryKey = "") ∨
      ∃ row, db'.transactions = db.transactions.insert row ∧ row.wallet = w ∧
        row.idempotencyKey = m.retryKey ∧ row.Mirrored := by
  cases h with
  | openWallet _ _ | sync | refund _ _ _ _ _ _ | overdraw _ _ _ _ | settle _ _ _ _ =>
    exact Or.inl ⟨rfl, rfl⟩
  | @arm _ _ _ _ existing _ _ _ _ _ =>
    cases existing <;> exact Or.inl ⟨rfl, rfl⟩
  | expire _ _ _ =>
    refine Or.inr ⟨_, rfl, rfl, rfl, fun s he => ?_⟩
    dsimp only at he
    rw [Metadata.set_of_ne _ _ (by decide), Metadata.set_of_ne _ _ (by decide),
      Metadata.set_of_ne _ _ (by decide)] at he
    cases he
  | grant _ _ =>
    refine Or.inr ⟨_, rfl, rfl, rfl, fun s he => ?_⟩
    exact keyedMetadata_mirrored hm he
  | @collect _ k debt amount taken _ _ _ _ _ _ _ =>
    refine Or.inr ⟨_, rfl, rfl, rfl, fun s he => ?_⟩
    -- A settlement row drops the retry key of the charge it settles.
    have hnone : settlementMetadata k debt taken .idempotencyKey = none := by
      unfold settlementMetadata cleanMetadata
      rw [Metadata.set_of_ne _ _ (by decide), Metadata.set_of_ne _ _ (by decide),
        Metadata.set_of_ne _ _ (by decide), Metadata.set_of_ne _ _ (by decide)]
      simp [Metadata.erase]
    have hsome := hnone.symm.trans he
    cases hsome
  | @meter _ args =>
    have hmirror : ∀ n s, ((keyedMetadata (args.metadata.mark n) args.idempotencyKey).set .lots
        (.lots [])) .idempotencyKey = some (.str s) → args.idempotencyKey = s := by
      intro n s he
      rw [Metadata.set_of_ne _ _ (by decide)] at he
      exact keyedMetadata_mirrored ((mark_unkeyed _ n).trans hm) he
    unfold meterOnlyDebit
    dsimp only
    split
    · exact Or.inr ⟨_, rfl, rfl, rfl, hmirror args.credits⟩
    · exact Or.inr ⟨_, rfl, rfl, rfl, hmirror args.credits⟩
  | @charge _ args chargeable taken _ _ _ =>
    have hmirror : ∀ s, debitMetadata args taken (args.credits - chargeable) .idempotencyKey =
        some (.str s) → args.idempotencyKey = s := by
      intro s he
      rw [debitMetadata_key] at he
      exact keyedMetadata_mirrored hm he
    have hmarked : ∀ j s, (debitMetadata args taken (args.credits - chargeable)).set .debtId j
        .idempotencyKey = some (.str s) → args.idempotencyKey = s := by
      intro j s he
      rw [Metadata.set_of_ne _ _ (by decide)] at he
      exact hmirror s he
    unfold chargeDebit
    by_cases hshort : args.credits - chargeable = 0
    · simp only [if_pos hshort]
      split
      · exact Or.inr ⟨_, rfl, rfl, rfl, hmirror⟩
      · exact Or.inr ⟨_, rfl, rfl, rfl, hmirror⟩
    · simp only [if_neg hshort]
      split
      all_goals
        refine Or.inr ⟨_, rfl, rfl, rfl, fun s he => ?_⟩
        dsimp only at he
        exact hmarked _ s he
  | @bill _ args held current actual _ _ _ _ =>
    refine Or.inr ⟨_, rfl, rfl, rfl, fun s he => ?_⟩
    dsimp only at he
    rw [Metadata.set_of_ne _ _ (by decide), Metadata.set_of_ne _ _ (by decide), Metadata.merge,
      hm.1, hm.2] at he
    cases he
  | @waive _ args held actual _ _ _ _ =>
    refine Or.inr ⟨_, rfl, rfl, rfl, fun s he => ?_⟩
    dsimp only at he
    rw [mark_unkeyed, Metadata.set_of_ne _ _ (by decide), Metadata.set_of_ne _ _ (by decide),
      Metadata.merge, hm.1, hm.2] at he
    cases he
  | _ => exact hm.elim

/-- **The debt a move opens**, if it opens one, names the row the move posts. -/
theorem Step.debt_posted {m : Move} (h : Step env w m db db') (hm : m.IsPlain) :
    db'.debts.next = db.debts.next ∨ ∃ debt, db'.debts = db.debts.insert debt ∧
      debt.transaction = some db.transactions.next ∧
      db.transactions.next < db'.transactions.next := by
  cases h with
  | arm _ _ _ _ =>
    unfold armHold
    dsimp only
    split <;> exact Or.inl rfl
  | meter =>
    unfold meterOnlyDebit
    dsimp only
    split <;> exact Or.inl rfl
  | @charge _ args chargeable taken _ _ _ =>
    unfold chargeDebit
    by_cases hshort : args.credits - chargeable = 0
    · simp only [if_pos hshort]
      split <;> exact Or.inl rfl
    · simp only [if_neg hshort]
      split
      · exact Or.inr ⟨_, rfl, rfl, Nat.lt_succ_self _⟩
      · exact Or.inr ⟨_, rfl, rfl, Nat.lt_succ_self _⟩
  | clawback _ _ => exact hm.elim
  | restore _ => exact hm.elim
  | _ => exact Or.inl rfl

/-- Which debts name row `t`. -/
def Db.DebtNames (db : Db) (t j : ℕ) : Prop :=
  ∃ debt, db.debts.get? j = some debt ∧ debt.transaction = some t

theorem CreditDebt.Same.transaction {a b : CreditDebt} (h : a.Same b) :
    b.transaction = a.transaction := by
  rw [h]

/-- **Only the move that posts a row opens a debt that names it.** -/
theorem Step.debtNames {m : Move} (h : Step env w m db db') (hm : m.IsPlain) {t : ℕ}
    (ht : t < db.transactions.next) (j : ℕ) : db'.DebtNames t j ↔ db.DebtNames t j := by
  constructor
  · rintro ⟨debt, hj, hnames⟩
    rcases h.grows.debts.origin j debt hj with ⟨old, hold, hsame⟩ | ⟨hnew, -⟩
    · exact ⟨old, hold, hsame.transaction.symm.trans hnames⟩
    · have hlt := Table.get?_lt_next hj
      rcases h.debt_posted hm with hnext | ⟨new, hdebts, hrow, -⟩
      · omega
      · rw [hdebts, Table.next_insert] at hlt
        rw [hdebts, show j = db.debts.next by omega, Table.get?_insert_next] at hj
        obtain rfl := Option.some.inj hj
        obtain rfl := Option.some.inj (hrow.symm.trans hnames)
        exact absurd ht (lt_irrefl _)
  · rintro ⟨debt, hj, hnames⟩
    obtain ⟨new, hnew, hsame⟩ := h.grows.debts.kept j debt hj
    exact ⟨new, hnew, hsame.transaction.trans hnames⟩

theorem Step.hold_metadata {m : Move} (h : Step env w m db db') (hm : ¬ m.IsArm) {k : ℕ}
    {held : CreditHold} (hk : db'.holds.get? k = some held) :
    ∃ old, db.holds.get? k = some old ∧ old.metadata = held.metadata := by
  have hrewritten : ∀ {j : ℕ} {f : CreditHold → CreditHold},
      (db.holds.modify j f).get? k = some held → (∀ a, (f a).metadata = a.metadata) →
      ∃ old, db.holds.get? k = some old ∧ old.metadata = held.metadata := by
    intro j f hget hf
    rw [Table.get?_modify] at hget
    split at hget
    · obtain ⟨old, hold, rfl⟩ := Option.map_eq_some_iff.mp hget
      exact ⟨old, hold, (hf old).symm⟩
    · exact ⟨held, hget, rfl⟩
  by_cases hown : m.hold? = some k
  · cases h with
    | refund _ _ _ _ _ _ | overdraw _ _ _ _ | bill _ _ _ _ | waive _ _ _ _ | settle _ _ _ _ =>
      exact hrewritten hk fun _ => rfl
    | _ => cases hown
  · rw [h.holds_frame hm hown] at hk
    exact ⟨held, hk, rfl⟩

theorem Db.Mirrored.insert {row : Transaction} (hd : db.Mirrored)
    (hrows : db'.transactions = db.transactions.insert row) (hrow : row.Mirrored) : db'.Mirrored := by
  intro t posted ht
  rw [hrows, Table.get?_insert] at ht
  split at ht
  · obtain rfl := Option.some.inj ht
    exact hrow
  · exact hd t posted ht

theorem Step.mirrored {m : Move} (h : Step env w m db db') (hm : m.Unkeyed) (hd : db.Mirrored) :
    db'.Mirrored := by
  rcases h.row_posted hm with ⟨hsame, -⟩ | ⟨new, hrows, -, -, hmirrored⟩
  · intro t row ht
    rw [hsame] at ht
    exact hd t row ht
  · exact hd.insert hrows hmirrored

/-- **A move keeps the keys in place.** -/
theorem Step.keysInPlace {m : Move} (h : Step env w m db db') (hm : m.Unkeyed) (hd : db.KeysInPlace) :
    db'.KeysInPlace where
  mirrored := h.mirrored hm hd.mirrored
  holds := by
    intro k held hk
    by_cases harm : m.IsArm
    · cases h with
      | @arm _ args credits metadata existing taken _ hcredits _ _ =>
        have hmeta : metadata .idempotencyKey = none := by
          rcases hcredits with ⟨-, rfl⟩ | ⟨-, rfl⟩
          · exact hm
          · exact (mark_unkeyed _ _).trans hm
        cases existing with
        | some j =>
          rw [armHold_holds, Table.get?_modify] at hk
          split at hk
          · obtain ⟨old, -, rfl⟩ := Option.map_eq_some_iff.mp hk
            exact hmeta
          · exact hd.holds k held hk
        | none =>
          have hk' : (db.holds.insert _).get? k = some held := hk
          rw [Table.get?_insert] at hk'
          split at hk'
          · obtain rfl := Option.some.inj hk'
            exact hmeta
          · exact hd.holds k held hk'
      | _ => exact harm.elim
    · obtain ⟨old, hold, hsame⟩ := h.hold_metadata harm hk
      rw [← hsame]
      exact hd.holds k old hold

/-- **A move keeps the tables filed.** -/
theorem Step.filed {m : Move} (h : Step env w m db db') (hm : m.Unkeyed) (hf : db.Filed) :
    db'.Filed where
  toKeysInPlace := h.keysInPlace hm hf.toKeysInPlace
  debts := by
    intro j debt t hj hnames
    have hbefore : ∀ {s : ℕ}, s < db.transactions.next → db'.DebtNames s j →
        ∃ old, db.debts.get? j = some old ∧ old.transaction = some s :=
      fun hs hd => (h.debtNames hm.isPlain hs j).mp hd
    have hmono : db.transactions.next ≤ db'.transactions.next := h.grows.transactions.next_le
    -- A debt's row is an old one, or the one the move posts together with the debt.
    have hlt : ∀ {i : ℕ} {other : CreditDebt}, db'.debts.get? i = some other →
        other.transaction = some t → t < db.transactions.next ∨
          t = db.transactions.next ∧ i = db.debts.next ∧ t < db'.transactions.next := by
      intro i other hi hother
      rcases h.grows.debts.origin i other hi with ⟨old, hold, hsame⟩ | ⟨hnew, -⟩
      · exact Or.inl (hf.debts i old t hold (hsame.transaction.symm.trans hother)).1
      · have hinext := Table.get?_lt_next hi
        rcases h.debt_posted hm.isPlain with hnext | ⟨new, hdebts, hrow, hposted⟩
        · omega
        · rw [hdebts, Table.next_insert] at hinext
          have hieq : i = db.debts.next := by omega
          rw [hdebts, hieq, Table.get?_insert_next] at hi
          obtain rfl := Option.some.inj hi
          obtain rfl := Option.some.inj (hrow.symm.trans hother)
          exact Or.inr ⟨rfl, hieq, hposted⟩
    rcases hlt hj hnames with ht | ⟨ht, hjnext, hposted⟩
    · refine ⟨ht.trans_le hmono, fun i other hi hother => ?_⟩
      obtain ⟨old, hold, holdnames⟩ := hbefore ht ⟨debt, hj, hnames⟩
      obtain ⟨old', hold', holdnames'⟩ := (h.debtNames hm.isPlain ht i).mp ⟨other, hi, hother⟩
      exact (hf.debts j old t hold holdnames).2 i old' hold' holdnames'
    · refine ⟨hposted, fun i other hi hother => ?_⟩
      rcases hlt hi hother with ht' | ⟨-, hinext, -⟩
      · omega
      · rw [hinext, hjnext]
  users := h.usersUnique hf.users

end StapelBilling
