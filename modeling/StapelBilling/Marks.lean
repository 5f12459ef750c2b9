import StapelBilling.Calls

/-! # Marks on the ledger

A clawback's row and the debt it opens carry marks in their metadata: the dispute
or charge they answer, the grant they take back.  Later events find the row by
such a mark.  Ordinary operations never write one of their own, but a debt
settlement copies the metadata of the debt it collects, marks included.  `Step.posts`
says which row a move adds to the ledger and which debts it rewrites, as far as one
mark is concerned.
-/
namespace StapelBilling
open Store

variable {env : Env} {w : ℕ} {db db' : Db}

/-- The keys an ordinary operation writes itself. -/
def MetaKey.IsBookkeeping (key : MetaKey) : Prop :=
  key ∈ [MetaKey.idempotencyKey, .lots, .partialCharge, .requestedCredits, .shortfall, .debtId,
    .internalMeterOnly, .waivedCredits, .lotId, .source, .expiresAt, .debtSettlement,
    .debtReason]

instance : DecidablePred MetaKey.IsBookkeeping := fun key => by
  unfold MetaKey.IsBookkeeping; infer_instance

/-- A key that is not bookkeeping differs from each that is. -/
theorem MetaKey.ne_of_bookkeeping {key k : MetaKey} (hkey : ¬ key.IsBookkeeping)
    (hk : k.IsBookkeeping) : key ≠ k := by
  rintro rfl
  exact hkey hk

/-- The number a metadata column holds under a key, `0` where there is none. -/
def Metadata.intAt (m : Metadata) (key : MetaKey) : ℤ :=
  match m key with
  | some (.int n) => n
  | _ => 0

section Metadata
variable {key : MetaKey}

theorem cleanMetadata_mark (hkey : ¬ key.IsBookkeeping) (m : Metadata) :
    cleanMetadata m key = m key :=
  Metadata.erase_of_ne m (MetaKey.ne_of_bookkeeping hkey (by decide))

theorem keyedMetadata_mark (hkey : ¬ key.IsBookkeeping) (m : Metadata) (s : String) :
    keyedMetadata m s key = m key := by
  unfold keyedMetadata
  split
  · rfl
  · exact Metadata.set_of_ne m _ (MetaKey.ne_of_bookkeeping hkey (by decide))

theorem markWaived_mark (hkey : ¬ key.IsBookkeeping) (m : Metadata) (n : ℤ) :
    m.mark n key = m key := by
  unfold Metadata.mark
  rw [Metadata.set_of_ne _ _ (MetaKey.ne_of_bookkeeping hkey (by decide)),
    Metadata.set_of_ne _ _ (MetaKey.ne_of_bookkeeping hkey (by decide))]

theorem debitMetadata_mark (hkey : ¬ key.IsBookkeeping) (args : DebitArgs)
    (taken : List (ℕ × ℤ)) (shortfall : ℤ) :
    debitMetadata args taken shortfall key = args.metadata key := by
  have hlots : (keyedMetadata args.metadata args.idempotencyKey).set .lots (.lots taken) key =
      args.metadata key := by
    rw [Metadata.set_of_ne _ _ (MetaKey.ne_of_bookkeeping hkey (by decide)),
      keyedMetadata_mark hkey]
  simp only [debitMetadata]
  split
  · exact hlots
  · rw [Metadata.set_of_ne _ _ (MetaKey.ne_of_bookkeeping hkey (by decide)),
      Metadata.set_of_ne _ _ (MetaKey.ne_of_bookkeeping hkey (by decide)),
      Metadata.set_of_ne _ _ (MetaKey.ne_of_bookkeeping hkey (by decide)), hlots]

/-- **A settlement row carries the marks of the debt it collects.** -/
theorem settlementMetadata_mark (hkey : ¬ key.IsBookkeeping) (k : ℕ) (debt : CreditDebt)
    (taken : List (ℕ × ℤ)) : settlementMetadata k debt taken key = debt.metadata key := by
  unfold settlementMetadata
  rw [Metadata.set_of_ne _ _ (MetaKey.ne_of_bookkeeping hkey (by decide)),
    Metadata.set_of_ne _ _ (MetaKey.ne_of_bookkeeping hkey (by decide)),
    Metadata.set_of_ne _ _ (MetaKey.ne_of_bookkeeping hkey (by decide)),
    Metadata.set_of_ne _ _ (MetaKey.ne_of_bookkeeping hkey (by decide)), cleanMetadata_mark hkey]

end Metadata

/-! ## Moves that write no mark of their own -/

/-- An ordinary move whose caller does not bring the mark `key = v` along. -/
def Move.Quiet (key : MetaKey) (v : Json) : Move → Prop
  | .openWallet _ | .sync | .expire _ | .collect _ _ _ _ | .arm _ _ _ | .refund _ | .overdraw _
  | .settle _ _ => True
  | .grant args => args.metadata key ≠ some v
  | .meter args => args.metadata key ≠ some v
  | .charge args _ _ => args.metadata key ≠ some v
  | _ => False

/-- A quiet move rewrites no ledger row. -/
theorem Move.Quiet.row? {key : MetaKey} {v : Json} {m : Move} (hm : m.Quiet key v) (k : ℕ) :
    m.row? ≠ some k := by
  intro he
  cases m <;> first | exact hm.elim | cases he

/-- A row or debt was added, without the mark. -/
inductive PostsUnmarked (key : MetaKey) (v : Json) (db db' : Db) : Prop
  | nothing (rows : db'.transactions = db.transactions) (debts : db'.debts = db.debts)
  | row (row : Transaction) (rows : db'.transactions = db.transactions.insert row)
      (unmarked : row.metadata key ≠ some v) (debts : db'.debts = db.debts)
  | debt (row : Transaction) (rows : db'.transactions = db.transactions.insert row)
      (unmarked : row.metadata key ≠ some v) (debt : CreditDebt)
      (debts : db'.debts = db.debts.insert debt) (clean : debt.metadata key ≠ some v)

/-- A debt was collected: it shrinks, and the row has its type and its marks. -/
structure PostsSettlement (k : ℕ) (debt : CreditDebt) (amount : ℤ) (db db' : Db) : Prop where
  current : db.debts.get? k = some debt
  positive : 0 < amount
  covered : amount ≤ debt.creditsOutstanding
  posted : ∃ row taken, db'.transactions = db.transactions.insert row ∧ row.type = debt.type ∧
    row.metadata = settlementMetadata k debt taken
  debts : ∃ settledAt : CreditDebt → Option Time, db'.debts = db.debts.modify k fun d =>
    { d with
      creditsOutstanding := debt.creditsOutstanding - amount
      settledAt := settledAt d }

section Posts
variable {key : MetaKey} {v : Json} {k : ℕ}

theorem PostsUnmarked.row_kept (h : PostsUnmarked key v db db') {row : Transaction}
    (hk : db.transactions.get? k = some row) : db'.transactions.get? k = some row := by
  cases h with
  | nothing rows _ => rw [rows]; exact hk
  | row _ rows _ _ => rw [rows]; exact Table.get?_insert_of_some _ hk
  | debt _ rows _ _ _ _ => rw [rows]; exact Table.get?_insert_of_some _ hk

/-- A row that carries the mark is an old one. -/
theorem PostsUnmarked.row_old (h : PostsUnmarked key v db db') {row : Transaction}
    (hk : db'.transactions.get? k = some row) (hmarked : row.metadata key = some v) :
    db.transactions.get? k = some row := by
  have hinsert : ∀ {new : Transaction}, new.metadata key ≠ some v →
      db'.transactions = db.transactions.insert new → db.transactions.get? k = some row := by
    intro new hunmarked rows
    rw [rows, Table.get?_insert] at hk
    split at hk
    · obtain rfl := Option.some.inj hk
      exact absurd hmarked hunmarked
    · exact hk
  cases h with
  | nothing rows _ => rw [rows] at hk; exact hk
  | row _ rows hunmarked _ => exact hinsert hunmarked rows
  | debt _ rows hunmarked _ _ _ => exact hinsert hunmarked rows

theorem PostsUnmarked.debt_kept (h : PostsUnmarked key v db db') {debt : CreditDebt}
    (hk : db.debts.get? k = some debt) : db'.debts.get? k = some debt := by
  cases h with
  | nothing _ debts => rw [debts]; exact hk
  | row _ _ _ debts => rw [debts]; exact hk
  | debt _ _ _ _ debts _ => rw [debts]; exact Table.get?_insert_of_some _ hk

/-- A debt that carries the mark is an old one. -/
theorem PostsUnmarked.debt_old (h : PostsUnmarked key v db db') {debt : CreditDebt}
    (hk : db'.debts.get? k = some debt) (hmarked : debt.metadata key = some v) :
    db.debts.get? k = some debt := by
  cases h with
  | nothing _ debts => rw [debts] at hk; exact hk
  | row _ _ _ debts => rw [debts] at hk; exact hk
  | debt _ _ _ new debts hclean =>
    rw [debts, Table.get?_insert] at hk
    split at hk
    · obtain rfl := Option.some.inj hk
      exact absurd hmarked hclean
    · exact hk

variable {debt : CreditDebt} {amount : ℤ}

theorem PostsSettlement.row_kept (h : PostsSettlement k debt amount db db') {j : ℕ}
    {row : Transaction} (hj : db.transactions.get? j = some row) :
    db'.transactions.get? j = some row := by
  obtain ⟨new, taken, rows, -⟩ := h.posted
  rw [rows]
  exact Table.get?_insert_of_some _ hj

/-- The settlement row. -/
theorem PostsSettlement.row_new (h : PostsSettlement k debt amount db db') :
    ∃ row taken, db'.transactions.get? db.transactions.next = some row ∧ row.type = debt.type ∧
      row.metadata = settlementMetadata k debt taken := by
  obtain ⟨new, taken, rows, htype, hmeta⟩ := h.posted
  exact ⟨new, taken, by rw [rows, Table.get?_insert_next], htype, hmeta⟩

/-- A row is an old one or the settlement row. -/
theorem PostsSettlement.row_old (h : PostsSettlement k debt amount db db') {j : ℕ}
    {row : Transaction} (hj : db'.transactions.get? j = some row) :
    db.transactions.get? j = some row ∨ j = db.transactions.next ∧ row.type = debt.type ∧
      ∃ taken, row.metadata = settlementMetadata k debt taken := by
  obtain ⟨new, taken, rows, htype, hmeta⟩ := h.posted
  rw [rows, Table.get?_insert] at hj
  split at hj
  · rename_i hnext
    obtain rfl := Option.some.inj hj
    exact Or.inr ⟨hnext, htype, taken, hmeta⟩
  · exact Or.inl hj

/-- The collected debt. -/
theorem PostsSettlement.debt_self (h : PostsSettlement k debt amount db db') :
    ∃ s, db'.debts.get? k = some { debt with
      creditsOutstanding := debt.creditsOutstanding - amount
      settledAt := s } := by
  obtain ⟨settledAt, debts⟩ := h.debts
  rw [debts, Table.get?_modify_self, h.current]
  exact ⟨_, rfl⟩

theorem PostsSettlement.debt_other (h : PostsSettlement k debt amount db db') {j : ℕ}
    (hj : j ≠ k) : db'.debts.get? j = db.debts.get? j := by
  obtain ⟨settledAt, debts⟩ := h.debts
  rw [debts, Table.get?_modify_of_ne _ _ hj]

end Posts

/-- **What a quiet move posts.** -/
theorem Step.posts {m : Move} {key : MetaKey} {v : Json} (hkey : ¬ key.IsBookkeeping)
    (h : Step env w m db db') (hm : m.Quiet key v) :
    PostsUnmarked key v db db' ∨ ∃ k debt amount, PostsSettlement k debt amount db db' := by
  cases h with
  | openWallet _ _ | sync | refund _ _ _ _ _ _ | overdraw _ _ _ _ | settle _ _ _ _ =>
    exact Or.inl (.nothing rfl rfl)
  | arm _ _ _ _ =>
    refine Or.inl (.nothing ?_ ?_)
    all_goals
      unfold armHold
      dsimp only
      split <;> rfl
  | expire _ _ _ =>
    refine Or.inl (.row _ rfl ?_ rfl)
    dsimp only
    rw [Metadata.set_of_ne _ _ (MetaKey.ne_of_bookkeeping hkey (by decide)),
      Metadata.set_of_ne _ _ (MetaKey.ne_of_bookkeeping hkey (by decide)),
      Metadata.set_of_ne _ _ (MetaKey.ne_of_bookkeeping hkey (by decide))]
    simp [Metadata.empty]
  | grant _ _ =>
    refine Or.inl (.row _ rfl ?_ rfl)
    dsimp only
    rw [keyedMetadata_mark hkey]
    exact hm
  | @meter _ args =>
    have hrow : ∀ n, ((keyedMetadata (args.metadata.mark n) args.idempotencyKey).set .lots
        (.lots [])) key ≠ some v := by
      intro n
      rw [Metadata.set_of_ne _ _ (MetaKey.ne_of_bookkeeping hkey (by decide)),
        keyedMetadata_mark hkey, markWaived_mark hkey]
      exact hm
    unfold meterOnlyDebit
    dsimp only
    split
    · exact Or.inl (.row _ rfl (hrow _) rfl)
    · exact Or.inl (.row _ rfl (hrow _) rfl)
  | @charge _ args chargeable taken hle htaken hdrawn =>
    have hrow : debitMetadata args taken (args.credits - chargeable) key ≠ some v := by
      rw [debitMetadata_mark hkey]
      exact hm
    have hmarked : ∀ j : Json, (debitMetadata args taken (args.credits - chargeable)).set .debtId j
        key ≠ some v := by
      intro j
      rw [Metadata.set_of_ne _ _ (MetaKey.ne_of_bookkeeping hkey (by decide))]
      exact hrow
    have hdebt : cleanMetadata (debitMetadata args taken (args.credits - chargeable)) key ≠
        some v := by
      rw [cleanMetadata_mark hkey]
      exact hrow
    unfold chargeDebit
    by_cases hshort : args.credits - chargeable = 0
    · simp only [if_pos hshort]
      split
      · exact Or.inl (.row _ rfl hrow rfl)
      · exact Or.inl (.row _ rfl hrow rfl)
    · simp only [if_neg hshort]
      split
      · exact Or.inl (.debt _ rfl (hmarked _) _ rfl hdebt)
      · exact Or.inl (.debt _ rfl (hmarked _) _ rfl hdebt)
  | @collect _ k debt amount taken hdebt _ hopen hpos hle _ _ =>
    refine Or.inr ⟨k, debt, amount, hdebt, hpos, hle, ⟨_, taken, rfl, rfl, rfl⟩, ?_⟩
    exact ⟨fun d => if debt.creditsOutstanding - amount ≤ 0 then some env.now else d.settledAt,
      collectDebt_debts env w _ k debt amount taken⟩
  | _ => exact hm.elim

/-! ## Quiet calls -/

/-- A credit, debit, hold, release or sweep whose caller does not bring the mark
along. -/
def WalletCall.Quiet (key : MetaKey) (v : Json) : WalletCall → Prop
  | .credit args => args.metadata key ≠ some v
  | .debit args => args.metadata key ≠ some v
  | .hold _ | .release _ | .expireDueLots _ => True
  | _ => False

theorem exec_quiet {c : WalletCall} {key : MetaKey} {v : Json} (hc : c.Quiet key v)
    (h : c.exec env db = .ok db') : Moves env (c.wallet db) (Move.Quiet key v) db db' := by
  cases c with
  | credit args =>
    obtain ⟨t, hok⟩ := map_snd_ok h
    refine (credit_moves hok).mono fun m hm => ?_
    cases m <;> first | exact hm.elim | exact trivial | exact (show _ = args from hm) ▸ hc
  | debit args =>
    obtain ⟨answer, hok⟩ := map_snd_ok h
    refine (debit_moves hok).mono fun m hm => ?_
    cases m <;> first | exact hm.elim | exact trivial | exact (show _ = args from hm) ▸ hc
  | hold args =>
    obtain ⟨k, hok⟩ := map_snd_ok h
    refine (hold_moves hok).mono fun m hm => ?_
    cases m <;> first | exact hm.elim | exact trivial
  | release args =>
    obtain ⟨held, hheld, hm⟩ := release_moves h
    simp only [WalletCall.wallet, hheld, Option.map_some, Option.getD_some]
    refine hm.mono fun m hm => ?_
    cases m <;> first | exact hm.elim | exact trivial
  | expireDueLots w =>
    obtain rfl := Except.ok.inj h
    exact expireDueLots_moves env _ trivial (fun _ => trivial) db
  | _ => exact hc.elim

/-- **The invariant rule for quiet runs**: what every quiet move keeps, a run of
quiet calls keeps. -/
theorem runCalls_quiet {key : MetaKey} {v : Json} {I : Db → Prop} {calls : List (Env × WalletCall)}
    (hstep : ∀ e w m d d', m.Quiet key v → I d → Step e w m d d' → I d')
    (hcalls : ∀ c ∈ calls, c.2.Quiet key v) (hI : I db) : I (runCalls calls db) := by
  refine Store.run_invariant (I := I) ?_ hI
  rintro c hc d d' hd h
  exact Moves.invariant (fun m _ _ hm => hstep c.1 _ m _ _ hm) (exec_quiet (hcalls c hc) h) hd

/-! ## Databases without a mark -/

/-- No ledger row and no debt carries the mark. -/
def Db.Unmarked (key : MetaKey) (v : Json) (db : Db) : Prop :=
  (∀ r ∈ db.transactions.rows, r.2.metadata key ≠ some v) ∧
    ∀ r ∈ db.debts.rows, r.2.metadata key ≠ some v

instance (key : MetaKey) (v : Json) (db : Db) : Decidable (db.Unmarked key v) := by
  unfold Db.Unmarked; infer_instance

theorem Db.Unmarked.row {key : MetaKey} {v : Json} (h : db.Unmarked key v) {k : ℕ}
    {row : Transaction} (hk : db.transactions.get? k = some row) : row.metadata key ≠ some v :=
  h.1 _ (Table.get?_eq_some_iff.mp hk)

theorem Db.Unmarked.debt {key : MetaKey} {v : Json} (h : db.Unmarked key v) {k : ℕ}
    {debt : CreditDebt} (hk : db.debts.get? k = some debt) : debt.metadata key ≠ some v :=
  h.2 _ (Table.get?_eq_some_iff.mp hk)

theorem Db.unmarked_iff {key : MetaKey} {v : Json} : db.Unmarked key v ↔
    (∀ k row, db.transactions.get? k = some row → row.metadata key ≠ some v) ∧
    ∀ k debt, db.debts.get? k = some debt → debt.metadata key ≠ some v := by
  constructor
  · exact fun h => ⟨fun _ _ hk => h.row hk, fun _ _ hk => h.debt hk⟩
  · exact fun h => ⟨fun r hr => h.1 r.1 r.2 (Table.get?_eq_some_iff.mpr hr),
      fun r hr => h.2 r.1 r.2 (Table.get?_eq_some_iff.mpr hr)⟩

/-- **A quiet move marks nothing** where nothing is marked. -/
theorem Step.unmarked {m : Move} {key : MetaKey} {v : Json} (hkey : ¬ key.IsBookkeeping)
    (h : Step env w m db db') (hm : m.Quiet key v) (hu : db.Unmarked key v) :
    db'.Unmarked key v := by
  rw [Db.unmarked_iff]
  rcases h.posts hkey hm with hpost | ⟨k, debt, amount, hpost⟩
  · exact ⟨fun k row hk hmarked => hu.row (hpost.row_old hk hmarked) hmarked,
      fun k debt hk hmarked => hu.debt (hpost.debt_old hk hmarked) hmarked⟩
  · have hclean : debt.metadata key ≠ some v := hu.debt hpost.current
    constructor
    · intro j row hj
      rcases hpost.row_old hj with hold | ⟨-, -, taken, hmeta⟩
      · exact hu.row hold
      · rw [hmeta, settlementMetadata_mark hkey]
        exact hclean
    · intro j debt' hj
      by_cases hjk : j = k
      · subst hjk
        obtain ⟨s, hself⟩ := hpost.debt_self
        obtain rfl := Option.some.inj (hself.symm.trans hj)
        exact hclean
      · rw [hpost.debt_other hjk] at hj
        exact hu.debt hj

/-! ## The row a clawback posts -/

/-- The metadata of a clawback's row once it names the debt `debt` it opened. -/
def clawbackRowMetadata (metadata : Metadata) (grant : ℕ) (requested reclaimed forgiven : ℤ)
    (taken : List (ℕ × ℤ)) (debt : ℕ) : Metadata :=
  if 0 < requested - reclaimed - forgiven then
    (clawbackMetadata metadata grant requested reclaimed forgiven
      (requested - reclaimed - forgiven) taken).set .debtId (.ref .debt debt)
  else clawbackMetadata metadata grant requested reclaimed forgiven
    (requested - reclaimed - forgiven) taken

theorem clawbackRowMetadata_of_ne {metadata : Metadata} {grant : ℕ}
    {requested reclaimed forgiven : ℤ} {taken : List (ℕ × ℤ)} {debt : ℕ} {key : MetaKey}
    (h : key ≠ .debtId) :
    clawbackRowMetadata metadata grant requested reclaimed forgiven taken debt key =
      clawbackMetadata metadata grant requested reclaimed forgiven
        (requested - reclaimed - forgiven) taken key := by
  unfold clawbackRowMetadata
  split
  · exact Metadata.set_of_ne _ _ h
  · rfl

/-- What the metadata of an event's clawback says. -/
theorem clawbackMetadata_of_event (label : String) (eventId : Option String) (obj : ChargeObject)
    (grant : ℕ) (requested reclaimed forgiven outstanding : ℤ) (taken : List (ℕ × ℤ)) :
    let m := clawbackMetadata (eventMetadata label eventId obj) grant requested reclaimed forgiven
      outstanding taken
    m .clawbackReason = some (.str label) ∧ m .stripeObjectId = some (jsonText obj.id) ∧
      m .clawbackOf = some (.ref .transaction grant) ∧ m .requested = some (.int requested) ∧
      m .reclaimed = some (.int reclaimed) ∧ m .forgiven = some (.int forgiven) ∧
      m .reversed = none ∧ m .debtSettlement = none ∧ m .debtId = none :=
  ⟨rfl, rfl, rfl, rfl, rfl, rfl, rfl, rfl, rfl⟩

/-- **What a clawback posts**: one refund row and, for what is owed, one debt. -/
structure PostsClawback (w grant : ℕ) (metadata : Metadata) (requested reclaimed forgiven : ℤ)
    (db db' : Db) : Prop where
  posted : ∃ row taken, db'.transactions = db.transactions.insert row ∧ row.wallet = w ∧
    row.type = .refund ∧ row.metadata =
      clawbackRowMetadata metadata grant requested reclaimed forgiven taken db.debts.next
  owed : 0 < requested - reclaimed - forgiven → ∃ debt taken,
    db'.debts = db.debts.insert debt ∧ debt.wallet = w ∧ debt.type = .refund ∧
      debt.settledAt = none ∧ debt.creditsInitial = requested - reclaimed - forgiven ∧
      debt.creditsOutstanding = requested - reclaimed - forgiven ∧
      debt.metadata = cleanMetadata (clawbackMetadata metadata grant requested reclaimed forgiven
        (requested - reclaimed - forgiven) taken)
  covered : requested - reclaimed - forgiven ≤ 0 → db'.debts = db.debts

variable (env db) in
theorem bookClawback_posts (grant : ℕ) (txn : Transaction) (requested reclaimed forgiven : ℤ)
    (description : Option String) (metadata : Metadata) (taken : List (ℕ × ℤ)) :
    PostsClawback txn.wallet grant metadata requested reclaimed forgiven db
      (bookClawback env grant txn requested reclaimed forgiven description metadata taken db).2 := by
  unfold bookClawback
  by_cases howed : 0 < requested - reclaimed - forgiven
  · simp only [if_pos howed]
    refine ⟨⟨_, taken, rfl, rfl, rfl, ?_⟩, fun _ => ⟨_, taken, rfl, rfl, rfl, rfl, rfl, rfl, rfl⟩,
      fun h => absurd howed (by omega)⟩
    rw [clawbackRowMetadata, if_pos howed]
    rfl
  · simp only [if_neg howed]
    refine ⟨⟨_, taken, rfl, rfl, rfl, ?_⟩, fun h => absurd h howed, fun _ => rfl⟩
    rw [clawbackRowMetadata, if_neg howed]

/-- What a clawback of `grant` asked for, took and forgave, and what it posted after
its sweep. -/
theorem clawBackGrant_posts {grant : ℕ} {txn : Transaction} {credits : Option ℤ}
    {description : Option String} {metadata : Metadata} {r : ClawbackResult}
    (h : clawBackGrant env grant txn credits description metadata db = .ok (r, db')) :
    (∃ wallet, db'.wallets.get? txn.wallet = some wallet) ∧
    ∃ requested reclaimed forgiven, requested = credits.getD txn.creditsDelta ∧
      0 ≤ reclaimed ∧ PostsClawback txn.wallet grant metadata requested reclaimed forgiven
        (db.swept env txn.wallet) db' := by
  obtain ⟨⟨wallet, hwallet⟩, requested, taken, forgiven, hrequested, -, -, hdraws, hbook⟩ :=
    clawBackGrant_cases h
  obtain ⟨wallet', hwallet', -⟩ := (clawBackGrant_moves h).wallet_kept hwallet
  have hnonneg : 0 ≤ drawn taken := hdraws.drawn_nonneg
  have hdb : db' = (bookClawback env grant txn requested (drawn taken) forgiven description metadata
      taken ((db.swept env txn.wallet).spendLots taken)).2 := congrArg Prod.snd hbook
  refine ⟨⟨wallet', hwallet'⟩, requested, drawn taken, forgiven, hrequested, hnonneg, ?_⟩
  have hposts := bookClawback_posts env ((db.swept env txn.wallet).spendLots taken) grant txn
    requested (drawn taken) forgiven description metadata taken
  rw [hdb]
  exact ⟨hposts.posted, hposts.owed, hposts.covered⟩

/-! ## The money-back events -/

theorem claimProviderObject_some {scope : GrantScope} {ext : Option String} {provider : String}
    (h : claimProviderObject scope ext provider db = some db') :
    ∃ e, ext = some e ∧ e ≠ "" ∧
      (∀ k g, db.providerGrants.get? k = some g →
        ¬ (g.provider = provider ∧ g.scope = scope ∧ g.externalId = e)) ∧
      db' = { db with providerGrants := db.providerGrants.insert { provider, scope, externalId := e } } := by
  unfold claimProviderObject at h
  split at h
  · cases h
  · rename_i e
    split at h
    · cases h
    · rename_i hne
      split at h
      · cases h
      · rename_i hnone
        exact ⟨e, rfl, hne, fun k g hk => Table.find?_none hnone hk, (Option.some.inj h).symm⟩

theorem clawBackRemaining_cases {obj : ChargeObject} {grant : ℕ} {txn : Transaction}
    {label : String} {eventId : Option String}
    (h : clawBackRemaining env obj grant txn label eventId db = .ok db') :
    (clawbackDue obj grant txn db ≤ 0 ∧ db' = db) ∨
    (0 < clawbackDue obj grant txn db ∧ ∃ description r,
      clawBackGrant env grant txn (some (clawbackDue obj grant txn db)) description
        (eventMetadata label eventId obj) db = .ok (r, db')) := by
  simp only [clawBackRemaining] at h
  split at h
  · rename_i hle
    exact Or.inl ⟨hle, (Except.ok.inj h).symm⟩
  · rename_i hpos
    split at h
    · cases h
    · rename_i r db₁ hok
      obtain rfl := Except.ok.inj h
      exact Or.inr ⟨by omega, _, r, hok⟩

theorem handleClawback_cases {event : ProviderEvent ChargeObject} {label : String}
    (h : handleClawback env event label db = .ok db') :
    db' = db ∨ ∃ claimed, claimProviderObject .clawback event.id "stripe" db = some claimed ∧
      clawBackEach env event.object label event.id (grantTransactions event.object db) claimed =
        .ok db' := by
  simp only [handleClawback] at h
  split at h
  · exact Or.inl (Except.ok.inj h).symm
  · split at h
    · exact Or.inl (Except.ok.inj h).symm
    · rename_i claimed hclaim
      exact Or.inr ⟨claimed, hclaim, h⟩

/-- A clawback rewrites no ledger row. -/
theorem clawBackGrant_row {grant : ℕ} {txn : Transaction} {credits : Option ℤ}
    {description : Option String} {metadata : Metadata} {r : ClawbackResult}
    (h : clawBackGrant env grant txn credits description metadata db = .ok (r, db')) {k : ℕ}
    {row : Transaction} (hk : db.transactions.get? k = some row) :
    db'.transactions.get? k = some row := by
  refine (clawBackGrant_moves h).row_kept (fun m hm he => ?_) hk
  cases m <;> first | exact hm.elim | cases he

variable (env) in
/-- A clawback succeeds on an existing wallet. -/
theorem clawBackGrant_ok (grant : ℕ) {txn : Transaction} (credits : Option ℤ)
    (description : Option String) (metadata : Metadata) (hw : db.HasWallet txn.wallet) :
    ∃ r db', clawBackGrant env grant txn credits description metadata db = .ok (r, db') := by
  obtain ⟨wallet, hget⟩ := hw
  simp only [clawBackGrant, hget]
  exact ⟨_, _, rfl⟩

theorem mem_grantTransactions {obj : ChargeObject} {r : ℕ × Transaction} :
    r ∈ grantTransactions obj db ↔ db.transactions.get? r.1 = some r.2 ∧ obj.Names r.2 := by
  unfold grantTransactions
  rw [mem_orderBy, Table.mem_select]

theorem expireDueLots_unmarked {key : MetaKey} {v : Json} (hkey : ¬ key.IsBookkeeping)
    (hu : db.Unmarked key v) : (expireDueLots env w db).2.Unmarked key v :=
  Moves.invariant (I := fun db => db.Unmarked key v)
    (fun _ _ _ hm hI hs => hs.unmarked hkey hm hI)
    (expireDueLots_moves env w (P := Move.Quiet key v) trivial (fun _ => trivial) db) hu

end StapelBilling
