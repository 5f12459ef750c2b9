import StapelBilling.Marks

/-! # A won dispute

A dispute takes a grant back; a dispute that is won is to give back what it took:
what was reclaimed from the grant's lots, and what the debt it opened has collected
since.  The handler finds the rows to reverse by the dispute's mark, and a debt
settlement copies that mark.  So the reversal is exact precisely as long as nothing
of the debt has been collected: a settlement row is reversed as if it were a clawback
of its own.
-/
namespace StapelBilling
open Store

variable {env : Env} {w : ℕ} {db db' : Db} {d : String}

/-! ## What is owed back -/

/-- The debt a clawback's row names. -/
def Transaction.debtKey (row : Transaction) : Option ℕ :=
  match row.metadata .debtId with
  | some (.ref .debt k) => some k
  | _ => none

/-- What debt `k` has collected. -/
def Db.collectedOf (db : Db) (k : ℕ) : ℤ := ((db.debts.get? k).map CreditDebt.collected).getD 0

/-- Is this a settlement row of debt `k`? -/
def Settles (k : ℕ) (row : Transaction) : Prop :=
  row.metadata .debtSettlement = some (.bool true) ∧ row.metadata .debtId = some (.ref .debt k)

/-- What a dispute opened in `opened` owes back in `db`: what its clawback reclaimed
and what the clawback's debt has collected by now. -/
def owedBack (d : String) (opened db : Db) : ℤ :=
  ((disputeRows d opened).map fun r =>
    r.2.metadata.intAt .reclaimed + (r.2.debtKey.map db.collectedOf).getD 0).sum

/-- **The reversal is exact**: closing the dispute in `db` gives back what is owed,
leaves nothing of the clawback's debt, and reverses no settlement of it. -/
def WonExactly (env : Env) (closed : ProviderEvent ChargeObject) (d : String) (opened db : Db) :
    Prop :=
  ∃ total final, handleDisputeClosed env closed db = .ok (total, final) ∧
    total = owedBack d opened db ∧
    ∀ r ∈ disputeRows d opened, ∀ k ∈ r.2.debtKey,
      (∃ debt, final.debts.get? k = some debt ∧ debt.creditsOutstanding = 0) ∧
      ∀ j row, db.transactions.get? j = some row → Settles k row →
        final.transactions.get? j = some row

/-- Nothing of the debt of a dispute opened in `opened` has been collected in `db`. -/
def Uncollected (d : String) (opened db : Db) : Prop :=
  ∀ r ∈ disputeRows d opened, ∀ k ∈ r.2.debtKey, ∀ debt, db.debts.get? k = some debt →
    debt.creditsOutstanding = debt.creditsInitial

/-! ## The state between the two events -/

/-- The row of a dispute's clawback. -/
structure IsClawbackRow (d : String) (row : Transaction) : Prop where
  ofDispute : OfDispute d row
  grant : ∃ g, row.metadata .clawbackOf = some (.ref .transaction g)
  requested : ∃ n, row.metadata .requested = some (.int n)
  reclaimed : ∃ n, row.metadata .reclaimed = some (.int n)
  reversed : row.metadata .reversed = none
  settlement : row.metadata .debtSettlement = none
  debt : row.metadata .debtId = row.debtKey.map (.ref .debt)

/-- A debt that carries the marks of the dispute. -/
structure OwedFor (d : String) (debt : CreditDebt) : Prop where
  type : debt.type = .refund
  reason : debt.metadata .clawbackReason = some (.str "dispute")
  object : debt.metadata .stripeObjectId = some (.str d)
  reversed : debt.metadata .reversed = none

/-- **Between the two events**: the clawback's row stands, its debt is partly
collected, and every other row with the dispute's marks is a settlement of that
debt. -/
structure Disputed (d : String) (k₀ : ℕ) (row₀ : Transaction) (db : Db) : Prop where
  row : db.transactions.get? k₀ = some row₀
  wallet : ∃ wallet, db.wallets.get? row₀.wallet = some wallet
  debt : ∀ j ∈ row₀.debtKey, ∃ debt, db.debts.get? j = some debt ∧ OwedFor d debt ∧
    0 ≤ debt.creditsOutstanding ∧ debt.creditsOutstanding ≤ debt.creditsInitial ∧
    (debt.creditsOutstanding < debt.creditsInitial → ∃ k row, db.transactions.get? k = some row ∧
      OfDispute d row ∧ Settles j row ∧ row.metadata .reversed = none)
  others : ∀ k row, db.transactions.get? k = some row → OfDispute d row → k = k₀ ∨
    ∃ j ∈ row₀.debtKey, ∃ debt, db.debts.get? j = some debt ∧
      debt.creditsOutstanding < debt.creditsInitial
  debts : ∀ j debt, db.debts.get? j = some debt →
    debt.metadata .stripeObjectId = some (.str d) → j ∈ row₀.debtKey

theorem not_ofDispute {row : Transaction} (h : row.metadata .stripeObjectId ≠ some (.str d)) :
    ¬ OfDispute d row :=
  fun hd => h hd.2.2

theorem stripeObjectId_mark : ¬ MetaKey.stripeObjectId.IsBookkeeping := by decide

/-- **A quiet move keeps the state between the events**: it collects the clawback's
debt with a marked row, or writes nothing with the dispute's mark. -/
theorem Step.disputed {m : Move} {k₀ : ℕ} {row₀ : Transaction} (h : Step env w m db db')
    (hm : m.Quiet .stripeObjectId (.str d)) (hd : Disputed d k₀ row₀ db) :
    Disputed d k₀ row₀ db' := by
  have hwallet : ∃ wallet, db'.wallets.get? row₀.wallet = some wallet := by
    obtain ⟨wallet, hk⟩ := hd.wallet
    obtain ⟨wallet', hk', -⟩ := h.wallet_kept hk
    exact ⟨wallet', hk'⟩
  -- a quiet move adds no marked row but by settling a marked debt
  rcases h.posts stripeObjectId_mark hm with hpost | ⟨k, debt, amount, hpost⟩
  · refine ⟨hpost.row_kept hd.row, hwallet, fun j hj => ?_, fun k row hk hof => ?_,
      fun j debt hj hmarked => hd.debts j debt (hpost.debt_old hj hmarked) hmarked⟩
    · obtain ⟨debt, hget, howed, hlo, hhi, hsettled⟩ := hd.debt j hj
      refine ⟨debt, hpost.debt_kept hget, howed, hlo, hhi, fun hlt => ?_⟩
      obtain ⟨k, row, hk, hrest⟩ := hsettled hlt
      exact ⟨k, row, hpost.row_kept hk, hrest⟩
    · rcases hd.others k row (hpost.row_old hk hof.2.2) hof with hk₀ | ⟨j, hj, debt, hget, hlt⟩
      · exact Or.inl hk₀
      · exact Or.inr ⟨j, hj, debt, hpost.debt_kept hget, hlt⟩
  · obtain ⟨s, hself⟩ := hpost.debt_self
    by_cases hk : k ∈ row₀.debtKey
    · -- The clawback's own debt is collected, by a row with its marks.
      obtain ⟨debt', hget, howed, hlo, hhi, -⟩ := hd.debt k hk
      obtain rfl := Option.some.inj (hpost.current.symm.trans hget)
      have hpos := hpost.positive
      have hle := hpost.covered
      have hlt : debt.creditsOutstanding - amount < debt.creditsInitial := by omega
      obtain ⟨row, taken, hrow, htype, hmeta⟩ := hpost.row_new
      refine ⟨hpost.row_kept hd.row, hwallet, fun j hj => ?_, fun j row' hj hof => ?_,
        fun j debt' hj hmarked => ?_⟩
      · obtain rfl : j = k := Option.mem_unique hj hk
        refine ⟨_, hself, ⟨howed.type, howed.reason, howed.object, howed.reversed⟩, ?_, hlt.le,
          fun _ => ⟨_, row, hrow, ⟨?_, ?_, ?_⟩, ⟨?_, ?_⟩, ?_⟩⟩
        · show 0 ≤ debt.creditsOutstanding - amount
          omega
        · rw [htype, howed.type]
        · rw [hmeta, settlementMetadata_mark (by decide), howed.reason]
        · rw [hmeta, settlementMetadata_mark (by decide), howed.object]
        · rw [hmeta]; rfl
        · rw [hmeta]; rfl
        · rw [hmeta, settlementMetadata_mark (by decide), howed.reversed]
      · exact Or.inr ⟨k, hk, _, hself, hlt⟩
      · by_cases hjk : j = k
        · subst hjk
          exact hk
        · rw [hpost.debt_other hjk] at hj
          exact hd.debts j debt' hj hmarked
    · -- Another debt is collected; it carries no mark of the dispute.
      have hclean : debt.metadata .stripeObjectId ≠ some (.str d) :=
        fun hmarked => hk (hd.debts k debt hpost.current hmarked)
      have hne : ∀ j ∈ row₀.debtKey, j ≠ k := by
        rintro j hj rfl
        exact hk hj
      refine ⟨hpost.row_kept hd.row, hwallet, fun j hj => ?_, fun j row hj hof => ?_,
        fun j debt' hj hmarked => ?_⟩
      · obtain ⟨debt', hget, howed, hlo, hhi, hsettled⟩ := hd.debt j hj
        refine ⟨debt', (hpost.debt_other (hne j hj)).trans hget, howed, hlo, hhi, fun hlt => ?_⟩
        obtain ⟨i, row, hi, hrest⟩ := hsettled hlt
        exact ⟨i, row, hpost.row_kept hi, hrest⟩
      · rcases hpost.row_old hj with hold | ⟨-, -, taken, hmeta⟩
        · rcases hd.others j row hold hof with hk₀ | ⟨i, hi, debt', hget, hlt⟩
          · exact Or.inl hk₀
          · exact Or.inr ⟨i, hi, debt', (hpost.debt_other (hne i hi)).trans hget, hlt⟩
        · refine absurd hof (not_ofDispute ?_)
          rw [hmeta, settlementMetadata_mark stripeObjectId_mark]
          exact hclean
      · by_cases hjk : j = k
        · subst hjk
          obtain rfl := Option.some.inj (hself.symm.trans hj)
          exact absurd hmarked hclean
        · rw [hpost.debt_other hjk] at hj
          exact hd.debts j debt' hj hmarked

/-! ## The dispute opens -/

section Opening
variable {k₀ : ℕ} {row₀ : Transaction}

/-- **A dispute's clawback** starts the state between the events, with nothing of
its debt collected. -/
theorem clawBackGrant_disputed {g : ℕ} {txn : Transaction} {n : ℤ} {description : Option String}
    {eventId : Option String} {obj : ChargeObject} {r : ClawbackResult}
    (hu : db.Unmarked .stripeObjectId (.str d)) (hobj : obj.id = some d)
    (h : clawBackGrant env g txn (some n) description (eventMetadata "dispute" eventId obj) db =
      .ok (r, db')) :
    ∃ k₀ row₀, IsClawbackRow d row₀ ∧ Disputed d k₀ row₀ db' ∧
      ∀ j ∈ row₀.debtKey, ∀ debt, db'.debts.get? j = some debt →
        debt.creditsOutstanding = debt.creditsInitial := by
  have hs : (db.swept env txn.wallet).Unmarked .stripeObjectId (.str d) :=
    expireDueLots_unmarked stripeObjectId_mark hu
  obtain ⟨hwallet, requested, reclaimed, forgiven, -, -, hpost⟩ := clawBackGrant_posts h
  generalize db.swept env txn.wallet = s at hs hpost
  -- the row carries the marks the settlement will look for
  obtain ⟨row, taken, rows, hrowWallet, htype, hmeta⟩ := hpost.posted
  obtain ⟨hreason, hobject, hgrant, hrequested, hreclaimed, -, hreversed, hsettlement, hnodebt⟩ :=
    clawbackMetadata_of_event "dispute" eventId obj g requested reclaimed forgiven
      (requested - reclaimed - forgiven) taken
  rw [hobj] at hobject
  have hat : ∀ key, key ≠ .debtId → row.metadata key =
      clawbackMetadata (eventMetadata "dispute" eventId obj) g requested reclaimed forgiven
        (requested - reclaimed - forgiven) taken key := by
    intro key hkey
    rw [hmeta, clawbackRowMetadata_of_ne hkey]
  have hof : OfDispute d row :=
    ⟨htype, (hat _ (by decide)).trans hreason, (hat _ (by decide)).trans hobject⟩
  have hrow : db'.transactions.get? s.transactions.next = some row := by
    rw [rows, Table.get?_insert_next]
  -- no row bore the dispute before, so this is the only one
  have hothers : ∀ k row', db'.transactions.get? k = some row' → OfDispute d row' →
      k = s.transactions.next := by
    intro k row' hk hof'
    rw [rows, Table.get?_insert] at hk
    split at hk
    · assumption
    · exact absurd hof' (not_ofDispute (hs.row hk))
  have hisRow : row.metadata .debtId = row.debtKey.map (.ref .debt) → IsClawbackRow d row :=
    fun hdebt => ⟨hof, ⟨g, (hat _ (by decide)).trans hgrant⟩,
      ⟨_, (hat _ (by decide)).trans hrequested⟩, ⟨_, (hat _ (by decide)).trans hreclaimed⟩,
      (hat _ (by decide)).trans hreversed, (hat _ (by decide)).trans hsettlement, hdebt⟩
  refine ⟨s.transactions.next, row, ?_⟩
  by_cases howed : 0 < requested - reclaimed - forgiven
  · -- What is owed becomes a debt with the marks of the row.
    obtain ⟨debt, taken', debts, -, hdtype, -, hinitial, houtstanding, hdmeta⟩ := hpost.owed howed
    obtain ⟨hdreason, hdobject, -, -, -, -, hdreversed, -, -⟩ :=
      clawbackMetadata_of_event "dispute" eventId obj g requested reclaimed forgiven
        (requested - reclaimed - forgiven) taken'
    rw [hobj] at hdobject
    have hid : row.metadata .debtId = some (.ref .debt s.debts.next) := by
      rw [hmeta, clawbackRowMetadata, if_pos howed, Metadata.set_same]
    have hkey : row.debtKey = some s.debts.next := by
      rw [Transaction.debtKey, hid]
    have hget : db'.debts.get? s.debts.next = some debt := by
      rw [debts, Table.get?_insert_next]
    have howedFor : OwedFor d debt :=
      ⟨hdtype, by rw [hdmeta]; exact hdreason, by rw [hdmeta]; exact hdobject,
        by rw [hdmeta]; exact hdreversed⟩
    refine ⟨hisRow (by rw [hid, hkey]; rfl), ⟨hrow, hrowWallet ▸ hwallet, fun j hj => ?_,
      fun k row' hk hof' => Or.inl (hothers k row' hk hof'), fun j debt' hj hmarked => ?_⟩,
      fun j hj debt' hj' => ?_⟩
    · obtain rfl : s.debts.next = j := by rw [hkey] at hj; exact Option.some.inj hj
      exact ⟨debt, hget, howedFor, by omega, by omega, fun hlt => absurd hlt (by omega)⟩
    · rw [debts, Table.get?_insert] at hj
      split at hj
      · rename_i hnext
        rw [hkey, hnext]
        rfl
      · exact absurd hmarked (hs.debt hj)
    · obtain rfl : s.debts.next = j := by rw [hkey] at hj; exact Option.some.inj hj
      obtain rfl := Option.some.inj (hget.symm.trans hj')
      omega
  · have hid : row.metadata .debtId = none := by
      rw [hmeta, clawbackRowMetadata, if_neg howed]
      exact hnodebt
    have hkey : row.debtKey = none := by rw [Transaction.debtKey, hid]
    have hnone : ∀ {P : Prop} {j : ℕ}, j ∈ row.debtKey → P := by
      intro P j hj
      rw [hkey] at hj
      cases hj
    refine ⟨hisRow (by rw [hid, hkey]; rfl), ⟨hrow, hrowWallet ▸ hwallet, fun j hj => hnone hj,
      fun k row' hk hof' => Or.inl (hothers k row' hk hof'), fun j debt' hj hmarked => ?_⟩,
      fun j hj => hnone hj⟩
    rw [hpost.covered (by omega)] at hj
    exact absurd hmarked (hs.debt hj)

/-- The dispute's event, where the object names one grant. -/
theorem handleDisputeCreated_disputed {opened : ProviderEvent ChargeObject} {g : ℕ}
    (hu : db.Unmarked .stripeObjectId (.str d)) (hobj : opened.object.id = some d)
    (hgrant : (grantTransactions opened.object db).map Prod.fst = [g])
    (h : handleDisputeCreated env opened db = .ok db') :
    db'.Unmarked .stripeObjectId (.str d) ∨ ∃ k₀ row₀, IsClawbackRow d row₀ ∧
      Disputed d k₀ row₀ db' ∧ ∀ j ∈ row₀.debtKey, ∀ debt, db'.debts.get? j = some debt →
        debt.creditsOutstanding = debt.creditsInitial := by
  rcases handleClawback_cases h with rfl | ⟨claimed, hclaim, heach⟩
  · exact Or.inl hu
  have hclean : claimed.Unmarked .stripeObjectId (.str d) := by
    obtain ⟨e, -, -, -, rfl⟩ := claimProviderObject_some hclaim
    exact hu
  obtain ⟨⟨g', txn⟩, hlist, -⟩ := List.map_eq_singleton_iff.mp hgrant
  rw [hlist, clawBackEach] at heach
  split at heach
  · cases heach
  · rename_i db₁ hremaining
    obtain rfl := Except.ok.inj heach
    rcases clawBackRemaining_cases hremaining with ⟨-, rfl⟩ | ⟨-, description, r, hclaw⟩
    · exact Or.inl hclean
    · exact Or.inr (clawBackGrant_disputed hclean hobj hclaw)

end Opening

/-! ## The rows a closed dispute finds -/

section Closing
variable {k₀ : ℕ} {row₀ : Transaction}

theorem disputeRows_unmarked (hu : db.Unmarked .stripeObjectId (.str d)) : disputeRows d db = [] := by
  rw [disputeRows, Table.select_eq_nil fun k row hk => not_ofDispute (hu.row hk), orderBy_nil]

/-- While nothing is collected, the clawback's row is the only one. -/
theorem Disputed.disputeRows (hd : Disputed d k₀ row₀ db) (hrow : IsClawbackRow d row₀)
    (hnone : ∀ j ∈ row₀.debtKey, ∀ debt, db.debts.get? j = some debt →
      debt.creditsOutstanding = debt.creditsInitial) :
    disputeRows d db = [(k₀, row₀)] := by
  have honly : ∀ k row, db.transactions.get? k = some row → OfDispute d row → k = k₀ := by
    intro k row hk hof
    rcases hd.others k row hk hof with hk₀ | ⟨j, hj, debt, hget, hlt⟩
    · exact hk₀
    · exact absurd (hnone j hj debt hget) hlt.ne
  rw [StapelBilling.disputeRows, Table.select_eq_singleton hd.row hrow.ofDispute honly,
    orderBy_singleton]

theorem intOrZero_int {m : Metadata} {key : MetaKey} {n : ℤ} (h : m key = some (.int n)) :
    m.intOrZero key = .ok n := by
  unfold Metadata.intOrZero Metadata.truthy
  rw [h]
  by_cases hn : n = 0 <;> simp [Json.truthy, Json.toInt, hn]

theorem clawbackDebt_none {m : Metadata} (h : m .debtId = none) : clawbackDebt m db = .ok none := by
  simp [clawbackDebt, Metadata.truthy, h, Json.truthy]

theorem clawbackDebt_ref {m : Metadata} {j : ℕ} (h : m .debtId = some (.ref .debt j)) :
    clawbackDebt m db = .ok ((db.debts.get? j).map fun debt => (j, debt)) := by
  simp [clawbackDebt, Metadata.truthy, h, Json.truthy, lookupPk]

variable (env) in
/-- **The clawback's row is reversed**, for what it reclaimed and what its debt
collected. -/
theorem Disputed.reverse_ok (hd : Disputed d k₀ row₀ db) (hrow : IsClawbackRow d row₀)
    (eventId : Option String) :
    ∃ final, reverseClawback env k₀ row₀ eventId db = .ok (row₀.metadata.intAt .reclaimed +
      (row₀.debtKey.map db.collectedOf).getD 0, final) := by
  obtain ⟨wallet, hwallet⟩ := hd.wallet
  obtain ⟨g, hg⟩ := hrow.grant
  obtain ⟨requested, hrequested⟩ := hrow.requested
  obtain ⟨reclaimed, hreclaimed⟩ := hrow.reclaimed
  have hfresh : row₀.metadata.truthy .reversed = false := by
    rw [Metadata.truthy, hrow.reversed]
    rfl
  have hlookup : lookupPk db.transactions .transaction (row₀.metadata .clawbackOf) =
      .ok ((db.transactions.get? g).map fun row => (g, row)) := by
    rw [hg, lookupPk, if_pos rfl]
  have hat : row₀.metadata.intAt .reclaimed = reclaimed := by
    rw [Metadata.intAt, hreclaimed]
  have hdebt : ∃ debt, clawbackDebt row₀.metadata db = .ok debt ∧
      (debt.map fun r => r.2.collected).getD 0 = (row₀.debtKey.map db.collectedOf).getD 0 := by
    rcases hkey : row₀.debtKey with - | j
    · exact ⟨none, clawbackDebt_none (by rw [hrow.debt, hkey]; rfl), rfl⟩
    · obtain ⟨debt, hget, -⟩ := hd.debt j hkey
      refine ⟨_, clawbackDebt_ref (by rw [hrow.debt, hkey]; rfl), ?_⟩
      simp [Db.collectedOf, hget]
  obtain ⟨debt, hdebt, hcollected⟩ := hdebt
  rw [hat, ← hcollected]
  unfold reverseClawback
  simp only [hwallet, hd.row, hfresh, Bool.false_eq_true, if_false, hlookup, bind, Except.bind,
    intOrZero_int hreclaimed, intOrZero_int hrequested, hdebt, pure, Except.pure]
  split
  · obtain ⟨n, final, hsettle, -⟩ := settleDebts_moves env row₀.wallet
      (P := fun _ => True) (fun _ _ _ _ => trivial) (markReversed k₀ requested eventId
        (giveBack env row₀.wallet k₀
          (((db.transactions.get? g).map fun row => (g, row)).map Prod.fst)
          (reclaimed + (debt.map fun r => r.2.collected).getD 0) eventId
          (closeDebt env debt eventId db)))
    rw [hsettle]
    exact ⟨final, rfl⟩
  · exact ⟨_, rfl⟩

/-! ### What a reversal leaves -/

theorem giveBack_debts {k : ℕ} {grant : Option ℕ} {n : ℤ} {eventId : Option String} (db : Db) :
    (giveBack env w k grant n eventId db).debts = db.debts := by
  unfold giveBack
  split
  · show (expireDueLots env w _).2.debts = _
    rw [(expireDueLots_frame _).2]
  · rfl

/-- A debt with nothing outstanding is not collected again. -/
theorem settleDebts_settled {n : ℤ} {k : ℕ} {debt : CreditDebt}
    (h : settleDebts env w db = .ok (n, db')) (hk : db.debts.get? k = some debt)
    (hzero : debt.creditsOutstanding = 0) : db'.debts.get? k = some debt := by
  refine Moves.invariant (I := fun db => db.debts.get? k = some debt) ?_
    (settleDebts_ok (P := fun m => ∃ j debt amount taken, m = .collect j debt amount taken)
      (fun j debt amount taken => ⟨j, debt, amount, taken, rfl⟩) h) hk
  rintro m db₁ db₂ ⟨j, debt', amount, taken, rfl⟩ hI hs
  cases hs with
  | collect hdebt _ hopen _ _ _ _ =>
    have hne : k ≠ j := by
      rintro rfl
      obtain rfl := Option.some.inj (hI.symm.trans hdebt)
      exact absurd hopen.2 (by omega)
    rw [collectDebt_debts, Table.get?_modify_of_ne _ _ hne]
    exact hI

/-- **A reversal leaves nothing of the row's debt.** -/
theorem reverseClawback_closes {k j : ℕ} {row : Transaction} {eventId : Option String} {n : ℤ}
    {debt : CreditDebt} (h : reverseClawback env k row eventId db = .ok (n, db'))
    (hrow : db.transactions.get? k = some row) (hfresh : row.metadata .reversed = none)
    (hid : row.metadata .debtId = some (.ref .debt j)) (hj : db.debts.get? j = some debt)
    (hnonneg : 0 ≤ debt.creditsOutstanding) :
    ∃ debt', db'.debts.get? j = some debt' ∧ debt'.creditsOutstanding = 0 := by
  obtain ⟨current, hcurrent, hcase⟩ := reverseClawback_cases h
  obtain rfl := Option.some.inj (hrow.symm.trans hcurrent)
  rcases hcase with ⟨hreversed, -⟩ | ⟨-, grant, reclaimed, debt', requested, -, -, hdebt, -, -, db₁,
    rfl, hend⟩
  · rw [Metadata.truthy, hfresh] at hreversed
    cases hreversed
  rw [clawbackDebt_ref hid, hj] at hdebt
  obtain rfl : some (j, debt) = debt' := Except.ok.inj hdebt
  have hclosed : ∃ debt', (closeDebt env (some (j, debt)) eventId db).debts.get? j = some debt' ∧
      debt'.creditsOutstanding = 0 := by
    unfold closeDebt
    dsimp only
    split
    · rw [cancelDebt_debts, Table.get?_modify_self, hj]
      exact ⟨_, rfl, rfl⟩
    · exact ⟨debt, hj, by omega⟩
  obtain ⟨debt', hget, hzero⟩ := hclosed
  have hmarked : (markReversed k requested eventId (giveBack env row.wallet k
      (grant.map Prod.fst) n eventId (closeDebt env (some (j, debt)) eventId db))).debts.get? j =
      some debt' := by
    show (giveBack env row.wallet k _ n eventId _).debts.get? j = _
    rw [giveBack_debts, hget]
  rcases hend with ⟨-, m, hsettle⟩ | ⟨-, rfl⟩
  · exact ⟨debt', settleDebts_settled hsettle hmarked hzero, hzero⟩
  · exact ⟨debt', hmarked, hzero⟩

/-- A reversal rewrites no ledger row but its own. -/
theorem reverseClawback_row {k j : ℕ} {row row' : Transaction} {eventId : Option String} {n : ℤ}
    (h : reverseClawback env k row eventId db = .ok (n, db')) (hne : j ≠ k)
    (hj : db.transactions.get? j = some row') : db'.transactions.get? j = some row' := by
  refine (reverseClawback_moves h).row_kept (fun m hm he => hne ?_) hj
  cases m <;> first | exact hm.elim | cases he
  exact hm

/-- **Every row a reversal is handed ends up reversed.** -/
theorem reverseClawback_marks {k : ℕ} {row : Transaction} {eventId : Option String} {n : ℤ}
    (h : reverseClawback env k row eventId db = .ok (n, db')) :
    ∃ row', db'.transactions.get? k = some row' ∧ row'.metadata .reversed ≠ none := by
  obtain ⟨current, hcurrent, hcase⟩ := reverseClawback_cases h
  rcases hcase with ⟨hreversed, -, rfl⟩ | ⟨-, grant, reclaimed, debt, requested, -, -, -, -, -, db₁,
    rfl, hend⟩
  · refine ⟨current, hcurrent, fun hnone => ?_⟩
    rw [Metadata.truthy, hnone] at hreversed
    cases hreversed
  · have hclose : (closeDebt env debt eventId db).transactions.get? k = some current := by
      unfold closeDebt
      split
      · split <;> exact hcurrent
      · exact hcurrent
    have hgive : (giveBack env row.wallet k (grant.map Prod.fst) n eventId
        (closeDebt env debt eventId db)).transactions.get? k = some current := by
      unfold giveBack
      split
      · exact Table.get?_insert_of_some _ (expireDueLots_row hclose)
      · exact hclose
    have hmark : ∃ row', (markReversed k requested eventId (giveBack env row.wallet k
        (grant.map Prod.fst) n eventId (closeDebt env debt eventId db))).transactions.get? k =
        some row' ∧ row'.metadata .reversed ≠ none := by
      rw [markReversed_transactions, Table.get?_modify_self, hgive]
      refine ⟨_, rfl, ?_⟩
      dsimp only
      rw [Metadata.set_of_ne _ _ (by decide), Metadata.set_same]
      exact Option.some_ne_none _
    rcases hend with ⟨-, m, hsettle⟩ | ⟨-, rfl⟩
    · exact Moves.invariant (fun _ _ _ _ hI hs => hs.reversed_kept hI)
        (settleDebts_ok (P := fun _ => True) (fun _ _ _ _ => trivial) hsettle) hmark
    · exact hmark

theorem reverseEach_cons {k : ℕ} {row : Transaction} {rows : List (ℕ × Transaction)}
    {eventId : Option String} {n : ℤ}
    (h : reverseEach env eventId ((k, row) :: rows) db = .ok (n, db')) :
    ∃ n₁ n₂ db₁, reverseClawback env k row eventId db = .ok (n₁, db₁) ∧
      reverseEach env eventId rows db₁ = .ok (n₂, db') ∧ n = n₁ + n₂ := by
  rw [reverseEach] at h
  rcases hfirst : reverseClawback env k row eventId db with e | ⟨n₁, db₁⟩
  · rw [hfirst] at h; cases h
  rcases hrest : reverseEach env eventId rows db₁ with e | ⟨n₂, db₂⟩
  · rw [hfirst] at h
    simp only [bind, Except.bind, hrest] at h
    cases h
  · rw [hfirst] at h
    simp only [bind, Except.bind, hrest, pure, Except.pure] at h
    obtain ⟨rfl, rfl⟩ := Prod.mk.inj (Except.ok.inj h)
    exact ⟨n₁, n₂, db₁, rfl, hrest, rfl⟩

theorem reverseEach_reversed {eventId : Option String} {rows : List (ℕ × Transaction)} {n : ℤ}
    {k : ℕ} (h : reverseEach env eventId rows db = .ok (n, db'))
    (hk : ∃ row, db.transactions.get? k = some row ∧ row.metadata .reversed ≠ none) :
    ∃ row, db'.transactions.get? k = some row ∧ row.metadata .reversed ≠ none := by
  induction rows generalizing n db with
  | nil =>
    obtain ⟨-, rfl⟩ := Prod.mk.inj (Except.ok.inj h)
    exact hk
  | cons r rows ih =>
    obtain ⟨n₁, n₂, db₁, hfirst, hrest, -⟩ := reverseEach_cons h
    exact ih hrest (Moves.invariant (fun _ _ _ _ hI hs => hs.reversed_kept hI)
      (reverseClawback_moves hfirst) hk)

theorem reverseEach_marks {eventId : Option String} {rows : List (ℕ × Transaction)} {n : ℤ}
    (h : reverseEach env eventId rows db = .ok (n, db')) :
    ∀ r ∈ rows, ∃ row, db'.transactions.get? r.1 = some row ∧ row.metadata .reversed ≠ none := by
  induction rows generalizing n db with
  | nil => exact fun r hr => absurd hr List.not_mem_nil
  | cons r rows ih =>
    obtain ⟨k, row⟩ := r
    obtain ⟨n₁, n₂, db₁, hfirst, hrest, -⟩ := reverseEach_cons h
    intro r hr
    rcases List.mem_cons.mp hr with rfl | hr
    · exact reverseEach_reversed hrest (reverseClawback_marks hfirst)
    · exact ih hrest r hr

end Closing

/-! ## The reversal is exact just when nothing was collected -/

section Outcome
variable {k₀ : ℕ} {row₀ : Transaction} {closed : ProviderEvent ChargeObject}

theorem handleDisputeClosed_won {claimed : Db} (hd : d ≠ "") (hobj : closed.object.id = some d)
    (hstatus : closed.object.status = some "won")
    (hclaim : claimProviderObject .clawback closed.id "stripe" db = some claimed) :
    handleDisputeClosed env closed db = if disputeRows d db = [] then .ok (0, db)
      else reverseEach env closed.id (disputeRows d db) claimed := by
  simp only [handleDisputeClosed, hobj, hstatus, hclaim, ne_eq, not_true_eq_false, hd, or_self,
    if_false]

/-- Nothing was clawed back: there is nothing to give back. -/
theorem wonExactly_unmarked {opened : Db} (hobj : closed.object.id = some d)
    (hopened : opened.Unmarked .stripeObjectId (.str d))
    (hu : db.Unmarked .stripeObjectId (.str d)) : WonExactly env closed d opened db := by
  refine ⟨0, db, ?_, ?_, fun r hr => ?_⟩
  · simp only [handleDisputeClosed, hobj, disputeRows_unmarked hu, if_true, ite_self]
  · rw [owedBack, disputeRows_unmarked hopened]
    rfl
  · rw [disputeRows_unmarked hopened] at hr
    cases hr

/-- **Nothing was collected**: the clawback's row is reversed, alone. -/
theorem wonExactly_uncollected {opened claimed : Db} (hne : d ≠ "")
    (hobj : closed.object.id = some d) (hstatus : closed.object.status = some "won")
    (hclaim : claimProviderObject .clawback closed.id "stripe" db = some claimed)
    (hrow : IsClawbackRow d row₀) (hrows : disputeRows d opened = [(k₀, row₀)])
    (hd : Disputed d k₀ row₀ db) (hnone : Uncollected d opened db) :
    WonExactly env closed d opened db := by
  have huncollected : ∀ j ∈ row₀.debtKey, ∀ debt, db.debts.get? j = some debt →
      debt.creditsOutstanding = debt.creditsInitial :=
    hnone (k₀, row₀) (by rw [hrows]; exact List.mem_singleton_self _)
  obtain ⟨e, -, -, -, rfl⟩ := claimProviderObject_some hclaim
  have hd' : Disputed d k₀ row₀ { db with
      providerGrants := db.providerGrants.insert
        { provider := "stripe", scope := .clawback, externalId := e } } :=
    ⟨hd.row, hd.wallet, hd.debt, hd.others, hd.debts⟩
  obtain ⟨final, hreverse⟩ := hd'.reverse_ok env hrow closed.id
  refine ⟨row₀.metadata.intAt .reclaimed + (row₀.debtKey.map db.collectedOf).getD 0, final,
    ?_, ?_, ?_⟩
  · rw [handleDisputeClosed_won hne hobj hstatus hclaim, hd.disputeRows hrow huncollected,
      if_neg (List.cons_ne_nil _ _)]
    simp only [reverseEach, hreverse, bind, Except.bind, pure, Except.pure, add_zero]
    rfl
  · simp [owedBack, hrows]
  · intro r hr k hk
    rw [hrows, List.mem_singleton] at hr
    subst hr
    obtain ⟨debt, hget, -, hnonneg, -⟩ := hd.debt k hk
    have hid : row₀.metadata .debtId = some (.ref .debt k) := by
      rw [hrow.debt, Option.mem_def.mp hk]
      rfl
    refine ⟨reverseClawback_closes hreverse hd'.row hrow.reversed hid hget hnonneg, ?_⟩
    intro j row hj hsettles
    refine reverseClawback_row hreverse ?_ hj
    rintro rfl
    obtain rfl := Option.some.inj (hd.row.symm.trans hj)
    cases hrow.settlement.symm.trans hsettles.1

/-- **Something was collected**: the settlement's row is reversed too. -/
theorem not_wonExactly_collected {opened claimed : Db} (hne : d ≠ "")
    (hobj : closed.object.id = some d) (hstatus : closed.object.status = some "won")
    (hclaim : claimProviderObject .clawback closed.id "stripe" db = some claimed)
    (hrows : disputeRows d opened = [(k₀, row₀)])
    (hd : Disputed d k₀ row₀ db) (hsome : ¬ Uncollected d opened db) :
    ¬ WonExactly env closed d opened db := by
  rintro ⟨total, final, hok, -, hkept⟩
  obtain ⟨j, hj, debt, hget, hcollected⟩ : ∃ j ∈ row₀.debtKey, ∃ debt,
      db.debts.get? j = some debt ∧ debt.creditsOutstanding ≠ debt.creditsInitial := by
    simp only [Uncollected, hrows, List.mem_singleton, forall_eq, not_forall] at hsome
    obtain ⟨j, hj, debt, hget, hcollected⟩ := hsome
    exact ⟨j, hj, debt, hget, hcollected⟩
  obtain ⟨debt', hget', -, -, hle, hsettled⟩ := hd.debt j hj
  obtain rfl := Option.some.inj (hget.symm.trans hget')
  obtain ⟨k, row, hk, hof, hsettles, hfresh⟩ := hsettled (lt_of_le_of_ne hle hcollected)
  have hlisted : (k, row) ∈ disputeRows d db := mem_orderBy.mpr (Table.mem_select.mpr ⟨hk, hof⟩)
  rw [handleDisputeClosed_won hne hobj hstatus hclaim, if_neg (List.ne_nil_of_mem hlisted)] at hok
  obtain ⟨row', hrow', hreversed⟩ := reverseEach_marks hok (k, row) hlisted
  have hstays := (hkept (k₀, row₀) (by rw [hrows]; exact List.mem_singleton_self _) j hj).2 k row hk
    hsettles
  obtain rfl := Option.some.inj (hstays.symm.trans hrow')
  exact hreversed hfresh

end Outcome

/-- **A won dispute gives back exactly what it took just when none of its debt was
collected meanwhile.**  Between the two events any credits, debits, holds, releases
and sweeps may run. -/
theorem wonDispute_exact_iff {envOpened envClosed : Env} {opened closed : ProviderEvent ChargeObject}
    {g : ℕ} {db : Db} {calls : List (Env × WalletCall)} (hne : d ≠ "")
    (hopened : opened.object.id = some d) (hclosed : closed.object.id = some d)
    (hstatus : closed.object.status = some "won")
    (hfresh : db.Unmarked .stripeObjectId (.str d))
    (hgrant : (grantTransactions opened.object db).map Prod.fst = [g])
    (hcalls : ∀ c ∈ calls, c.2.Quiet .stripeObjectId (.str d))
    (hclaim : (claimProviderObject .clawback closed.id "stripe"
      (runCalls calls (commit (handleDisputeCreated envOpened opened) db))).isSome) :
    let disputed := commit (handleDisputeCreated envOpened opened) db
    WonExactly envClosed closed d disputed (runCalls calls disputed) ↔
      Uncollected d disputed (runCalls calls disputed) := by
  dsimp only
  obtain ⟨claimed, hclaim⟩ := Option.isSome_iff_exists.mp hclaim
  have hopening : (commit (handleDisputeCreated envOpened opened) db).Unmarked .stripeObjectId
      (.str d) ∨ ∃ k₀ row₀, IsClawbackRow d row₀ ∧
        Disputed d k₀ row₀ (commit (handleDisputeCreated envOpened opened) db) ∧
        ∀ j ∈ row₀.debtKey, ∀ debt,
          (commit (handleDisputeCreated envOpened opened) db).debts.get? j = some debt →
          debt.creditsOutstanding = debt.creditsInitial := by
    rcases hok : handleDisputeCreated envOpened opened db with e | db'
    · rw [commit_error hok]
      exact Or.inl hfresh
    · rw [commit_ok hok]
      exact handleDisputeCreated_disputed hfresh hopened hgrant hok
  generalize commit (handleDisputeCreated envOpened opened) db = disputed at hclaim hopening ⊢
  rcases hopening with hu | ⟨k₀, row₀, hrow, hd, hnone⟩
  · have hu' : (runCalls calls disputed).Unmarked .stripeObjectId (.str d) :=
      runCalls_quiet (fun _ _ _ _ _ hm hI hs => hs.unmarked stripeObjectId_mark hm hI) hcalls hu
    refine iff_of_true (wonExactly_unmarked hclosed hu hu') fun r hr => ?_
    rw [disputeRows_unmarked hu] at hr
    cases hr
  · have hrows := hd.disputeRows hrow hnone
    have hd' : Disputed d k₀ row₀ (runCalls calls disputed) :=
      runCalls_quiet (fun _ _ _ _ _ hm hI hs => hs.disputed hm hI) hcalls hd
    constructor
    · intro hwon
      by_contra hsome
      exact not_wonExactly_collected hne hclosed hstatus hclaim hrows hd' hsome hwon
    · exact wonExactly_uncollected hne hclosed hstatus hclaim hrow hrows hd'

/-- A grant of 100, 60 of which are spent before the payment is disputed. -/
def disputedPurchase : Db :=
  runCalls
    [(Env.plain 0, .credit
      { user := 7
        credits := 100
        type := .creditPurchase
        source := .purchase
        metadata := Metadata.empty.set .stripePaymentIntent (.str "pi_1") }),
     (Env.plain 1, .debit
      { user := 7
        credits := 60
        type := .aiCharge })] Db.empty

def disputeOpened : ProviderEvent ChargeObject :=
  { id := some "evt_1"
    type := "charge.dispute.created"
    object := { id := some "dp_1", paymentIntent := some "pi_1" } }

def disputeWon : ProviderEvent ChargeObject :=
  { id := some "evt_2"
    type := "charge.dispute.closed"
    object := { id := some "dp_1", status := some "won" } }

/-- A purchase of `credits` between the two events. -/
def purchaseMeanwhile (credits : ℤ) : List (Env × WalletCall) :=
  [(Env.plain 3, .credit
    { user := 7
      credits
      type := .creditPurchase
      source := .purchase })]

/-- The database once the dispute was opened. -/
def disputedDb : Db := commit (handleDisputeCreated (Env.plain 2) disputeOpened) disputedPurchase

theorem wonDispute_exact_iff_purchase :
    WonExactly (Env.plain 4) disputeWon "dp_1" disputedDb
        (runCalls (purchaseMeanwhile 30) disputedDb) ↔
      Uncollected "dp_1" disputedDb (runCalls (purchaseMeanwhile 30) disputedDb) := by
  refine wonDispute_exact_iff (g := 0) (by decide) rfl rfl rfl ?_ ?_ ?_ ?_
  · decide +kernel
  · decide +kernel
  · intro c hc
    rw [List.mem_singleton.mp hc]
    exact (by decide : Metadata.empty .stripeObjectId ≠ some (.str "dp_1"))
  · decide +kernel

/-- A purchase of 30 pays half of the debt; then the won dispute gives back 170
instead of 70. -/
theorem wonDispute_gives_too_much :
    ¬ WonExactly (Env.plain 4) disputeWon "dp_1" disputedDb
      (runCalls (purchaseMeanwhile 30) disputedDb) := by
  rintro ⟨total, final, hok, htotal, -⟩
  have hgiven : (handleDisputeClosed (Env.plain 4) disputeWon
      (runCalls (purchaseMeanwhile 30) disputedDb)).map Prod.fst = .ok 170 := by decide +kernel
  have howed : owedBack "dp_1" disputedDb (runCalls (purchaseMeanwhile 30) disputedDb) = 70 := by
    decide +kernel
  rw [hok] at hgiven
  have h170 : total = 170 := Except.ok.inj hgiven
  omega

end StapelBilling
