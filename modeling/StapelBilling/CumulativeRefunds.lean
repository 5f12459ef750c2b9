import StapelBilling.Marks
import StapelBilling.Store.Tally

/-! # Cumulative refunds

The provider reports refunds of a charge cumulatively; each event claws back the
difference to what the ledger says earlier clawbacks requested.  The ledger is read
by a mark that debt settlements copy, so it counts a clawback once more for every
settlement of its debt.  The clawbacks of a grant add up to the target of the
largest refund exactly when some event that reports this target finds no settlement
on the ledger yet.
-/
namespace StapelBilling
open Store

variable {env : Env} {w : ℕ} {db db' : Db} {g : ℕ}

/-! ## What the ledger says of a grant -/

/-- Does the row book the settlement of a debt? -/
def Transaction.IsSettlement (row : Transaction) : Prop :=
  row.metadata .debtSettlement = some (.bool true)

instance : DecidablePred Transaction.IsSettlement := fun row => by
  unfold Transaction.IsSettlement; infer_instance

/-- The credits the clawbacks of a grant requested, and what settlement rows repeat
of them. -/
def Db.clawbackTally (g : ℕ) (db : Db) : Tally where
  taken := db.transactions.sum fun _ row =>
    if NamesGrant g row ∧ ¬ row.IsSettlement then netRequested row.metadata else 0
  surplus := db.transactions.sum fun _ row =>
    if NamesGrant g row ∧ row.IsSettlement then netRequested row.metadata else 0

/-- No settlement row names the grant. -/
def Db.Unsettled (g : ℕ) (db : Db) : Prop :=
  ∀ r ∈ db.transactions.rows, NamesGrant g r.2 → ¬ r.2.IsSettlement

instance (g : ℕ) (db : Db) : Decidable (db.Unsettled g) := by
  unfold Db.Unsettled; infer_instance

/-- Marks that ask for a positive amount and were never reversed. -/
def Metadata.Asks (m : Metadata) : Prop :=
  (∃ n, 0 < n ∧ m .requested = some (.int n)) ∧ m .reversed = none

/-- Every row and debt marked with the grant asks for a positive amount. -/
structure Clawed (g : ℕ) (db : Db) : Prop where
  row : ∀ k row, db.transactions.get? k = some row →
    row.metadata .clawbackOf = some (.ref .transaction g) → row.metadata.Asks
  debt : ∀ k debt, db.debts.get? k = some debt →
    debt.metadata .clawbackOf = some (.ref .transaction g) →
    debt.type = .refund ∧ debt.metadata.Asks

theorem clawbackOf_mark : ¬ MetaKey.clawbackOf.IsBookkeeping := by decide

theorem Metadata.Asks.net {m : Metadata} (h : m.Asks) :
    ∃ n, 0 < n ∧ m .requested = some (.int n) ∧ netRequested m = n := by
  obtain ⟨⟨n, hpos, hrequested⟩, hreversed⟩ := h
  refine ⟨n, hpos, hrequested, ?_⟩
  simp [netRequested, Metadata.intOrZero, Metadata.truthy, hrequested, hreversed, Json.truthy,
    Json.toInt, hpos.ne']

section Tally

theorem Clawed.net_pos (hc : Clawed g db) {k : ℕ} {row : Transaction}
    (hk : db.transactions.get? k = some row) (hn : NamesGrant g row) :
    0 < netRequested row.metadata := by
  obtain ⟨n, hpos, -, hnet⟩ := (hc.row k row hk hn.2).net
  omega

theorem Clawed.taken_nonneg (hc : Clawed g db) : 0 ≤ (db.clawbackTally g).taken := by
  unfold Db.clawbackTally
  dsimp only
  refine Table.sum_nonneg fun k row hk => ?_
  split
  · rename_i h
    exact (hc.net_pos hk h.1).le
  · exact le_rfl

theorem Clawed.surplus_nonneg (hc : Clawed g db) : 0 ≤ (db.clawbackTally g).surplus := by
  unfold Db.clawbackTally
  dsimp only
  refine Table.sum_nonneg fun k row hk => ?_
  split
  · rename_i h
    exact (hc.net_pos hk h.1).le
  · exact le_rfl

/-- There is surplus as soon as a settlement row names the grant. -/
theorem Clawed.surplus_eq_zero_iff (hc : Clawed g db) :
    (db.clawbackTally g).surplus = 0 ↔ db.Unsettled g := by
  constructor
  · rintro hzero ⟨k, row⟩ hr hn hs
    have hk := Table.get?_eq_some_iff.mpr hr
    have hle := Table.le_sum (g := fun _ row =>
      if NamesGrant g row ∧ row.IsSettlement then netRequested row.metadata else 0)
      (fun j row hj => by
        split
        · rename_i h
          exact (hc.net_pos hj h.1).le
        · exact le_rfl) hk
    have hpos := hc.net_pos hk hn
    rw [if_pos ⟨hn, hs⟩] at hle
    change _ ≤ (db.clawbackTally g).surplus at hle
    omega
  · intro h
    unfold Db.clawbackTally
    dsimp only
    refine Table.sum_zero fun k row hk => if_neg fun ⟨hn, hs⟩ => ?_
    exact h (k, row) (Table.get?_eq_some_iff.mp hk) hn hs

/-- **What an event reads is the whole tally.** -/
theorem Clawed.already (hc : Clawed g db) :
    alreadyClawedBack g db = (db.clawbackTally g).logged := by
  have htaken := hc.taken_nonneg
  have hsurplus := hc.surplus_nonneg
  have hsum : (db.transactions.sum fun _ row =>
      if NamesGrant g row then netRequested row.metadata else 0) =
      (db.clawbackTally g).logged := by
    unfold Tally.logged Db.clawbackTally
    rw [← Table.sum_add]
    refine Table.sum_congr fun k row _ => ?_
    by_cases hn : NamesGrant g row
    · by_cases hs : row.IsSettlement <;> simp [hn, hs]
    · simp [hn]
  rw [alreadyClawedBack, hsum, max_eq_left]
  unfold Tally.logged
  omega

theorem clawbackTally_of_rows (h : db'.transactions = db.transactions) :
    db'.clawbackTally g = db.clawbackTally g := by
  unfold Db.clawbackTally
  rw [h]

/-- A row that does not name the grant is not counted. -/
theorem clawbackTally_other {row : Transaction}
    (rows : db'.transactions = db.transactions.insert row) (h : ¬ NamesGrant g row) :
    db'.clawbackTally g = db.clawbackTally g := by
  unfold Db.clawbackTally
  simp [rows, h]

/-- A settlement row counts as surplus. -/
theorem clawbackTally_settlement {row : Transaction}
    (rows : db'.transactions = db.transactions.insert row) (h : NamesGrant g row)
    (hs : row.IsSettlement) : db'.clawbackTally g =
      { taken := (db.clawbackTally g).taken
        surplus := (db.clawbackTally g).surplus + netRequested row.metadata } := by
  unfold Db.clawbackTally
  simp [rows, h, hs]

/-- A clawback's row counts as taken. -/
theorem clawbackTally_clawback {row : Transaction}
    (rows : db'.transactions = db.transactions.insert row) (h : NamesGrant g row)
    (hs : ¬ row.IsSettlement) : db'.clawbackTally g =
      { taken := (db.clawbackTally g).taken + netRequested row.metadata
        surplus := (db.clawbackTally g).surplus } := by
  unfold Db.clawbackTally
  simp [rows, h, hs]

end Tally

/-! ## Quiet moves -/

/-- **A quiet move lets the surplus drift upwards**: a settlement of a marked debt
repeats the mark. -/
theorem Step.clawed {m : Move} (h : Step env w m db db')
    (hm : m.Quiet .clawbackOf (.ref .transaction g)) (hc : Clawed g db) :
    Clawed g db' ∧ Tally.Step none (db.clawbackTally g) (db'.clawbackTally g) := by
  rcases h.posts clawbackOf_mark hm with hpost | ⟨k, debt, amount, hpost⟩
  · refine ⟨⟨fun k row hk hmarked => hc.row k row (hpost.row_old hk hmarked) hmarked,
      fun k debt hk hmarked => hc.debt k debt (hpost.debt_old hk hmarked) hmarked⟩, ?_⟩
    have hsame : db'.clawbackTally g = db.clawbackTally g := by
      cases hpost with
      | nothing rows _ => exact clawbackTally_of_rows rows
      | row _ rows hunmarked _ => exact clawbackTally_other rows fun hn => hunmarked hn.2
      | debt _ rows hunmarked _ _ _ => exact clawbackTally_other rows fun hn => hunmarked hn.2
    rw [hsame]
    exact .drift rfl le_rfl
  · obtain ⟨row, taken, rows, htype, hmeta⟩ := hpost.posted
    have hkey : ∀ key : MetaKey, ¬ key.IsBookkeeping → row.metadata key = debt.metadata key := by
      intro key hkey
      rw [hmeta, settlementMetadata_mark hkey]
    have hasks : debt.metadata.Asks → row.metadata.Asks := by
      rintro ⟨⟨n, hpos, hrequested⟩, hreversed⟩
      exact ⟨⟨n, hpos, (hkey _ (by decide)).trans hrequested⟩,
        (hkey _ (by decide)).trans hreversed⟩
    have hsettles : row.IsSettlement := by
      rw [Transaction.IsSettlement, hmeta]
      rfl
    have hc' : Clawed g db' := by
      refine ⟨fun j row' hj hmarked => ?_, fun j debt' hj hmarked => ?_⟩
      · rw [rows, Table.get?_insert] at hj
        split at hj
        · obtain rfl := Option.some.inj hj
          rw [hkey _ clawbackOf_mark] at hmarked
          exact hasks (hc.debt k debt hpost.current hmarked).2
        · exact hc.row j row' hj hmarked
      · by_cases hjk : j = k
        · subst hjk
          obtain ⟨s, hself⟩ := hpost.debt_self
          obtain rfl := Option.some.inj (hself.symm.trans hj)
          exact hc.debt j debt hpost.current hmarked
        · rw [hpost.debt_other hjk] at hj
          exact hc.debt j debt' hj hmarked
    refine ⟨hc', ?_⟩
    by_cases hn : NamesGrant g row
    · have hpos := hc'.net_pos (k := db.transactions.next) (by rw [rows, Table.get?_insert_next]) hn
      rw [clawbackTally_settlement rows hn hsettles]
      refine .drift rfl ?_
      show (db.clawbackTally g).surplus ≤ (db.clawbackTally g).surplus + netRequested row.metadata
      omega
    · rw [clawbackTally_other rows hn]
      exact .drift rfl le_rfl

variable (env w) in
/-- A sweep counts for nothing. -/
theorem expireDueLots_clawed (hc : Clawed g db) : Clawed g (db.swept env w) ∧
    (db.swept env w).clawbackTally g = db.clawbackTally g := by
  refine Moves.invariant
    (I := fun db' => Clawed g db' ∧ db'.clawbackTally g = db.clawbackTally g) ?_
    (expireDueLots_moves env w (P := Move.IsSweep) trivial (fun _ => trivial) db) ⟨hc, rfl⟩
  rintro m db₁ db₂ hm ⟨hI, hsame⟩ hs
  cases hs with
  | sync => exact ⟨⟨hI.row, hI.debt⟩, hsame⟩
  | expire hlot hw hdue =>
    refine ⟨((Step.expire hlot hw hdue).clawed trivial hI).1, ?_⟩
    refine Eq.trans (b := db₁.clawbackTally g) (clawbackTally_other rfl fun hn => ?_) hsame
    cases hn.1
  | _ => exact hm.elim

/-! ## Clawbacks -/

/-- What the clawbacks of one event keep. -/
structure ClawsBack (g : ℕ) (db db' : Db) : Prop where
  refs : db'.Referenced
  clawed : Clawed g db'
  rows : ∀ k row, db.transactions.get? k = some row → db'.transactions.get? k = some row
  elsewhere : db.SameElsewhere db'
  surplus : (db'.clawbackTally g).surplus = (db.clawbackTally g).surplus

theorem ClawsBack.refl (hr : db.Referenced) (hc : Clawed g db) : ClawsBack g db db :=
  ⟨hr, hc, fun _ _ hk => hk, Db.SameElsewhere.refl db, rfl⟩

theorem ClawsBack.trans {db₁ db₂ db₃ : Db} (h : ClawsBack g db₁ db₂) (h' : ClawsBack g db₂ db₃) :
    ClawsBack g db₁ db₃ :=
  ⟨h'.refs, h'.clawed, fun k row hk => h'.rows k row (h.rows k row hk),
    h.elsewhere.trans h'.elsewhere, h'.surplus.trans h.surplus⟩

/-- What a posted clawback does to the tally of `g`. -/
theorem PostsClawback.clawed {grant : ℕ} {label : String} {eventId : Option String}
    {obj : ChargeObject} {requested reclaimed forgiven : ℤ}
    (h : PostsClawback w grant (eventMetadata label eventId obj) requested reclaimed forgiven db db')
    (hpos : 0 < requested) (hc : Clawed g db) :
    Clawed g db' ∧ (db'.clawbackTally g).surplus = (db.clawbackTally g).surplus ∧
      (db'.clawbackTally g).taken = (db.clawbackTally g).taken +
        if grant = g then requested else 0 := by
  obtain ⟨row, taken, rows, -, htype, hmeta⟩ := h.posted
  obtain ⟨-, -, hgrant, hrequested, -, -, hreversed, hsettlement, -⟩ :=
    clawbackMetadata_of_event label eventId obj grant requested reclaimed forgiven
      (requested - reclaimed - forgiven) taken
  have hat : ∀ key, key ≠ .debtId → row.metadata key =
      clawbackMetadata (eventMetadata label eventId obj) grant requested reclaimed forgiven
        (requested - reclaimed - forgiven) taken key := by
    intro key hkey
    rw [hmeta, clawbackRowMetadata_of_ne hkey]
  -- the new row asks, and is no settlement
  have hmark : row.metadata .clawbackOf = some (.ref .transaction grant) :=
    (hat _ (by decide)).trans hgrant
  have hasks : row.metadata.Asks :=
    ⟨⟨requested, hpos, (hat _ (by decide)).trans hrequested⟩, (hat _ (by decide)).trans hreversed⟩
  have hnot : ¬ row.IsSettlement := by
    rw [Transaction.IsSettlement, hat _ (by decide)]
    exact fun h => by cases hsettlement.symm.trans h
  have hc' : Clawed g db' := by
    refine ⟨fun k row' hk hmarked => ?_, fun k debt hk hmarked => ?_⟩
    · rw [rows, Table.get?_insert] at hk
      split at hk
      · obtain rfl := Option.some.inj hk
        exact hasks
      · exact hc.row k row' hk hmarked
    · -- the debt it may open carries the same marks
      by_cases howed : 0 < requested - reclaimed - forgiven
      · obtain ⟨debt', taken', debts, -, hdtype, -, -, -, hdmeta⟩ := h.owed howed
        rw [debts, Table.get?_insert] at hk
        split at hk
        · obtain rfl := Option.some.inj hk
          rw [hdmeta]
          exact ⟨hdtype, ⟨requested, hpos, rfl⟩, rfl⟩
        · exact hc.debt k debt hk hmarked
      · rw [h.covered (by omega)] at hk
        exact hc.debt k debt hk hmarked
  refine ⟨hc', ?_⟩
  -- only clawbacks of the grant count in its tally
  by_cases hg : grant = g
  · have hn : NamesGrant g row := ⟨htype, by rw [hmark, hg]⟩
    obtain ⟨n, -, hrequested', hnet⟩ := hasks.net
    obtain rfl : requested = n := by
      have he := ((hat _ (by decide)).trans hrequested).symm.trans hrequested'
      cases he
      rfl
    rw [clawbackTally_clawback rows hn hnot, if_pos hg, hnet]
    exact ⟨rfl, rfl⟩
  · have hn : ¬ NamesGrant g row := by
      intro hn
      have he := hmark.symm.trans hn.2
      cases he
      exact hg rfl
    rw [clawbackTally_other rows hn, if_neg hg, add_zero]
    exact ⟨rfl, rfl⟩

/-- The credits that a delivery's loop passes to `clawBackGrant` for grant `g`. -/
def passedEach (env : Env) (obj : ChargeObject) (label : String) (eventId : Option String) (g : ℕ) :
    List (ℕ × Transaction) → Db → ℤ
  | [], _ => 0
  | (grant, txn) :: grants, db =>
    (if grant = g then max (clawbackDue obj grant txn db) 0 else 0) +
      match clawBackRemaining env obj grant txn label eventId db with
      | .error _ => 0
      | .ok db => passedEach env obj label eventId g grants db

section Loop
variable (env) (obj : ChargeObject) (label : String) (eventId : Option String)

/-- **One grant of the loop**: what is passed is taken, and the log reaches the
target. -/
theorem clawBackRemaining_tally {grant : ℕ} {txn : Transaction}
    (hrow : db.transactions.get? grant = some txn) (hr : db.Referenced) (hc : Clawed g db) :
    ∃ db', clawBackRemaining env obj grant txn label eventId db = .ok db' ∧ ClawsBack g db db' ∧
      (db'.clawbackTally g).taken = (db.clawbackTally g).taken +
        if grant = g then max (clawbackDue obj grant txn db) 0 else 0 := by
  by_cases hdue : clawbackDue obj grant txn db ≤ 0
  · refine ⟨db, by simp only [clawBackRemaining, if_pos hdue], ClawsBack.refl hr hc, ?_⟩
    rw [max_eq_right hdue, ite_self, add_zero]
  · obtain ⟨r, db', hok⟩ := clawBackGrant_ok env grant
      (some (clawbackDue obj grant txn db))
      (some (label ++ ": " ++ (orText txn.description (some txn.type.value)).getD ""))
      (eventMetadata label eventId obj) (hr.transactions _ _ hrow)
    obtain ⟨-, requested, reclaimed, forgiven, hrequested, -, hpost⟩ := clawBackGrant_posts hok
    obtain rfl : requested = clawbackDue obj grant txn db := hrequested
    obtain ⟨hswept, hsame⟩ := expireDueLots_clawed env txn.wallet hc
    obtain ⟨hc', hsurplus, htaken⟩ := hpost.clawed (by omega) hswept
    rw [hsame] at hsurplus htaken
    have hmoves := clawBackGrant_moves hok
    refine ⟨db', by simp only [clawBackRemaining, if_neg hdue, hok],
      ⟨hmoves.referenced (hr.transactions _ _ hrow) hr, hc',
        fun _ _ hk => clawBackGrant_row hok hk, hmoves.elsewhere, hsurplus⟩, ?_⟩
    rw [htaken, max_eq_left (by omega)]

/-- **The loop**: every grant's turn comes once, and `g`'s log reaches its target. -/
theorem clawBackEach_tally {grants : List (ℕ × Transaction)} (hnd : (grants.map Prod.fst).Nodup)
    (hrows : ∀ r ∈ grants, db.transactions.get? r.1 = some r.2) (hr : db.Referenced)
    (hc : Clawed g db) :
    ∃ db', clawBackEach env obj label eventId grants db = .ok db' ∧ ClawsBack g db db' ∧
      (db'.clawbackTally g).taken =
        (db.clawbackTally g).taken + passedEach env obj label eventId g grants db ∧
      (g ∉ grants.map Prod.fst → db'.clawbackTally g = db.clawbackTally g) ∧
      ∀ txn, (g, txn) ∈ grants → (db'.clawbackTally g).logged =
        max (db.clawbackTally g).logged (min (clawbackCredits obj txn) txn.creditsDelta) := by
  induction grants generalizing db with
  | nil =>
    exact ⟨db, rfl, ClawsBack.refl hr hc, (add_zero _).symm, fun _ => rfl,
      fun txn h => absurd h List.not_mem_nil⟩
  | cons r grants ih =>
    obtain ⟨grant, txn⟩ := r
    obtain ⟨hnot, hnd'⟩ := List.nodup_cons.mp hnd
    obtain ⟨db₁, hok₁, hclaws₁, htaken₁⟩ :=
      clawBackRemaining_tally env obj label eventId (hrows _ List.mem_cons_self) hr hc
    obtain ⟨db', hok', hclaws', htaken', hothers, hreached⟩ := ih hnd'
      (fun r hr => hclaws₁.rows _ _ (hrows r (List.mem_cons_of_mem _ hr))) hclaws₁.refs
      hclaws₁.clawed
    have hlogged₁ : ∀ n, (db₁.clawbackTally g).taken = (db.clawbackTally g).taken + n →
        (db₁.clawbackTally g).logged = (db.clawbackTally g).logged + n := by
      intro n hn
      have hs := hclaws₁.surplus
      unfold Tally.logged
      omega
    refine ⟨db', by simp only [clawBackEach, hok₁, hok'], hclaws₁.trans hclaws', ?_, ?_, ?_⟩
    · rw [htaken', htaken₁]
      simp only [passedEach, hok₁]
      ring
    · intro hg
      rw [List.map_cons, List.mem_cons, not_or] at hg
      rw [hothers hg.2]
      rw [if_neg (Ne.symm hg.1), add_zero] at htaken₁
      exact congrArg₂ Tally.mk htaken₁ hclaws₁.surplus
    · intro txn' hmem
      rcases List.mem_cons.mp hmem with he | hmem
      · -- This is the grant's turn; no later one touches its tally.
        obtain ⟨rfl, rfl⟩ := Prod.mk.inj he
        rw [hothers hnot, hlogged₁ _ htaken₁, if_pos rfl, clawbackDue, hc.already]
        dsimp only
        omega
      · have hne : grant ≠ g := fun he => hnot (List.mem_map.mpr ⟨_, hmem, he.symm⟩)
        rw [hreached txn' hmem, hlogged₁ _ htaken₁, if_neg hne, add_zero]

end Loop

/-! ## Targets -/

/-- The charge as an event reports it once `refunded` of `total` has gone back. -/
def ChargeObject.refundedBy (charge : ChargeObject) (total refunded : ℤ) : ChargeObject :=
  { charge with
    amount := some total
    amountRefunded := some refunded }

section Targets
variable (charge : ChargeObject) {total n m : ℤ} {txn : Transaction}

theorem clawbackCredits_refundedBy (h : 0 < n) :
    clawbackCredits (charge.refundedBy total n) txn = if n < total then
      max 1 (min txn.creditsDelta (roundHalfEven ((txn.creditsDelta * n : ℤ) / (total : ℚ))))
      else txn.creditsDelta := by
  simp only [clawbackCredits, ChargeObject.refundedBy]
  by_cases hlt : n < total
  · rw [if_pos ⟨by omega, h, hlt⟩, if_pos hlt]
  · rw [if_neg fun hc => hlt hc.2.2, if_neg hlt]

/-- A target is positive and at most the grant. -/
theorem clawbackCredits_bounds (h : 0 < n) (hpos : 0 < txn.creditsDelta) :
    0 < clawbackCredits (charge.refundedBy total n) txn ∧
      clawbackCredits (charge.refundedBy total n) txn ≤ txn.creditsDelta := by
  rw [clawbackCredits_refundedBy charge h]
  split <;> omega

/-- **A larger refund has the larger target.** -/
theorem clawbackCredits_mono (hn : 0 < n) (hle : n ≤ m) (hpos : 0 < txn.creditsDelta) :
    clawbackCredits (charge.refundedBy total n) txn ≤
      clawbackCredits (charge.refundedBy total m) txn := by
  by_cases hfull : m < total
  · rw [clawbackCredits_refundedBy charge hn, clawbackCredits_refundedBy charge (hn.trans_le hle),
      if_pos (hle.trans_lt hfull), if_pos hfull]
    have hratio : ((txn.creditsDelta * n : ℤ) : ℚ) / total ≤
        ((txn.creditsDelta * m : ℤ) : ℚ) / total := by
      have htotal : (0 : ℚ) ≤ total := by exact_mod_cast (by omega : (0 : ℤ) ≤ total)
      refine div_le_div_of_nonneg_right ?_ htotal
      exact_mod_cast mul_le_mul_of_nonneg_left hle hpos.le
    have hround := roundHalfEven_mono hratio
    omega
  · rw [clawbackCredits_refundedBy charge (n := m) (hn.trans_le hle), if_neg hfull]
    exact (clawbackCredits_bounds charge hn hpos).2

end Targets

/-! ## Deliveries -/

/-- Has the provider's event been claimed? -/
def Db.Claimed (scope : GrantScope) (externalId : String) (db : Db) : Prop :=
  ∃ r ∈ db.providerGrants.rows, r.2.provider = "stripe" ∧ r.2.scope = scope ∧
    r.2.externalId = externalId

instance (scope : GrantScope) (externalId : String) (db : Db) :
    Decidable (db.Claimed scope externalId) := by
  unfold Db.Claimed; infer_instance

theorem claimProviderObject_fresh {scope : GrantScope} {ext : String} (hne : ext ≠ "")
    (h : ¬ db.Claimed scope ext) : ∃ claimed,
      claimProviderObject scope (some ext) "stripe" db = some claimed ∧
      claimed = { db with providerGrants := db.providerGrants.insert { scope, externalId := ext } } := by
  simp only [claimProviderObject, if_neg hne]
  split
  · rename_i r hfind
    obtain ⟨hget, hr⟩ := Table.find?_some hfind
    exact absurd ⟨_, Table.get?_eq_some_iff.mp hget, hr⟩ h
  · exact ⟨_, rfl, rfl⟩

theorem claimProviderObject_claimed {scope : GrantScope} {ext : String} (hne : ext ≠ "")
    (h : db.Claimed scope ext) : claimProviderObject scope (some ext) "stripe" db = none := by
  obtain ⟨⟨k, r⟩, hr, hall⟩ := h
  simp only [claimProviderObject, if_neg hne]
  split
  · rfl
  · rename_i hnone
    exact absurd hall (Table.find?_none hnone (Table.get?_eq_some_iff.mpr hr))

/-- One claim is added. -/
theorem claimed_insert_iff {scope : GrantScope} {ext ext' : String} : Db.Claimed scope ext'
    { db with providerGrants := db.providerGrants.insert { scope, externalId := ext } } ↔
      db.Claimed scope ext' ∨ ext' = ext := by
  simp only [Db.Claimed, Table.insert, List.mem_append, List.mem_singleton]
  constructor
  · rintro ⟨r, hr | rfl, hall⟩
    · exact Or.inl ⟨r, hr, hall⟩
    · exact Or.inr hall.2.2.symm
  · rintro (⟨r, hr, hall⟩ | rfl)
    · exact ⟨r, Or.inl hr, hall⟩
    · exact ⟨_, Or.inr rfl, rfl, rfl, rfl⟩

/-- A step of the wallet's history: the charge's refund event is delivered, or an
ordinary call runs. -/
inductive RefundStep
  | delivery (eventId : String) (refunded : ℤ)
  | call (c : WalletCall)

section Run
variable (charge : ChargeObject) (total : ℤ)

/-- `charge.refunded`, reporting that `refunded` of `total` has gone back. -/
def refundEvent (eventId : String) (refunded : ℤ) : ProviderEvent ChargeObject where
  id := some eventId
  type := "charge.refunded"
  object := charge.refundedBy total refunded

def RefundStep.exec (step : Env × RefundStep) (db : Db) : Except BillingError Db :=
  match step.2 with
  | .delivery eventId refunded =>
    handleChargeRefunded step.1 (refundEvent charge total eventId refunded) db
  | .call c => c.exec step.1 db

/-- The credits one step passes to `clawBackGrant` for grant `g`; a refused delivery
and one that fails pass none. -/
def RefundStep.passed (g : ℕ) (step : Env × RefundStep) (db : Db) : ℤ :=
  match step.2 with
  | .delivery eventId refunded =>
    let event := refundEvent charge total eventId refunded
    match handleChargeRefunded step.1 event db, claimProviderObject .clawback event.id "stripe" db with
    | .ok _, some claimed =>
      passedEach step.1 event.object "refund" event.id g (grantTransactions event.object db) claimed
    | _, _ => 0
  | .call _ => 0

/-- The credits passed to `clawBackGrant` for grant `g` over a whole history. -/
def totalPassed (g : ℕ) (steps : List (Env × RefundStep)) (db : Db) : ℤ :=
  ((trace (RefundStep.exec charge total) steps db).map fun p =>
    RefundStep.passed charge total g p.1 p.2).sum

/-- Is this event among the deliveries? -/
def Delivers (steps : List (Env × RefundStep)) (eventId : String) (refunded : ℤ) : Prop :=
  ∃ env, (env, RefundStep.delivery eventId refunded) ∈ steps

/-- **The deliveries of one charge**: every event has an identity of its own, fresh
at the start, and reports a refund within the charge; the calls in between are
ordinary ones. -/
structure Deliveries (total : ℤ) (g : ℕ) (steps : List (Env × RefundStep)) (db : Db) : Prop where
  fresh : ∀ id n, Delivers steps id n → id ≠ "" ∧ ¬ db.Claimed .clawback id
  same : ∀ id n m, Delivers steps id n → Delivers steps id m → n = m
  bounds : ∀ id n, Delivers steps id n → 0 < n ∧ n ≤ total
  quiet : ∀ env c, (env, RefundStep.call c) ∈ steps → c.Quiet .clawbackOf (.ref .transaction g)

/-- What holds between the steps. -/
structure Refunding (g : ℕ) (txn : Transaction) (steps : List (Env × RefundStep)) (db : Db) :
    Prop where
  grant : db.transactions.get? g = some txn
  refs : db.Referenced
  clawed : Clawed g db
  counted : ∀ id n, Delivers steps id n → db.Claimed .clawback id →
    clawbackCredits (charge.refundedBy total n) txn ≤ (db.clawbackTally g).logged

variable {charge total} {txn : Transaction} {steps : List (Env × RefundStep)} {start : Db}

variable (env) in
/-- A delivery reports its target: the log reaches it, by what the delivery passes. -/
theorem Refunding.delivery (hd : Deliveries total g steps start) (hnames : charge.Names txn)
    (hI : Refunding charge total g txn steps db) {id : String} {n : ℤ} (hdel : Delivers steps id n) :
    ∃ db', RefundStep.exec charge total (env, .delivery id n) db = .ok db' ∧
      Refunding charge total g txn steps db' ∧
      Tally.Step (some (clawbackCredits (charge.refundedBy total n) txn)) (db.clawbackTally g)
        (db'.clawbackTally g) ∧
      (db'.clawbackTally g).taken =
        (db.clawbackTally g).taken + RefundStep.passed charge total g (env, .delivery id n) db := by
  have hne := (hd.fresh id n hdel).1
  have hbounds := hd.bounds id n hdel
  have hmem : (g, txn) ∈ grantTransactions (charge.refundedBy total n) db :=
    mem_grantTransactions.mpr ⟨hI.grant, hnames⟩
  have htarget : min (clawbackCredits (charge.refundedBy total n) txn) txn.creditsDelta =
      clawbackCredits (charge.refundedBy total n) txn :=
    min_eq_left (clawbackCredits_bounds charge hbounds.1 hnames.2).2
  by_cases hclaimed : db.Claimed .clawback id
  · -- A redelivery: the event was counted when it was first handled.
    have hclaim : claimProviderObject .clawback (refundEvent charge total id n).id "stripe" db =
        none := claimProviderObject_claimed hne hclaimed
    have hok : handleChargeRefunded env (refundEvent charge total id n) db = .ok db := by
      simp only [handleChargeRefunded, handleClawback, hclaim]
      split <;> rfl
    refine ⟨db, hok, hI, .reached (hI.counted id n hdel hclaimed), ?_⟩
    simp only [RefundStep.passed, hclaim, hok, add_zero]
  · -- a fresh event claims its id, which touches no row of the ledger
    obtain ⟨claimed, hclaim, hdb⟩ := claimProviderObject_fresh hne hclaimed
    have hclaim' : claimProviderObject .clawback (refundEvent charge total id n).id "stripe" db =
        some claimed := hclaim
    have htally : claimed.clawbackTally g = db.clawbackTally g :=
      clawbackTally_of_rows (by rw [hdb])
    have hrefs : claimed.Referenced := by
      rw [hdb]
      exact ⟨hI.refs.lots, hI.refs.transactions, hI.refs.holds, hI.refs.debts⟩
    have hclawed : Clawed g claimed := by
      rw [hdb]
      exact ⟨hI.clawed.row, hI.clawed.debt⟩
    have hcurrent : ∀ r ∈ grantTransactions (charge.refundedBy total n) db,
        claimed.transactions.get? r.1 = some r.2 := by
      intro r hr
      rw [hdb]
      exact (mem_grantTransactions.mp hr).1
    obtain ⟨db', hok, hclaws, htaken, -, hreached⟩ := clawBackEach_tally env
      (charge.refundedBy total n) "refund" (some id) (orderBy_nodup Table.select_nodup) hcurrent
      hrefs hclawed
    have hhandle : handleChargeRefunded env (refundEvent charge total id n) db = .ok db' := by
      simp only [handleChargeRefunded, handleClawback, hclaim',
        if_neg (List.ne_nil_of_mem (show (g, txn) ∈ grantTransactions
          (refundEvent charge total id n).object db from hmem))]
      exact hok
    have hlogged := hreached txn hmem
    have hsurplus := hclaws.surplus
    rw [htally, htarget] at hlogged
    rw [htally] at htaken hsurplus
    -- the tally goes up to the target, or stood there already
    have hstep : Tally.Step (some (clawbackCredits (charge.refundedBy total n) txn))
        (db.clawbackTally g) (db'.clawbackTally g) := by
      by_cases hlt : (db.clawbackTally g).logged < clawbackCredits (charge.refundedBy total n) txn
      · exact .behind hlt (hlogged.trans (max_eq_right hlt.le)) hsurplus
      · have hsame : db'.clawbackTally g = db.clawbackTally g := by
          rw [max_eq_left (by omega)] at hlogged
          exact Tally.ext_logged hlogged hsurplus
        rw [hsame]
        exact .reached (by omega)
    refine ⟨db', hhandle, ⟨hclaws.rows g txn (by rw [hdb]; exact hI.grant), hclaws.refs,
      hclaws.clawed, fun id' n' hdel' hclaimed' => ?_⟩, hstep, ?_⟩
    · have hclaimed₁ : claimed.Claimed .clawback id' := by
        unfold Db.Claimed at hclaimed' ⊢
        rwa [hclaws.elsewhere.providerGrants] at hclaimed'
      rw [hdb, claimed_insert_iff] at hclaimed₁
      rcases hclaimed₁ with hold | rfl
      · exact (hI.counted id' n' hdel' hold).trans hstep.logged_le
      · obtain rfl := hd.same _ _ _ hdel hdel'
        exact hstep.counted
    · rw [htaken]
      simp only [RefundStep.passed, hhandle, hclaim']
      rfl

/-- A call lets the surplus drift, whether it succeeds or rolls back. -/
theorem Refunding.call (hd : Deliveries total g steps start)
    (hI : Refunding charge total g txn steps db) {c : WalletCall}
    (hc : (env, RefundStep.call c) ∈ steps) :
    Refunding charge total g txn steps (commit (RefundStep.exec charge total (env, .call c)) db) ∧
      Tally.Step none (db.clawbackTally g)
        ((commit (RefundStep.exec charge total (env, .call c)) db).clawbackTally g) := by
  have hquiet := hd.quiet env c hc
  rcases hok : RefundStep.exec charge total (env, .call c) db with e | db'
  · rw [commit_error hok]
    exact ⟨hI, .drift rfl le_rfl⟩
  · rw [commit_ok hok]
    have hexec : c.exec env db = .ok db' := hok
    have hmoves := exec_quiet hquiet hexec
    obtain ⟨hclawed, hdrift⟩ := Moves.invariant
      (I := fun db' => Clawed g db' ∧ Tally.Step none (db.clawbackTally g) (db'.clawbackTally g))
      (fun _ _ _ hm hJ hs => ⟨(hs.clawed hm hJ.1).1, hJ.2.drift_trans (hs.clawed hm hJ.1).2⟩)
      hmoves ⟨hI.clawed, .drift rfl le_rfl⟩
    refine ⟨⟨hmoves.row_kept (fun _ hm => hm.row? g) hI.grant, exec_referenced hI.refs hexec, hclawed,
      fun id n hdel hclaimed => ?_⟩, hdrift⟩
    unfold Db.Claimed at hclaimed
    rw [hmoves.elsewhere.providerGrants] at hclaimed
    exact (hI.counted id n hdel hclaimed).trans hdrift.logged_le

/-- The target a step reports, if it is a delivery. -/
def RefundStep.target (charge : ChargeObject) (total : ℤ) (txn : Transaction) : RefundStep → Option ℤ
  | .delivery _ n => some (clawbackCredits (charge.refundedBy total n) txn)
  | .call _ => none

/-- **The history is a run of the tally**: its reports are the targets delivered, and
what is taken is what was passed. -/
theorem Refunding.run (hd : Deliveries total g steps start) (hnames : charge.Names txn)
    {rest : List (Env × RefundStep)} (hrest : ∀ s ∈ rest, s ∈ steps)
    (hI : Refunding charge total g txn steps db) :
    Tally.Run (db.clawbackTally g)
      ((trace (RefundStep.exec charge total) rest db).map fun p =>
        (p.1.2.target charge total txn, p.2.clawbackTally g))
      ((run (RefundStep.exec charge total) rest db).clawbackTally g) ∧
    ((run (RefundStep.exec charge total) rest db).clawbackTally g).taken =
      (db.clawbackTally g).taken + totalPassed charge total g rest db ∧
    ∀ p ∈ trace (RefundStep.exec charge total) rest db, Clawed g p.2 := by
  induction rest generalizing db with
  | nil => exact ⟨.nil _, (add_zero _).symm, fun p hp => absurd hp List.not_mem_nil⟩
  | cons step rest ih =>
    obtain ⟨env, step⟩ := step
    have hmem : (env, step) ∈ steps := hrest _ List.mem_cons_self
    have hrest' : ∀ s ∈ rest, s ∈ steps := fun s hs => hrest s (List.mem_cons_of_mem _ hs)
    have hnext : Refunding charge total g txn steps
          (commit (RefundStep.exec charge total (env, step)) db) ∧
        Tally.Step (step.target charge total txn) (db.clawbackTally g)
          ((commit (RefundStep.exec charge total (env, step)) db).clawbackTally g) ∧
        ((commit (RefundStep.exec charge total (env, step)) db).clawbackTally g).taken =
          (db.clawbackTally g).taken + RefundStep.passed charge total g (env, step) db := by
      cases step with
      | delivery id n =>
        obtain ⟨db', hok, hI', hstep, htaken⟩ := hI.delivery env hd hnames ⟨env, hmem⟩
        rw [commit_ok hok]
        exact ⟨hI', hstep, htaken⟩
      | call c =>
        obtain ⟨hI', hstep⟩ := hI.call hd hmem
        refine ⟨hI', hstep, ?_⟩
        cases hstep with
        | drift htaken _ => exact htaken.trans (add_zero _).symm
    obtain ⟨hI', hstep, htaken⟩ := hnext
    obtain ⟨hrun, htotal, hall⟩ := ih hrest' hI'
    refine ⟨.cons hstep hrun, ?_, fun p hp => ?_⟩
    · rw [run_cons, htotal, htaken]
      simp only [totalPassed, trace_cons, List.map_cons, List.sum_cons]
      ring
    · rcases List.mem_cons.mp hp with rfl | hp
      · exact hI.clawed
      · exact hall p hp

end Run

/-- **Refunds add up to the largest target just when an event that reports it finds
no settlement of the grant's debt on the ledger.**  Deliveries come in any order and
any number of times, with credits, debits, holds, releases and sweeps in between. -/
theorem cumulativeRefunds_exact_iff {charge : ChargeObject} {total n : ℤ} {txn : Transaction}
    {steps : List (Env × RefundStep)} (hgrant : db.transactions.get? g = some txn)
    (hnames : charge.Names txn) (hrefs : db.Referenced)
    (hfresh : db.Unmarked .clawbackOf (.ref .transaction g)) (hd : Deliveries total g steps db)
    (hn : ∃ id, Delivers steps id n) (hlargest : ∀ id m, Delivers steps id m → m ≤ n) :
    totalPassed charge total g steps db = clawbackCredits (charge.refundedBy total n) txn ↔
      ∃ p ∈ trace (RefundStep.exec charge total) steps db,
        p.1.2.target charge total txn = some (clawbackCredits (charge.refundedBy total n) txn) ∧
        p.2.Unsettled g := by
  obtain ⟨id, hid⟩ := hn
  have hbounds := hd.bounds id n hid
  have hclawed : Clawed g db :=
    ⟨fun k row hk hmarked => absurd hmarked (hfresh.row hk),
      fun k debt hk hmarked => absurd hmarked (hfresh.debt hk)⟩
  have hstart : db.clawbackTally g = ⟨0, 0⟩ :=
    congrArg₂ Tally.mk (Table.sum_zero fun k row hk => if_neg fun h => hfresh.row hk h.1.2)
      (Table.sum_zero fun k row hk => if_neg fun h => hfresh.row hk h.1.2)
  have hI : Refunding charge total g txn steps db :=
    ⟨hgrant, hrefs, hclawed, fun id n hdel hclaimed => absurd hclaimed (hd.fresh id n hdel).2⟩
  obtain ⟨hrun, htotal, hall⟩ := hI.run hd hnames fun _ hs => hs
  rw [hstart] at hrun htotal
  have hpassed : totalPassed charge total g steps db =
      ((run (RefundStep.exec charge total) steps db).clawbackTally g).taken := by
    rw [htotal]
    exact (zero_add _).symm
  -- Every target delivered is at most the largest refund's.
  have hle : ∀ m s, (some m, s) ∈ ((trace (RefundStep.exec charge total) steps db).map fun p =>
      (p.1.2.target charge total txn, p.2.clawbackTally g)) →
      m ≤ clawbackCredits (charge.refundedBy total n) txn := by
    intro m s hmem
    obtain ⟨⟨⟨env, step⟩, db'⟩, hp, he⟩ := List.mem_map.mp hmem
    have hstep : (env, step) ∈ steps := mem_of_mem_trace hp
    cases step with
    | delivery id' n' =>
      obtain rfl := Option.some.inj (congrArg Prod.fst he)
      exact clawbackCredits_mono charge (hd.bounds id' n' ⟨env, hstep⟩).1
        (hlargest id' n' ⟨env, hstep⟩) hnames.2
    | call c => cases he
  rw [hpassed, hrun.taken_eq_iff (clawbackCredits_bounds charge hbounds.1 hnames.2).1 le_rfl hle]
  constructor
  · rintro ⟨s, hmem, hs⟩
    obtain ⟨p, hp, he⟩ := List.mem_map.mp hmem
    obtain ⟨htarget, rfl⟩ := Prod.mk.inj he
    exact ⟨p, hp, htarget, (hall p hp).surplus_eq_zero_iff.mp hs⟩
  · rintro ⟨p, hp, htarget, hunsettled⟩
    exact ⟨p.2.clawbackTally g, List.mem_map.mpr ⟨p, hp, by rw [htarget]⟩,
      (hall p hp).surplus_eq_zero_iff.mpr hunsettled⟩

/-- A grant of 100 that is spent at once. -/
def spentPurchase : Db :=
  runCalls
    [(Env.plain 0, .credit
      { user := 7
        credits := 100
        type := .creditPurchase
        source := .purchase
        metadata := Metadata.empty.set .stripePaymentIntent (.str "pi_1") }),
     (Env.plain 1, .debit
      { user := 7
        credits := 100
        type := .aiCharge })] Db.empty

/-- The charge that paid for it. -/
def refundedCharge : ChargeObject := { id := some "ch_1", paymentIntent := some "pi_1" }

/-- Half is refunded, a top-up pays for what was spent of it, and all is refunded. -/
def refundAfterSettlement : List (Env × RefundStep) :=
  [(Env.plain 2, .delivery "evt_1" 1000),
    (Env.plain 3, .call (.credit
      { user := 7
        credits := 80
        type := .creditPurchase
        source := .purchase })),
    (Env.plain 4, .delivery "evt_2" 2000)]

theorem delivers_refundAfterSettlement {id : String} {n : ℤ}
    (h : Delivers refundAfterSettlement id n) : id = "evt_1" ∧ n = 1000 ∨ id = "evt_2" ∧ n = 2000 := by
  obtain ⟨env, h⟩ := h
  simp only [refundAfterSettlement, List.mem_cons, Prod.mk.injEq, RefundStep.delivery.injEq,
    reduceCtorEq, and_false, List.not_mem_nil, or_false, false_or] at h
  tauto

theorem deliveries_refundAfterSettlement : Deliveries 2000 0 refundAfterSettlement spentPurchase := by
  refine ⟨fun id n h => ?_, fun id n m h h' => ?_, fun id n h => ?_, fun env c h => ?_⟩
  · rcases delivers_refundAfterSettlement h with ⟨rfl, -⟩ | ⟨rfl, -⟩ <;> decide +kernel
  · rcases delivers_refundAfterSettlement h with ⟨rfl, rfl⟩ | ⟨rfl, rfl⟩
    all_goals rcases delivers_refundAfterSettlement h' with ⟨he, rfl⟩ | ⟨he, rfl⟩
    all_goals first | rfl | exact absurd he (by decide)
  · rcases delivers_refundAfterSettlement h with ⟨-, rfl⟩ | ⟨-, rfl⟩ <;> decide
  · simp only [refundAfterSettlement, List.mem_cons, Prod.mk.injEq, RefundStep.call.injEq,
      reduceCtorEq, and_false, List.not_mem_nil, or_false, false_or] at h
    obtain ⟨-, rfl⟩ := h
    exact (by decide : Metadata.empty .clawbackOf ≠ some (.ref .transaction 0))

theorem cumulativeRefunds_exact_iff_settled : ∃ txn, spentPurchase.transactions.get? 0 = some txn ∧
    (totalPassed refundedCharge 2000 0 refundAfterSettlement spentPurchase =
        clawbackCredits (refundedCharge.refundedBy 2000 2000) txn ↔
      ∃ p ∈ trace (RefundStep.exec refundedCharge 2000) refundAfterSettlement spentPurchase,
        p.1.2.target refundedCharge 2000 txn =
          some (clawbackCredits (refundedCharge.refundedBy 2000 2000) txn) ∧
        p.2.Unsettled 0) := by
  have hnames : ∀ txn ∈ spentPurchase.transactions.get? 0, refundedCharge.Names txn := by
    decide +kernel
  obtain ⟨txn, hgrant⟩ : ∃ txn, spentPurchase.transactions.get? 0 = some txn :=
    Option.isSome_iff_exists.mp (by decide +kernel)
  refine ⟨txn, hgrant, cumulativeRefunds_exact_iff hgrant (hnames txn hgrant)
    (runCalls_referenced _ Db.Referenced.empty) (by decide +kernel)
    deliveries_refundAfterSettlement ?_ ?_⟩
  · exact ⟨"evt_2", Env.plain 4, by simp [refundAfterSettlement]⟩
  · intro id m h
    rcases delivers_refundAfterSettlement h with ⟨-, rfl⟩ | ⟨-, rfl⟩ <;> decide

/-- The settlement of the first refund's debt stands in for the second refund: of
100 credits refunded, 50 are clawed back. -/
theorem refunds_miss_settled :
    totalPassed refundedCharge 2000 0 refundAfterSettlement spentPurchase = 50 ∧
      ∀ txn ∈ spentPurchase.transactions.get? 0,
        clawbackCredits (refundedCharge.refundedBy 2000 2000) txn = 100 := by
  decide +kernel

end StapelBilling
