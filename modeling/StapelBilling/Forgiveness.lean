import StapelBilling.Marks
import StapelBilling.Sweeps

/-! # What a clawback forgives

Credits that died of old age are not credits the customer used, so a clawback
forgives what it cannot find in the grant's lots up to what has expired of them.
Each clawback reads the whole expiry history again: the forgiven amounts of a grant
stay within what expired exactly as long as no clawback has to forgive on top of an
earlier one more than is left of it, and only then does splitting a refund leave the
debt of the whole one.
-/
namespace StapelBilling
open Store

variable {env : Env} {w : ℕ} {db db' : Db} {g : ℕ}

/-! ## The books of a grant -/

/-- The grant a lot belongs to. -/
def Db.grantOf (db : Db) (k : ℕ) : Option ℕ :=
  ((db.lots.get? k).map CreditLot.grantingTransaction).join

/-- What the lots of a grant hold. -/
def Db.heldOf (g : ℕ) (db : Db) : ℤ :=
  db.lots.sum fun _ lot => if lot.grantingTransaction = some g then max lot.creditsRemaining 0 else 0

/-- The credits of a grant's lots that expired. -/
def Db.expiredFor (g : ℕ) (db : Db) : ℤ := db.expiredOf (db.grantedLots g)

/-- The credits the clawbacks of a grant forgave. -/
def Db.forgivenOf (g : ℕ) (db : Db) : ℤ :=
  db.transactions.sum fun _ row => if NamesGrant g row then row.metadata.intAt .forgiven else 0

/-- What the expiry of a grant's lots adds to, row by row. -/
theorem expiredFor_eq (g : ℕ) (db : Db) : db.expiredFor g = -db.transactions.sum fun _ row =>
    if row.type = .expiration ∧ ∃ k ∈ row.lot, db.grantOf k = some g then row.creditsDelta else 0 := by
  have hkeys : ∀ k, k ∈ (db.grantedLots g).map Prod.fst ↔ db.grantOf k = some g := by
    intro k
    unfold Db.grantedLots Db.grantOf
    simp only [List.mem_map, mem_orderBy, Table.mem_select, Prod.exists, exists_and_right,
      exists_eq_right, Option.join_eq_some_iff, Option.map_eq_some_iff]
  unfold Db.expiredFor Db.expiredOf
  simp only [hkeys]

/-- A row that is no expiry leaves the expired credits alone, when the lots stay the
grants' they were. -/
theorem expiredFor_insert {row : Transaction} (hgrants : ∀ k, db'.grantOf k = db.grantOf k)
    (rows : db'.transactions = db.transactions.insert row) (htype : row.type ≠ .expiration) :
    db'.expiredFor g = db.expiredFor g := by
  rw [expiredFor_eq, expiredFor_eq, rows]
  simp [hgrants, htype]

theorem expiredFor_insert_le {row : Transaction} (hgrants : ∀ k, db'.grantOf k = db.grantOf k)
    (rows : db'.transactions = db.transactions.insert row) (hdelta : row.creditsDelta ≤ 0) :
    db.expiredFor g ≤ db'.expiredFor g := by
  rw [expiredFor_eq, expiredFor_eq, rows]
  simp only [hgrants, Table.sum_insert]
  split <;> omega

theorem expiredFor_same (hgrants : ∀ k, db'.grantOf k = db.grantOf k)
    (rows : db'.transactions = db.transactions) : db'.expiredFor g = db.expiredFor g := by
  rw [expiredFor_eq, expiredFor_eq, rows]
  simp only [hgrants]

theorem grantOf_spendLots (taken : List (ℕ × ℤ)) (k : ℕ) :
    (db.spendLots taken).grantOf k = db.grantOf k := by
  have hspend : ∀ n (lot : CreditLot), (lot.spend n).grantingTransaction =
      lot.grantingTransaction := fun _ _ => rfl
  exact congrArg Option.join (Table.map_get?_drain hspend k)

theorem forgivenOf_insert {row : Transaction}
    (rows : db'.transactions = db.transactions.insert row) : db'.forgivenOf g =
      db.forgivenOf g + if NamesGrant g row then row.metadata.intAt .forgiven else 0 := by
  unfold Db.forgivenOf
  rw [rows, Table.sum_insert]

/-! ## Debits and sweeps -/

/-- The moves of a debit or a sweep, on rows without the grant's mark. -/
def Move.Spends (g : ℕ) : Move → Prop
  | .openWallet _ | .sync | .expire _ => True
  | .meter args => args.metadata .clawbackOf ≠ some (.ref .transaction g)
  | .charge args _ _ => args.metadata .clawbackOf ≠ some (.ref .transaction g)
  | _ => False

theorem Move.Spends.quiet {m : Move} (hm : m.Spends g) :
    m.Quiet .clawbackOf (.ref .transaction g) := by
  cases m <;> first | exact hm.elim | exact hm

/-- A row without the grant's mark that takes credits away. -/
theorem spends_insert {row : Transaction} (hgrants : ∀ k, db'.grantOf k = db.grantOf k)
    (rows : db'.transactions = db.transactions.insert row) (hunmarked : ¬ NamesGrant g row)
    (hdelta : row.creditsDelta ≤ 0) :
    db'.forgivenOf g = db.forgivenOf g ∧ db.expiredFor g ≤ db'.expiredFor g := by
  refine ⟨?_, expiredFor_insert_le hgrants rows hdelta⟩
  rw [forgivenOf_insert rows, if_neg hunmarked, add_zero]

/-- **A spend or an expiry forgives nothing**, and what has expired only grows. -/
theorem Step.spends {m : Move} (h : Step env w m db db') (hm : m.Spends g) :
    db'.forgivenOf g = db.forgivenOf g ∧ db.expiredFor g ≤ db'.expiredFor g := by
  cases h with
  | openWallet _ _ | sync => exact ⟨rfl, (expiredFor_same (fun _ => rfl) rfl).ge⟩
  | @expire _ j lot running hlot hw hdue =>
    refine spends_insert (fun k => ?_) rfl (fun hn => by cases hn.1) ?_
    · show ((((db.lots.modify j CreditLot.zero).get? k).map _).join) = _
      unfold Db.grantOf
      rw [Table.get?_modify]
      split
      · rw [Option.map_map]
        rfl
      · rfl
    · have hpos := hdue.1
      show -lot.creditsRemaining ≤ 0
      omega
  | @meter _ args =>
    have hunmarked : ∀ n, ((keyedMetadata (args.metadata.mark n) args.idempotencyKey).set .lots
        (.lots [])) .clawbackOf ≠ some (.ref .transaction g) := by
      intro n
      rw [Metadata.set_of_ne _ _ (by decide), keyedMetadata_mark (by decide),
        markWaived_mark (by decide)]
      exact hm
    unfold meterOnlyDebit
    dsimp only
    split <;> exact spends_insert (fun _ => rfl) rfl (fun hn => hunmarked _ hn.2) le_rfl
  | @charge _ args chargeable taken hle htaken hdrawn =>
    have hrow : debitMetadata args taken (args.credits - chargeable) .clawbackOf ≠
        some (.ref .transaction g) := by
      rw [debitMetadata_mark (by decide)]
      exact hm
    have hmarked : ∀ j : Json, (debitMetadata args taken (args.credits - chargeable)).set .debtId j
        .clawbackOf ≠ some (.ref .transaction g) := by
      intro j
      rw [Metadata.set_of_ne _ _ (by decide)]
      exact hrow
    have hdelta : -chargeable ≤ 0 := by
      have hnonneg := htaken.drawn_nonneg
      omega
    unfold chargeDebit
    by_cases hshort : args.credits - chargeable = 0
    · simp only [if_pos hshort]
      split <;> exact spends_insert (grantOf_spendLots taken) rfl (fun hn => hrow hn.2) hdelta
    · simp only [if_neg hshort]
      split <;> exact spends_insert (grantOf_spendLots taken) rfl
        (fun hn => hmarked (.ref .debt db.debts.next) hn.2) hdelta
  | _ => exact hm.elim

theorem Moves.spends {P : Move → Prop} (hP : ∀ m, P m → m.Spends g) (h : Moves env w P db db') :
    db'.forgivenOf g = db.forgivenOf g ∧ db.expiredFor g ≤ db'.expiredFor g := by
  refine Moves.invariant
    (I := fun db' => db'.forgivenOf g = db.forgivenOf g ∧ db.expiredFor g ≤ db'.expiredFor g)
    ?_ h ⟨rfl, le_rfl⟩
  rintro m db₁ db₂ hm ⟨hforgiven, hexpired⟩ hs
  obtain ⟨hforgiven', hexpired'⟩ := hs.spends (hP m hm)
  exact ⟨hforgiven'.trans hforgiven, hexpired.trans hexpired'⟩

variable (env w) in
theorem swept_spends (g : ℕ) (db : Db) : (db.swept env w).forgivenOf g = db.forgivenOf g ∧
    db.expiredFor g ≤ (db.swept env w).expiredFor g := by
  refine (expireDueLots_moves env w (P := Move.IsSweep) trivial (fun _ => trivial) db).spends
    fun m hm => ?_
  cases m <;> first | exact hm.elim | exact trivial

/-! ## Clawbacks -/

/-- What a clawback that asks for `requested` does not find in the grant's lots. -/
def Db.uncovered (g : ℕ) (requested : ℤ) (db : Db) : ℤ := max (requested - db.heldOf g) 0

theorem heldOf_spendLots {P : CreditLot → Prop} {taken : List (ℕ × ℤ)} (htaken : db.Draws P taken)
    (hP : ∀ lot, P lot → lot.grantingTransaction = some g) :
    (db.spendLots taken).heldOf g = db.heldOf g - drawn taken := by
  refine Table.sum_drain htaken.nodup fun k n hmem => ?_
  obtain ⟨hpos, lot, hlot, hgrant, hle⟩ := htaken.lot k n hmem
  refine ⟨lot, hlot, ?_⟩
  have hspent : (lot.spend n).grantingTransaction = some g := hP lot hgrant
  have hleft : (lot.spend n).creditsRemaining = lot.creditsRemaining - n := rfl
  rw [if_pos hspent, if_pos (hP lot hgrant), hleft]
  omega

/-- The walk over a grant's lots gives what was asked for, or all they hold. -/
theorem drawn_grantedLots (requested : ℤ) (db : Db) :
    drawn (draw requested ((db.grantedLots g).map fun r => (r.1, r.2.creditsRemaining))) =
      min (max requested 0) (db.heldOf g) := by
  rw [drawn_draw_max, List.map_map]
  refine congrArg (min (max requested 0)) ?_
  unfold Db.grantedLots Db.heldOf
  rw [← Table.sum_select db.lots _ fun _ lot => max lot.creditsRemaining 0]
  exact orderBy_sum CreditLot.age _ fun r => max r.2.creditsRemaining 0

theorem heldOf_nonneg (g : ℕ) (db : Db) : 0 ≤ db.heldOf g := by
  refine Table.sum_nonneg fun k lot _ => ?_
  split
  · exact le_max_right _ _
  · exact le_rfl

/-- A grant without lots holds nothing, and nothing of it expires. -/
theorem expiredFor_of_nil (h : db.grantedLots g = []) : db.heldOf g = 0 ∧ db.expiredFor g = 0 := by
  constructor
  · have hdrawn := drawn_grantedLots (g := g) (db.heldOf g) db
    have hnonneg := heldOf_nonneg g db
    rw [h, List.map_nil, draw, drawn_nil] at hdrawn
    omega
  · unfold Db.expiredFor Db.expiredOf
    rw [h]
    simp [Table.sum]

/-- What a clawback does to the books of its grant, after its sweep. -/
structure Forgives (g : ℕ) (w : ℕ) (requested : ℤ) (db db' : Db) : Prop where
  forgiven : db'.forgivenOf g =
    db.forgivenOf g + min (db.uncovered g requested) (db.expiredFor g)
  expired : db'.expiredFor g = db.expiredFor g
  held : db'.heldOf g = db.heldOf g - min (max requested 0) (db.heldOf g)
  owed : db'.owedBy w = db.owedBy w +
    (db.uncovered g requested - min (db.uncovered g requested) (db.expiredFor g))

/-- **A clawback forgives what its grant's lots do not cover, up to all that ever
expired of them.** -/
theorem clawBackGrant_forgives {txn : Transaction} {credits : Option ℤ}
    {description : Option String} {metadata : Metadata} {r : ClawbackResult}
    (h : clawBackGrant env g txn credits description metadata db = .ok (r, db'))
    (hexpired : 0 ≤ (db.swept env txn.wallet).expiredFor g) :
    Forgives g txn.wallet (credits.getD txn.creditsDelta) (db.swept env txn.wallet) db' := by
  obtain ⟨-, requested, taken, forgiven, hrequested, htaken, hforgiven, hdraws, hbook⟩ :=
    clawBackGrant_cases h
  rw [← hrequested]
  generalize db.swept env txn.wallet = s at *
  have hdb : db' = (bookClawback env g txn requested (drawn taken) forgiven description metadata
      taken (s.spendLots taken)).2 := congrArg Prod.snd hbook
  have hdrawn : drawn taken = min (max requested 0) (s.heldOf g) := by
    rw [htaken, drawn_grantedLots]
  have hheld := heldOf_nonneg g s
  -- what no lot covers is forgiven as far as lots of the grant expired
  have hforgives : forgiven = min (s.uncovered g requested) (s.expiredFor g) := by
    unfold Db.uncovered
    by_cases hnil : s.grantedLots g = []
    · obtain ⟨hzero, hnone⟩ := expiredFor_of_nil hnil
      rw [hforgiven, if_neg fun hc => hc.2 hnil]
      omega
    · change forgiven = (if 0 < requested - drawn taken ∧ s.grantedLots g ≠ [] then
        min (requested - drawn taken) (s.expiredFor g) else 0) at hforgiven
      rw [hforgiven, hdrawn]
      by_cases hmore : 0 < requested - min (max requested 0) (s.heldOf g)
      · rw [if_pos ⟨hmore, hnil⟩]
        omega
      · rw [if_neg fun hc => hmore hc.1]
        omega
  have hposts := bookClawback_posts env (s.spendLots taken) g txn requested (drawn taken) forgiven
    description metadata taken
  have hlots := bookClawback_lots env g txn requested (drawn taken) forgiven description
    metadata taken (s.spendLots taken)
  rw [← hdb] at hposts hlots
  -- the row itself says what it forgave, and expiry is counted without it
  obtain ⟨row, taken', rows, -, htype, hmeta⟩ := hposts.posted
  have hat : ∀ key, key ≠ .debtId → row.metadata key = clawbackMetadata metadata g requested
      (drawn taken) forgiven (requested - drawn taken - forgiven) taken' key := by
    intro key hkey
    rw [hmeta, clawbackRowMetadata_of_ne hkey]
  have hnames : NamesGrant g row := ⟨htype, hat _ (by decide)⟩
  have hrowForgiven : row.metadata.intAt .forgiven = forgiven := by
    rw [Metadata.intAt, hat _ (by decide)]
    rfl
  have hgrants : ∀ k, db'.grantOf k = s.grantOf k := by
    intro k
    refine Eq.trans ?_ (grantOf_spendLots taken k)
    unfold Db.grantOf
    rw [hlots]
  constructor
  · rw [← hforgives, ← hrowForgiven, forgivenOf_insert rows, if_pos hnames]
    rfl
  · exact expiredFor_insert hgrants rows (by rw [htype]; decide)
  · have hspent := heldOf_spendLots hdraws fun lot hgrant => hgrant
    rw [← hdrawn, ← hspent]
    unfold Db.heldOf
    rw [hlots]
  · -- what is neither held nor forgiven becomes a debt
    have hleft : 0 < requested - drawn taken - forgiven ∨ requested - drawn taken - forgiven ≤ 0 := by
      omega
    unfold Db.uncovered at hforgives ⊢
    rcases hleft with howed | hcovered
    · obtain ⟨debt, taken'', debts, hwallet, -, -, -, houtstanding, -⟩ := hposts.owed howed
      have hsum : db'.owedBy txn.wallet = s.owedBy txn.wallet +
          (requested - drawn taken - forgiven) := by
        unfold Db.owedBy
        rw [debts, Table.sum_insert, if_pos hwallet, houtstanding]
        rfl
      rw [hsum]
      omega
    · have hsum : db'.owedBy txn.wallet = s.owedBy txn.wallet := by
        unfold Db.owedBy
        rw [hposts.covered hcovered]
        rfl
      rw [hsum]
      omega

/-! ## Runs -/

/-- A clawback of the grant, a debit that does not bring its mark along, or a sweep. -/
def WalletCall.TakesBack (g : ℕ) : WalletCall → Prop
  | .debit args => args.metadata .clawbackOf ≠ some (.ref .transaction g)
  | .expireDueLots _ => True
  | .clawBackGrant grant _ _ _ => grant = g
  | _ => False

/-- Is the call a clawback? -/
def WalletCall.IsClawback : WalletCall → Prop
  | .clawBackGrant _ _ _ _ => True
  | _ => False

/-- **One step forgives once**: a clawback finds nothing forgiven yet, or what the
lots do not cover of it still fits beside what was forgiven. -/
def ForgivesOnce (g : ℕ) (c : Env × WalletCall) (db : Db) : Prop :=
  match c.2 with
  | .clawBackGrant _ credits _ _ => ∀ txn ∈ db.transactions.get? g,
    (db.swept c.1 txn.wallet).forgivenOf g = 0 ∨
      (db.swept c.1 txn.wallet).forgivenOf g +
        (db.swept c.1 txn.wallet).uncovered g (credits.getD txn.creditsDelta) ≤
          (db.swept c.1 txn.wallet).expiredFor g
  | _ => True

/-- The grant with its wallet, and books that never run backwards. -/
structure Granted (g : ℕ) (txn : Transaction) (db : Db) : Prop where
  grant : db.transactions.get? g = some txn
  wallet : db.HasWallet txn.wallet
  expired : 0 ≤ db.expiredFor g
  forgiven : 0 ≤ db.forgivenOf g

variable {txn : Transaction}

variable (env) in
/-- A clawback of the grant succeeds. -/
theorem Granted.clawback_ok (hI : Granted g txn db) (credits : Option ℤ)
    (description : Option String) (metadata : Metadata) :
    ∃ db', WalletCall.exec env (.clawBackGrant g credits description metadata) db = .ok db' ∧
      Granted g txn db' ∧
      Forgives g txn.wallet (credits.getD txn.creditsDelta) (db.swept env txn.wallet) db' := by
  obtain ⟨r, db', hok⟩ := clawBackGrant_ok env g credits description metadata
    hI.wallet
  obtain ⟨hforgiven, hexpired⟩ := swept_spends env txn.wallet g db
  have hforgives := clawBackGrant_forgives hok (hI.expired.trans hexpired)
  have hmoves := clawBackGrant_moves hok
  refine ⟨db', by simp only [WalletCall.exec, hI.grant, hok]; rfl,
    ⟨clawBackGrant_row hok hI.grant, hmoves.hasWallet hI.wallet, ?_, ?_⟩, hforgives⟩
  · rw [hforgives.expired]
    exact hI.expired.trans hexpired
  · have hmin : 0 ≤ min ((db.swept env txn.wallet).uncovered g (credits.getD txn.creditsDelta))
        ((db.swept env txn.wallet).expiredFor g) :=
      le_min (le_max_right _ _) (hI.expired.trans hexpired)
    have hnonneg := hI.forgiven
    rw [hforgives.forgiven, hforgiven]
    omega

variable (env) in
/-- Any other call keeps what is forgiven, and what has expired only grows. -/
theorem Granted.call (hI : Granted g txn db) {c : WalletCall} (hc : c.TakesBack g)
    (hnot : ¬ c.IsClawback) :
    Granted g txn (commit (c.exec env) db) ∧
      (commit (c.exec env) db).forgivenOf g = db.forgivenOf g ∧
      db.expiredFor g ≤ (commit (c.exec env) db).expiredFor g := by
  rcases hok : c.exec env db with e | db'
  · rw [commit_error hok]
    exact ⟨hI, rfl, le_rfl⟩
  · rw [commit_ok hok]
    have hmoves : ∃ w, Moves env w (Move.Spends g) db db' := by
      cases c with
      | debit args =>
        obtain ⟨answer, hdebit⟩ := map_snd_ok hok
        refine ⟨_, (debit_moves hdebit).mono fun m hm => ?_⟩
        cases m <;> first | exact hm.elim | exact trivial | exact (show _ = args from hm) ▸ hc
      | expireDueLots w =>
        obtain rfl := Except.ok.inj hok
        exact ⟨w, expireDueLots_moves env w trivial (fun _ => trivial) db⟩
      | clawBackGrant => exact absurd trivial hnot
      | _ => exact hc.elim
    obtain ⟨w, hmoves⟩ := hmoves
    obtain ⟨hforgiven, hexpired⟩ := hmoves.spends fun _ hm => hm
    exact ⟨⟨hmoves.row_kept (fun _ hm => hm.quiet.row? g) hI.grant, hmoves.hasWallet hI.wallet,
      hI.expired.trans hexpired, hforgiven ▸ hI.forgiven⟩, hforgiven, hexpired⟩

theorem Granted.committed (hI : Granted g txn db) {c : Env × WalletCall} (hc : c.2.TakesBack g) :
    Granted g txn (commit (c.2.exec c.1) db) := by
  obtain ⟨env, c⟩ := c
  cases c with
  | clawBackGrant grant credits description metadata =>
    obtain rfl : grant = g := hc
    obtain ⟨db', hok, hI', -⟩ := hI.clawback_ok env credits description metadata
    rw [commit_ok hok]
    exact hI'
  | _ => exact (hI.call env hc fun h => h).1

/-- **The bound survives a step just when the step forgives once.** -/
theorem Granted.bound_iff (hI : Granted g txn db) {c : Env × WalletCall} (hc : c.2.TakesBack g)
    (hbound : db.forgivenOf g ≤ db.expiredFor g) :
    (commit (c.2.exec c.1) db).forgivenOf g ≤ (commit (c.2.exec c.1) db).expiredFor g ↔
      ForgivesOnce g c db := by
  obtain ⟨env, c⟩ := c
  cases c with
  | clawBackGrant grant credits description metadata =>
    obtain rfl : grant = g := hc
    obtain ⟨db', hok, -, hforgives⟩ := hI.clawback_ok env credits description metadata
    obtain ⟨hforgiven, hexpired⟩ := swept_spends env txn.wallet grant db
    have hnonneg := hI.forgiven
    have huncovered : 0 ≤ (db.swept env txn.wallet).uncovered grant
        (credits.getD txn.creditsDelta) := le_max_right _ _
    rw [commit_ok hok, hforgives.forgiven, hforgives.expired]
    simp only [ForgivesOnce, hI.grant, Option.mem_some_iff, forall_eq']
    rw [hforgiven]
    omega
  | debit _ | expireDueLots _ =>
    obtain ⟨-, hforgiven, hexpired⟩ := hI.call env hc fun h => h
    refine iff_of_true ?_ trivial
    rw [hforgiven]
    exact hbound.trans hexpired
  | _ => exact hc.elim

/-- The bound holds after every prefix of a run just when every step forgives once. -/
theorem Granted.run_bound_iff (hI : Granted g txn db) {calls : List (Env × WalletCall)}
    (hcalls : ∀ c ∈ calls, c.2.TakesBack g) (hbound : db.forgivenOf g ≤ db.expiredFor g) :
    (∀ n, (runCalls (calls.take n) db).forgivenOf g ≤ (runCalls (calls.take n) db).expiredFor g) ↔
      ∀ p ∈ trace (fun c => c.2.exec c.1) calls db, ForgivesOnce g p.1 p.2 :=
  Store.run_prefix_iff (I := Granted g txn) (P := fun db => db.forgivenOf g ≤ db.expiredFor g)
    (Q := ForgivesOnce g) (fun c hc _ hd => hd.committed (hcalls c hc))
    (fun c hc _ hd hb => hd.bound_iff (hcalls c hc) hb) hI hbound

/-! ## Splitting a refund -/

/-- One of several partial refunds. -/
structure PartialRefund where
  credits : ℤ
  description : Option String := none
  metadata : Metadata := Metadata.empty

/-- The clawbacks of several partial refunds at one moment. -/
def splitRefund (env : Env) (g : ℕ) (parts : List PartialRefund) : List (Env × WalletCall) :=
  parts.map fun part =>
    (env, .clawBackGrant g (some part.credits) part.description part.metadata)

/-- The clawback of all of them at once. -/
def wholeRefund (env : Env) (g : ℕ) (parts : List PartialRefund) (description : Option String)
    (metadata : Metadata) : List (Env × WalletCall) :=
  [(env, .clawBackGrant g (some (parts.map PartialRefund.credits).sum) description metadata)]

theorem splitRefund_takesBack (env : Env) (g : ℕ) (parts : List PartialRefund) :
    ∀ c ∈ splitRefund env g parts, c.2.TakesBack g := by
  intro c hc
  obtain ⟨part, -, rfl⟩ := List.mem_map.mp hc
  exact rfl

theorem clawBackGrant_noDue {credits : Option ℤ} {description : Option String}
    {metadata : Metadata} {r : ClawbackResult}
    (h : clawBackGrant env g txn credits description metadata db = .ok (r, db')) :
    db'.NoDue txn.wallet env.now := by
  obtain ⟨-, requested, taken, forgiven, -, -, -, hdraws, hbook⟩ := clawBackGrant_cases h
  have hdb : db' = (bookClawback env g txn requested (drawn taken) forgiven description metadata
      taken ((db.swept env txn.wallet).spendLots taken)).2 := congrArg Prod.snd hbook
  have hspent := (swept_noDue env txn.wallet db).spendLots hdraws
  unfold Db.NoDue at hspent ⊢
  rw [hdb, bookClawback_lots]
  exact hspent

/-- A clawback sweeps first, so it may as well start from the swept wallet. -/
theorem Granted.clawback_swept (hI : Granted g txn db) (credits : Option ℤ)
    (description : Option String) (metadata : Metadata) :
    WalletCall.exec env (.clawBackGrant g credits description metadata) db =
      WalletCall.exec env (.clawBackGrant g credits description metadata)
        (db.swept env txn.wallet) := by
  have hmoves := expireDueLots_moves env txn.wallet (P := Move.IsSweep) trivial (fun _ => trivial) db
  have hgrant : (db.swept env txn.wallet).transactions.get? g = some txn :=
    expireDueLots_row hI.grant
  obtain ⟨wallet, hget⟩ := hI.wallet
  obtain ⟨wallet', hget'⟩ := hmoves.hasWallet hI.wallet
  have htwice : (expireDueLots env txn.wallet (db.swept env txn.wallet)).2 =
      db.swept env txn.wallet := swept_of_noDue (swept_noDue env txn.wallet db)
  have hget'' : (db.swept env txn.wallet).wallets.get? txn.wallet = some wallet' := hget'
  simp only [WalletCall.exec, hI.grant, hgrant, clawBackGrant, hget, hget'', htwice]
  rfl

variable (env) in
theorem Granted.swept (hI : Granted g txn db) : Granted g txn (db.swept env txn.wallet) :=
  (hI.call env (c := .expireDueLots txn.wallet) trivial fun h => h).1

/-- **The books of a split refund.**  Nothing of what is not covered gets lost: it is
owed or forgiven; and each part may forgive all that expired. -/
structure SplitBooks (g w : ℕ) (total : ℤ) (db final : Db) : Prop where
  expired : final.expiredFor g = db.expiredFor g
  owed : final.owedBy w = db.owedBy w +
    (db.uncovered g total - (final.forgivenOf g - db.forgivenOf g))
  atLeast : min (db.uncovered g total) (db.expiredFor g) ≤ final.forgivenOf g - db.forgivenOf g
  atMost : final.forgivenOf g - db.forgivenOf g ≤ db.uncovered g total

variable (env) in
theorem Granted.split_books {parts : List PartialRefund} (hpos : ∀ part ∈ parts, 0 < part.credits)
    (hI : Granted g txn db) (hdue : db.NoDue txn.wallet env.now) :
    SplitBooks g txn.wallet (parts.map PartialRefund.credits).sum db
        (runCalls (splitRefund env g parts) db) ∧
      Granted g txn (runCalls (splitRefund env g parts) db) ∧
      (runCalls (splitRefund env g parts) db).NoDue txn.wallet env.now := by
  induction parts generalizing db with
  | nil =>
    have hrun : runCalls (splitRefund env g []) db = db := rfl
    have hheld := heldOf_nonneg g db
    have hnone : db.uncovered g 0 = 0 := max_eq_right (by omega)
    rw [hrun]
    refine ⟨⟨rfl, ?_, ?_, ?_⟩, hI, hdue⟩
    all_goals
      rw [List.map_nil, List.sum_nil, hnone]
      omega
  | cons part parts ih =>
    have hpos' : ∀ p ∈ parts, 0 < p.credits := fun p hp => hpos p (List.mem_cons_of_mem _ hp)
    have hcredits : 0 < part.credits := hpos part List.mem_cons_self
    have hsum : 0 ≤ (parts.map PartialRefund.credits).sum := by
      refine List.sum_nonneg fun x hx => ?_
      obtain ⟨p, hp, rfl⟩ := List.mem_map.mp hx
      exact (hpos' p hp).le
    obtain ⟨db₁, hok, hI₁, hforgives⟩ :=
      hI.clawback_ok env (some part.credits) part.description part.metadata
    rw [swept_of_noDue hdue] at hforgives
    -- a clawback sweeps first, so nothing is due afterwards either
    have hdue₁ : db₁.NoDue txn.wallet env.now := by
      obtain ⟨txn', htxn', hexec⟩ : ∃ txn', db.transactions.get? g = some txn' ∧ ∃ r,
          clawBackGrant env g txn' (some part.credits) part.description part.metadata db =
            .ok (r, db₁) := by
        simp only [WalletCall.exec, hI.grant] at hok
        exact ⟨txn, hI.grant, map_snd_ok hok⟩
      obtain rfl := Option.some.inj (hI.grant.symm.trans htxn')
      obtain ⟨r, hclaw⟩ := hexec
      exact clawBackGrant_noDue hclaw
    have hrun : runCalls (splitRefund env g (part :: parts)) db =
        runCalls (splitRefund env g parts) db₁ :=
      congrArg (runCalls (splitRefund env g parts)) (commit_ok hok)
    obtain ⟨hbooks, hI', hdue'⟩ := ih hpos' hI₁ hdue₁
    rw [hrun, List.map_cons, List.sum_cons]
    -- what the parts leave uncovered adds up to what the whole does
    have hcovered : db.uncovered g (part.credits + (parts.map PartialRefund.credits).sum) =
        db.uncovered g part.credits + db₁.uncovered g (parts.map PartialRefund.credits).sum := by
      have hheld := hforgives.held
      unfold Db.uncovered
      rw [Option.getD_some] at hheld
      omega
    have hfirst : 0 ≤ db.uncovered g part.credits := le_max_right _ _
    have hrest : 0 ≤ db₁.uncovered g (parts.map PartialRefund.credits).sum := le_max_right _ _
    obtain ⟨hexpired, howed, hatLeast, hatMost⟩ := hbooks
    have hforgiven := hforgives.forgiven
    have hexpired₁ := hforgives.expired
    have howed₁ := hforgives.owed
    have hnonneg := hI.expired
    rw [Option.getD_some] at hforgiven howed₁
    refine ⟨⟨hexpired.trans hexpired₁, ?_, ?_, ?_⟩, hI', hdue'⟩ <;> omega

/-- On a swept wallet, a split refund leaves the debt of the whole one just when every
part forgives once. -/
theorem Granted.split_iff {parts : List PartialRefund} (hpos : ∀ part ∈ parts, 0 < part.credits)
    (hI : Granted g txn db) (hdue : db.NoDue txn.wallet env.now) (hzero : db.forgivenOf g = 0)
    (description : Option String) (metadata : Metadata) :
    (runCalls (splitRefund env g parts) db).owedBy txn.wallet =
        (runCalls (wholeRefund env g parts description metadata) db).owedBy txn.wallet ↔
      ∀ p ∈ trace (fun c => c.2.exec c.1) (splitRefund env g parts) db, ForgivesOnce g p.1 p.2 := by
  have hnonneg := hI.expired
  rw [← hI.run_bound_iff (splitRefund_takesBack env g parts) (by omega)]
  obtain ⟨⟨hexpired, howed, hatLeast, hatMost⟩, -, -⟩ := hI.split_books env hpos hdue
  obtain ⟨whole, hok, -, hforgives⟩ := hI.clawback_ok env
    (some (parts.map PartialRefund.credits).sum) description metadata
  have hwhole : runCalls (wholeRefund env g parts description metadata) db = whole :=
    commit_ok hok
  have howedWhole := hforgives.owed
  rw [swept_of_noDue hdue, Option.getD_some] at howedWhole
  rw [hwhole]
  constructor
  · intro hsame n
    -- The rest of the parts forgives no less than nothing, and nothing more expires.
    have hsplit : splitRefund env g parts =
        splitRefund env g (parts.take n) ++ splitRefund env g (parts.drop n) := by
      unfold splitRefund
      rw [← List.map_append, List.take_append_drop]
    have htake : (splitRefund env g parts).take n = splitRefund env g (parts.take n) :=
      (List.map_take).symm
    obtain ⟨-, hIn, hduen⟩ := hI.split_books env
      (fun p hp => hpos p (List.mem_of_mem_take hp)) hdue
    obtain ⟨⟨hexpired', -, hatLeast', -⟩, -, -⟩ := hIn.split_books env
      (fun p hp => hpos p (List.mem_of_mem_drop hp)) hduen
    have hrun : runCalls (splitRefund env g (parts.drop n))
        (runCalls (splitRefund env g (parts.take n)) db) = runCalls (splitRefund env g parts) db := by
      rw [hsplit]
      exact (run_append _ _ _).symm
    rw [hrun] at hexpired' hatLeast'
    have huncovered : 0 ≤ (runCalls (splitRefund env g (parts.take n)) db).uncovered g
        ((parts.drop n).map PartialRefund.credits).sum := le_max_right _ _
    have hexpiredn := hIn.expired
    rw [htake]
    omega
  · intro h
    have hend := h (splitRefund env g parts).length
    rw [List.take_length] at hend
    omega

variable (env) in
/-- The first clawback's sweep may be done beforehand. -/
theorem Granted.split_swept (hI : Granted g txn db) (part : PartialRefund)
    (parts : List PartialRefund) :
    runCalls (splitRefund env g (part :: parts)) db =
        runCalls (splitRefund env g (part :: parts)) (db.swept env txn.wallet) ∧
      ((∀ p ∈ trace (fun c => c.2.exec c.1) (splitRefund env g (part :: parts)) db,
          ForgivesOnce g p.1 p.2) ↔
        ∀ p ∈ trace (fun c => c.2.exec c.1) (splitRefund env g (part :: parts))
          (db.swept env txn.wallet), ForgivesOnce g p.1 p.2) := by
  have hcommit : commit (WalletCall.exec env (.clawBackGrant g (some part.credits)
        part.description part.metadata)) db =
      commit (WalletCall.exec env (.clawBackGrant g (some part.credits) part.description
        part.metadata)) (db.swept env txn.wallet) := by
    unfold commit
    rw [← hI.clawback_swept]
    rcases hok : WalletCall.exec env (.clawBackGrant g (some part.credits) part.description
      part.metadata) db with e | db'
    · obtain ⟨db', hok', -⟩ := hI.clawback_ok env (some part.credits) part.description
        part.metadata
      cases hok.symm.trans hok'
    · rfl
  have hfirst : ForgivesOnce g (env, .clawBackGrant g (some part.credits) part.description
        part.metadata) db ↔
      ForgivesOnce g (env, .clawBackGrant g (some part.credits) part.description part.metadata)
        (db.swept env txn.wallet) := by
    simp only [ForgivesOnce, hI.grant, (hI.swept env).grant, Option.mem_some_iff,
      forall_eq', swept_of_noDue (swept_noDue env txn.wallet db)]
  refine ⟨congrArg (runCalls (splitRefund env g parts)) hcommit, ?_⟩
  simp only [splitRefund, List.map_cons, trace_cons, List.forall_mem_cons, hcommit, hfirst]

/-- **Forgiveness is granted once just when no clawback has to forgive on top of an
earlier one more than is left of what expired.**  In a run of clawbacks, debits and
sweeps, what the clawbacks of a grant forgive stays within what expired of it; and a
refund that is split leaves the debt of the whole one. -/
theorem forgiveness_once_iff (hgrant : db.transactions.get? g = some txn)
    (hwallet : db.HasWallet txn.wallet)
    (hfresh : db.Unmarked .clawbackOf (.ref .transaction g)) (hexpired : 0 ≤ db.expiredFor g) :
    (∀ calls : List (Env × WalletCall), (∀ c ∈ calls, c.2.TakesBack g) →
      ((∀ n, (runCalls (calls.take n) db).forgivenOf g ≤
          (runCalls (calls.take n) db).expiredFor g) ↔
        ∀ p ∈ trace (fun c => c.2.exec c.1) calls db, ForgivesOnce g p.1 p.2)) ∧
    ∀ (env : Env) (parts : List PartialRefund) (description : Option String) (metadata : Metadata),
      (∀ part ∈ parts, 0 < part.credits) →
      ((runCalls (splitRefund env g parts) db).owedBy txn.wallet =
          (runCalls (wholeRefund env g parts description metadata) db).owedBy txn.wallet ↔
        ∀ p ∈ trace (fun c => c.2.exec c.1) (splitRefund env g parts) db, ForgivesOnce g p.1 p.2) := by
  have hzero : db.forgivenOf g = 0 :=
    Table.sum_zero fun k row hk => if_neg fun hn => hfresh.row hk hn.2
  have hI : Granted g txn db := ⟨hgrant, hwallet, hexpired, hzero.ge⟩
  refine ⟨fun calls hcalls => hI.run_bound_iff hcalls (by omega), ?_⟩
  intro env parts description metadata hpos
  have hwhole : runCalls (wholeRefund env g parts description metadata) db =
      runCalls (wholeRefund env g parts description metadata) (db.swept env txn.wallet) := by
    obtain ⟨db', hok, -⟩ := hI.clawback_ok env
      (some (parts.map PartialRefund.credits).sum) description metadata
    have hok' := hok
    rw [hI.clawback_swept] at hok'
    exact (commit_ok hok).trans (commit_ok hok').symm
  have hswept := hI.swept env
  have hzero' : (db.swept env txn.wallet).forgivenOf g = 0 :=
    (swept_spends env txn.wallet g db).1.trans hzero
  have hiff := hswept.split_iff hpos (swept_noDue env txn.wallet db) hzero' description metadata
  cases parts with
  | nil =>
    -- Without parts nothing is clawed back, and a clawback of nothing owes nothing.
    rw [hwhole]
    refine Iff.trans ?_ hiff
    have howed : (db.swept env txn.wallet).owedBy txn.wallet = db.owedBy txn.wallet := by
      unfold Db.owedBy
      rw [show (db.swept env txn.wallet).debts = db.debts from (expireDueLots_frame db).2]
    show db.owedBy txn.wallet = _ ↔ (db.swept env txn.wallet).owedBy txn.wallet = _
    rw [howed]
  | cons part parts =>
    obtain ⟨hrun, htrace⟩ := hI.split_swept env part parts
    rw [hwhole, hrun, htrace]
    exact hiff

/-- A grant of 100 that dies at 50, with 60 spent in time. -/
def lapsedGrant : Db :=
  runCalls
    [(Env.plain 0, .credit
      { user := 7
        credits := 100
        type := .creditPurchase
        source := .purchase
        expiresAt := some 50 }),
     (Env.plain 10, .debit
      { user := 7
        credits := 60
        type := .aiCharge })] Db.empty

/-- Two halves of a refund. -/
def twoHalves : List PartialRefund := [{ credits := 50 }, { credits := 50 }]

theorem forgiveness_once_iff_lapsed : ∃ txn, lapsedGrant.transactions.get? 0 = some txn ∧
    ((∀ n, (runCalls ((splitRefund (Env.plain 60) 0 twoHalves).take n) lapsedGrant).forgivenOf 0 ≤
        (runCalls ((splitRefund (Env.plain 60) 0 twoHalves).take n) lapsedGrant).expiredFor 0) ↔
      ∀ p ∈ trace (fun c => c.2.exec c.1) (splitRefund (Env.plain 60) 0 twoHalves) lapsedGrant,
        ForgivesOnce 0 p.1 p.2) := by
  obtain ⟨txn, hgrant⟩ : ∃ txn, lapsedGrant.transactions.get? 0 = some txn :=
    Option.isSome_iff_exists.mp (by decide +kernel)
  refine ⟨txn, hgrant, (forgiveness_once_iff hgrant
    ((runCalls_referenced _ Db.Referenced.empty).transactions _ _ hgrant) ?_ ?_).1 _ ?_⟩
  · decide +kernel
  · decide +kernel
  · exact splitRefund_takesBack _ _ _

/-- The two halves forgive the 40 that expired twice, and leave a debt of 20 where the
whole refund leaves 60. -/
theorem halves_forgive_twice :
    (runCalls (splitRefund (Env.plain 60) 0 twoHalves) lapsedGrant).forgivenOf 0 = 80 ∧
    (runCalls (splitRefund (Env.plain 60) 0 twoHalves) lapsedGrant).expiredFor 0 = 40 ∧
    (runCalls (splitRefund (Env.plain 60) 0 twoHalves) lapsedGrant).owedBy 0 = 20 ∧
    (runCalls (wholeRefund (Env.plain 60) 0 twoHalves none Metadata.empty) lapsedGrant).owedBy 0 =
      60 := by
  decide +kernel

end StapelBilling
