import StapelBilling.Deployment
import StapelBilling.Store.Outbox

/-! # Payments that are announced

A row of the ledger has a price when money came in for it.  Other services learn of the money
from the outbox alone, which is written in the transaction that writes the row.  As long as the
host announces what it prices itself, the outbox therefore tells the whole story and tells it
once, through renewals, refunds, merges and erasures.

* `Db.Announced`: the outbox matches the ledger.
* `payments_match_ledger`: it does in every state of a deployment.
-/
namespace StapelBilling
open Store

variable {env : Env} {digest : UserId → UserId → String} {w : ℕ} {db db' : Db}

/-- The outbox announces the rows that have a price, each once and with its price. -/
def Db.Announced (db : Db) : Prop :=
  Store.Announces Transaction.amountCents db.transactions db.payments

/-- The price of a row is what it was. -/
def Transaction.SamePrice (a b : Transaction) : Prop := b.amountCents = a.amountCents

/-- A row that no money came in for. -/
def Transaction.Unpriced (row : Transaction) : Prop := row.amountCents = none

/-- Rows keep their prices, and new ones have none. -/
abbrev Priceless : Table Transaction → Table Transaction → Prop :=
  Store.Grows Transaction.SamePrice Transaction.Unpriced

theorem Transaction.SamePrice.refl (a : Transaction) : a.SamePrice a := rfl

theorem Priceless.refl (t : Table Transaction) : Priceless t t :=
  Store.Grows.refl Transaction.SamePrice.refl t

theorem Priceless.trans {t t' t'' : Table Transaction} (h : Priceless t t') (h' : Priceless t' t'') :
    Priceless t t'' := by
  refine Store.Grows.trans (fun a b c hab hbc => ?_) (fun a b hnone hsame => ?_) h h'
  · exact Eq.trans hbc hab
  · exact Eq.trans hsame hnone

theorem Priceless.insert {t : Table Transaction} {row : Transaction} (h : row.amountCents = none) :
    Priceless t (t.insert row) := Store.Grows.insert Transaction.SamePrice.refl h

theorem Db.Announced.quiet (ha : db.Announced) (hrows : Priceless db.transactions db'.transactions)
    (houtbox : db'.payments = db.payments) : db'.Announced := by
  unfold Db.Announced
  rw [houtbox]
  exact Store.Announces.grows ha hrows

/-! ## Wallet operations -/

/-- The price of the row that a move books. -/
def Move.price : Move → Option ℤ
  | .grant args => args.amountCents
  | _ => none

theorem expireDueLots_priceless : Priceless db.transactions (expireDueLots env w db).2.transactions := by
  refine Moves.invariant (I := fun db' => Priceless db.transactions db'.transactions) ?_
    (expireDueLots_moves env w (P := Move.IsSweep) trivial (fun _ => trivial) db)
    (Priceless.refl db.transactions)
  rintro m db₁ db₂ hm hI hs
  refine hI.trans ?_
  cases hs with
  | sync => exact Priceless.refl _
  | expire _ _ _ => exact Priceless.insert rfl
  | _ => exact hm.elim

/-- **Only a credit books a price.** -/
theorem Step.priceless {m : Move} (h : Step env w m db db') (hm : m.price = none) :
    Priceless db.transactions db'.transactions := by
  cases h with
  | grant _ _ => exact Priceless.insert hm
  | expire _ _ _ | collect _ _ _ _ _ _ _ | bill _ _ _ _ | waive _ _ _ _ =>
    exact Priceless.insert rfl
  | meter =>
    unfold meterOnlyDebit
    dsimp only
    split <;> exact Priceless.insert rfl
  | charge _ _ _ =>
    unfold chargeDebit
    dsimp only
    split <;> split <;> exact Priceless.insert rfl
  | @arm _ _ _ _ existing _ _ _ _ _ =>
    cases existing <;> exact Priceless.refl _
  | clawback _ _ =>
    unfold bookClawback
    dsimp only
    split <;> exact Priceless.insert rfl
  | @restore _ k grant givenBack eventId hpos =>
    have hsweep := @expireDueLots_priceless env w
      { db with lots := db.lots.insert (restoredLot env w grant givenBack db) }
    exact hsweep.trans (Priceless.insert rfl)
  | mark =>
    rw [markReversed_transactions]
    exact Store.Grows.modify Transaction.SamePrice.refl fun _ _ => rfl
  | _ => exact Priceless.refl _

theorem Moves.priceless {P : Move → Prop} (hP : ∀ m, P m → m.price = none)
    (h : Moves env w P db db') : Priceless db.transactions db'.transactions :=
  Moves.invariant (I := fun db' => Priceless db.transactions db'.transactions)
    (fun m _ _ hm hI hs => hI.trans (hs.priceless (hP m hm))) h (Priceless.refl db.transactions)

theorem Moves.payments {P : Move → Prop} (h : Moves env w P db db') : db'.payments = db.payments := by
  unfold Db.payments
  rw [h.elsewhere.outbox]

/-- An operation that books no price leaves ledger and outbox matching. -/
theorem exec_announced {c : WalletCall} (hprice : c.Unpriced) (ha : db.Announced)
    (hok : c.exec env db = .ok db') : db'.Announced := by
  refine ha.quiet (Moves.priceless (fun m hm => ?_) (exec_moves hok)) (exec_moves hok).payments
  cases m with
  | grant args =>
    obtain rfl : c = .credit args := hm
    exact hprice
  | _ => rfl

/-- **A sale is announced as it is booked.** -/
theorem sale_announced {args : CreditArgs} {t : ℕ} {amountCents : ℤ} (user : UserId) (currency : String)
    (extra : Metadata) (hkey : args.idempotencyKey = "") (hprice : args.amountCents = some amountCents)
    (ha : db.Announced) (hok : credit env args db = .ok (t, db')) :
    (announcePayment user amountCents currency t extra db').Announced := by
  obtain ⟨w, db₁, hlock, -, -, hcase⟩ := credit_cases hok
  have hlocked : db₁.transactions = db.transactions ∧ db₁.payments = db.payments := by
    rcases lockWallet_cases hlock with ⟨rfl, -⟩ | ⟨-, rfl, -⟩ <;> exact ⟨rfl, rfl⟩
  have hswept : (db₁.swept env w).payments = db.payments :=
    (expireDueLots_moves env w (P := Move.IsSweep) trivial (fun _ => trivial) db₁).payments.trans
      hlocked.2
  have hbefore : Store.Announces Transaction.amountCents (db₁.swept env w).transactions db.payments := by
    refine Store.Announces.grows ha ?_
    rw [← hlocked.1]
    exact expireDueLots_priceless
  rcases hcase with ⟨row, hfound, -⟩ | ⟨-, rfl, hcase⟩
  · rw [hkey] at hfound
    cases hfound
  · -- The row is booked with its price; what settling debts books after it has none.
    have hgranted : Store.Announces Transaction.amountCents
        (grant env w args (db₁.swept env w)).transactions
        (db.payments ++ [((db₁.swept env w).transactions.next, amountCents)]) :=
      hbefore.insert hprice
    have hafter : Priceless (grant env w args (db₁.swept env w)).transactions db'.transactions ∧
        db'.payments = db.payments := by
      rcases hcase with ⟨-, rfl⟩ | ⟨-, n, hsettle⟩
      · exact ⟨Priceless.refl _, hswept⟩
      · have hmoves := settleDebts_ok (P := Move.IsCollect) (fun _ _ _ _ => trivial) hsettle
        refine ⟨hmoves.priceless fun m hm => ?_, hmoves.payments.trans hswept⟩
        cases m <;> first | exact hm.elim | rfl
    have hpayments : (announcePayment user amountCents currency (db₁.swept env w).transactions.next
        extra db').payments =
          db.payments ++ [((db₁.swept env w).transactions.next, amountCents)] := by
      rw [← hafter.2]
      unfold announcePayment Db.payments
      rw [List.filterMap_append]
      rfl
    unfold Db.Announced
    rw [hpayments]
    exact Store.Announces.grows hgranted hafter.1

/-! ## The module -/

/-- **A step on the books is announced**, where no price is booked silently. -/
theorem BookStep.announced (h : BookStep { announces := true } env db db') (ha : db.Announced) :
    db'.Announced := by
  cases h with
  | call c hprice _ hok => exact exec_announced (hprice rfl) ha hok
  | sale user currency extra hkey hprice _ hok =>
    exact sale_announced user currency extra hkey hprice ha hok
  | openWallet user =>
    rw [getOrCreateWallet_lock]
    rcases hlock : lockWallet user db with ⟨w, db₁⟩
    rcases lockWallet_cases hlock with ⟨rfl, -⟩ | ⟨-, rfl, -⟩
    · exact ha
    · exact ha
  | patch _ hok =>
    unfold patchWallet saveWallet at hok
    split at hok
    · split at hok
      · cases hok
      · obtain rfl := Except.ok.inj hok
        exact ha
    · cases hok
  | stamp sub =>
    unfold stampSubscriptionPeriod
    split <;> exact ha
  | beside hsame =>
    refine ha.quiet ?_ hsame.payments
    rw [hsame.transactions]
    exact Priceless.refl _

theorem Books.announced (h : Books { announces := true } env db db') (ha : db.Announced) :
    db'.Announced := by
  induction h with
  | refl => exact ha
  | tail _ hlast ih => exact hlast.announced ih

/-- An erasure takes no price away. -/
theorem eraseSubject_announced {subjectType : String} {subject : Option UserId} (ha : db.Announced)
    (h : eraseSubject subjectType subject db = some db') : db'.Announced := by
  unfold eraseSubject at h
  split at h
  · cases h
  · rename_i user
    split at h
    · cases h
    · obtain rfl := Option.some.inj h
      refine ha.quiet (Store.Grows.of_map rfl (Table.get?_update _ _) fun k row _ => ?_) rfl
      show Transaction.SamePrice row _
      split
      · exact rfl
      · exact rfl

theorem forfeitLots_priceless (lots : List (ℕ × CreditLot)) (running : ℤ) :
    Priceless db.transactions (forfeitLots env w lots running db).transactions := by
  induction lots generalizing running db with
  | nil => exact Priceless.refl _
  | cons r lots ih =>
    have hfirst : Priceless db.transactions
        (forfeitLot env w r.1 r.2 (running - r.2.creditsRemaining) db).transactions :=
      Priceless.insert rfl
    exact hfirst.trans (ih _)

theorem forfeited_priceless : Priceless db.transactions (db.forfeited env w).transactions := by
  rcases forfeited_cases env w db with ⟨hsame, -⟩ | hforfeited
  · rw [hsame]
    exact Priceless.refl _
  · rw [hforfeited]
    exact forfeitLots_priceless _ _

/-- **A merge neither books a price nor announces one**: the rows it brings keep theirs. -/
theorem mergeWallets_announced {fromUser intoUser : UserId} {counts : MergeCounts} (ha : db.Announced)
    (h : mergeWallets env digest fromUser intoUser db = .ok (counts, db')) : db'.Announced := by
  rcases mergeWallets_cases h with ⟨-, rfl, -⟩ | ⟨-, ⟨-, ⟨subscriptions, rfl⟩, -⟩ |
    ⟨merged, wallet, survivor, db₁, hmerged, hsurvivor, hlocked⟩⟩
  · exact ha
  · exact ha
  · have hopened : db₁.Announced := by
      rcases survivorWallet_cases hsurvivor with ⟨rfl, -⟩ | ⟨-, -, -, rfl⟩
      · exact ha
      · exact ha
    obtain ⟨subscriptions, n, hsettle, -, -⟩ := mergeLocked_cases hlocked
    have hmoves := settleDebts_ok (P := Move.IsCollect) (fun _ _ _ _ => trivial) hsettle
    have hstripped : Priceless db₁.transactions (db₁.stripped env merged).transactions :=
      (@expireDueLots_priceless env merged db₁).trans forfeited_priceless
    have hfolded : Priceless (db₁.stripped env merged).transactions
        ((db₁.stripped env merged).folded merged survivor).transactions := by
      refine Store.Grows.of_map rfl folded_row fun k row _ => ?_
      split
      · exact rfl
      · exact rfl
    have hbooked : Priceless ((db₁.stripped env merged).folded merged survivor).transactions
        (db₁.booked env (mergeIdempotencyKey digest fromUser intoUser) merged survivor).transactions :=
      expireDueLots_priceless.trans (Priceless.insert rfl)
    have hsettled := hmoves.priceless fun m hm => by
      cases m <;> first | exact hm.elim | rfl
    refine Db.Announced.quiet hopened (((hstripped.trans hfolded).trans hbooked).trans hsettled) ?_
    have houtbox : (db₁.booked env (mergeIdempotencyKey digest fromUser intoUser) merged
        survivor).outbox = db₁.outbox := bookMerge_frame.2.2.outbox.trans stripped_frame.2.2.outbox
    refine hmoves.payments.trans ?_
    exact congrArg (List.filterMap Fact.payment) houtbox

/-! ## Runs -/

/-- **One call leaves ledger and outbox matching.** -/
theorem SystemCall.exec_announced {c : SystemCall} {s : Deployment}
    (hfair : c.Fair { announces := true }) (ha : s.inbox.db.Announced) : (c.exec digest env s).inbox.db.Announced := by
  rcases @SystemCall.exec_cases { announces := true } env digest c s hfair with
    hbooks | ⟨source, target, counts, -, hok⟩ | ⟨subjectType, subject, -, hok⟩
  · exact hbooks.announced ha
  · exact mergeWallets_announced ha hok
  · exact eraseSubject_announced ha hok

/-- **Every payment is announced, and once.**  In every state of a deployment whose host books no
price on its own without announcing it, the payments in the outbox are the rows of the ledger that
have a price, each with its price and each once; they add up to what the ledger's prices add up
to. -/
theorem payments_match_ledger (hbare : db.Bare) (hsilence : db.payments = [])
    {calls : List (Env × SystemCall)} (hfair : ∀ c ∈ calls, c.2.Fair { announces := true }) :
    let after := (runSystem digest calls { inbox := { db } }).inbox.db
    (after.payments.map Prod.fst).Nodup ∧
    (∀ t amountCents, (t, amountCents) ∈ after.payments ↔
      ∃ row, after.transactions.get? t = some row ∧ row.amountCents = some amountCents) ∧
    (after.payments.map Prod.snd).sum = after.transactions.sum fun _ row => row.amountCents.getD 0 := by
  intro after
  have hstart : db.Announced := by
    unfold Db.Announced
    rw [hbare.transactions, hsilence]
    exact Store.Announces.empty
  have hmatch : after.Announced := by
    refine Store.run_invariant (I := fun s : Deployment => s.inbox.db.Announced) ?_ hstart
    intro c hc s s' ha hok
    obtain rfl := Except.ok.inj hok
    exact SystemCall.exec_announced (hfair c hc) ha
  exact ⟨hmatch.once, hmatch.listed, Store.Announces.total hmatch⟩

theorem payments_match_ledger_merge :
    let after := (runSystem (fun _ _ => "pair") packageThroughMerge
      { inbox := { db := { users := [1, 2] } } }).inbox.db
    (after.payments.map Prod.fst).Nodup ∧
    (∀ t amountCents, (t, amountCents) ∈ after.payments ↔
      ∃ row, after.transactions.get? t = some row ∧ row.amountCents = some amountCents) ∧
    (after.payments.map Prod.snd).sum = after.transactions.sum fun _ row => row.amountCents.getD 0 :=
  payments_match_ledger ⟨rfl, rfl, rfl, rfl, rfl⟩ rfl packageThroughMerge_fair

end StapelBilling
