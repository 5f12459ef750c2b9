import StapelBilling.Checkout
import StapelBilling.CumulativeRefunds
import StapelBilling.NamedGrants
import StapelBilling.OwnSubscription
import StapelBilling.Surplus
import StapelBilling.WalletView

/-! # What the module does to its books

Whatever the module is asked for, it touches wallets, lots, rows, holds and debts in seven
ways only: by a wallet operation, by a sale, which is a credit that has a price and is
announced, by opening a wallet, by saving a wallet's settings, by dating a bundle, by an
erasure, and by a merge.  Everything else it writes stands beside the books.  `BookStep` is any
of the first five, or a write beside the books, and `Books` a sequence of such steps; what they
keep is stated once, and every entry point of the module that neither erases nor merges is
shown to be such a sequence.

* `Db.InOrder`: what holds of the books at a moment.
* `Books.inOrder`, `Books.surplus`: what a sequence of steps keeps.
* `eraseSubject_inOrder` and `mergeWallets_inOrder`: what an erasure and a merge keep.
-/
namespace StapelBilling
open Store

variable {env : Env} {db db' : Db}

/-- Metadata without the two keys by which the module knows its clawbacks and its waived
charges. -/
structure Metadata.Foreign (m : Metadata) : Prop where
  names : m.NamesNone
  waived : m.wasWaived = false

theorem Metadata.foreign_empty : Metadata.Foreign Metadata.empty := ⟨Metadata.namesNone_empty, rfl⟩

theorem Metadata.Foreign.set {m : Metadata} {key : MetaKey} (h : m.Foreign) (value : Json)
    (hnames : .clawbackOf ≠ key) (hwaived : .internalMeterOnly ≠ key) : (m.set key value).Foreign where
  names := fun g hg => h.names g ((Metadata.set_of_ne m value hnames).symm.trans hg)
  waived := by
    have hread := h.waived
    unfold Metadata.wasWaived Metadata.truthy at hread ⊢
    rw [Metadata.set_of_ne m value hwaived]
    exact hread

/-- The keys that a host's terms are about. -/
def guardedKeys : List MetaKey := [.clawbackOf, .internalMeterOnly, .idempotencyKey]

/-- What a host keeps to, beyond touching the books through the module: that it books no price on
its own without announcing it, that the metadata it brings is foreign to the module, and that
no retry key stands in it. -/
structure HostTerms where
  announces : Bool := false
  foreign : Bool := false
  keyless : Bool := false

/-- Metadata that a host may bring. -/
structure HostTerms.Admits (terms : HostTerms) (m : Metadata) : Prop where
  foreign : terms.foreign = true → m.Foreign
  keyless : terms.keyless = true → m .idempotencyKey = none

theorem HostTerms.admits_empty {terms : HostTerms} : terms.Admits Metadata.empty :=
  ⟨fun _ => Metadata.foreign_empty, fun _ => rfl⟩

theorem HostTerms.Admits.set {terms : HostTerms} {m : Metadata} {key : MetaKey} (h : terms.Admits m)
    (value : Json) (hkey : key ∉ guardedKeys) : terms.Admits (m.set key value) := by
  have hother : ∀ guarded ∈ guardedKeys, guarded ≠ key := fun _ hmem he => hkey (he ▸ hmem)
  refine ⟨fun hforeign => ?_, fun hkeyless => ?_⟩
  · exact (h.foreign hforeign).set value (hother _ (by decide)) (hother _ (by decide))
  · rw [Metadata.set_of_ne m value (hother .idempotencyKey (by decide))]
    exact h.keyless hkeyless

/-- The row and the price that a fact announces, if it announces a payment. -/
def Fact.payment : Fact → Option (ℕ × ℤ)
  | .paymentCompleted _ amountCents _ transaction _ => some (transaction, amountCents)
  | _ => none

/-- The payments that were announced. -/
def Db.payments (db : Db) : List (ℕ × ℤ) := db.outbox.filterMap Fact.payment

/-- The tables that credits depend on are what they were; no payment is announced, what was
claimed stays so, and the subscriptions keep the constraints of their table. -/
structure Db.SameBooks (db db' : Db) : Prop where
  wallets : db'.wallets = db.wallets
  lots : db'.lots = db.lots
  transactions : db'.transactions = db.transactions
  holds : db'.holds = db.holds
  debts : db'.debts = db.debts
  payments : db'.payments = db.payments
  claimed : ∀ scope ext, db.Claimed scope ext → db'.Claimed scope ext
  constrained : db.SubscriptionsUnique → db'.SubscriptionsUnique

theorem Db.SameBooks.refl (db : Db) : db.SameBooks db :=
  ⟨rfl, rfl, rfl, rfl, rfl, rfl, fun _ _ h => h, id⟩

theorem Db.SameBooks.trans {db'' : Db} (h : db.SameBooks db') (h' : db'.SameBooks db'') :
    db.SameBooks db'' :=
  ⟨h'.wallets.trans h.wallets, h'.lots.trans h.lots, h'.transactions.trans h.transactions,
    h'.holds.trans h.holds, h'.debts.trans h.debts, h'.payments.trans h.payments,
    fun scope ext hext => h'.claimed scope ext (h.claimed scope ext hext),
    fun hu => h'.constrained (h.constrained hu)⟩

/-- A fact that is no payment. -/
theorem Db.payments_append {fact : Fact} (h : fact.payment = none) :
    Db.payments { db with outbox := db.outbox ++ [fact] } = db.payments := by
  unfold Db.payments
  rw [List.filterMap_append, List.filterMap_cons_none h, List.filterMap_nil, List.append_nil]

/-- A call that books no price. -/
def WalletCall.Unpriced : WalletCall → Prop
  | .credit args => args.amountCents = none
  | _ => True

/-- **One step on the books**, of the module or of a host that keeps to its terms. -/
inductive BookStep (terms : HostTerms) (env : Env) : Db → Db → Prop
  | call {db db' : Db} (c : WalletCall) (hprice : terms.announces = true → c.Unpriced)
      (hmetadata : terms.Admits c.metadata) (hok : c.exec env db = .ok db') :
      BookStep terms env db db'
  | sale {db db' : Db} {args : CreditArgs} {t : ℕ} {amountCents : ℤ} (user : UserId)
      (currency : String) (extra : Metadata) (hkey : args.idempotencyKey = "")
      (hprice : args.amountCents = some amountCents) (hmetadata : terms.Admits args.metadata)
      (hok : credit env args db = .ok (t, db')) :
      BookStep terms env db (announcePayment user amountCents currency t extra db')
  | openWallet {db : Db} (user : UserId) : BookStep terms env db (getOrCreateWallet user db).2
  | patch {db db' : Db} {update : WalletUpdate} {w : ℕ} {wallet : Wallet}
      (hget : db.wallets.get? w = some wallet) (hok : patchWallet env update w wallet db = .ok db') :
      BookStep terms env db db'
  | stamp {db : Db} (sub : Subscription) : BookStep terms env db (stampSubscriptionPeriod sub db)
  | beside {db db' : Db} (hsame : db.SameBooks db') : BookStep terms env db db'

/-- A sequence of steps on the books. -/
abbrev Books (terms : HostTerms) (env : Env) : Db → Db → Prop :=
  Relation.ReflTransGen (BookStep terms env)

variable {terms : HostTerms}

namespace Books

theorem refl (env : Env) (db : Db) : Books terms env db db := Relation.ReflTransGen.refl

theorem single (h : BookStep terms env db db') : Books terms env db db' :=
  Relation.ReflTransGen.single h

theorem call (c : WalletCall) (hprice : c.Unpriced) (hmetadata : terms.Admits c.metadata)
    (hok : c.exec env db = .ok db') : Books terms env db db' :=
  single (.call c (fun _ => hprice) hmetadata hok)

theorem beside (hsame : db.SameBooks db') : Books terms env db db' := single (.beside hsame)

end Books

/-! ## What is kept -/

/-- **The books are in order**: every reference points at a row, no lot is negative, lots and
allocations are at home, a closed wallet is empty; a row names grants of its own wallet; open
reservations are backed; and every cached balance is exact unless a sweep is pending. -/
structure Db.InOrder (now : Time) (db : Db) : Prop where
  wellformed : db.Wellformed
  truthful : db.Truthful
  backed : db.HoldsBacked
  cached : db.AllCached now

theorem Db.InOrder.later {now later : Time} (h : db.InOrder now) (hle : now ≤ later) :
    db.InOrder later :=
  ⟨h.wellformed, h.truthful, h.backed, fun v => (h.cached v).later hle⟩

/-- Wallets that differ in no column the books depend on. -/
theorem Db.InOrder.withWallets {now : Time} (h : db.InOrder now) (hlots : db'.lots = db.lots)
    (hrows : db'.transactions = db.transactions) (hholds : db'.holds = db.holds)
    (hdebts : db'.debts = db.debts)
    (hwallets : ∀ k wallet', db'.wallets.get? k = some wallet' → ∃ wallet,
      db.wallets.get? k = some wallet ∧ wallet'.mergedInto = wallet.mergedInto ∧
        wallet'.balance = wallet.balance ∧ (wallet.user = none → wallet'.user = none))
    (hkept : ∀ k, db.HasWallet k → db'.HasWallet k) : db'.InOrder now where
  wellformed := (Db.Rehomes.of_eq hlots hrows hholds hdebts).wellformed h.wellformed hwallets hkept
  truthful := h.truthful.congr hrows hholds hdebts
  backed := h.backed.congr fun j => by rw [hholds]
  cached := by
    intro v
    refine (h.cached v).of_rehomes (by rw [Db.lotsOf, Db.lotsOf, hlots])
      (fun hd => hd.congr hlots.symm) fun wallet' hk => ?_
    obtain ⟨wallet, hget, -, hbalance, -⟩ := hwallets v wallet' hk
    exact ⟨wallet, hget, hbalance⟩

theorem Db.SameBooks.inOrder {now : Time} (hsame : db.SameBooks db') (h : db.InOrder now) :
    db'.InOrder now := by
  refine h.withWallets hsame.lots hsame.transactions hsame.holds hsame.debts (fun k wallet' hk => ?_)
    fun k hk => ?_
  · rw [hsame.wallets] at hk
    exact ⟨wallet', hk, rfl, rfl, id⟩
  · unfold Db.HasWallet
    rw [hsame.wallets]
    exact hk

theorem getOrCreateWallet_lock (user : UserId) (db : Db) :
    (getOrCreateWallet user db).2 = (lockWallet user db).2 := by
  unfold getOrCreateWallet lockWallet
  cases hfind : db.wallets.find? fun wallet => wallet.user = some user with
  | none => rfl
  | some r => rfl

/-- A wallet that is opened is empty. -/
theorem lockWallet_inOrder (user : UserId) (h : db.InOrder env.now) :
    (lockWallet user db).2.InOrder env.now := by
  have hmoves : Moves env (lockWallet user db).1 (fun m => m = .openWallet user) db
      (lockWallet user db).2 := lockWallet_moves rfl rfl
  refine ⟨⟨⟨lockWallet_referenced rfl h.wellformed.referenced, hmoves.lotsNonneg h.wellformed.nonneg,
    hmoves.closedEmpty (lockWallet_isOpen h.wellformed.closed user) h.wellformed.closed⟩,
    hmoves.home ?_ h.wellformed.home⟩,
    hmoves.truthful ?_ h.truthful, ?_, lockWallet_cached h.wellformed.referenced h.cached⟩
  · rintro m rfl db
    exact trivial
  · rintro m rfl
    exact trivial
  · rcases hlock : lockWallet user db with ⟨w, db₁⟩
    rcases lockWallet_cases hlock with ⟨rfl, -⟩ | ⟨-, rfl, -⟩
    · exact h.backed
    · exact h.backed

/-- Saving the settings of a wallet that was just read. -/
theorem patchWallet_inOrder {now : Time} {update : WalletUpdate} {w : ℕ} {wallet : Wallet}
    (hget : db.wallets.get? w = some wallet) (hok : patchWallet env update w wallet db = .ok db')
    (h : db.InOrder now) : db'.InOrder now ∧ db'.surplus = db.surplus := by
  unfold patchWallet saveWallet at hok
  split at hok
  · split at hok
    · cases hok
    · obtain rfl := Except.ok.inj hok
      refine ⟨h.withWallets rfl rfl rfl rfl (fun k wallet' hk => ?_) fun k hk => ?_, rfl⟩
      · have hk' : (db.wallets.modify w fun _ => update.apply wallet).get? k = some wallet' := hk
        rw [Table.get?_modify] at hk'
        split at hk'
        · rename_i hkw
          rw [hkw, hget] at hk'
          obtain rfl := Option.some.inj hk'
          exact ⟨wallet, hkw ▸ hget, rfl, rfl, id⟩
        · exact ⟨wallet', hk', rfl, rfl, id⟩
      · obtain ⟨old, hold⟩ := hk
        have hk' : (db.wallets.modify w fun _ => update.apply wallet).get? k =
            if k = w then (db.wallets.get? k).map fun _ => update.apply wallet
            else db.wallets.get? k := Table.get?_modify _ _ _ _
        unfold Db.HasWallet
        rw [hk', hold]
        split <;> exact ⟨_, rfl⟩
  · cases hok

theorem stampSubscriptionPeriod_holds (sub : Subscription) (db : Db) :
    (stampSubscriptionPeriod sub db).holds = db.holds := by
  unfold stampSubscriptionPeriod
  split <;> rfl

/-- A wallet operation keeps the books in order. -/
theorem call_inOrder {c : WalletCall} (hmetadata : c.metadata.Foreign) (hok : c.exec env db = .ok db')
    (ho : db.InOrder env.now) : db'.InOrder env.now ∧ db'.surplus = db.surplus := by
  refine ⟨⟨exec_wellformed ho.wellformed (fun k eventId _ => ?_) hok,
  exec_truthful ho.truthful hmetadata.names hok, exec_backed ho.backed hmetadata.waived hok,
  exec_cached ho.wellformed ho.cached hok⟩, exec_surplus ho.backed hok⟩
  exact fun row g hget hof => ho.truthful.transactions k row hget g hof

/-- **One step keeps the books in order**, and the ledger as far ahead as it was. -/
theorem BookStep.inOrder (h : BookStep terms env db db') (hterms : terms.foreign = true)
    (ho : db.InOrder env.now) :
    db'.InOrder env.now ∧ db'.surplus = db.surplus := by
  cases h with
  | call c hprice hmetadata hok => exact call_inOrder (hmetadata.foreign hterms) hok ho
  | @sale credited args t amountCents user currency extra hkey hprice hmetadata hok =>
    have hexec : (WalletCall.credit args).exec env db = .ok credited :=
      congrArg (Except.map Prod.snd) hok
    obtain ⟨hafter, hsurplus⟩ := @call_inOrder env db credited (.credit args) (hmetadata.foreign hterms) hexec ho
    exact ⟨hafter.withWallets rfl rfl rfl rfl (fun k wallet hk => ⟨wallet, hk, rfl, rfl, id⟩)
      fun k hk => hk, hsurplus⟩
  | openWallet user =>
    rw [getOrCreateWallet_lock]
    refine ⟨lockWallet_inOrder user ho, ?_⟩
    rcases hlock : lockWallet user db with ⟨w, db₁⟩
    rcases lockWallet_cases hlock with ⟨rfl, -⟩ | ⟨-, rfl, -⟩
    · rfl
    · rfl
  | patch hget hok => exact patchWallet_inOrder hget hok ho
  | stamp sub =>
    refine ⟨⟨stampSubscriptionPeriod_wellformed sub ho.wellformed,
      stampSubscriptionPeriod_truthful sub ho.truthful, ho.backed.congr fun j => ?_,
      stampSubscriptionPeriod_cached sub ho.cached⟩, stampSubscriptionPeriod_surplus sub⟩
    rw [stampSubscriptionPeriod_holds]
  | beside hsame =>
    refine ⟨hsame.inOrder ho, surplus_congr ?_ hsame.lots hsame.holds⟩
    rw [Db.ledgerTotal, hsame.transactions, Db.ledgerTotal]

/-- **A sequence of steps keeps the books in order**, and the ledger as far ahead as it was. -/
theorem Books.inOrder (h : Books terms env db db') (hterms : terms.foreign = true)
    (ho : db.InOrder env.now) :
    db'.InOrder env.now ∧ db'.surplus = db.surplus := by
  induction h with
  | refl => exact ⟨ho, rfl⟩
  | tail _ hlast ih =>
    obtain ⟨hmiddle, hsame⟩ := ih
    obtain ⟨hafter, hnext⟩ := hlast.inOrder hterms hmiddle
    exact ⟨hafter, hnext.trans hsame⟩

/-! ## Erasures and merges -/

/-- An erasure leaves reservations backed: it takes the mark of a waived one away and leaves
its credits. -/
theorem eraseSubject_backed {subjectType : String} {subject : Option UserId}
    (hok : eraseSubject subjectType subject db = some db') (h : db.HoldsBacked) :
    db'.HoldsBacked := by
  unfold eraseSubject at hok
  split at hok
  · cases hok
  · rename_i user
    split at hok
    · cases hok
    · obtain rfl := Option.some.inj hok
      intro k held' hk hstatus
      have hk' : (scrubFreeText user (eraseSubscriptions user db)).holds.get? k = some held' := hk
      unfold scrubFreeText at hk'
      rw [Table.get?_update] at hk'
      obtain ⟨held, hget, hheld⟩ := Option.map_eq_some_iff.mp hk'
      split at hheld
      · subst hheld
        have hbacked := h k held hget hstatus
        refine ⟨hbacked.nonneg, hbacked.total, fun hwaived => ?_⟩
        have hscrubbed : held.metadata.scrub.wasWaived = false := rfl
        exact absurd (hscrubbed.symm.trans hwaived) (by decide)
      · subst hheld
        exact h k held hget hstatus

/-- **An erasure keeps the books in order**, and the ledger as far ahead as it was. -/
theorem eraseSubject_inOrder {now : Time} {subjectType : String} {subject : Option UserId}
    (hok : eraseSubject subjectType subject db = some db') (ho : db.InOrder now) :
    db'.InOrder now ∧ db'.surplus = db.surplus :=
  ⟨⟨eraseSubject_wellformed hok ho.wellformed, eraseSubject_truthful hok ho.truthful,
    eraseSubject_backed hok ho.backed, eraseSubject_cached hok ho.cached⟩, eraseSubject_surplus hok⟩

/-- A merge leaves reservations backed: it gives a hold another wallet and, on a clash,
another key. -/
theorem mergeWallets_backed {digest : UserId → UserId → String} {fromUser intoUser : UserId}
    {counts : MergeCounts} (hb : db.HoldsBacked)
    (h : mergeWallets env digest fromUser intoUser db = .ok (counts, db')) : db'.HoldsBacked := by
  rcases mergeWallets_cases h with ⟨-, rfl, -⟩ | ⟨-, ⟨-, ⟨subscriptions, rfl⟩, -⟩ |
    ⟨merged, wallet, survivor, db₁, hmerged, hsurvivor, hlocked⟩⟩
  · exact hb
  · exact hb
  · have hb₁ : db₁.HoldsBacked := by
      rcases survivorWallet_cases hsurvivor with ⟨rfl, -⟩ | ⟨-, -, -, rfl⟩
      · exact hb
      · exact hb
    obtain ⟨subscriptions, n, hsettle, -, -⟩ := mergeLocked_cases hlocked
    have hfolded : ((db₁.stripped env merged).folded merged survivor).HoldsBacked := by
      intro k held' hk hstatus
      obtain ⟨key, hkey⟩ := @folded_hold (db₁.stripped env merged) merged survivor k
      rw [hkey, stripped_frame.1] at hk
      obtain ⟨held, hget, rfl⟩ := Option.map_eq_some_iff.mp hk
      have hbacked := hb₁ k held hget hstatus
      exact ⟨hbacked.nonneg, hbacked.total, hbacked.waived⟩
    have hbooked : (db₁.booked env (mergeIdempotencyKey digest fromUser intoUser) merged
        survivor).HoldsBacked := by
      refine hfolded.congr fun j => ?_
      unfold Db.booked
      rw [bookMerge_frame.1]
    have hsubs : Db.HoldsBacked { db₁.booked env (mergeIdempotencyKey digest fromUser intoUser) merged
        survivor with subscriptions } := hbooked
    refine Moves.invariant (I := Db.HoldsBacked) ?_
      (settleDebts_ok (P := Move.IsCollect) (fun _ _ _ _ => trivial) hsettle) hsubs
    rintro m db₂ db₃ hm hI hs
    cases hs with
    | collect _ _ _ _ _ _ _ => exact hI
    | _ => exact hm.elim

/-- **A merge keeps the books in order**, and puts the ledger ahead by what it moved. -/
theorem mergeWallets_inOrder {digest : UserId → UserId → String} {fromUser intoUser : UserId}
    {counts : MergeCounts} (ho : db.InOrder env.now) (hne : fromUser ≠ intoUser)
    (h : mergeWallets env digest fromUser intoUser db = .ok (counts, db')) :
    db'.InOrder env.now ∧ db'.surplus = db.surplus + counts.credits :=
  ⟨⟨mergeWallets_wellformed ho.wellformed hne h, mergeWallets_truthful ho.truthful h,
    mergeWallets_backed ho.backed h, mergeWallets_cached ho.wellformed hne ho.cached h⟩,
    mergeWallets_surplus h⟩

end StapelBilling
