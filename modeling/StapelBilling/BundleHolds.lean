import StapelBilling.AccountBound
import StapelBilling.PeriodOrder
import StapelBilling.StaleSweep

/-! # Credits of a bundle that holds carry past its dating

A checkout that does not know its period yet grants a bundle without deadline, and the first
update that carries the period dates it: the lot of the bundle itself, if something is left in
it.  Credits that a reservation keeps away from that lot at that moment are dated with it only
if the lot is, and those that a reservation has handed back before it are not dated at all.

* `Db.Mortal`: nothing of a grant is without deadline, and no open hold can hand back anything
  that would be.
* `bundle_dies_iff`: when no sequence of spends, holds, captures and releases leaves the bundle
  credits without deadline.
-/
namespace StapelBilling
open Store

variable {env : Env} {w g : ℕ} {db db' : Db}

/-! ## Credits without deadline -/

/-- The lot carries credits of row `g` and has no deadline. -/
def CreditLot.Endless (g : ℕ) (lot : CreditLot) : Prop := lot.terms = (some g, none)

/-- Row `g` has credits left that never die. -/
def Db.Immortal (g : ℕ) (db : Db) : Prop :=
  ∃ k lot, db.lots.get? k = some lot ∧ lot.Endless g ∧ 0 < lot.creditsRemaining

/-- An open hold keeps credits off the lot `k`. -/
def Db.Reserves (k : ℕ) (db : Db) : Prop :=
  ∃ h held a alloc, db.holds.get? h = some held ∧ held.status = .held ∧
    held.allocations.get? a = some alloc ∧ alloc.lot = k ∧ 0 < alloc.credits

/-- What row `g` has left dies: no lot of it that has anything left is without deadline, and
no open hold draws on one that is. -/
structure Db.Mortal (g : ℕ) (db : Db) : Prop where
  spent : ∀ k lot, db.lots.get? k = some lot → lot.Endless g → lot.creditsRemaining ≤ 0
  unreserved : ∀ k lot, db.lots.get? k = some lot → lot.Endless g → ¬ db.Reserves k
  home : db.Home

theorem Db.Mortal.not_immortal (h : db.Mortal g) : ¬ db.Immortal g := by
  rintro ⟨k, lot, hk, hendless, hpos⟩
  have hspent := h.spent k lot hk hendless
  omega

theorem CreditLot.Same.terms {a b : CreditLot} (h : a.Same b) : b.terms = a.terms :=
  Prod.ext h.grant h.expiresAt

theorem CreditLot.Same.endless {a b : CreditLot} (h : a.Same b) (hb : b.Endless g) : a.Endless g :=
  h.terms.symm.trans hb

/-- Does the move leave grants to others and take nothing back? -/
def Move.UsesLots : Move → Prop
  | .grant _ => False
  | m => m.IsPlain

/-- **A use of lots keeps what is mortal so**: it hands credits back under the terms they were
reserved under, and reserves what there is to spend. -/
theorem Step.mortal {m : Move} (h : Step env w m db db') (hm : m.UsesLots) (hmortal : db.Mortal g) :
    db'.Mortal g := by
  have hplain : m.IsPlain := by cases m <;> first | exact hm | trivial
  refine ⟨fun k lot' hk hendless => ?_, fun k lot' hk hendless => ?_, h.home ?_ hmortal.home⟩
  · by_cases hr : m.IsRefund
    · cases h with
      | @refund _ j a held alloc amount hheld _ hstatus halloc hpos hle =>
        have hk' := (Table.get?_insert _ _ _).symm.trans hk
        split at hk'
        · obtain rfl := Option.some.inj hk'
          obtain ⟨lot, hlot, -⟩ := hmortal.home.allocations j held hheld a alloc halloc
          have hreserved : db.Reserves alloc.lot :=
            ⟨j, held, a, alloc, hheld, hstatus, halloc, rfl, by omega⟩
          rw [CreditLot.Endless, CreditLot.terms, hlot] at hendless
          exact absurd hreserved (hmortal.unreserved _ lot hlot hendless)
        · exact hmortal.spent k lot' hk' hendless
      | _ => exact hr.elim
    · have hnew : ¬ m.AddsLot := by
        intro hadds
        cases m <;> first | exact hadds.elim | exact hm.elim | exact hr trivial
      obtain ⟨lot, hlot, hsame, hheld⟩ := h.lot_drained hnew hk
      by_contra hpos
      have hleft := hheld (not_le.mp hpos)
      have hspent := hmortal.spent k lot hlot (hsame.endless hendless)
      omega
  · rintro ⟨j, held', a, alloc', hj, hopen, ha, rfl, hpos⟩
    rcases h.open_allocation hj hopen ha with
      ⟨held, alloc, hget, hstatus, halloc, hsamelot, hle⟩ | ⟨lot, hlot, -, hlive⟩
    · obtain ⟨lot, hlot, -⟩ := hmortal.home.allocations j held hget a alloc halloc
      obtain ⟨lot₂, hlot₂, hsame⟩ := h.grows.lots.kept alloc.lot lot hlot
      rw [hsamelot] at hlot₂
      obtain rfl := Option.some.inj (hk.symm.trans hlot₂)
      refine hmortal.unreserved alloc.lot lot hlot (hsame.endless hendless)
        ⟨j, held, a, alloc, hget, hstatus, halloc, rfl, ?_⟩
      omega
    · -- What is there to be spent still holds something.
      obtain ⟨lot₂, hlot₂, hsame⟩ := h.grows.lots.kept _ lot hlot
      obtain rfl := Option.some.inj (hk.symm.trans hlot₂)
      have hspent := hmortal.spent _ lot hlot (hsame.endless hendless)
      have hleft := hlive.1
      omega
  · cases m <;> first | exact hplain.elim | trivial

/-! ## Runs of spends and reservations -/

/-- A debit, or a call of a hold's life. -/
def WalletCall.UsesLots : WalletCall → Prop
  | .debit _ | .hold _ | .capture _ | .release _ => True
  | _ => False

theorem WalletCall.UsesLots.isPlain {c : WalletCall} (hc : c.UsesLots) : c.IsPlain := by
  cases c <;> first | exact hc.elim | trivial

theorem WalletCall.UsesLots.moves {c : WalletCall} (hc : c.UsesLots) {m : Move}
    (hm : c.Allows db m) : m.UsesLots := by
  have hplain := hm.isPlain hc.isPlain
  cases m with
  | grant args =>
    have hcredit : c = .credit args := hm
    rw [hcredit] at hc
    exact hc
  | _ => exact hplain

theorem exec_mortal {c : WalletCall} (hc : c.UsesLots) (hmortal : db.Mortal g)
    (h : c.exec env db = .ok db') : db'.Mortal g :=
  Moves.invariant (I := Db.Mortal g) (fun _ _ _ hm hI hs => hs.mortal (hc.moves hm) hI)
    (exec_moves h) hmortal

theorem runCalls_mortal {calls : List (Env × WalletCall)} (hcalls : ∀ c ∈ calls, c.2.UsesLots)
    (hmortal : db.Mortal g) : (runCalls calls db).Mortal g :=
  Store.run_invariant (fun c hc _ _ hI h => exec_mortal (hcalls c hc) hI h) hmortal

/-! ## Every hold given back -/

/-- The moves that give credits back. -/
def Move.GivesBack : Move → Prop
  | .sync | .expire _ | .refund _ | .settle _ _ => True
  | _ => False

/-- Giving back takes nothing from credits without deadline. -/
theorem Step.immortal {m : Move} (h : Step env w m db db') (hm : m.GivesBack)
    (himmortal : db.Immortal g) : db'.Immortal g := by
  obtain ⟨k, lot, hk, hendless, hpos⟩ := himmortal
  refine ⟨k, lot, ?_, hendless, hpos⟩
  cases h with
  | sync | settle _ _ _ _ => exact hk
  | refund _ _ _ _ _ _ => exact Table.get?_insert_of_some _ hk
  | @expire _ j due _ hdue _ hdead =>
    refine (Table.get?_modify_of_ne _ _ fun hkj => ?_).trans hk
    rw [hkj, hdue] at hk
    obtain rfl := Option.some.inj hk
    have hdate : due.expiresAt = none := congrArg Prod.snd hendless
    have hpast := hdead.2
    rw [hdate] at hpast
    exact hpast
  | _ => exact hm.elim

theorem release_immortal {args : ReleaseArgs} (h : release env args db = .ok db')
    (himmortal : db.Immortal g) : db'.Immortal g := by
  obtain ⟨held, -, hmoves⟩ := release_moves h
  refine Moves.invariant (I := Db.Immortal g) (fun m _ _ hm hI hs => hs.immortal ?_ hI) hmoves
    himmortal
  cases m <;> first | exact hm.elim | trivial

/-- A release opens no hold. -/
theorem release_isHeld {args : ReleaseArgs} (h : release env args db = .ok db') {k : ℕ}
    (hk : db'.IsHeld k) : db.IsHeld k ∧ k ≠ args.hold := by
  obtain ⟨held', hheld', hopen⟩ := hk
  have hne : k ≠ args.hold := by
    rintro rfl
    obtain ⟨resolved, hresolved, hstatus⟩ := release_not_isHeld h
    obtain rfl := Option.some.inj (hheld'.symm.trans hresolved)
    exact hstatus hopen
  obtain ⟨held, -, hmoves⟩ := release_moves h
  rw [hmoves.holds_frame fun m hm => frame_release hm hne] at hheld'
  exact ⟨⟨held', hheld', hopen⟩, hne⟩

/-- Release these holds, one after the other. -/
def releaseCalls (env : Env) (holds : List ℕ) : List (Env × WalletCall) :=
  holds.map fun hold => (env, .release { hold })

/-- **Releasing holds** resolves them, opens none and takes no endless credits. -/
theorem releaseCalls_resolve (holds : List ℕ) (hr : db.Referenced) :
    (∀ k, (runCalls (releaseCalls env holds) db).IsHeld k → db.IsHeld k ∧ k ∉ holds) ∧
      (db.Immortal g → (runCalls (releaseCalls env holds) db).Immortal g) := by
  induction holds generalizing db with
  | nil => exact ⟨fun _ hk => ⟨hk, List.not_mem_nil⟩, id⟩
  | cons hold holds ih =>
    have hrun : runCalls (releaseCalls env (hold :: holds)) db =
        runCalls (releaseCalls env holds) (Store.commit (release env { hold }) db) := rfl
    rw [hrun]
    cases hexec : release env { hold } db with
    | error e =>
      rw [Store.commit_error hexec]
      obtain ⟨hresolved, hkept⟩ := ih hr
      refine ⟨fun k hk => ?_, hkept⟩
      obtain ⟨hopen, hnot⟩ := hresolved k hk
      refine ⟨hopen, fun hmem => ?_⟩
      rcases List.mem_cons.mp hmem with rfl | hmem
      · -- A hold that is there can be released.
        obtain ⟨held, hheld, -⟩ := hopen
        obtain ⟨db', hok⟩ := release_ok env hr { hold := k } hheld
        rw [hok] at hexec
        cases hexec
      · exact hnot hmem
    | ok db₁ =>
      rw [Store.commit_ok hexec]
      have hr₁ : db₁.Referenced := exec_referenced (c := .release { hold }) hr hexec
      obtain ⟨hresolved, hkept⟩ := ih hr₁
      refine ⟨fun k hk => ?_, fun himmortal => hkept (release_immortal hexec himmortal)⟩
      obtain ⟨hopen₁, hnot⟩ := hresolved k hk
      obtain ⟨hopen, hne⟩ := release_isHeld hexec hopen₁
      refine ⟨hopen, fun hmem => ?_⟩
      rcases List.mem_cons.mp hmem with rfl | hmem
      · exact hne rfl
      · exact hnot hmem

/-- The keys of all holds. -/
def Db.holdKeys (db : Db) : List ℕ := db.holds.rows.map Prod.fst

/-- No hold of the user's account is open. -/
def Db.Resolved (user : UserId) (db : Db) : Prop :=
  ∀ h held wallet, db.holds.get? h = some held → db.wallets.get? held.wallet = some wallet →
    wallet.user = some user → held.status ≠ .held

/-- **Endless credits survive the resolution of every hold.** -/
theorem exists_resolved (env : Env) (user : UserId) (hr : db.Referenced) (himmortal : db.Immortal g) :
    ∃ after : List (Env × WalletCall), (∀ c ∈ after, c.2.UsesLots) ∧
      (runCalls after db).Resolved user ∧ (runCalls after db).Immortal g := by
  obtain ⟨hresolved, hkept⟩ := @releaseCalls_resolve env g db db.holdKeys hr
  refine ⟨releaseCalls env db.holdKeys, fun c hc => ?_, fun h held wallet hheld _ _ hopen => ?_,
    hkept himmortal⟩
  · obtain ⟨hold, -, rfl⟩ := List.mem_map.mp hc
    exact trivial
  · obtain ⟨⟨old, hold, -⟩, hnot⟩ := hresolved h ⟨held, hheld, hopen⟩
    exact hnot (List.mem_map.mpr ⟨(h, old), Table.get?_eq_some_iff.mp hold, rfl⟩)

variable (env) in
/-- **An open hold hands back endless credits** when it draws on a lot without deadline. -/
theorem Db.Reserves.released {k : ℕ} {lot : CreditLot} (h : db.Reserves k)
    (hr : db.Referenced) (hn : db.AllocationsNonneg) (hk : db.lots.get? k = some lot)
    (hendless : lot.Endless g) : ∃ hold db₁, release env { hold } db = .ok db₁ ∧ db₁.Immortal g := by
  obtain ⟨j, held, a, alloc, hheld, hstatus, ha, rfl, hpos⟩ := h
  obtain ⟨wallet, hwallet⟩ := hr.holds _ held hheld
  have hexec : release env { hold := j } db =
      .ok (releaseHeld env held.wallet held { hold := j } db) := by
    simp only [release, holdWallet, hheld, releaseLocked, hwallet, hstatus, if_true]
  have halive : aliveAt env.now lot.expiresAt := by
    have hdate : lot.expiresAt = none := congrArg Prod.snd hendless
    rw [hdate]
    exact trivial
  obtain ⟨i, lot', hi, -, hterms, hleft⟩ := @releaseHeld_returns env held.wallet db held
    { hold := j } a alloc lot (hn j held hheld) ha hpos hk halive
  exact ⟨j, _, hexec, i, lot', hi, hterms.trans hendless, hleft⟩

/-! ## The checkout and the update -/

/-- What a run of calls keeps of the rows, with no allocation below zero. -/
structure Db.Accountable (db : Db) : Prop where
  wellformed : db.Wellformed
  allocationsNonneg : db.AllocationsNonneg

theorem exec_accountable {c : WalletCall} (hc : c.IsPlain) (ha : db.Accountable)
    (h : c.exec env db = .ok db') : db'.Accountable := by
  refine ⟨exec_wellformed ha.wellformed (fun k eventId he => ?_) h, ?_⟩
  · rw [he] at hc
    exact hc.elim
  · exact Moves.invariant (I := Db.AllocationsNonneg)
      (fun _ _ _ _ hI hs => hs.allocationsNonneg hI) (exec_moves h) ha.allocationsNonneg

/-- `db'` is `db` with deadlines of lots, and tables outside the ledger, rewritten. -/
structure Db.Redates (db db' : Db) : Prop where
  rehomes : db.Rehomes id db'
  wallets : db'.wallets = db.wallets
  transactions : db'.transactions = db.transactions
  holds : db'.holds = db.holds

theorem Db.Redates.of_eq (hwallets : db'.wallets = db.wallets) (hlots : db'.lots = db.lots)
    (hrows : db'.transactions = db.transactions) (hholds : db'.holds = db.holds)
    (hdebts : db'.debts = db.debts) : db.Redates db' :=
  ⟨Db.Rehomes.of_eq hlots hrows hholds hdebts, hwallets, hrows, hholds⟩

theorem stampSubscriptionPeriod_redates (sub : Subscription) (db : Db) :
    db.Redates (stampSubscriptionPeriod sub db) := by
  refine ⟨stampSubscriptionPeriod_rehomes sub db, stampSubscriptionPeriod_wallets sub db, ?_, ?_⟩
  · unfold stampSubscriptionPeriod
    split <;> rfl
  · unfold stampSubscriptionPeriod
    split <;> rfl

theorem Db.Redates.accountable (h : db.Redates db') (ha : db.Accountable) : db'.Accountable := by
  refine ⟨h.rehomes.wellformed ha.wellformed (fun k wallet' hk => ?_) fun k hk => ?_, ?_⟩
  · rw [h.wallets] at hk
    exact ⟨wallet', hk, rfl, rfl, id⟩
  · unfold Db.HasWallet
    rw [h.wallets]
    exact hk
  · unfold Db.AllocationsNonneg
    rw [h.holds]
    exact ha.allocationsNonneg

/-- An event about a bound row at most dates lots. -/
theorem LifecycleEvent.handle_redates {e : LifecycleEvent} {id : String} {k : ℕ} (h : db.BoundTo id k)
    (hid : e.object.id = some id) : db.Redates (e.handle env db) := by
  obtain ⟨sub, hk, -⟩ := h.row
  rw [e.handle_eq, h.resolve hid hk]
  dsimp only
  split
  · exact Db.Redates.of_eq rfl rfl rfl rfl rfl
  · have hstamp := stampSubscriptionPeriod_redates (e.edit env sub).1
      (saveSubscription k (e.edit env sub).1 (e.edit env sub).2 db)
    obtain ⟨⟨hlots, hrows, hholds, hdebts⟩, hwallets, htransactions, hsame⟩ := hstamp
    exact ⟨⟨hlots, hrows, hholds, hdebts⟩, hwallets, htransactions, hsame⟩

theorem applyPendingPeriod_redates (k : ℕ) (sub : Subscription) (db : Db) :
    db.Redates (applyPendingPeriod k sub db).2 := by
  unfold applyPendingPeriod
  split
  · exact Db.Redates.of_eq rfl rfl rfl rfl rfl
  · split
    · exact Db.Redates.of_eq rfl rfl rfl rfl rfl
    · dsimp only
      split
      · exact Db.Redates.of_eq rfl rfl rfl rfl rfl
      · obtain ⟨⟨hlots, hrows, hholds, hdebts⟩, hwallets, htransactions, hsame⟩ :=
          stampSubscriptionPeriod_redates _ (saveSubscription k _ _ db)
        exact ⟨⟨hlots, hrows, hholds, hdebts⟩, hwallets, htransactions, hsame⟩

/-- A bundle keeps the rows accountable. -/
theorem grantBundle_accountable {user : UserId} {plan : String} {entry : PlanCatalogEntry}
    {obj : CheckoutSession} {sub : Subscription} (ha : db.Accountable)
    (h : grantBundle env user plan entry obj sub db = .ok db') : db'.Accountable := by
  unfold grantBundle at h
  split at h
  · obtain rfl := Except.ok.inj h
    exact ha
  · dsimp only at h
    split at h
    · cases h
    · rename_i txn granted hcredit
      obtain rfl := Except.ok.inj h
      have hgranted : granted.Accountable :=
        @exec_accountable env db granted (.credit _) trivial ha (congrArg (Except.map Prod.snd) hcredit)
      exact @Db.Redates.accountable granted _ (Db.Redates.of_eq rfl rfl rfl rfl rfl) hgranted

section Run
variable {envUpdate : Env} {checkout : ProviderEvent CheckoutSession} {update : LifecycleEvent}
  {dbCheckout : Db} {user : UserId} {plan id : String} {entry : PlanCatalogEntry} {finish : Time}

/-- A checkout keeps the rows accountable. -/
theorem FirstCheckout.accountable (h : FirstCheckout env checkout.object db user plan entry id)
    (ha : db.Accountable) (hok : handleCheckoutCompleted env checkout db = .ok dbCheckout) :
    dbCheckout.Accountable := by
  rw [h.toSubscriptionCheckout.handle] at hok
  rcases grantPlan_ok h.agreed hok with ⟨hnone, -⟩ | ⟨claimed, k, sub, opened, granted, hclaimed,
    hopened, hgranted, rfl⟩
  · exact absurd hnone h.unclaimed
  · obtain ⟨ext, -, -, -, rfl⟩ := claimProviderObject_some hclaimed
    obtain ⟨-, -, -, ⟨subscriptions, hdb⟩, -⟩ := openSubscription_ok hopened
    have hredates : db.Redates opened := by
      rw [hdb]
      exact Db.Redates.of_eq rfl rfl rfl rfl rfl
    have happlied := (applyPendingPeriod_redates k sub opened).accountable (hredates.accountable ha)
    have hbundled : granted.Redates
        (announceSubscription (applyPendingPeriod k sub opened).1 granted) :=
      Db.Redates.of_eq rfl rfl rfl rfl rfl
    exact hbundled.accountable (grantBundle_accountable happlied hgranted)

/-- A subscription checkout that grants, under row `g`, a bundle without deadline, and an event
of its subscription that brings the end of the period and is not older than the row. -/
structure LatePeriod (env : Env) (checkout : ProviderEvent CheckoutSession) (update : LifecycleEvent)
    (db dbCheckout : Db) (user : UserId) (plan : String) (entry : PlanCatalogEntry) (id : String)
    (finish : Time) (g : ℕ) : Prop extends
    FirstCheckout env checkout.object db user plan entry id where
  accountable : db.Accountable
  unique : db.SubscriptionsUnique
  checkedOut : handleCheckoutCompleted env checkout db = .ok dbCheckout
  bundle : ∃ lot, dbCheckout.lots.get? db.lots.next = some lot ∧ lot.Endless g
  about : update.object.id = some id
  carries : (stripePeriod update.object).2 = some finish
  fresh : ∀ sub, dbCheckout.rowOf id = some sub → ¬ update.IsStale sub

/-- Row `g` is a grant of the user's subscription. -/
def Db.Bundles (g : ℕ) (id : String) (user : UserId) (db : Db) : Prop :=
  ∃ row wallet, db.transactions.get? g = some row ∧
    row.metadata .stripeSubscriptionId = some (.str id) ∧
    db.wallets.get? row.wallet = some wallet ∧ wallet.user = some user

theorem exec_bundles {c : WalletCall} (hc : c.IsPlain) (hg : db.Bundles g id user)
    (h : c.exec env db = .ok db') : db'.Bundles g id user := by
  obtain ⟨row, wallet, hrow, hmeta, hwallet, huser⟩ := hg
  obtain ⟨wallet', hwallet', hsame⟩ := (exec_moves h).wallet_kept hwallet
  exact ⟨row, wallet', exec_row_kept hc h hrow, hmeta, hwallet', hsame.user.trans huser⟩

/-- What there is when the event arrives: the subscription's row, which is not newer than the
event, and the bundle's row. -/
structure Db.Awaits (update : LifecycleEvent) (id : String) (user : UserId) (g k : ℕ)
    (db : Db) : Prop where
  accountable : db.Accountable
  bound : db.BoundTo id k
  row : ∃ sub, db.subscriptions.get? k = some sub ∧ sub.user = some user ∧ ¬ update.IsStale sub
  bundles : db.Bundles g id user

theorem exec_awaits {c : WalletCall} {k : ℕ} (hc : c.IsPlain) (ha : db.Awaits update id user g k)
    (h : c.exec env db = .ok db') : db'.Awaits update id user g k := by
  have hsubscriptions : db'.subscriptions = db.subscriptions := (exec_moves h).elsewhere.subscriptions
  obtain ⟨sub, hk, hsub⟩ := ha.bound.row
  refine ⟨exec_accountable hc ha.accountable h, ?_, ?_, exec_bundles hc ha.bundles h⟩
  · refine ha.bound.of_get? (fun j _ => ?_) ?_ hsub
    · rw [hsubscriptions]
    · rw [hsubscriptions]
      exact hk
  · rw [hsubscriptions]
    exact ha.row

/-- **After the checkout** the row and the bundle wait for the period. -/
theorem LatePeriod.awaits
    (h : LatePeriod env checkout update db dbCheckout user plan entry id finish g) :
    dbCheckout.Awaits update id user g (db.userKey user) := by
  obtain ⟨hfree, hrows, -⟩ := h.row h.checkedOut
  have honly : ∀ j row, db.subscriptions.get? j = some row → row.stripeSubscriptionId = some id →
      j = db.userKey user := by
    intro j row hj hid
    by_cases huser : row.user = some user
    · refine (userRow_of_unique hj huser fun i other hi hother => ?_).1.symm
      refine h.unique.user i j other row hi hj ?_ (hother.trans huser.symm)
      rw [hother]
      exact Option.some_ne_none user
    · refine absurd (hid.trans h.subscription.symm) ((not_idsTaken hfree hj huser).1 ?_)
      rw [h.subscription, nonempty_of_ne h.named]
      exact Option.some_ne_none id
  have hbound := h.bound honly h.checkedOut
  have hk := (hrows (db.userKey user)).trans (if_pos rfl)
  refine ⟨h.toFirstCheckout.accountable h.accountable h.checkedOut, hbound,
    ⟨_, hk, ?_, h.fresh _ (hbound.rowOf hk)⟩, ?_⟩
  · have howner : (checkoutDefaults plan checkout.object (providerEventTime checkout)
        (db.userRow user)).user = some user := checkoutDefaults_user.trans (userRow_user db user)
    unfold Subscription.withParked
    split
    · exact howner
    · rw [PendingSubscriptionPeriod.applyTo_fst]
      exact howner
  · obtain ⟨bundle, hbundle, hendless⟩ := h.bundle
    have hgrant : bundle.grantingTransaction = some g := congrArg Prod.fst hendless
    obtain ⟨hnothing, hsome⟩ := h.toFirstCheckout.bundle h.checkedOut rfl
    by_cases hzero : entry.monthlyCreditsIncluded = 0
    · rw [hnothing hzero _ (Table.get?_next _)] at hbundle
      cases hbundle
    · obtain ⟨⟨lot, hlot, -, -, ⟨wallet, hwallet, huser⟩, ⟨g', row, hgrant', hrow, hmeta⟩, -⟩, -⟩ :=
        hsome hzero
      obtain rfl := Option.some.inj (hbundle.symm.trans hlot)
      obtain rfl := Option.some.inj (hgrant.symm.trans hgrant')
      have hhome := (h.toFirstCheckout.accountable h.accountable h.checkedOut).wellformed.home
      obtain ⟨row', hrow', hw⟩ := hhome.grants _ _ hlot g hgrant
      obtain rfl := Option.some.inj (hrow.symm.trans hrow')
      exact ⟨row, wallet, hrow, hmeta, hw ▸ hwallet, huser⟩

/-! ## What the update dates -/

/-- **An update can still date all of it**: what row `g` has left without deadline is in lots
of its subscription, and so are the lots that open holds draw on, with something left. -/
structure Db.Datable (g : ℕ) (db : Db) : Prop where
  left : ∀ k lot, db.lots.get? k = some lot → lot.Endless g → 0 < lot.creditsRemaining →
    lot.source = .subscription
  reserved : ∀ k lot, db.lots.get? k = some lot → lot.Endless g → db.Reserves k →
    lot.source = .subscription ∧ 0 < lot.creditsRemaining

/-- Of a bundle's lots without deadline, the subscription's own that hold something are dated. -/
theorem Db.Awaits.lot {k j : ℕ} {lot : CreditLot} (h : db.Awaits update id user g k)
    (habout : update.object.id = some id) (hcarries : (stripePeriod update.object).2 = some finish)
    (hj : db.lots.get? j = some lot) (hendless : lot.Endless g) :
    (update.handle envUpdate db).lots.get? j = some
      (if lot.source = .subscription ∧ 0 < lot.creditsRemaining then
        { lot with expiresAt := some finish } else lot) := by
  obtain ⟨sub, hk, huser, hfresh⟩ := h.row
  obtain ⟨row, wallet, hrow, hmeta, hwallet, howner⟩ := h.bundles
  have hgrant : lot.grantingTransaction = some g := congrArg Prod.fst hendless
  have hdate : lot.expiresAt = none := congrArg Prod.snd hendless
  rw [LifecycleEvent.handle_lot h.bound habout hk hcarries, hj, Option.map_some]
  refine congrArg some (if_congr ?_ rfl rfl)
  constructor
  · rintro ⟨-, -, hsource, -, hpos, -⟩
    exact ⟨hsource, hpos⟩
  · rintro ⟨hsource, hpos⟩
    obtain ⟨row', hrow', hw⟩ := h.accountable.wellformed.home.grants j lot hj g hgrant
    obtain rfl := Option.some.inj (hrow.symm.trans hrow')
    exact ⟨hfresh, ⟨wallet, hw ▸ hwallet, howner.trans huser.symm⟩, hsource, hdate, hpos,
      g, hgrant, row, hrow, hmeta⟩

/-- Lots of the bundle that have no deadline after the update had none before it. -/
theorem Db.Awaits.endless_before {k j : ℕ} {lot' : CreditLot} (h : db.Awaits update id user g k)
    (habout : update.object.id = some id) (hcarries : (stripePeriod update.object).2 = some finish)
    (hj : (update.handle envUpdate db).lots.get? j = some lot') (hendless : lot'.Endless g) :
    db.lots.get? j = some lot' ∧ ¬ (lot'.source = .subscription ∧ 0 < lot'.creditsRemaining) := by
  obtain ⟨sub, hk, -, -⟩ := h.row
  have hlot := hj
  rw [LifecycleEvent.handle_lot h.bound habout hk hcarries] at hlot
  obtain ⟨lot, hget, hdated⟩ := Option.map_eq_some_iff.mp hlot
  split at hdated
  · -- A dated lot has a deadline.
    subst hdated
    cases congrArg Prod.snd hendless
  · subst hdated
    refine ⟨hget, fun hcond => ?_⟩
    rw [h.lot habout hcarries hget hendless, if_pos hcond] at hj
    rw [← Option.some.inj hj] at hendless
    cases congrArg Prod.snd hendless

theorem Db.Reserves.congr {k : ℕ} (hholds : db'.holds = db.holds) :
    db'.Reserves k ↔ db.Reserves k := by
  unfold Db.Reserves
  rw [hholds]

/-- **When the update comes in time**: then, and only then, nothing that is spent, reserved,
captured and released from there on leaves credits of the bundle without deadline. -/
theorem Db.Awaits.dies_iff {k : ℕ} (h : db.Awaits update id user g k)
    (habout : update.object.id = some id)
    (hcarries : (stripePeriod update.object).2 = some finish) :
    (∀ after : List (Env × WalletCall), (∀ c ∈ after, c.2.UsesLots) →
      (runCalls after (update.handle envUpdate db)).Resolved user →
      ¬ (runCalls after (update.handle envUpdate db)).Immortal g) ↔ db.Datable g := by
  have hredates : db.Redates (update.handle envUpdate db) :=
    LifecycleEvent.handle_redates h.bound habout
  have ha := hredates.accountable h.accountable
  constructor
  · intro hnever
    have himmortal : ¬ (update.handle envUpdate db).Immortal g := by
      intro himmortal
      obtain ⟨after, hafter, hresolved, hleft⟩ :=
        exists_resolved envUpdate user ha.wellformed.referenced himmortal
      exact hnever after hafter hresolved hleft
    have hundated : ∀ {j lot}, db.lots.get? j = some lot → lot.Endless g →
        ¬ (lot.source = .subscription ∧ 0 < lot.creditsRemaining) →
        (update.handle envUpdate db).lots.get? j = some lot := by
      intro j lot hj hendless hcond
      rw [h.lot habout hcarries hj hendless, if_neg hcond]
    refine ⟨fun j lot hj hendless hpos => ?_, fun j lot hj hendless hreserves => ?_⟩
    · by_contra hsource
      exact himmortal ⟨j, lot, hundated hj hendless fun hcond => hsource hcond.1, hendless, hpos⟩
    · by_contra hcond
      -- The hold hands back what the update has passed over.
      obtain ⟨hold, db₁, hexec, hreleased⟩ := Db.Reserves.released envUpdate
        ((Db.Reserves.congr hredates.holds).mpr hreserves) ha.wellformed.referenced
        ha.allocationsNonneg (hundated hj hendless hcond) hendless
      have ha₁ : db₁.Accountable :=
        @exec_accountable envUpdate _ db₁ (.release { hold }) trivial ha hexec
      obtain ⟨after, hafter, hresolved, hleft⟩ :=
        exists_resolved envUpdate user ha₁.wellformed.referenced hreleased
      have hrun : runCalls ((envUpdate, .release { hold }) :: after) (update.handle envUpdate db) =
          runCalls after db₁ := by
        show runCalls after (Store.commit (release envUpdate { hold }) _) = _
        rw [Store.commit_ok hexec]
      refine hnever ((envUpdate, .release { hold }) :: after) (fun c hc => ?_) ?_ ?_
      · rcases List.mem_cons.mp hc with rfl | hc
        · exact trivial
        · exact hafter c hc
      · rw [hrun]
        exact hresolved
      · rw [hrun]
        exact hleft
  · intro hdatable after hafter _
    have hmortal : (update.handle envUpdate db).Mortal g := by
      refine ⟨fun j lot hj hendless => ?_, fun j lot hj hendless hreserves => ?_,
        ha.wellformed.home⟩
      · obtain ⟨hget, hcond⟩ := h.endless_before habout hcarries hj hendless
        by_contra hpos
        exact hcond ⟨hdatable.left j lot hget hendless (not_le.mp hpos), not_le.mp hpos⟩
      · obtain ⟨hget, hcond⟩ := h.endless_before habout hcarries hj hendless
        exact hcond (hdatable.reserved j lot hget hendless
          ((Db.Reserves.congr hredates.holds).mp hreserves))
    exact (runCalls_mortal hafter hmortal).not_immortal

/-- **A bundle's credits die whatever holds carry them, exactly when** the update finds all of
them where it can date them: nothing is left in a lot that a release has brought back, and the
lots that open holds draw on are the subscription's own and hold something. -/
theorem bundle_dies_iff {before : List (Env × WalletCall)}
    (h : LatePeriod env checkout update db dbCheckout user plan entry id finish g)
    (hbefore : ∀ c ∈ before, c.2.UsesLots) :
    (∀ after : List (Env × WalletCall), (∀ c ∈ after, c.2.UsesLots) →
      (runCalls after (update.handle envUpdate (runCalls before dbCheckout))).Resolved user →
      ¬ (runCalls after (update.handle envUpdate (runCalls before dbCheckout))).Immortal g) ↔
    (runCalls before dbCheckout).Datable g := by
  have hawaits : (runCalls before dbCheckout).Awaits update id user g (db.userKey user) :=
    Store.run_invariant (I := fun d => d.Awaits update id user g (db.userKey user))
      (fun c hc _ _ hI h => exec_awaits (hbefore c hc).isPlain hI h) h.awaits
  exact hawaits.dies_iff h.about h.carries

end Run

/-! ## A whole bundle reserved -/

/-- A job reserves credits of the new bundle. -/
def reserveForJob (credits : ℤ) : List (Env × WalletCall) :=
  [(Env.plain 12000000, .hold
      { user := 1
        credits
        type := .aiCharge
        idempotencyKey := "job" })]

/-- The job gives its credits back after the update. -/
def releaseJob : List (Env × WalletCall) := releaseCalls (Env.plain 21000000) [0]

/-- The checkout's bundle of three hundred credits has no deadline, and an update of second
twenty is newer than the row. -/
theorem proCheckout_undated : ∃ db,
    handleCheckoutCompleted (Env.plain 11000000) proCheckout newBuyer = .ok db ∧
      some ((db.lots.get? 0).map CreditLot.terms,
        (db.rowOf "sub_1").map fun sub => decide ((periodAt 20).IsStale sub)) =
      some (some (some 0, none), some false) := by
  rw [SubscriptionCheckout.handle_agreed (proCheckout_sells 11000000 (by decide))]
  exact exists_of_toOption (by decide +kernel)

theorem newBuyer_accountable : newBuyer.Accountable :=
  ⟨Db.Bare.wellformed ⟨rfl, rfl, rfl, rfl, rfl⟩, fun _ _ hk => Table.get?_empty_ne hk⟩

theorem newBuyer_latePeriod : ∃ dbCheckout,
    LatePeriod (Env.plain 11000000) proCheckout (periodAt 20) newBuyer dbCheckout 1 "pro" proEntry
      "sub_1" 50000000 0 := by
  obtain ⟨db, hok, hfacts⟩ := proCheckout_undated
  obtain ⟨hterms, hstale⟩ := Prod.mk.inj (Option.some.inj hfacts)
  obtain ⟨lot, hlot, hendless⟩ := Option.map_eq_some_iff.mp hterms
  refine ⟨db, proCheckout_first 11000000, newBuyer_accountable, (periodAt_first 20).unique, hok,
    ⟨lot, hlot, hendless⟩, rfl, (periodAt_first 20).carries, fun sub hsub => ?_⟩
  rw [hsub] at hstale
  exact of_decide_eq_false (Option.some.inj hstale)

/-- A third of the bundle reserved leaves the rest in its lot. -/
theorem proCheckout_partly_reserved : ∃ db,
    handleCheckoutCompleted (Env.plain 11000000) proCheckout newBuyer = .ok db ∧
      some ((runCalls (reserveForJob 100) db).lots.rows.map fun r =>
        (r.2.source, r.2.creditsRemaining)) = some [(.subscription, 200)] := by
  rw [SubscriptionCheckout.handle_agreed (proCheckout_sells 11000000 (by decide))]
  exact exists_of_toOption (by decide +kernel)

/-- All of it reserved comes back under the terms of the grant. -/
theorem proCheckout_wholly_reserved : ∃ db,
    handleCheckoutCompleted (Env.plain 11000000) proCheckout newBuyer = .ok db ∧
      some (((runCalls releaseJob ((periodAt 20).handle (Env.plain 20000000)
          (runCalls (reserveForJob 300) db))).lots.get? 1).map fun lot =>
            (lot.terms, lot.creditsRemaining),
        (runCalls releaseJob ((periodAt 20).handle (Env.plain 20000000)
          (runCalls (reserveForJob 300) db))).holds.rows.map fun r => r.2.status) =
      some (some ((some 0, none), 300), [.released]) := by
  rw [SubscriptionCheckout.handle_agreed (proCheckout_sells 11000000 (by decide))]
  exact exists_of_toOption (by decide +kernel)

/-- With a third of it reserved when the update comes, the bundle dies. -/
theorem bundle_dies_iff_reserved : ∃ dbCheckout,
    handleCheckoutCompleted (Env.plain 11000000) proCheckout newBuyer = .ok dbCheckout ∧
    ∀ after : List (Env × WalletCall), (∀ c ∈ after, c.2.UsesLots) →
      (runCalls after ((periodAt 20).handle (Env.plain 20000000)
        (runCalls (reserveForJob 100) dbCheckout))).Resolved 1 →
      ¬ (runCalls after ((periodAt 20).handle (Env.plain 20000000)
        (runCalls (reserveForJob 100) dbCheckout))).Immortal 0 := by
  obtain ⟨dbCheckout, hlate⟩ := newBuyer_latePeriod
  obtain ⟨db, hok, hfacts⟩ := proCheckout_partly_reserved
  obtain rfl := Except.ok.inj (hlate.checkedOut.symm.trans hok)
  have hown : ∀ k lot, (runCalls (reserveForJob 100) dbCheckout).lots.get? k = some lot →
      lot.source = .subscription ∧ 0 < lot.creditsRemaining := by
    intro k lot hk
    have hmem := List.mem_map_of_mem (f := fun r : ℕ × CreditLot => (r.2.source, r.2.creditsRemaining))
      (Table.get?_eq_some_iff.mp hk)
    rw [Option.some.inj hfacts, List.mem_singleton] at hmem
    have hsource : lot.source = .subscription := congrArg Prod.fst hmem
    have hleft : lot.creditsRemaining = 200 := congrArg Prod.snd hmem
    exact ⟨hsource, by omega⟩
  refine ⟨dbCheckout, hok, (bundle_dies_iff hlate fun c hc => ?_).mpr
    ⟨fun k lot hk _ _ => (hown k lot hk).1, fun k lot hk _ _ => hown k lot hk⟩⟩
  obtain rfl := List.mem_singleton.mp hc
  exact trivial

/-- **A bundle reserved whole lives for ever**: the update finds nothing in its lot to date,
and the release brings three hundred credits back without deadline. -/
theorem reserved_bundle_never_dies : ∃ dbCheckout,
    LatePeriod (Env.plain 11000000) proCheckout (periodAt 20) newBuyer dbCheckout 1 "pro" proEntry
      "sub_1" 50000000 0 ∧
    (∀ c ∈ reserveForJob 300 ++ releaseJob, c.2.UsesLots) ∧
    (runCalls releaseJob ((periodAt 20).handle (Env.plain 20000000)
      (runCalls (reserveForJob 300) dbCheckout))).Resolved 1 ∧
    (runCalls releaseJob ((periodAt 20).handle (Env.plain 20000000)
      (runCalls (reserveForJob 300) dbCheckout))).Immortal 0 := by
  obtain ⟨dbCheckout, hlate⟩ := newBuyer_latePeriod
  obtain ⟨db, hok, hfacts⟩ := proCheckout_wholly_reserved
  obtain rfl := Except.ok.inj (hlate.checkedOut.symm.trans hok)
  obtain ⟨hback, hstatuses⟩ := Prod.mk.inj (Option.some.inj hfacts)
  obtain ⟨lot, hlot, hlotFacts⟩ := Option.map_eq_some_iff.mp hback
  obtain ⟨hendless, hleft⟩ := Prod.mk.inj hlotFacts
  refine ⟨dbCheckout, hlate, fun c hc => ?_, fun h held wallet hheld _ _ => ?_,
    1, lot, hlot, hendless, by omega⟩
  · rcases List.mem_append.mp hc with hc | hc
    · obtain rfl := List.mem_singleton.mp hc
      exact trivial
    · obtain rfl := List.mem_singleton.mp hc
      exact trivial
  · have hmem := List.mem_map_of_mem (f := fun r : ℕ × CreditHold => r.2.status)
      (Table.get?_eq_some_iff.mp hheld)
    rw [hstatuses, List.mem_singleton] at hmem
    rw [show held.status = .released from hmem]
    decide

end StapelBilling
