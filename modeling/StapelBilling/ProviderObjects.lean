import StapelBilling.Webhooks
import StapelBilling.TwoCheckouts
import StapelBilling.DisputeReversal

/-! # Provider objects and what they bring

Two of the provider's objects bring credits: a checkout session and a renewal invoice.  The
ledger row of a grant names the object, and the object is claimed in the transaction that
makes the grant.  A session's row may name an invoice besides: the one of the first period.

* `Db.grantsFor`: how often an object brought credits.
* `Db.grantsNaming`: how many grants name an invoice, whatever brought them.
* `Db.Handles`: what a handler may do to the claims and grants, one claim at most.
* `dispatch_handles`: what the library's own handlers do is that.
-/
namespace StapelBilling
open Store

variable {env : Env} {w : ℕ} {db db' db'' : Db}

/-! ## Rows that grant -/

/-- What an object is claimed by. -/
abbrev ObjectKey := GrantScope × String

/-- What a grant's row says of its session and its invoice, put to a test. -/
abbrev ObjectTest := Option Json → Option Json → Prop

/-- The row of a grant that this object brought: a session's names the session, a renewal's the
invoice and no session. -/
def ObjectKey.Brought (key : ObjectKey) : ObjectTest := fun session invoice =>
  (key.1 = .checkoutSession ∧ session = some (.str key.2)) ∨
    (key.1 = .invoice ∧ session = none ∧ invoice = some (.str key.2))

instance (key : ObjectKey) (session invoice : Option Json) :
    Decidable (key.Brought session invoice) := by
  unfold ObjectKey.Brought; infer_instance

/-- The row of a grant that names this invoice, a session's or a renewal's. -/
def NamesInvoice (id : String) : ObjectTest := fun _ invoice => invoice = some (.str id)

instance (id : String) (session invoice : Option Json) :
    Decidable (NamesInvoice id session invoice) := by
  unfold NamesInvoice; infer_instance

/-- The row grants credits, and passes a test. -/
def Transaction.GrantsWhere (test : ObjectTest) (row : Transaction) : Prop :=
  0 < row.creditsDelta ∧ test (row.metadata .stripeSessionId) (row.metadata .stripeInvoiceId)

section Tests
variable (test : ObjectTest) [∀ session invoice, Decidable (test session invoice)]

instance : DecidablePred (Transaction.GrantsWhere test) := fun row => by
  unfold Transaction.GrantsWhere; infer_instance

/-- How many grants pass a test. -/
def Db.grantsWhere (db : Db) : ℤ :=
  db.transactions.sum fun _ row => if row.GrantsWhere test then 1 else 0

end Tests

/-- How often an object brought credits. -/
def Db.grantsFor (db : Db) (key : ObjectKey) : ℤ := db.grantsWhere key.Brought

/-- How many grants name an invoice. -/
def Db.grantsNaming (db : Db) (invoice : String) : ℤ := db.grantsWhere (NamesInvoice invoice)

section Tests
variable {test : ObjectTest} [∀ session invoice, Decidable (test session invoice)]

theorem grantsWhere_congr (h : db'.transactions = db.transactions) :
    db'.grantsWhere test = db.grantsWhere test := by
  unfold Db.grantsWhere
  rw [h]

theorem grantsWhere_insert {row : Transaction}
    (h : db'.transactions = db.transactions.insert row) :
    db'.grantsWhere test = db.grantsWhere test + if row.GrantsWhere test then 1 else 0 := by
  unfold Db.grantsWhere
  rw [h, Table.sum_insert, add_comm]

end Tests

/-- A row that takes credits grants none. -/
theorem Transaction.not_grantsWhere {row : Transaction} (h : row.creditsDelta ≤ 0)
    (test : ObjectTest) : ¬ row.GrantsWhere test := by
  rintro ⟨hpos, -⟩
  omega

/-- **No grant was made**, whatever it may name. -/
def Db.SameGrants (db db' : Db) : Prop :=
  ∀ (test : ObjectTest) [∀ session invoice, Decidable (test session invoice)], ¬ test none none →
    db'.grantsWhere test = db.grantsWhere test

theorem Db.SameGrants.of_rows (h : db'.transactions = db.transactions) : db.SameGrants db' :=
  fun _ _ _ => grantsWhere_congr h

theorem Db.SameGrants.trans (h : db.SameGrants db') (h' : db'.SameGrants db'') :
    db.SameGrants db'' :=
  fun test _ hnone => (h' test hnone).trans (h test hnone)

/-- A row that takes credits is no grant. -/
theorem Db.SameGrants.of_taken {row : Transaction} (h : db'.transactions = db.transactions.insert row)
    (htaken : row.creditsDelta ≤ 0) : db.SameGrants db' := by
  intro test _ _
  rw [grantsWhere_insert h, if_neg (Transaction.not_grantsWhere htaken test), add_zero]

/-! ## Moves that grant nothing -/

/-- The moves of the handlers besides a grant. -/
def Move.BringsNothing : Move → Prop
  | .openWallet _ | .sync | .expire _ | .collect _ _ _ _ | .clawback _ _ _ _ _ _ | .cancel _
  | .restore _ _ | .mark _ => True
  | _ => False

/-- What a sweep writes off is no grant. -/
theorem expireDueLots_sameGrants (db : Db) : db.SameGrants (expireDueLots env w db).2 := by
  refine Moves.invariant (I := fun d => db.SameGrants d) ?_
    (expireDueLots_moves env w (P := fun m => m = .sync ∨ ∃ k, m = .expire k) (Or.inl rfl)
      (fun k => Or.inr ⟨k, rfl⟩) db) fun _ _ _ => rfl
  rintro m d d' hmove hI hs
  rcases hmove with rfl | ⟨k, rfl⟩
  · cases hs
    exact hI
  · cases hs with
    | @expire _ _ lot running _ _ hdue =>
      have hleft := hdue.1
      exact hI.trans (.of_taken rfl (by show -lot.creditsRemaining ≤ 0; omega))

/-- **What is swept, collected, clawed back and given back** is no grant of an object. -/
theorem Step.sameGrants {m : Move} (h : Step env w m db db') (hm : m.BringsNothing) :
    db.SameGrants db' := by
  cases h with
  | openWallet _ _ | sync | cancel => exact .of_rows rfl
  | @expire _ k lot running _ _ hdue =>
    have hleft := hdue.1
    exact .of_taken rfl (by show -lot.creditsRemaining ≤ 0; omega)
  | @collect _ k debt amount taken _ _ _ hamount _ _ _ =>
    exact .of_taken rfl (by show -amount ≤ 0; omega)
  | @clawback _ grant txn requested forgiven description metadata taken _ htaken =>
    have hdrawn := htaken.drawn_nonneg
    have hrow : ∃ row, (bookClawback env grant txn requested (drawn taken) forgiven description
        metadata taken (db.spendLots taken)).2.transactions = db.transactions.insert row ∧
        row.creditsDelta = -drawn taken := by
      unfold bookClawback
      dsimp only
      split <;> exact ⟨_, rfl, rfl⟩
    obtain ⟨row, hrows, hdelta⟩ := hrow
    exact .of_taken hrows (by omega)
  | @restore _ k grant givenBack eventId hpos =>
    -- The row that gives back names the event and no object.
    have hswept := @expireDueLots_sameGrants env w { db with
      lots := db.lots.insert (restoredLot env w grant givenBack db) }
    intro test _ hnone
    obtain ⟨row, hrows, hmeta⟩ : ∃ row, (restoreCredits env w k grant givenBack eventId
        db).transactions = Table.insert (expireDueLots env w { db with
          lots := db.lots.insert (restoredLot env w grant givenBack db) }).2.transactions row ∧
        row.metadata = ((Metadata.empty.set .disputeWon (.bool true)).set .reverses
          (.ref .transaction k)).set .stripeEventId (jsonText eventId) := ⟨_, rfl, rfl⟩
    rw [grantsWhere_insert hrows, if_neg, add_zero]
    · exact hswept test hnone
    · rintro ⟨-, hon⟩
      rw [hmeta] at hon
      exact hnone hon
  | @mark _ k requested eventId =>
    intro test _ _
    unfold Db.grantsWhere markReversed
    dsimp only
    apply Table.sum_modify_of_eq
    intro row _
    rfl
  | _ => exact hm.elim

theorem Moves.sameGrants {P : Move → Prop} (hP : ∀ m, P m → m.BringsNothing)
    (h : Moves env w P db db') : db.SameGrants db' :=
  h.invariant (I := fun d => db.SameGrants d)
    (fun m _ _ hm hI hs => hI.trans (hs.sameGrants (hP m hm))) fun _ _ _ => rfl

/-- The test of what metadata says. -/
def Metadata.Passes (metadata : Metadata) (test : ObjectTest) : Prop :=
  test (metadata .stripeSessionId) (metadata .stripeInvoiceId)

instance (metadata : Metadata) (test : ObjectTest)
    [∀ session invoice, Decidable (test session invoice)] :
    Decidable (metadata.Passes test) := by
  unfold Metadata.Passes; infer_instance

/-- **A credit without a key of its own** is one grant, which says what its metadata says. -/
theorem credit_grants {args : CreditArgs} {t : ℕ} (h : credit env args db = .ok (t, db'))
    (hkey : args.idempotencyKey = "") (test : ObjectTest)
    [∀ session invoice, Decidable (test session invoice)] (hnone : ¬ test none none) :
    db'.grantsWhere test = db.grantsWhere test + if args.metadata.Passes test then 1 else 0 := by
  obtain ⟨w, db₁, hlock, hpos, -, hcase⟩ := credit_cases h
  have hopened : db₁.grantsWhere test = db.grantsWhere test :=
    (@lockWallet_moves env Move.BringsNothing _ _ _ _ trivial hlock).sameGrants (fun _ => id) test hnone
  have hswept : (db₁.swept env w).grantsWhere test = db₁.grantsWhere test :=
    (expireDueLots_moves env w (P := Move.BringsNothing) trivial (fun _ => trivial)
      db₁).sameGrants (fun _ => id) test hnone
  have hgrant : (grant env w args (db₁.swept env w)).grantsWhere test =
      (db₁.swept env w).grantsWhere test + if args.metadata.Passes test then 1 else 0 := by
    refine (grantsWhere_insert rfl).trans (congrArg _ (if_congr ?_ rfl rfl))
    unfold Transaction.GrantsWhere keyedMetadata
    rw [if_pos hkey]
    exact and_iff_right hpos
  rcases hcase with ⟨row, hex, -⟩ | ⟨-, -, ⟨-, rfl⟩ | ⟨-, n, hsettle⟩⟩
  · unfold existingCall at hex
    rw [if_pos hkey] at hex
    cases hex
  · rw [hgrant, hswept, hopened]
  · have hsettled := (settleDebts_ok (P := Move.BringsNothing) (fun _ _ _ _ => trivial)
      hsettle).sameGrants (fun _ => id) test hnone
    rw [hsettled, hgrant, hswept, hopened]

/-! ## What a handler may do -/

/-- **One grant was made, for this object**: its row names the object, and no invoice but one
that the object `may` bring. -/
def Db.GrantsOne (may : ObjectKey → String → Prop) (db : Db) (key : ObjectKey) (db' : Db) : Prop :=
  ∃ session invoice, key.Brought session invoice ∧
    (∀ id, invoice = some (.str id) → may key id) ∧
    ∀ (test : ObjectTest) [∀ session invoice, Decidable (test session invoice)], ¬ test none none →
      db'.grantsWhere test = db.grantsWhere test + if test session invoice then 1 else 0

/-- **What a handler does to claims and grants**: it claims one object at most, which was free,
and grants once at most, for that object. -/
structure Db.Handles (may : ObjectKey → String → Prop) (db : Db) (claim : Option ObjectKey)
    (db' : Db) : Prop where
  free : ∀ key ∈ claim, ¬ db.Claimed key.1 key.2
  claimed : ∀ key : ObjectKey, db'.Claimed key.1 key.2 ↔ db.Claimed key.1 key.2 ∨ claim = some key
  granted : db.SameGrants db' ∨ ∃ key, claim = some key ∧ db.GrantsOne may key db'

section Handles
variable {may : ObjectKey → String → Prop}

/-- What leaves the claims and the ledger's grants alone claims nothing. -/
theorem Db.Handles.quiet (hclaims : db'.providerGrants = db.providerGrants)
    (hgrants : db.SameGrants db') : db.Handles may none db' where
  free := fun _ h => by cases h
  claimed := fun key => by
    unfold Db.Claimed
    simp [hclaims]
  granted := Or.inl hgrants

theorem Db.Handles.refl (db : Db) : db.Handles may none db := .quiet rfl (.of_rows rfl)

theorem Db.Handles.trans {claim : Option ObjectKey} (h : db.Handles may claim db')
    (h' : db'.Handles may none db'') : db.Handles may claim db'' where
  free := h.free
  claimed := fun key => by
    rw [h'.claimed, h.claimed]
    simp
  granted := by
    rcases h'.granted with hsame | ⟨_, hclaim, -⟩
    · rcases h.granted with hbefore | ⟨key, hclaim, session, invoice, hkey, hmay, hone⟩
      · exact Or.inl (hbefore.trans hsame)
      · refine Or.inr ⟨key, hclaim, session, invoice, hkey, hmay, fun test _ hnone => ?_⟩
        rw [hsame test hnone, hone test hnone]
    · cases hclaim

/-- Only wallets' rows are moved. -/
theorem Moves.handles {P : Move → Prop} (hP : ∀ m, P m → m.BringsNothing)
    (h : Moves env w P db db') : db.Handles may none db' :=
  .quiet h.elsewhere.providerGrants (h.sameGrants hP)

/-- **A claim** is of an object that was free, and grants nothing yet. -/
theorem claimProviderObject_handles (may : ObjectKey → String → Prop) {scope : GrantScope}
    {ext : Option String}
    (h : claimProviderObject scope ext "stripe" db = some db') :
    ∃ id, ext = some id ∧ db.Handles may (some (scope, id)) db' ∧
      db'.transactions = db.transactions := by
  obtain ⟨id, rfl, -, hfree, rfl⟩ := claimProviderObject_some h
  refine ⟨id, rfl, ⟨fun key hkey => ?_, fun key => ?_, Or.inl (.of_rows rfl)⟩, rfl⟩
  · obtain rfl := Option.mem_some_iff.mp hkey
    rintro ⟨r, hr, hall⟩
    exact hfree r.1 r.2 (Table.get?_eq_some_iff.mpr hr) hall
  · simp only [Db.Claimed, Table.insert, List.mem_append, List.mem_singleton]
    constructor
    · rintro ⟨r, hr | rfl, hall⟩
      · exact Or.inl ⟨r, hr, hall⟩
      · exact Or.inr (congrArg some (Prod.ext hall.2.1 hall.2.2))
    · rintro (⟨r, hr, hall⟩ | hkey)
      · exact ⟨r, Or.inl hr, hall⟩
      · obtain rfl := Option.some.inj hkey
        exact ⟨_, Or.inr rfl, rfl, rfl, rfl⟩

/-- **A claim and the credit it is for.** -/
theorem Db.Handles.credit {key : ObjectKey} {claimed : Db} {args : CreditArgs} {t : ℕ}
    (hclaim : db.Handles may (some key) claimed) (hbefore : db.SameGrants claimed)
    (h : StapelBilling.credit env args claimed = .ok (t, db')) (hkey : args.idempotencyKey = "")
    (hnames : args.metadata.Passes key.Brought)
    (hmay : ∀ id, args.metadata .stripeInvoiceId = some (.str id) → may key id) :
    db.Handles may (some key) db' where
  free := hclaim.free
  claimed := fun key' => by
    rw [← hclaim.claimed]
    unfold Db.Claimed
    rw [(credit_moves h).elsewhere.providerGrants]
  granted := by
    refine Or.inr ⟨key, rfl, _, _, hnames, hmay, fun test _ hnone => ?_⟩
    rw [credit_grants h hkey test hnone, hbefore test hnone]
    rfl

end Handles

/-! ## The handlers -/

/-- The invoice that a checkout session's grant may name. -/
def CheckoutSession.Brings (obj : CheckoutSession) (key : ObjectKey) (invoice : String) : Prop :=
  ∃ id, obj.id = some id ∧ key = (.checkoutSession, id) ∧ obj.invoice = some invoice

/-- The invoice that a renewal's grant names; the first period's is no renewal. -/
def InvoiceObject.Brings (obj : InvoiceObject) (key : ObjectKey) (invoice : String) : Prop :=
  obj.id = some invoice ∧ key = (.invoice, invoice) ∧ obj.billingReason ≠ "subscription_create"

theorem jsonText_str {text : Option String} {t : String} (h : jsonText text = .str t) :
    text = some t := by
  cases text with
  | none => cases h
  | some t' => exact congrArg some (Json.str.inj h)

/-- **A package** is handed over under its session's claim; the handler goes on with the claim
taken. -/
theorem grantPackage_handles {user : UserId} {pkg : CreditPackage} {obj : CheckoutSession}
    {goesOn : Bool} (h : grantPackage env user pkg obj db = .ok (goesOn, db')) :
    ∃ claim, db.Handles obj.Brings claim db' ∧
      (goesOn = true → ∃ id, obj.id = some id ∧ db'.Claimed .checkoutSession id) := by
  unfold grantPackage at h
  split at h
  · obtain ⟨rfl, rfl⟩ := Prod.mk.inj (Except.ok.inj h)
    exact ⟨none, .refl db, fun hgo => by cases hgo⟩
  · split at h
    · obtain ⟨rfl, rfl⟩ := Prod.mk.inj (Except.ok.inj h)
      exact ⟨none, .refl db, fun hgo => by cases hgo⟩
    · rename_i claimed hclaimed
      obtain ⟨id, hid, hhandles, hrows⟩ := claimProviderObject_handles obj.Brings hclaimed
      split at h
      · cases h
      · rename_i txn credited hcredited
        obtain ⟨rfl, rfl⟩ := Prod.mk.inj (Except.ok.inj h)
        have hcredit := hhandles.credit (.of_rows hrows) hcredited rfl
          (Or.inl ⟨rfl, congrArg (fun id => some (jsonText id)) hid⟩)
          (fun _ hinvoice => by cases hinvoice)
        refine ⟨_, hcredit.trans (.quiet rfl (.of_rows rfl)), fun _ => ⟨id, hid, ?_⟩⟩
        exact (hcredit.claimed (.checkoutSession, id)).mpr (Or.inr rfl)

/-- A plan's bundle is granted under the claim that was taken for it, and names the session's
invoice. -/
theorem grantBundle_handles {user : UserId} {plan id : String} {entry : PlanCatalogEntry}
    {obj : CheckoutSession} {sub : Subscription} {claimed : Db}
    (hclaim : db.Handles obj.Brings (some (.checkoutSession, id)) claimed) (hid : obj.id = some id)
    (hbefore : db.SameGrants claimed)
    (h : grantBundle env user plan entry obj sub claimed = .ok db') :
    db.Handles obj.Brings (some (.checkoutSession, id)) db' := by
  unfold grantBundle at h
  split at h
  · obtain rfl := Except.ok.inj h
    exact hclaim
  · dsimp only at h
    split at h
    · cases h
    · rename_i txn credited hcredited
      obtain rfl := Except.ok.inj h
      have hcredit := hclaim.credit hbefore hcredited rfl
        (Or.inl ⟨rfl, congrArg (fun id => some (jsonText id)) hid⟩)
        fun invoice hinvoice => ⟨id, hid, rfl, jsonText_str (Option.some.inj hinvoice)⟩
      exact hcredit.trans (.quiet rfl (.of_rows rfl))

/-- **A plan** is handed over under its session's claim. -/
theorem grantPlan_handles {user : UserId} {plan : String} {entry : PlanCatalogEntry}
    {event : ProviderEvent CheckoutSession}
    (h : grantPlan env user plan entry event db = .ok db') :
    ∃ claim, db.Handles event.object.Brings claim db' ∧
      ∀ id ∈ event.object.id, db.Claimed .checkoutSession id → claim = none := by
  unfold grantPlan at h
  dsimp only at h
  split at h
  · obtain rfl := Except.ok.inj h
    exact ⟨none, .refl db, fun _ _ _ => rfl⟩
  · split at h
    · obtain rfl := Except.ok.inj h
      exact ⟨none, .refl db, fun _ _ _ => rfl⟩
    · rename_i claimed hclaimed
      obtain ⟨id, hid, hhandles, hrows⟩ :=
        claimProviderObject_handles event.object.Brings hclaimed
      split at h
      · cases h
      · rename_i k sub opened hopened
        split at h
        · cases h
        · rename_i granted hgranted
          obtain rfl := Except.ok.inj h
          obtain ⟨-, -, -, ⟨subscriptions, hdb⟩, -⟩ := openSubscription_ok hopened
          obtain ⟨-, hclaims, hledger⟩ := applyPendingPeriod_tables k sub opened
          have hledger' : (applyPendingPeriod k sub opened).2.transactions = claimed.transactions :=
            hledger.trans (by rw [hdb])
          have happlied : claimed.Handles event.object.Brings none (applyPendingPeriod k sub opened).2 :=
            .quiet (hclaims.trans (by rw [hdb])) (.of_rows hledger')
          have hbundle := grantBundle_handles (hhandles.trans happlied) hid
            (.of_rows (hledger'.trans hrows)) hgranted
          refine ⟨_, hbundle.trans (.quiet rfl (.of_rows rfl)), fun id' hid' hclaimed' => ?_⟩
          obtain rfl := Option.some.inj (hid.symm.trans hid')
          exact absurd hclaimed' (hhandles.free _ rfl)

/-- **A checkout** claims its session at most, and grants once at most. -/
theorem handleCheckoutCompleted_handles {event : ProviderEvent CheckoutSession}
    (h : handleCheckoutCompleted env event db = .ok db') :
    ∃ claim, db.Handles event.object.Brings claim db' := by
  unfold handleCheckoutCompleted at h
  dsimp only at h
  split at h
  · obtain rfl := Except.ok.inj h
    exact ⟨none, .refl db⟩
  · rename_i user hbuyer
    split at h
    · cases h
    · rename_i bought hbought
      obtain rfl := Except.ok.inj h
      split at hbought
      · obtain ⟨claim, hhandles, -⟩ := grantPackage_handles hbought
        exact ⟨claim, hhandles⟩
      · cases (Prod.mk.inj (Except.ok.inj hbought)).1
    · rename_i bought hbought
      split at hbought
      · -- The package has the session's claim: the plan is not handed over as well.
        obtain ⟨claim, hhandles, hgo⟩ := grantPackage_handles hbought
        obtain ⟨id, hid, hclaimed⟩ := hgo rfl
        split at h
        · obtain ⟨claim', hplan, htaken⟩ := grantPlan_handles h
          rw [htaken id hid hclaimed] at hplan
          exact ⟨claim, hhandles.trans hplan⟩
        · obtain rfl := Except.ok.inj h
          exact ⟨claim, hhandles⟩
      · obtain ⟨-, rfl⟩ := Prod.mk.inj (Except.ok.inj hbought)
        split at h
        · obtain ⟨claim, hplan, -⟩ := grantPlan_handles h
          exact ⟨claim, hplan⟩
        · obtain rfl := Except.ok.inj h
          exact ⟨none, .refl _⟩

/-- **A renewal** claims its invoice at most, and grants once at most. -/
theorem handleInvoicePaid_handles {event : ProviderEvent InvoiceObject}
    (h : handleInvoicePaid env event db = .ok db') :
    ∃ claim, db.Handles event.object.Brings claim db' := by
  unfold handleInvoicePaid at h
  dsimp only at h
  split at h
  · exact ⟨none, Except.ok.inj h ▸ .refl db⟩
  · split at h
    · exact ⟨none, Except.ok.inj h ▸ .refl db⟩
    · rename_i hreason
      -- Up to the claim, each reason to stop leaves everything as it is.
      iterate 5 (split at h; · exact ⟨none, Except.ok.inj h ▸ .refl db⟩)
      rename_i claimed hclaimed
      obtain ⟨id, hid, hhandles, hrows⟩ :=
        claimProviderObject_handles event.object.Brings hclaimed
      split at h
      · cases h
      · split at h
        · cases h
        · rename_i txn credited hcredited
          obtain rfl := Except.ok.inj h
          have hcredit := hhandles.credit (.of_rows hrows) hcredited rfl
            (Or.inr ⟨rfl, rfl, congrArg (fun id => some (jsonText id)) hid⟩) fun invoice hinvoice => by
              have hnamed := jsonText_str (Option.some.inj hinvoice)
              exact ⟨hnamed, by rw [Option.some.inj (hid.symm.trans hnamed)], hreason⟩
          exact ⟨_, hcredit.trans (.quiet rfl (.of_rows rfl))⟩

section Clawbacks
variable {may : ObjectKey → String → Prop}

theorem clawBackEach_handles {obj : ChargeObject} {label : String} {eventId : Option String}
    {grants : List (ℕ × Transaction)} (h : clawBackEach env obj label eventId grants db = .ok db') :
    db.Handles may none db' := by
  induction grants generalizing db with
  | nil =>
    obtain rfl := Except.ok.inj h
    exact .refl db
  | cons grant grants ih =>
    unfold clawBackEach at h
    split at h
    · cases h
    · rename_i db₁ hfirst
      refine Db.Handles.trans ?_ (ih h)
      rcases clawBackRemaining_cases hfirst with ⟨-, rfl⟩ | ⟨-, description, r, hclaw⟩
      · exact .refl _
      · refine (clawBackGrant_moves hclaw).handles fun m hm => ?_
        cases m <;> first | exact trivial | exact hm.elim

/-- **A refund, a dispute or a credit note** claims its event at most, and grants nothing. -/
theorem handleClawback_handles {event : ProviderEvent ChargeObject} {label : String}
    (h : handleClawback env event label db = .ok db') : ∃ claim, db.Handles may claim db' := by
  rcases handleClawback_cases h with rfl | ⟨claimed, hclaim, heach⟩
  · exact ⟨none, .refl _⟩
  · obtain ⟨id, -, hhandles, -⟩ := claimProviderObject_handles may hclaim
    exact ⟨_, hhandles.trans (clawBackEach_handles heach)⟩

theorem reverseEach_handles {eventId : Option String} {rows : List (ℕ × Transaction)} {n : ℤ}
    (h : reverseEach env eventId rows db = .ok (n, db')) : db.Handles may none db' := by
  induction rows generalizing db n with
  | nil =>
    obtain ⟨-, rfl⟩ := Prod.mk.inj (Except.ok.inj h)
    exact .refl db
  | cons row rows ih =>
    obtain ⟨n₁, n₂, db₁, hfirst, hrest, -⟩ := reverseEach_cons h
    refine Db.Handles.trans ?_ (ih hrest)
    refine (reverseClawback_moves hfirst).handles fun m hm => ?_
    cases m <;> first | exact trivial | exact hm.elim

/-- **A closed dispute** claims its event at most, and grants nothing. -/
theorem handleDisputeClosed_handles {event : ProviderEvent ChargeObject} {n : ℤ}
    (h : handleDisputeClosed env event db = .ok (n, db')) :
    ∃ claim, db.Handles may claim db' := by
  unfold handleDisputeClosed at h
  dsimp only at h
  iterate 4 (split at h; · exact ⟨none, (Prod.mk.inj (Except.ok.inj h)).2 ▸ .refl db⟩)
  rename_i claimed hclaimed
  obtain ⟨id, -, hhandles, -⟩ := claimProviderObject_handles may hclaimed
  exact ⟨_, hhandles.trans (reverseEach_handles h)⟩

/-- **A lifecycle event** claims and grants nothing. -/
theorem LifecycleEvent.handles (e : LifecycleEvent) (env : Env) (db : Db) :
    db.Handles may none (e.handle env db) := by
  obtain ⟨-, hclaims, hrows⟩ := e.handle_tables env db
  exact .quiet hclaims (.of_rows hrows)

end Clawbacks

/-! ## The registry -/

/-- All that the registry runs is the library's own. -/
def WebhookSettings.OwnHandlers (hooks : WebhookSettings) : Prop :=
  ∀ eventType handler, hooks.getStripeHandler eventType = .ok (some (.handler handler)) →
    handler ∈ servicesHandlers.map Prod.snd

/-- Events of this type are handed to the handler of this path. -/
def WebhookSettings.HandsTo (hooks : WebhookSettings) (eventType path : String) : Prop :=
  ∃ handler, servicesHandlers.lookup path = some handler ∧
    hooks.getStripeHandler eventType = .ok (some (.handler handler))

/-- **An event may bring an invoice's credits** under the claim of an object: a checkout that
names the invoice, or the invoice itself. -/
def StripeEvent.Brings (hooks : WebhookSettings) (eventType : String) (event : StripeEvent)
    (key : ObjectKey) (invoice : String) : Prop :=
  (hooks.HandsTo eventType "stapel_billing.services.handle_checkout_completed" ∧
      event.object.session.Brings key invoice) ∨
    (hooks.HandsTo eventType "stapel_billing.services.handle_invoice_paid" ∧
      event.object.invoice.Brings key invoice)

theorem Db.Handles.mono {may may' : ObjectKey → String → Prop} {claim : Option ObjectKey}
    (h : db.Handles may claim db') (hmay : ∀ key id, may key id → may' key id) :
    db.Handles may' claim db' where
  free := h.free
  claimed := h.claimed
  granted := h.granted.imp_right fun ⟨key, hclaim, session, invoice, hkey, hnamed, hone⟩ =>
    ⟨key, hclaim, session, invoice, hkey, fun id hid => hmay key id (hnamed id hid), hone⟩

/-- **The library's own handlers** claim one object at most, and grant once at most, for it. -/
theorem servicesHandlers_handles {hooks : WebhookSettings} {eventType : String}
    {handler : StripeHandler} {event : StripeEvent}
    (hget : hooks.getStripeHandler eventType = .ok (some (.handler handler)))
    (hown : handler ∈ servicesHandlers.map Prod.snd) (h : handler.run env event db = .ok db') :
    ∃ claim, db.Handles (event.Brings hooks eventType) claim db' := by
  simp only [servicesHandlers, List.map_cons, List.map_nil, List.mem_cons, List.not_mem_nil,
    or_false] at hown
  rcases hown with rfl | rfl | rfl | rfl | rfl | rfl | rfl | rfl | rfl | rfl
  · obtain ⟨claim, hhandles⟩ := handleCheckoutCompleted_handles h
    exact ⟨claim, hhandles.mono fun key id hbrings => Or.inl ⟨⟨_, rfl, hget⟩, hbrings⟩⟩
  · obtain ⟨claim, hhandles⟩ := handleInvoicePaid_handles h
    exact ⟨claim, hhandles.mono fun key id hbrings => Or.inr ⟨⟨_, rfl, hget⟩, hbrings⟩⟩
  · obtain rfl := Except.ok.inj h
    exact ⟨none, LifecycleEvent.handles (.updated (event.read (·.subscription))) env db⟩
  · obtain rfl := Except.ok.inj h
    exact ⟨none, LifecycleEvent.handles (.deleted (event.read (·.subscription))) env db⟩
  · obtain rfl := Except.ok.inj h
    refine ⟨none, ?_⟩
    unfold handleInvoicePaymentFailed
    dsimp only
    split
    · exact .refl db
    · exact .quiet rfl (.of_rows rfl)
  · obtain rfl := Except.ok.inj h
    refine ⟨none, ?_⟩
    unfold handleChargeFailed
    dsimp only
    split
    · exact .refl db
    · split
      · exact .refl db
      · exact .quiet rfl (.of_rows rfl)
  · exact handleClawback_handles h
  · exact handleClawback_handles h
  · have h : (handleDisputeClosed env (event.read (·.charge)) db).map Prod.snd = .ok db' := h
    rcases hclosed : handleDisputeClosed env (event.read (·.charge)) db with e | ⟨n, closed⟩
    · rw [hclosed] at h
      cases h
    · rw [hclosed] at h
      obtain rfl := Except.ok.inj h
      exact handleDisputeClosed_handles hclosed
  · exact handleClawback_handles h

/-- **What a registry of the library's own handlers runs.** -/
theorem dispatch_handles {hooks : WebhookSettings} (hown : hooks.OwnHandlers) {eventType : String}
    {event : StripeEvent} {stale : Bool}
    (h : hooks.dispatch env eventType event db = .ok (stale, db')) :
    ∃ claim, db.Handles (event.Brings hooks eventType) claim db' := by
  unfold WebhookSettings.dispatch at h
  split at h
  · cases h
  · obtain ⟨-, rfl⟩ := Prod.mk.inj (Except.ok.inj h)
    exact ⟨none, .refl db⟩
  · cases h
  · rename_i handler hhandler
    split at h
    · cases h
    · rename_i ran hran
      obtain ⟨-, rfl⟩ := Prod.mk.inj (Except.ok.inj h)
      exact servicesHandlers_handles hhandler (hown eventType handler hhandler) hran

end StapelBilling
