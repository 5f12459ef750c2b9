import StapelBilling.ServiceRuns

/-! # Rows that name a grant

A clawback's row names the grant it takes back, and so do the debt it opens and the rows that
collect that debt.  A reversal follows the name and makes a lot of that grant.  Over every
operation, merges included, a row names no grant of another wallet, provided that no caller's
metadata names one.

* `Db.NamesWithin`, `Db.Truthful`: metadata, and a database, that names grants at home only.
* `Step.truthful`: what one move keeps.
* `exec_truthful`, `mergeWallets_truthful`: what an operation and a merge keep.
-/
namespace StapelBilling
open Store

variable {env : Env} {w v merged survivor : ℕ} {db db' : Db} {m n : Metadata}

/-! ## Names -/

/-- The metadata names no grant but one of wallet `w`. -/
def Db.NamesWithin (db : Db) (w : ℕ) (m : Metadata) : Prop :=
  ∀ g, m .clawbackOf = some (.ref .transaction g) → db.RowOn g w

/-- **No row, hold or debt names a grant of another wallet.** -/
structure Db.Truthful (db : Db) : Prop where
  transactions : ∀ k row, db.transactions.get? k = some row → db.NamesWithin row.wallet row.metadata
  holds : ∀ k held, db.holds.get? k = some held → db.NamesWithin held.wallet held.metadata
  debts : ∀ k debt, db.debts.get? k = some debt → db.NamesWithin debt.wallet debt.metadata

/-- Metadata that names no grant at all. -/
def Metadata.NamesNone (m : Metadata) : Prop := ∀ g, m .clawbackOf ≠ some (.ref .transaction g)

theorem Metadata.namesNone_empty : Metadata.NamesNone Metadata.empty := fun _ => nofun

theorem Metadata.NamesNone.within (h : m.NamesNone) (db : Db) (w : ℕ) : db.NamesWithin w m :=
  fun g hg => absurd hg (h g)

namespace Db.NamesWithin

theorem congr (h : db.NamesWithin w m) (hsame : n .clawbackOf = m .clawbackOf) :
    db.NamesWithin w n := by
  intro g hg
  rw [hsame] at hg
  exact h g hg

theorem set {key : MetaKey} (h : db.NamesWithin w m) (value : Json) (hkey : .clawbackOf ≠ key) :
    db.NamesWithin w (m.set key value) :=
  h.congr (Metadata.set_of_ne m value hkey)

theorem merge (h : db.NamesWithin w m) (hn : db.NamesWithin w n) : db.NamesWithin w (m.merge n) := by
  intro g hg
  unfold Metadata.merge at hg
  cases hown : n .clawbackOf with
  | none =>
    rw [hown] at hg
    exact h g hg
  | some value =>
    rw [hown] at hg
    exact hn g (hown.trans hg)

theorem mono (h : db.NamesWithin w m) (hrows : ∀ g, db.RowOn g w → db'.RowOn g v) :
    db'.NamesWithin v m :=
  fun g hg => hrows g (h g hg)

end Db.NamesWithin

theorem namesWithin_empty (db : Db) (w : ℕ) : db.NamesWithin w Metadata.empty :=
  Metadata.namesNone_empty.within db w

theorem keyedMetadata_clawbackOf (m : Metadata) (key : String) :
    keyedMetadata m key .clawbackOf = m .clawbackOf := by
  unfold keyedMetadata
  split
  · rfl
  · exact Metadata.set_of_ne m _ (by decide)

theorem mark_clawbackOf (m : Metadata) (credits : ℤ) : m.mark credits .clawbackOf = m .clawbackOf := by
  unfold Metadata.mark
  rw [Metadata.set_of_ne _ _ (by decide), Metadata.set_of_ne _ _ (by decide)]

theorem debitMetadata_clawbackOf (args : DebitArgs) (taken : List (ℕ × ℤ)) (shortfall : ℤ) :
    debitMetadata args taken shortfall .clawbackOf = args.metadata .clawbackOf := by
  have hkeyed : (keyedMetadata args.metadata args.idempotencyKey).set .lots (.lots taken) .clawbackOf =
      args.metadata .clawbackOf := by
    rw [Metadata.set_of_ne _ _ (by decide), keyedMetadata_clawbackOf]
  unfold debitMetadata
  split
  · exact hkeyed
  · rw [Metadata.set_of_ne _ _ (by decide), Metadata.set_of_ne _ _ (by decide),
      Metadata.set_of_ne _ _ (by decide)]
    exact hkeyed

theorem settlementMetadata_clawbackOf (k : ℕ) (debt : CreditDebt) (taken : List (ℕ × ℤ)) :
    settlementMetadata k debt taken .clawbackOf = debt.metadata .clawbackOf := by
  unfold settlementMetadata cleanMetadata
  rw [Metadata.set_of_ne _ _ (by decide), Metadata.set_of_ne _ _ (by decide),
    Metadata.set_of_ne _ _ (by decide), Metadata.set_of_ne _ _ (by decide),
    Metadata.erase_of_ne _ (by decide)]

theorem clawbackMetadata_clawbackOf {grant : ℕ} {requested reclaimed forgiven outstanding : ℤ}
    {taken : List (ℕ × ℤ)} :
    clawbackMetadata m grant requested reclaimed forgiven outstanding taken .clawbackOf =
      some (.ref .transaction grant) := by
  unfold clawbackMetadata
  rw [Metadata.set_of_ne _ _ (by decide), Metadata.set_of_ne _ _ (by decide),
    Metadata.set_of_ne _ _ (by decide), Metadata.set_of_ne _ _ (by decide),
    Metadata.set_of_ne _ _ (by decide), Metadata.set_same]

/-! ## One table -/

section Tables
variable {α : Type} {wallet : α → ℕ} {metadata : α → Metadata} {t t' t'' : Table α} {a b : α}
  {base : Db} {k : ℕ} {f : α → α}

/-- The row names what it named before, or nothing but grants that `base` has on wallet `w`. -/
def Db.NamesAs (base : Db) (w : ℕ) (wallet : α → ℕ) (metadata : α → Metadata) (a b : α) : Prop :=
  wallet b = wallet a ∧ (metadata b .clawbackOf = metadata a .clawbackOf ∨
    wallet b = w ∧ base.NamesWithin w (metadata b))

/-- A row of wallet `w` that names nothing but grants that `base` has there. -/
def Db.NamesHere (base : Db) (w : ℕ) (wallet : α → ℕ) (metadata : α → Metadata) (a : α) : Prop :=
  wallet a = w ∧ base.NamesWithin w (metadata a)

/-- Rows that are rewritten or new name nothing else. -/
abbrev Db.NamesOnly (base : Db) (w : ℕ) (wallet : α → ℕ) (metadata : α → Metadata) :
    Table α → Table α → Prop :=
  Store.Grows (base.NamesAs w wallet metadata) (base.NamesHere w wallet metadata)

theorem Db.NamesAs.refl (a : α) : base.NamesAs w wallet metadata a a := ⟨rfl, Or.inl rfl⟩

theorem Db.NamesHere.rewritten (ha : base.NamesHere w wallet metadata a)
    (h : base.NamesAs w wallet metadata a b) : base.NamesHere w wallet metadata b := by
  refine ⟨h.1.trans ha.1, ?_⟩
  rcases h.2 with hsame | ⟨-, hnames⟩
  · exact ha.2.congr hsame
  · exact hnames

theorem Db.NamesAs.trans (a b c : α) (h : base.NamesAs w wallet metadata a b)
    (h' : base.NamesAs w wallet metadata b c) : base.NamesAs w wallet metadata a c := by
  refine ⟨h'.1.trans h.1, ?_⟩
  rcases h.2 with hsame | hhere
  · rcases h'.2 with hsame' | hhere'
    · exact Or.inl (hsame'.trans hsame)
    · exact Or.inr hhere'
  · exact Or.inr (Db.NamesHere.rewritten hhere h')

theorem Db.NamesOnly.refl (t : Table α) : base.NamesOnly w wallet metadata t t :=
  Store.Grows.refl Db.NamesAs.refl t

theorem Db.NamesOnly.trans (h : base.NamesOnly w wallet metadata t t')
    (h' : base.NamesOnly w wallet metadata t' t'') : base.NamesOnly w wallet metadata t t'' :=
  Store.Grows.trans Db.NamesAs.trans (fun _ _ => Db.NamesHere.rewritten) h h'

theorem Db.NamesOnly.insert (hw : wallet a = w) (ha : base.NamesWithin w (metadata a)) :
    base.NamesOnly w wallet metadata t (t.insert a) :=
  Store.Grows.insert Db.NamesAs.refl ⟨hw, ha⟩

theorem Db.NamesOnly.modify (hf : ∀ a, wallet (f a) = wallet a ∧
    metadata (f a) .clawbackOf = metadata a .clawbackOf) :
    base.NamesOnly w wallet metadata t (t.modify k f) :=
  Store.Grows.modify Db.NamesAs.refl fun a _ => ⟨(hf a).1, Or.inl (hf a).2⟩

/-- What the rows of wallet `w` name now, if all rows of `base` name grants at home. -/
theorem Db.NamesOnly.here (h : base.NamesOnly w wallet metadata t t')
    (hold : ∀ k a, t.get? k = some a → base.NamesWithin (wallet a) (metadata a))
    (hk : t'.get? k = some b) : base.NamesWithin (wallet b) (metadata b) := by
  rcases h.origin k b hk with ⟨a, ha, hwallet, hsame | ⟨hw, hnames⟩⟩ | ⟨-, hw, hnames⟩
  · rw [hwallet]
    exact (hold k a ha).congr hsame
  · rw [hw]
    exact hnames
  · rw [hw]
    exact hnames

end Tables

/-! ## One move -/

/-- What an operation does to the names in the tables. -/
structure Db.Names (base : Db) (w : ℕ) (db db' : Db) : Prop where
  transactions : base.NamesOnly w Transaction.wallet Transaction.metadata db.transactions
    db'.transactions
  holds : base.NamesOnly w CreditHold.wallet CreditHold.metadata db.holds db'.holds
  debts : base.NamesOnly w CreditDebt.wallet CreditDebt.metadata db.debts db'.debts

section Moves
variable {base : Db}

theorem Db.Names.refl (db : Db) : base.Names w db db := ⟨.refl _, .refl _, .refl _⟩

theorem Db.Names.trans {db'' : Db} (h : base.Names w db db') (h' : base.Names w db' db'') :
    base.Names w db db'' :=
  ⟨h.transactions.trans h'.transactions, h.holds.trans h'.holds, h.debts.trans h'.debts⟩

/-- **Names at home stay at home.** -/
theorem Db.Names.truthful (h : base.Names w base db') (ht : base.Truthful)
    (hrows : ∀ g v, base.RowOn g v → db'.RowOn g v) : db'.Truthful where
  transactions := fun _ _ hk => (h.transactions.here ht.transactions hk).mono fun g => hrows g _
  holds := fun _ _ hk => (h.holds.here ht.holds hk).mono fun g => hrows g _
  debts := fun _ _ hk => (h.debts.here ht.debts hk).mono fun g => hrows g _

/-- The metadata that an operation brings to a move names grants of wallet `w` only. -/
def Move.NamesWithin (base : Db) (w : ℕ) : Move → Prop
  | .grant args => base.NamesWithin w args.metadata
  | .meter args | .charge args _ _ => base.NamesWithin w args.metadata
  | .arm args _ _ => base.NamesWithin w args.metadata
  | .bill args held | .waive args held =>
    base.NamesWithin w args.metadata ∧ base.NamesWithin w held.metadata
  | .clawback g _ _ _ _ _ => base.RowOn g w
  | _ => True

theorem expireLot_names {k : ℕ} {lot : CreditLot} {running : ℤ} :
    base.Names w db (expireLot env w k lot running db) where
  transactions := .insert rfl (((((namesWithin_empty base w).set _ (by decide)).set _ (by decide)).set _
    (by decide)))
  holds := .refl _
  debts := .refl _

theorem swept_names (db : Db) : base.Names w db (db.swept env w) := by
  refine Moves.invariant (I := fun db' => base.Names w db db') ?_
    (expireDueLots_moves env w (P := Move.IsSweep) trivial (fun _ => trivial) db) (.refl db)
  rintro m db₁ db₂ hm hI hs
  refine hI.trans ?_
  cases hs with
  | sync => exact ⟨.refl _, .refl _, .refl _⟩
  | expire _ _ _ => exact expireLot_names
  | _ => exact hm.elim

theorem settleHold_names {h : ℕ} {status : HoldStatus} :
    base.NamesOnly w CreditHold.wallet CreditHold.metadata db.holds
      (settleHold env h status db).holds := by
  rw [settleHold_holds]
  exact .modify fun _ => ⟨rfl, rfl⟩

theorem Db.NamesWithin.clean (h : base.NamesWithin w m) : base.NamesWithin w (cleanMetadata m) :=
  h.congr (Metadata.erase_of_ne m (by decide))

/-- **One move names nothing beyond its wallet.** -/
theorem Step.names {m : Move} (h : Step env w m db db') (hm : m.NamesWithin base w)
    (hdebts : ∀ k debt, db.debts.get? k = some debt → debt.wallet = w →
      base.NamesWithin w debt.metadata) : base.Names w db db' := by
  cases h with
  | openWallet _ _ | sync => exact ⟨.refl _, .refl _, .refl _⟩
  | expire _ _ _ => exact expireLot_names
  | grant _ _ =>
    exact ⟨.insert rfl (hm.congr (keyedMetadata_clawbackOf _ _)), .refl _, .refl _⟩
  | @collect _ k debt amount taken hdebt hw _ _ _ _ _ =>
    refine ⟨.insert rfl ?_, .refl _, ?_⟩
    · exact (hdebts k debt hdebt hw).congr (settlementMetadata_clawbackOf k debt taken)
    · rw [collectDebt_debts]
      exact .modify fun _ => ⟨rfl, rfl⟩
  | @meter _ args =>
    have hnames : base.NamesWithin w ((keyedMetadata (args.metadata.mark args.credits)
        args.idempotencyKey).set .lots (.lots [])) := by
      refine Db.NamesWithin.set (hm.congr ?_) _ (by decide)
      rw [keyedMetadata_clawbackOf, mark_clawbackOf]
    unfold meterOnlyDebit
    dsimp only
    split <;> exact ⟨.insert rfl hnames, .refl _, .refl _⟩
  | @charge _ args chargeable taken _ _ _ =>
    have hnames : base.NamesWithin w (debitMetadata args taken (args.credits - chargeable)) :=
      hm.congr (debitMetadata_clawbackOf _ _ _)
    unfold chargeDebit
    dsimp only
    split <;> split
    all_goals first
      | exact ⟨.insert rfl hnames, .refl _, .refl _⟩
      | exact ⟨.insert rfl (hnames.set _ (by decide)), .refl _, .insert rfl hnames.clean⟩
  | @arm _ args credits metadata existing taken hexisting hcredits _ _ =>
    -- a hold keeps what its caller wrote, and a capture writes it down
    have hnames : base.NamesWithin w metadata := by
      rcases hcredits with ⟨-, rfl⟩ | ⟨-, rfl⟩
      · exact hm
      · exact hm.congr (mark_clawbackOf _ _)
    cases existing with
    | some k =>
      obtain ⟨held, hheld, hw, -⟩ := hexisting k rfl
      refine ⟨.refl _, ?_, .refl _⟩
      rw [armHold_holds]
      refine Store.Grows.modify (fun _ => ⟨rfl, Or.inl rfl⟩) fun a ha => ?_
      obtain rfl := Option.some.inj (hheld.symm.trans ha)
      exact ⟨rfl, Or.inr ⟨hw, hnames⟩⟩
    | none => exact ⟨.refl _, .insert rfl hnames, .refl _⟩
  | refund _ _ _ _ _ _ =>
    refine ⟨.refl _, ?_, .refl _⟩
    rw [refundAllocation_holds]
    exact .modify fun _ => ⟨rfl, rfl⟩
  | overdraw _ _ _ _ =>
    refine ⟨.refl _, ?_, .refl _⟩
    rw [allocateMore_holds]
    exact .modify fun _ => ⟨rfl, rfl⟩
  | bill _ _ _ _ =>
    refine ⟨.insert rfl (((hm.2.merge hm.1).set _ (by decide)).set _ (by decide)), ?_, .refl _⟩
    rw [billHold_holds]
    exact .modify fun _ => ⟨rfl, rfl⟩
  | @waive _ args held actual _ _ _ _ =>
    have hnames : base.NamesWithin w (((held.metadata.merge args.metadata).set .holdId
        (.ref .hold args.hold)).set .lots (.lots [])) :=
      ((hm.2.merge hm.1).set _ (by decide)).set _ (by decide)
    refine ⟨.insert rfl (hnames.congr ?_), ?_, .refl _⟩
    · exact mark_clawbackOf _ actual
    · rw [meterOnlyCapture_holds]
      exact .modify fun _ => ⟨rfl, rfl⟩
  | settle _ _ _ _ => exact ⟨.refl _, settleHold_names, .refl _⟩
  -- a clawback names the grant it takes back, which is on its wallet
  | @clawback _ grant txn requested forgiven description metadata taken hw _ =>
    have hnames : base.NamesWithin w (clawbackMetadata metadata grant requested (drawn taken) forgiven
        (requested - drawn taken - forgiven) taken) := by
      intro g hg
      rw [clawbackMetadata_clawbackOf] at hg
      injection hg with hg
      injection hg with _ hg
      exact hg ▸ hm
    unfold bookClawback
    dsimp only
    split
    · exact ⟨.insert hw (hnames.set _ (by decide)), .refl _, .insert hw hnames.clean⟩
    · exact ⟨.insert hw hnames, .refl _, .refl _⟩
  | @cancel _ k eventId =>
    refine ⟨.refl _, .refl _, ?_⟩
    rw [cancelDebt_debts]
    have hset : ∀ m : Metadata, m.set .cancelledBy (jsonText eventId) .clawbackOf = m .clawbackOf :=
      fun m => Metadata.set_of_ne m _ (by decide)
    exact .modify fun debt => ⟨rfl, hset debt.metadata⟩
  | @restore _ k grant givenBack eventId _ =>
    have hlot : base.Names w db { db with lots := db.lots.insert (restoredLot env w grant givenBack db) } :=
      ⟨.refl _, .refl _, .refl _⟩
    refine (hlot.trans (swept_names _)).trans ⟨.insert rfl ?_, .refl _, .refl _⟩
    exact (((namesWithin_empty base w).set _ (by decide)).set _ (by decide)).set _ (by decide)
  | @mark _ k requested eventId =>
    refine ⟨?_, .refl _, .refl _⟩
    rw [markReversed_transactions]
    have hset : ∀ m : Metadata, (m.set .reversed (.int requested)).set .reversedBy
        (jsonText eventId) .clawbackOf = m .clawbackOf := fun m => by
      rw [Metadata.set_of_ne _ _ (by decide), Metadata.set_of_ne _ _ (by decide)]
    exact .modify fun row => ⟨rfl, hset row.metadata⟩

/-- **An operation names nothing beyond its wallet.** -/
theorem Moves.names {P : Move → Prop} (hP : ∀ m, P m → m.NamesWithin base w)
    (h : Moves env w P base db') (ht : base.Truthful) : base.Names w base db' := by
  refine Moves.invariant (I := fun db => base.Names w base db) ?_ h (.refl base)
  intro m db₁ db₂ hm hI hs
  refine hI.trans (hs.names (hP m hm) fun k debt hk hw => ?_)
  rw [← hw]
  exact hI.debts.here ht.debts hk

theorem Moves.truthful {P : Move → Prop} (hP : ∀ m, P m → m.NamesWithin base w)
    (h : Moves env w P base db') (ht : base.Truthful) : db'.Truthful :=
  (Moves.names hP h ht).truthful ht fun _ _ => h.grows.rowOn

end Moves

/-! ## Operations -/

/-- A clawback names the grant it takes back, on the grant's own wallet. -/
theorem clawBackGrant_truthful {grant : ℕ} {credits : Option ℤ} {description : Option String}
    {metadata : Metadata} (ht : db.Truthful)
    (h : (WalletCall.clawBackGrant grant credits description metadata).exec env db = .ok db') :
    db'.Truthful := by
  simp only [WalletCall.exec] at h
  split at h
  · rename_i txn htxn
    obtain ⟨r, hok⟩ := map_snd_ok h
    refine (clawBackGrant_moves hok).truthful (fun m hm => ?_) ht
    cases m <;> first
      | exact hm.elim
      | exact trivial
      | exact ⟨txn, hm ▸ htxn, rfl⟩
  · cases h

/-- **A wallet call names no grant of another wallet**, unless its caller's metadata does. -/
theorem exec_truthful {c : WalletCall} (ht : db.Truthful) (hc : c.metadata.NamesNone)
    (h : c.exec env db = .ok db') : db'.Truthful := by
  cases c with
  | credit args =>
    obtain ⟨t, hok⟩ := map_snd_ok h
    refine (credit_moves hok).truthful (fun m hm => ?_) ht
    cases m <;> first | exact hm.elim | exact trivial | exact hm ▸ Metadata.NamesNone.within hc db _
  | debit args =>
    obtain ⟨answer, hok⟩ := map_snd_ok h
    refine (debit_moves hok).truthful (fun m hm => ?_) ht
    cases m <;> first | exact hm.elim | exact trivial | exact hm ▸ Metadata.NamesNone.within hc db _
  | hold args =>
    obtain ⟨k, hok⟩ := map_snd_ok h
    refine (hold_moves hok).truthful (fun m hm => ?_) ht
    cases m <;> first | exact hm.elim | exact trivial | exact hm ▸ Metadata.NamesNone.within hc db _
  | capture args =>
    obtain ⟨t, hok⟩ := map_snd_ok h
    obtain ⟨held, hheld, hmoves⟩ := capture_moves hok
    have hboth : db.NamesWithin held.wallet args.metadata ∧ db.NamesWithin held.wallet held.metadata :=
      ⟨Metadata.NamesNone.within hc db _, ht.holds _ _ hheld⟩
    refine hmoves.truthful (fun m hm => ?_) ht
    cases m <;> first
      | exact hm.elim
      | exact trivial
      | exact ⟨hm.1 ▸ hboth.1, hm.2.1 ▸ hboth.2⟩
  | release args =>
    obtain ⟨held, -, hmoves⟩ := release_moves h
    refine hmoves.truthful (fun m hm => ?_) ht
    cases m <;> first | exact hm.elim | exact trivial
  | expireDueLots w =>
    obtain rfl := Except.ok.inj h
    refine (expireDueLots_moves env w (P := Move.IsSweep) trivial (fun _ => trivial) db).truthful
      (fun m hm => ?_) ht
    cases m <;> first | exact hm.elim | exact trivial
  | clawBackGrant grant credits description metadata => exact clawBackGrant_truthful ht h
  | reverseClawback k eventId =>
    simp only [WalletCall.exec] at h
    split at h
    · obtain ⟨n, hok⟩ := map_snd_ok h
      refine (reverseClawback_moves hok).truthful (fun m hm => ?_) ht
      cases m <;> first | exact hm.elim | exact trivial
    · cases h

/-! ## Rows that change owner -/

section Rewrites
variable {f : ℕ → ℕ}

/-- A row that changes owner and names what it named. -/
def Renamed {α : Type} (f : ℕ → ℕ) (wallet : α → ℕ) (metadata : α → Metadata) (a b : α) : Prop :=
  wallet b = f (wallet a) ∧ metadata b .clawbackOf = metadata a .clawbackOf

/-- Every row goes to the wallet that `f` says, and names what it named. -/
structure Db.Renames (f : ℕ → ℕ) (db db' : Db) : Prop where
  transactions : Store.Grows (Renamed f Transaction.wallet Transaction.metadata) (fun _ => False)
    db.transactions db'.transactions
  holds : Store.Grows (Renamed f CreditHold.wallet CreditHold.metadata) (fun _ => False)
    db.holds db'.holds
  debts : Store.Grows (Renamed f CreditDebt.wallet CreditDebt.metadata) (fun _ => False)
    db.debts db'.debts

/-- **Rows that move together name what they named at home.** -/
theorem Db.Renames.truthful (h : db.Renames f db') (ht : db.Truthful) : db'.Truthful := by
  have hrows : ∀ g v, db.RowOn g v → db'.RowOn g (f v) := by
    rintro g v ⟨row, hget, rfl⟩
    obtain ⟨row', hget', hwallet, -⟩ := h.transactions.kept g row hget
    exact ⟨row', hget', hwallet⟩
  have htable : ∀ {α : Type} {wallet : α → ℕ} {metadata : α → Metadata} {t t' : Table α},
      Store.Grows (Renamed f wallet metadata) (fun _ => False) t t' →
      (∀ k a, t.get? k = some a → db.NamesWithin (wallet a) (metadata a)) →
      ∀ k b, t'.get? k = some b → db'.NamesWithin (wallet b) (metadata b) := by
    intro α wallet metadata t t' hg hold k b hk
    rcases hg.origin k b hk with ⟨a, ha, hwallet, hsame⟩ | ⟨-, hnew⟩
    · rw [hwallet]
      exact ((hold k a ha).congr hsame).mono fun g => hrows g _
    · exact hnew.elim
  exact ⟨htable h.transactions ht.transactions, htable h.holds ht.holds, htable h.debts ht.debts⟩

theorem Db.Renames.of_eq (hrows : db'.transactions = db.transactions) (hholds : db'.holds = db.holds)
    (hdebts : db'.debts = db.debts) : db.Renames id db' := by
  refine ⟨?_, ?_, ?_⟩
  · rw [hrows]
    exact Store.Grows.refl (fun _ => ⟨rfl, rfl⟩) _
  · rw [hholds]
    exact Store.Grows.refl (fun _ => ⟨rfl, rfl⟩) _
  · rw [hdebts]
    exact Store.Grows.refl (fun _ => ⟨rfl, rfl⟩) _

/-- Nothing but these tables names a grant. -/
theorem Db.Truthful.congr (ht : db.Truthful) (hrows : db'.transactions = db.transactions)
    (hholds : db'.holds = db.holds) (hdebts : db'.debts = db.debts) : db'.Truthful :=
  (Db.Renames.of_eq hrows hholds hdebts).truthful ht

theorem folded_renames : db.Renames (heir merged survivor) (db.folded merged survivor) where
  transactions := by
    refine Store.Grows.of_map rfl folded_row fun k row _ => ?_
    unfold Renamed heir
    split <;> exact ⟨rfl, rfl⟩
  holds := by
    have hnext : (db.folded merged survivor).holds.next = db.holds.next := rfl
    refine ⟨hnext.ge, fun h held hk => ?_, fun h held' hk => Or.inl ?_⟩
    · obtain ⟨key, hkey⟩ := @folded_hold db merged survivor h
      rw [hk] at hkey
      exact ⟨_, hkey, rfl, rfl⟩
    · obtain ⟨key, hkey⟩ := @folded_hold db merged survivor h
      rw [hkey] at hk
      obtain ⟨held, hheld, rfl⟩ := Option.map_eq_some_iff.mp hk
      exact ⟨held, hheld, rfl, rfl⟩
  debts := by
    refine Store.Grows.of_map rfl folded_debt fun k debt _ => ?_
    unfold Renamed heir
    split <;> exact ⟨rfl, rfl⟩

theorem stampSubscriptionPeriod_truthful (sub : Subscription) (ht : db.Truthful) :
    (stampSubscriptionPeriod sub db).Truthful := by
  refine ht.congr ?_ ?_ ?_
  all_goals
    unfold stampSubscriptionPeriod
    split <;> rfl

/-- Scrubbing free text keeps the names: the key is one that erasure keeps. -/
theorem scrubFreeText_renames (user : UserId) (db : Db) : db.Renames id (scrubFreeText user db) where
  transactions := by
    refine Store.Grows.of_map rfl (Table.get?_update _ _) fun k row _ => ?_
    split <;> exact ⟨rfl, rfl⟩
  holds := by
    refine Store.Grows.of_map rfl (Table.get?_update _ _) fun k held _ => ?_
    split <;> exact ⟨rfl, rfl⟩
  debts := by
    refine Store.Grows.of_map rfl (Table.get?_update _ _) fun k debt _ => ?_
    split <;> exact ⟨rfl, rfl⟩

theorem eraseSubject_truthful {subjectType : String} {subject : Option UserId}
    (h : eraseSubject subjectType subject db = some db') (ht : db.Truthful) : db'.Truthful := by
  unfold eraseSubject at h
  split at h
  · cases h
  · rename_i user
    split at h
    · cases h
    · obtain rfl := Option.some.inj h
      have hscrub := scrubFreeText_renames user (eraseSubscriptions user db)
      have hrenames : db.Renames id { scrubFreeText user (eraseSubscriptions user db) with
          wallets := (scrubFreeText user (eraseSubscriptions user db)).wallets.update fun _ wallet =>
            if wallet.user = some user then { wallet with user := none } else wallet } :=
        ⟨hscrub.transactions, hscrub.holds, hscrub.debts⟩
      exact hrenames.truthful ht

end Rewrites

/-! ## Merges -/

/-- A row that empties a lot names nothing. -/
theorem forfeitLot_names {base : Db} {running : ℤ} {k : ℕ} {lot : CreditLot} :
    base.Names w db (forfeitLot env w k lot running db) where
  transactions := .insert rfl ((((namesWithin_empty base w).set _ (by decide)).set _ (by decide)).set _
    (by decide))
  holds := .refl _
  debts := .refl _

theorem forfeitLots_names {base : Db} (lots : List (ℕ × CreditLot)) (running : ℤ) :
    base.Names w db (forfeitLots env w lots running db) := by
  induction lots generalizing running db with
  | nil => exact .refl db
  | cons r lots ih => exact forfeitLot_names.trans (ih _)

theorem stripped_truthful (ht : db.Truthful) : (db.stripped env merged).Truthful := by
  have hnames : db.Names merged db (db.stripped env merged) := by
    unfold Db.stripped
    have hswept : db.Names merged db (db.swept env merged) := swept_names db
    refine hswept.trans ?_
    rcases forfeited_cases env merged (db.swept env merged) with ⟨he, -⟩ | he
    · rw [he]
      exact .refl _
    · rw [he]
      exact (forfeitLots_names _ _).trans ⟨.refl _, .refl _, .refl _⟩
  refine hnames.truthful ht ?_
  rintro g v ⟨row, hget, hwallet⟩
  exact ⟨row, stripped_row hget, hwallet⟩

theorem bookMerge_truthful {key : String} {credits : ℤ} (ht : db.Truthful) :
    (bookMerge env key merged survivor credits db).Truthful := by
  have hnames : db.Names survivor db (bookMerge env key merged survivor credits db) := by
    refine (swept_names db).trans ⟨.insert rfl ?_, .refl _, .refl _⟩
    exact (((namesWithin_empty db survivor).set _ (by decide)).set _ (by decide)).set _ (by decide)
  refine hnames.truthful ht ?_
  rintro g v ⟨row, hget, hwallet⟩
  exact ⟨row, bookMerge_row hget, hwallet⟩

theorem settleDebts_truthful {n : ℤ} (ht : db.Truthful) (h : settleDebts env w db = .ok (n, db')) :
    db'.Truthful := by
  refine (settleDebts_ok (P := Move.IsSettling) (fun _ _ _ _ => trivial) h).truthful
    (fun m hm => ?_) ht
  cases m <;> first | exact hm.elim | exact trivial

/-- **A merge names no grant of another wallet**: what it moves, it moves together. -/
theorem mergeWallets_truthful {digest : UserId → UserId → String} {fromUser intoUser : UserId}
    {counts : MergeCounts} (ht : db.Truthful)
    (h : mergeWallets env digest fromUser intoUser db = .ok (counts, db')) : db'.Truthful := by
  rcases mergeWallets_cases h with ⟨-, rfl, -⟩ | ⟨-, ⟨-, ⟨subscriptions, rfl⟩, -⟩ |
    ⟨merged, wallet, survivor, db₁, hmerged, hsurvivor, hlocked⟩⟩
  · exact ht
  · exact ht.congr rfl rfl rfl
  · have ht₁ : db₁.Truthful := by
      rcases survivorWallet_cases hsurvivor with ⟨rfl, -⟩ | ⟨-, -, -, rfl⟩
      · exact ht
      · exact ht.congr rfl rfl rfl
    obtain ⟨subscriptions, n, hsettle, -, -⟩ := mergeLocked_cases hlocked
    have hbooked : (db₁.booked env (mergeIdempotencyKey digest fromUser intoUser) merged
        survivor).Truthful :=
      bookMerge_truthful (folded_renames.truthful (stripped_truthful ht₁))
    have hsubs : Db.Truthful { db₁.booked env (mergeIdempotencyKey digest fromUser intoUser) merged
        survivor with subscriptions } := hbooked.congr rfl rfl rfl
    exact settleDebts_truthful hsubs hsettle

end StapelBilling
