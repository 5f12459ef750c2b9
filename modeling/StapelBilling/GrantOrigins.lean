import StapelBilling.ServiceRuns

/-! # Where the credits of a grant are

Credits that were granted to an account sit in the lot of the grant, in lots that carry
them back from a reservation, or in the allocations of a reservation that is still open.
A lot and an allocation never change where they come from; so whatever spends, reserves
and hands back, the grant stays known.
-/
namespace StapelBilling
open Store

variable {env : Env} {w : ℕ} {db db' : Db} {B : ℕ → Prop} {t : Time}

/-- Row `g` is a grant-source credit made to account `u`. -/
def Db.GrantTo (db : Db) (u : UserId) (g : ℕ) : Prop :=
  ∃ w wallet k lot, db.wallets.get? w = some wallet ∧ wallet.user = some u ∧
    db.lots.get? k = some lot ∧ lot.wallet = w ∧ lot.source = .grant ∧
    lot.grantingTransaction = some g

/-- Does the lot come from one of these grants? -/
def CreditLot.From (B : ℕ → Prop) (lot : CreditLot) : Prop := ∃ g ∈ lot.grantingTransaction, B g

/-- Lots of one grant are of one source, or carry credits back to it. -/
def Db.SourcesAgree (db : Db) : Prop :=
  ∀ j k a b g, db.lots.get? j = some a → db.lots.get? k = some b →
    a.grantingTransaction = some g → b.grantingTransaction = some g →
    a.source = .grant → b.source = .grant ∨ b.source = .holdRelease

/-- No allocation is negative. -/
def Db.AllocationsNonneg (db : Db) : Prop :=
  ∀ h held, db.holds.get? h = some held → ∀ a alloc, held.allocations.get? a = some alloc →
    0 ≤ alloc.credits

/-! ## One move -/

theorem CreditLot.Same.source {a b : CreditLot} (h : a.Same b) : b.source = a.source := by rw [h]

theorem CreditLot.Same.expiresAt {a b : CreditLot} (h : a.Same b) : b.expiresAt = a.expiresAt := by
  rw [h]

/-- **The lots a plain move adds** are a credit's, whose row is new, or carry credits
back. -/
theorem Step.lot_new {m : Move} (h : Step env w m db db') (hm : m.IsPlain) {k : ℕ}
    {lot : CreditLot} (hk : db'.lots.get? k = some lot) :
    (∃ old, db.lots.get? k = some old ∧ old.Same lot) ∨ lot.source = .holdRelease ∨
      k = db.lots.next ∧ lot.grantingTransaction = some db.transactions.next := by
  rcases h.grows.lots.origin k lot hk with hold | ⟨hnext, -⟩
  · exact Or.inl hold
  · refine Or.inr ?_
    have hinserted : ∀ {new : CreditLot}, (db.lots.insert new).get? k = some lot →
        k = db.lots.next ∧ lot = new := by
      intro new hget
      rw [Table.get?_insert] at hget
      split at hget
      · rename_i hk
        exact ⟨hk, (Option.some.inj hget).symm⟩
      · have hlt := Table.get?_lt_next hget
        omega
    have hold : ∀ {lots : Table CreditLot}, lots.next = db.lots.next → lots.get? k = some lot →
        lot.source = .holdRelease ∨
          k = db.lots.next ∧ lot.grantingTransaction = some db.transactions.next := by
      intro lots hlots hget
      have hlt := Table.get?_lt_next hget
      omega
    cases h with
    | grant _ _ =>
      obtain ⟨hknext, rfl⟩ := hinserted hk
      exact Or.inr ⟨hknext, rfl⟩
    | refund _ _ _ _ _ _ =>
      obtain ⟨-, rfl⟩ := hinserted hk
      exact Or.inl rfl
    | meter => exact hold rfl ((meterOnlyDebit_lots _ _ _ _) ▸ hk)
    | charge _ _ _ =>
      exact hold (Table.next_drain _ _ _) ((chargeDebit_lots _ _ _ _ _ _) ▸ hk)
    | arm _ _ _ _ =>
      exact hold (Table.next_drain _ _ _) ((armHold_lots _ _ _ _ _ _ _ _) ▸ hk)
    | clawback _ _ | restore _ => exact hm.elim
    | expire _ _ _ => exact hold (Table.next_modify _ _ _) hk
    | collect _ _ _ _ _ _ _ | overdraw _ _ _ _ => exact hold (Table.next_drain _ _ _) hk
    | _ => exact hold rfl hk

/-- **A plain move leaves the lots of a grant of one source.** -/
theorem Step.sourcesAgree {m : Move} (h : Step env w m db db') (hm : m.IsPlain) (hh : db.Home)
    (hs : db.SourcesAgree) : db'.SourcesAgree := by
  have hfresh : ∀ {j : ℕ} {a : CreditLot}, db.lots.get? j = some a →
      a.grantingTransaction ≠ some db.transactions.next := by
    intro j a hj hg
    obtain ⟨row, hrow, -⟩ := hh.grants j a hj _ hg
    rw [Table.get?_next] at hrow
    cases hrow
  intro j k a b g hj hk ha hb hsource
  rcases h.lot_new hm hk with ⟨b', hk', hsame⟩ | hback | ⟨hknext, hnew⟩
  · rcases h.lot_new hm hj with ⟨a', hj', hsame'⟩ | hback | ⟨-, hnew⟩
    · rw [hsame.source]
      rw [hsame'.source] at hsource
      rw [hsame'.grant] at ha
      rw [hsame.grant] at hb
      exact hs j k a' b' g hj' hk' ha hb hsource
    · rw [hsource] at hback
      cases hback
    · rw [hsame.grant] at hb
      exact absurd (hb.trans (ha.symm.trans hnew)) (hfresh hk')
  · exact Or.inr hback
  · rcases h.lot_new hm hj with ⟨a', hj', hsame'⟩ | hback | ⟨hjnext, -⟩
    · rw [hsame'.grant] at ha
      exact absurd (ha.trans (hb.symm.trans hnew)) (hfresh hj')
    · rw [hsource] at hback
      cases hback
    · -- Both are the lot of the one new row.
      rw [hjnext] at hj
      rw [hknext, hj] at hk
      obtain rfl := Option.some.inj hk
      exact Or.inl hsource

/-- **A move leaves no allocation negative**: what is drawn is positive, and no more is
handed back than an allocation holds. -/
theorem Step.allocationsNonneg {m : Move} (h : Step env w m db db') (hn : db.AllocationsNonneg) :
    db'.AllocationsNonneg := by
  have hdrawn : ∀ {taken : List (ℕ × ℤ)} {t : Table HoldAllocation},
      (∀ k n, (k, n) ∈ taken → 0 < n) → (∀ a alloc, t.get? a = some alloc → 0 ≤ alloc.credits) →
      ∀ a alloc, (appendAllocations env taken t).get? a = some alloc → 0 ≤ alloc.credits := by
    intro taken t htaken ht a alloc ha
    rcases appendAllocations_get? ha with hold | hmem
    · exact ht a alloc hold
    · exact (htaken _ _ hmem).le
  have hrewritten : ∀ {j : ℕ} {f : CreditHold → CreditHold},
      (∀ held, db.holds.get? j = some held → ∀ a alloc,
        (f held).allocations.get? a = some alloc → 0 ≤ alloc.credits) →
      ∀ k held, (db.holds.modify j f).get? k = some held → ∀ a alloc,
        held.allocations.get? a = some alloc → 0 ≤ alloc.credits := by
    intro j f hf k held hk a alloc ha
    rw [Table.get?_modify] at hk
    split at hk
    · rename_i hkj
      obtain ⟨old, hold, rfl⟩ := Option.map_eq_some_iff.mp hk
      rw [hkj] at hold
      exact hf old hold a alloc ha
    · exact hn k held hk a alloc ha
  have hfresh : ∀ {taken : List (ℕ × ℤ)}, db.Draws (Spendable w env.now) taken → ∀ a alloc,
      (appendAllocations env taken Table.empty).get? a = some alloc → 0 ≤ alloc.credits :=
    fun htaken => hdrawn (fun k n hmem => (htaken.lot k n hmem).1)
      fun _ _ ha => Table.get?_empty_ne ha
  by_cases harm : m.IsArm
  · cases h with
    | @arm _ args credits metadata existing taken hexisting hcredits htaken hdrawn' =>
      cases existing with
      | some j => exact hrewritten fun held _ => hfresh htaken
      | none =>
        intro k held hk
        have hk' : (db.holds.insert _).get? k = some held := hk
        rw [Table.get?_insert] at hk'
        split at hk'
        · obtain rfl := Option.some.inj hk'
          exact hfresh htaken
        · exact hn k held hk'
    | _ => exact harm.elim
  · by_cases hown : ∃ k, m.hold? = some k
    · cases h with
      | @refund _ h a held alloc amount hheld _ _ halloc _ hle =>
        refine hrewritten fun old hold b alloc' hb => ?_
        obtain rfl := Option.some.inj (hheld.symm.trans hold)
        rw [Table.get?_modify] at hb
        split at hb
        · rename_i hba
          rw [hba, halloc] at hb
          obtain rfl := Option.some.inj hb
          show 0 ≤ alloc.credits - amount
          omega
        · exact hn h held hheld b alloc' hb
      | @overdraw _ h held taken hheld _ _ htaken =>
        refine hrewritten fun old hold => ?_
        exact hdrawn (fun k n hmem => (htaken.lot k n hmem).1) (hn h old hold)
      | bill _ _ _ _ | waive _ _ _ _ | settle _ _ _ _ =>
        exact hrewritten fun old hold => hn _ old hold
      | _ =>
        obtain ⟨k, hk⟩ := hown
        cases hk
    · intro k held hk
      rw [h.holds_frame harm fun he => hown ⟨k, he⟩] at hk
      exact hn k held hk

/-- **What an open hold draws on**: a move leaves it an allocation it had, or one on a lot
that was there to be spent. -/
theorem Step.open_allocation {m : Move} (h : Step env w m db db') {k a : ℕ}
    {held' : CreditHold} {alloc' : HoldAllocation} (hk : db'.holds.get? k = some held')
    (hopen : held'.status = .held) (ha : held'.allocations.get? a = some alloc') :
    (∃ held alloc, db.holds.get? k = some held ∧ held.status = .held ∧
        held.allocations.get? a = some alloc ∧ alloc.lot = alloc'.lot ∧
        alloc'.credits ≤ alloc.credits) ∨
      ∃ lot, db.lots.get? alloc'.lot = some lot ∧ Spendable w env.now lot := by
  -- a move allocates only what it draws, and it draws spendable lots
  have hdrawn : ∀ {taken : List (ℕ × ℤ)}, db.Draws (Spendable w env.now) taken → ∀ n,
      (alloc'.lot, n) ∈ taken → ∃ lot, db.lots.get? alloc'.lot = some lot ∧
        Spendable w env.now lot := by
    intro taken htaken n hmem
    obtain ⟨-, lot, hlot, hspendable, -⟩ := htaken.lot _ n hmem
    exact ⟨lot, hlot, hspendable⟩
  -- arming replaces the allocations; any other move touches one hold at most
  by_cases harm : m.IsArm
  · cases h with
    | @arm _ args credits metadata existing taken _ _ htaken _ =>
      have hfresh : ∀ {held : CreditHold},
          held.allocations = appendAllocations env taken Table.empty → held' = held →
          ∃ lot, db.lots.get? alloc'.lot = some lot ∧ Spendable w env.now lot := by
        rintro held hheld rfl
        rw [hheld] at ha
        -- a new hold starts with none
        rcases appendAllocations_get? ha with hold | hmem
        · exact Table.get?_empty_ne hold
        · exact hdrawn htaken _ hmem
      have hkept : db.holds.get? k = some held' → ∃ held alloc, db.holds.get? k = some held ∧
          held.status = .held ∧ held.allocations.get? a = some alloc ∧ alloc.lot = alloc'.lot ∧
          alloc'.credits ≤ alloc.credits :=
        fun hget => ⟨held', alloc', hget, hopen, ha, rfl, le_rfl⟩
      cases existing with
      | some j =>
        have hk' : (db.holds.modify j _).get? k = some held' := hk
        rw [Table.get?_modify] at hk'
        split at hk'
        · obtain ⟨old, -, he⟩ := Option.map_eq_some_iff.mp hk'
          exact Or.inr (hfresh rfl he.symm)
        · exact Or.inl (hkept hk')
      | none =>
        have hk' : (db.holds.insert _).get? k = some held' := hk
        rw [Table.get?_insert] at hk'
        split at hk'
        · exact Or.inr (hfresh rfl (Option.some.inj hk').symm)
        · exact Or.inl (hkept hk')
    | _ => exact harm.elim
  · -- a hold that stays open was refunded or drew more; resolving one closes it
    by_cases hown : m.hold? = some k
    · cases h with
      | @refund _ j b held alloc amount hheld _ hstatus halloc hpos _ =>
        obtain rfl := Option.some.inj hown
        rw [refundAllocation_holds, Table.get?_modify_self, hheld] at hk
        obtain rfl := Option.some.inj hk
        rw [Table.get?_modify] at ha
        split at ha
        · rename_i hab
          rw [hab, halloc] at ha
          obtain rfl := Option.some.inj ha
          refine Or.inl ⟨held, alloc, hheld, hstatus, hab ▸ halloc, rfl, ?_⟩
          show alloc.credits - amount ≤ alloc.credits
          omega
        · exact Or.inl ⟨held, alloc', hheld, hstatus, ha, rfl, le_rfl⟩
      | @overdraw _ j held taken hheld _ hstatus htaken =>
        obtain rfl := Option.some.inj hown
        rw [allocateMore_holds, Table.get?_modify_self] at hk
        obtain ⟨old, hold, rfl⟩ := Option.map_eq_some_iff.mp hk
        obtain rfl := Option.some.inj (hheld.symm.trans hold)
        rcases appendAllocations_get? ha with hold | hmem
        · exact Or.inl ⟨held, alloc', hheld, hstatus, hold, rfl, le_rfl⟩
        · exact Or.inr (hdrawn htaken _ hmem)
      | bill _ _ _ _ | waive _ _ _ _ =>
        obtain rfl := Option.some.inj hown
        obtain ⟨old, -, rfl⟩ :=
          Option.map_eq_some_iff.mp ((Table.get?_modify_self _ _ _).symm.trans hk)
        cases hopen
      | settle _ _ _ hstatus =>
        obtain rfl := Option.some.inj hown
        obtain ⟨old, -, rfl⟩ :=
          Option.map_eq_some_iff.mp ((Table.get?_modify_self _ _ _).symm.trans hk)
        exact absurd hopen hstatus.2.ne_held
      | _ => cases hown
    · rw [h.holds_frame harm hown] at hk
      exact Or.inl ⟨held', alloc', hk, hopen, ha, rfl, le_rfl⟩

/-! ## What a release hands back -/

/-- What a lot hands on to the lots its credits come back as. -/
def CreditLot.terms (lot : CreditLot) : Option ℕ × Option Time :=
  (lot.grantingTransaction, lot.expiresAt)

theorem CreditLot.sweptAt_terms (lot : CreditLot) (w : ℕ) (now : Time) :
    (lot.sweptAt w now).terms = lot.terms := by
  unfold CreditLot.sweptAt
  split <;> rfl

theorem refundEach_lot_kept {h k : ℕ} {lot : CreditLot} (rows : List (ℕ × HoldAllocation))
    {n : ℤ} {db : Db} (hk : db.lots.get? k = some lot) :
    (refundEach env h w rows n db).lots.get? k = some lot := by
  induction rows generalizing n db with
  | nil => exact hk
  | cons r rows ih =>
    obtain ⟨a, alloc⟩ := r
    rw [refundEach]
    split
    · exact hk
    · dsimp only
      split
      · exact ih hk
      · exact ih (Table.get?_insert_of_some _ hk)

/-- **Each allocation comes back** as a lot with the terms of the lot it was drawn from,
when all of them are handed back. -/
theorem refundEach_returns {h a : ℕ} {alloc : HoldAllocation} {lot : CreditLot}
    {rows : List (ℕ × HoldAllocation)} {n : ℤ} {db : Db}
    (hnonneg : ∀ r ∈ rows, 0 ≤ r.2.credits) (hn : (rows.map fun r => r.2.credits).sum ≤ n)
    (hmem : (a, alloc) ∈ rows) (hpos : 0 < alloc.credits)
    (hlot : db.lots.get? alloc.lot = some lot) :
    ∃ k lot', (refundEach env h w rows n db).lots.get? k = some lot' ∧ lot'.wallet = w ∧
      lot'.terms = lot.terms ∧ 0 < lot'.creditsRemaining := by
  induction rows generalizing n db with
  | nil => cases hmem
  | cons r rows ih =>
    obtain ⟨b, first⟩ := r
    have hfirst : 0 ≤ first.credits := hnonneg _ List.mem_cons_self
    have hrest : ∀ r ∈ rows, 0 ≤ r.2.credits := fun r hr => hnonneg r (List.mem_cons_of_mem _ hr)
    have hsum : 0 ≤ (rows.map fun r => r.2.credits).sum := by
      refine List.sum_nonneg fun x hx => ?_
      obtain ⟨r, hr, rfl⟩ := List.mem_map.mp hx
      exact hrest r hr
    rw [List.map_cons, List.sum_cons] at hn
    dsimp only at hn
    by_cases hzero : first.credits = 0
    · -- An empty allocation is passed over.
      have htail : (a, alloc) ∈ rows := by
        rcases List.mem_cons.mp hmem with he | hmem
        · obtain ⟨-, rfl⟩ := Prod.mk.inj he
          omega
        · exact hmem
      rw [refundEach]
      split
      · rename_i hdone
        have hle := List.single_le_sum (fun x hx => by
          obtain ⟨r, hr, rfl⟩ := List.mem_map.mp hx
          exact hrest r hr) _ (List.mem_map.mpr ⟨(a, alloc), htail, rfl⟩)
        dsimp only at hle
        omega
      · rw [if_pos (by omega)]
        exact ih hrest (by omega) htail hlot
    · rw [refundEach, if_neg (by omega)]
      dsimp only
      rw [if_neg (by omega), min_eq_right (by omega)]
      rcases List.mem_cons.mp hmem with he | htail
      · obtain ⟨rfl, rfl⟩ := Prod.mk.inj he
        refine ⟨db.lots.next, _, refundEach_lot_kept rows (Table.get?_insert_next _ _), rfl, ?_, hpos⟩
        rw [hlot]
        rfl
      · exact ih hrest (by omega) htail (Table.get?_insert_of_some _ hlot)

/-- **A release of a hold brings its live credits back to life**: for every allocation that
holds anything off a lot that is alive, the hold's wallet has a live lot with its terms. -/
theorem releaseHeld_returns {held : CreditHold} {args : ReleaseArgs} {a : ℕ}
    {alloc : HoldAllocation} {lot : CreditLot}
    (hnonneg : ∀ b other, held.allocations.get? b = some other → 0 ≤ other.credits)
    (ha : held.allocations.get? a = some alloc) (hpos : 0 < alloc.credits)
    (hlot : db.lots.get? alloc.lot = some lot) (halive : aliveAt env.now lot.expiresAt) :
    ∃ k lot', (releaseHeld env w held args db).lots.get? k = some lot' ∧
      lot'.wallet = held.wallet ∧ lot'.terms = lot.terms ∧ 0 < lot'.creditsRemaining := by
  have hswept : (db.swept env w).lots.get? alloc.lot = some (lot.sweptAt w env.now) := by
    rw [swept_lot, hlot]
    rfl
  have hrows : ∀ r ∈ orderBy HoldAllocation.newest held.allocations.rows, 0 ≤ r.2.credits :=
    fun r hr => hnonneg r.1 r.2 (Table.get?_eq_some_iff.mpr (mem_orderBy.mp hr))
  have hmem : (a, alloc) ∈ orderBy HoldAllocation.newest held.allocations.rows :=
    mem_orderBy.mpr (Table.get?_eq_some_iff.mp ha)
  have htotal : ((orderBy HoldAllocation.newest held.allocations.rows).map
      fun r => r.2.credits).sum ≤ held.allocations.sum fun _ alloc => alloc.credits :=
    (orderBy_sum HoldAllocation.newest held.allocations.rows fun r => r.2.credits).le
  obtain ⟨k, lot', hget, hw, hterms, hleft⟩ := @refundEach_returns env held.wallet args.hold a
    alloc _ _ _ _ hrows htotal hmem hpos hswept
  have hexpires : lot'.expiresAt = lot.expiresAt :=
    congrArg Prod.snd (hterms.trans (lot.sweptAt_terms w env.now))
  -- Alive, it survives the sweep that ends the release.
  have hkept : lot'.sweptAt w env.now = lot' := by
    unfold CreditLot.sweptAt
    refine if_neg fun hdue => ?_
    rw [← hexpires] at halive
    exact not_aliveAt_iff.mpr hdue.2.2 halive
  refine ⟨k, lot', ?_, hw, hterms.trans (lot.sweptAt_terms w env.now), hleft⟩
  have hfinal : (releaseHeld env w held args db).lots.get? k =
      (Db.swept (refundAllocations env args.hold held
        (held.allocations.sum fun _ alloc => alloc.credits) (db.swept env w)) env w).lots.get? k := rfl
  rw [hfinal, swept_lot]
  exact (congrArg _ hget).trans (congrArg some hkept)

end StapelBilling
