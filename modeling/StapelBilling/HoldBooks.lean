import StapelBilling.Conservation
import StapelBilling.Marks

/-! # Charge rows and the holds they name

A captured hold is billed by one ledger row, which names the hold and takes off the
ledger what the hold's allocations draw.  No other row and no debt names a hold, as long
as no caller brings a `hold_id` of its own; and a hold that ended without a charge draws
nothing any more.
-/
namespace StapelBilling
open Store

variable {env : Env} {w : ℕ} {db db' : Db}

/-- Is this the row that bills hold `h`? -/
def Transaction.ChargesHold (h : ℕ) (row : Transaction) : Prop :=
  row.metadata .holdId = some (.ref .hold h)

instance (h : ℕ) (row : Transaction) : Decidable (row.ChargesHold h) := by
  unfold Transaction.ChargesHold; infer_instance

/-- **The charge rows are the captured holds', one each.** -/
structure Db.HoldBooks (db : Db) : Prop where
  debts : ∀ k debt h, db.debts.get? k = some debt → debt.metadata .holdId ≠ some (.ref .hold h)
  charged : ∀ h held, db.holds.get? h = some held → held.status = .captured →
    ∃ k row, db.transactions.get? k = some row ∧ row.ChargesHold h ∧ row.wallet = held.wallet ∧
      -row.creditsDelta = held.allocated
  named : ∀ k row h, db.transactions.get? k = some row → row.ChargesHold h →
    ∃ held, db.holds.get? h = some held ∧ held.status = .captured
  once : ∀ j k row row' h, db.transactions.get? j = some row → row.ChargesHold h →
    db.transactions.get? k = some row' → row'.ChargesHold h → j = k

/-- A hold that was given back draws nothing. -/
def Db.Returned (db : Db) : Prop :=
  ∀ h held, db.holds.get? h = some held → held.status.GivenBack → held.allocated = 0

/-! ## Holds under one move -/

/-- Does the move bill a hold? -/
def Move.IsCharge : Move → Prop
  | .bill _ _ | .waive _ _ => True
  | _ => False

/-- Rewriting one hold that neither was nor becomes captured keeps the captured ones. -/
theorem captured_modify {t : Table CreditHold} {h k : ℕ} {held a : CreditHold}
    {f : CreditHold → CreditHold} (hheld : t.get? h = some held) (hold : held.status ≠ .captured)
    (hnew : (f held).status ≠ .captured) :
    (t.modify h f).get? k = some a ∧ a.status = .captured ↔
      t.get? k = some a ∧ a.status = .captured := by
  by_cases hk : k = h
  · subst hk
    rw [Table.get?_modify_self, hheld]
    constructor
    · rintro ⟨he, hstatus⟩
      obtain rfl := Option.some.inj he
      exact absurd hstatus hnew
    · rintro ⟨he, hstatus⟩
      obtain rfl := Option.some.inj he
      exact absurd hstatus hold
  · rw [Table.get?_modify_of_ne _ _ hk]

/-- **Only a charge makes a hold captured**, and no move rewrites a captured one. -/
theorem Step.captured_iff {m : Move} (h : Step env w m db db') (hm : ¬ m.IsCharge) {k : ℕ}
    {a : CreditHold} : db'.holds.get? k = some a ∧ a.status = .captured ↔
      db.holds.get? k = some a ∧ a.status = .captured := by
  by_cases harm : m.IsArm
  · cases h with
    | @arm _ _ _ _ existing _ hexisting _ _ _ =>
      cases existing with
      | some j =>
        obtain ⟨held, hget, -, hback⟩ := hexisting j rfl
        exact captured_modify hget hback.ne_captured (fun he => by cases he)
      | none =>
        show (db.holds.insert _).get? k = some a ∧ _ ↔ _
        by_cases hk : k = db.holds.next
        · rw [hk, Table.get?_insert_next, Table.get?_next]
          constructor
          · rintro ⟨he, hstatus⟩
            obtain rfl := Option.some.inj he
            cases hstatus
          · rintro ⟨he, -⟩
            cases he
        · rw [Table.get?_insert_of_ne _ hk]
    | _ => exact harm.elim
  · by_cases hk : m.hold? = some k
    · have hopen : ∀ {held : CreditHold}, held.status = .held → held.status ≠ .captured := by
        intro held hstatus
        rw [hstatus]
        decide
      cases h with
      | refund hheld _ hstatus _ _ _ => exact captured_modify hheld (hopen hstatus) (hopen hstatus)
      | overdraw hheld _ hstatus _ => exact captured_modify hheld (hopen hstatus) (hopen hstatus)
      | settle hheld _ _ hstatus =>
        exact captured_modify hheld (hopen hstatus.1) hstatus.2.ne_captured
      | bill _ _ _ _ | waive _ _ _ _ => exact absurd trivial hm
      | _ => cases hk
    · rw [h.holds_frame harm hk]

/-- **What a move resolves without a charge draws nothing**, if it was backed. -/
theorem Step.returned {m : Move} (h : Step env w m db db') (hm : m.IsBacked)
    (hI : db.Returned) : db'.Returned := by
  intro k a hk hback
  by_cases harm : m.IsArm
  · cases h with
    | @arm _ _ _ _ existing _ _ _ _ _ =>
      cases existing with
      | some j =>
        have hk' : (db.holds.modify j _).get? k = some a := hk
        rw [Table.get?_modify] at hk'
        split at hk'
        · obtain ⟨old, -, rfl⟩ := Option.map_eq_some_iff.mp hk'
          exact absurd rfl hback.ne_held
        · exact hI k a hk' hback
      | none =>
        have hk' : (db.holds.insert _).get? k = some a := hk
        rw [Table.get?_insert] at hk'
        split at hk'
        · obtain rfl := Option.some.inj hk'
          exact absurd rfl hback.ne_held
        · exact hI k a hk' hback
    | _ => exact harm.elim
  · by_cases hown : m.hold? = some k
    · cases h with
      | refund hheld _ hstatus _ _ _ | overdraw hheld _ hstatus _ =>
        obtain rfl := Option.some.inj hown
        obtain ⟨old, hold, rfl⟩ :=
          Option.map_eq_some_iff.mp ((Table.get?_modify_self _ _ _).symm.trans hk)
        obtain rfl := Option.some.inj (hheld.symm.trans hold)
        exact absurd hstatus hback.ne_held
      | bill _ _ _ _ | waive _ _ _ _ =>
        obtain rfl := Option.some.inj hown
        obtain ⟨old, -, rfl⟩ :=
          Option.map_eq_some_iff.mp ((Table.get?_modify_self _ _ _).symm.trans hk)
        exact absurd rfl hback.ne_captured
      | settle hheld _ hnone _ =>
        obtain rfl := Option.some.inj hown
        obtain ⟨old, hold, rfl⟩ :=
          Option.map_eq_some_iff.mp ((Table.get?_modify_self _ _ _).symm.trans hk)
        obtain rfl := Option.some.inj (hheld.symm.trans hold)
        exact hnone hm
      | _ => cases hown
    · rw [h.holds_frame harm hown] at hk
      exact hI k a hk hback

/-! ## The books under one move -/

/-- A row that names no hold, added to books in order. -/
theorem Db.HoldBooks.congr (hb : db.HoldBooks)
    (hcaptured : ∀ k a, db'.holds.get? k = some a ∧ a.status = .captured ↔
      db.holds.get? k = some a ∧ a.status = .captured)
    (hkept : ∀ k row, db.transactions.get? k = some row → db'.transactions.get? k = some row)
    (hold : ∀ k row h, db'.transactions.get? k = some row → row.ChargesHold h →
      db.transactions.get? k = some row)
    (hdebts : ∀ k debt h, db'.debts.get? k = some debt →
      debt.metadata .holdId ≠ some (.ref .hold h)) : db'.HoldBooks where
  debts := hdebts
  charged := by
    intro h held hk hstatus
    obtain ⟨hk', -⟩ := (hcaptured h held).mp ⟨hk, hstatus⟩
    obtain ⟨k, row, hrow, hcharge⟩ := hb.charged h held hk' hstatus
    exact ⟨k, row, hkept k row hrow, hcharge⟩
  named := by
    intro k row h hk hcharge
    obtain ⟨held, hheld⟩ := hb.named k row h (hold k row h hk hcharge) hcharge
    exact ⟨held, (hcaptured h held).mpr hheld⟩
  once := by
    intro j k row row' h hj hcharge hk hcharge'
    exact hb.once j k row row' h (hold j row h hj hcharge) hcharge (hold k row' h hk hcharge')
      hcharge'

/-- **An ordinary move keeps the books.** -/
theorem Step.holdBooks_quiet {m : Move} (h : Step env w m db db')
    (hm : ∀ k, m.Quiet .holdId (.ref .hold k)) (hb : db.HoldBooks) : db'.HoldBooks := by
  have hcharge : ¬ m.IsCharge := by
    intro hc
    cases m <;> first | exact hc.elim | exact (hm 0).elim
  have hkey : ¬ MetaKey.IsBookkeeping .holdId := by decide
  have hposts := fun k => h.posts hkey (hm k)
  refine hb.congr (fun k a => h.captured_iff hcharge) (fun k row hk => ?_)
    (fun k row j hk hrow => ?_) (fun k debt j hk hmark => ?_)
  · exact h.row_kept ((hm 0).row? k) hk
  · rcases hposts j with hp | ⟨i, debt, amount, hp⟩
    · exact hp.row_old hk hrow
    · rcases hp.row_old hk with hold | ⟨-, -, taken, hmeta⟩
      · exact hold
      · -- A settlement row copies its debt's marks, and no debt names a hold.
        have hcopied : debt.metadata .holdId = some (.ref .hold j) := by
          rw [← settlementMetadata_mark hkey i debt taken, ← hmeta]
          exact hrow
        exact absurd hcopied (hb.debts i debt j hp.current)
  · rcases hposts j with hp | ⟨i, debt', amount, hp⟩
    · exact hb.debts k debt j (hp.debt_old hk hmark) hmark
    · by_cases hki : k = i
      · obtain ⟨s, hself⟩ := hp.debt_self
        rw [hki, hself] at hk
        obtain rfl := Option.some.inj hk
        exact hb.debts i debt' j hp.current hmark
      · rw [hp.debt_other hki] at hk
        exact hb.debts k debt j hk hmark

/-- **Billing an open hold** with a row that takes off what it draws keeps the books. -/
theorem Db.HoldBooks.charge (hb : db.HoldBooks) {h : ℕ} {held : CreditHold} {row : Transaction}
    {f : CreditHold → CreditHold} (hheld : db.holds.get? h = some held)
    (hstatus : held.status = .held) (hrow : row.ChargesHold h) (hw : row.wallet = held.wallet)
    (hcharge : -row.creditsDelta = held.allocated)
    (hf : f held = { held with status := .captured, resolvedAt := (f held).resolvedAt })
    (hrows : db'.transactions = db.transactions.insert row) (hdebts : db'.debts = db.debts)
    (hholds : db'.holds = db.holds.modify h f) : db'.HoldBooks := by
  -- No row names the hold yet.
  have hfresh : ∀ k row', db.transactions.get? k = some row' → ¬ row'.ChargesHold h := by
    intro k row' hk hnames
    obtain ⟨held', hheld', hcaptured⟩ := hb.named k row' h hk hnames
    obtain rfl := Option.some.inj (hheld.symm.trans hheld')
    rw [hstatus] at hcaptured
    cases hcaptured
  have hself : db'.holds.get? h = some (f held) := by
    rw [hholds, Table.get?_modify_self, hheld]
    rfl
  have hother : ∀ k, k ≠ h → db'.holds.get? k = db.holds.get? k := by
    intro k hk
    rw [hholds, Table.get?_modify_of_ne _ _ hk]
  have hlookup : ∀ k row', db'.transactions.get? k = some row' →
      k = db.transactions.next ∧ row' = row ∨ db.transactions.get? k = some row' := by
    intro k row' hk
    rw [hrows, Table.get?_insert] at hk
    split at hk
    · rename_i hnext
      exact Or.inl ⟨hnext, (Option.some.inj hk).symm⟩
    · exact Or.inr hk
  refine ⟨?_, ?_, ?_, ?_⟩
  · rw [hdebts]
    exact hb.debts
  · intro k a hk hcaptured
    by_cases hkh : k = h
    · rw [hkh] at hk ⊢
      obtain rfl := Option.some.inj (hself.symm.trans hk)
      refine ⟨db.transactions.next, row, ?_, hrow, ?_, ?_⟩
      · rw [hrows]
        exact Table.get?_insert_next _ _
      · rw [hf]
        exact hw
      · rw [hf]
        exact hcharge
    · rw [hother k hkh] at hk
      obtain ⟨i, row', hi, hrest⟩ := hb.charged k a hk hcaptured
      refine ⟨i, row', ?_, hrest⟩
      rw [hrows]
      exact Table.get?_insert_of_some _ hi
  · intro k row' j hk hnames
    rcases hlookup k row' hk with ⟨-, rfl⟩ | hold
    · have hj : j = h := by
        have he := hnames.symm.trans hrow
        cases he
        rfl
      rw [hj]
      exact ⟨f held, hself, by rw [hf]⟩
    · obtain ⟨a, ha, hcaptured⟩ := hb.named k row' j hold hnames
      have hjh : j ≠ h := by
        rintro rfl
        exact hfresh k row' hold hnames
      exact ⟨a, by rw [hother j hjh]; exact ha, hcaptured⟩
  · intro i j row₁ row₂ k hi hnames₁ hj hnames₂
    rcases hlookup i row₁ hi with ⟨hi', rfl⟩ | hold₁
    · rcases hlookup j row₂ hj with ⟨hj', -⟩ | hold₂
      · rw [hi', hj']
      · have hk : k = h := by
          have he := hnames₁.symm.trans hrow
          cases he
          rfl
        rw [hk] at hnames₂
        exact absurd hnames₂ (hfresh j row₂ hold₂)
    · rcases hlookup j row₂ hj with ⟨-, rfl⟩ | hold₂
      · have hk : k = h := by
          have he := hnames₂.symm.trans hrow
          cases he
          rfl
        rw [hk] at hnames₁
        exact absurd hnames₁ (hfresh i row₁ hold₁)
      · exact hb.once i j row₁ row₂ k hold₁ hnames₁ hold₂ hnames₂

/-- **A move on backed holds keeps the books**, when it takes nothing back and its caller
brings no `hold_id`. -/
theorem Step.holdBooks {m : Move} (h : Step env w m db db') (hbacked : m.IsBacked)
    (hm : m.IsCharge ∨ ∀ k, m.Quiet .holdId (.ref .hold k)) (hb : db.HoldBooks) :
    db'.HoldBooks := by
  have hnames : ∀ (m : Metadata) (k : ℕ) (v : Json),
      ((m.set .holdId (.ref .hold k)).set .lots v) .holdId = some (.ref .hold k) := by
    intro m k v
    rw [Metadata.set_of_ne _ _ (by decide), Metadata.set_same]
  rcases hm with hm | hm
  · cases h with
    | @bill _ args held current actual hheld hw hstatus hactual =>
      refine hb.charge hheld hstatus ?_ hw.symm ?_ rfl rfl rfl (billHold_holds env w db held actual args)
      · dsimp only [Transaction.ChargesHold]
        exact hnames _ _ _
      · rw [hactual hbacked]
        exact neg_neg actual
    | @waive _ args held actual hheld hw hstatus hwaived =>
      refine hb.charge hheld hstatus ?_ hw.symm ?_ rfl rfl rfl
        (meterOnlyCapture_holds env w db held actual args)
      · dsimp only [Transaction.ChargesHold]
        rw [markWaived_mark (by decide)]
        exact hnames _ _ _
      · rw [hbacked.total, hbacked.waived hwaived]
        exact neg_zero
    | _ => exact hm.elim
  · exact h.holdBooks_quiet hm hb

end StapelBilling
