import StapelBilling.RetryKeys

/-! # Keys answer once

The first successful credit or debit under a key posts its row; every later one under the
key finds it, changes nothing, and rebuilds its answer from the row and from the debt that
names it.  Neither changes afterwards in anything the answer is made of, so a repeated
partial debit is told what the first one was told.
-/
namespace StapelBilling
open Store

variable {env : Env} {w : ℕ} {db db' : Db}

/-! ## The lookup -/

/-- A wallet has at most one row under a key. -/
def Db.KeysUnique (db : Db) : Prop :=
  ∀ w key s t a b, key ≠ "" → db.KeyedRow w key s a → db.KeyedRow w key t b → s = t

/-- The row that answers a key has it, in its column or in its metadata. -/
theorem existingCall_some {key : String} {t : ℕ} {row : Transaction} (hd : db.Mirrored)
    (h : existingCall env w key db = some (t, row)) : key ≠ "" ∧ db.KeyedRow w key t row := by
  unfold existingCall at h
  split at h
  · cases h
  rename_i hkey
  refine ⟨hkey, ?_⟩
  unfold transactionByIdempotencyKey at h
  dsimp only at h
  split at h
  · rename_i r hhead
    obtain rfl := Option.some.inj h
    obtain ⟨hget, hw, hk⟩ := Table.mem_select.mp (mem_orderBy.mp (List.mem_of_mem_head? hhead))
    exact ⟨hget, hw, hk⟩
  · split at h
    · obtain ⟨hget, hw, hk⟩ := Table.mem_select.mp (mem_orderBy.mp (List.mem_of_mem_head? h))
      exact ⟨hget, hw, hd t row hget key hk⟩
    · cases h

/-- Where nothing answers a key, no row has it. -/
theorem existingCall_none {key : String} (hkey : key ≠ "") (h : existingCall env w key db = none)
    (t : ℕ) (row : Transaction) : ¬ db.KeyedRow w key t row := by
  rintro ⟨hget, hw, hk⟩
  unfold existingCall at h
  rw [if_neg hkey] at h
  unfold transactionByIdempotencyKey at h
  dsimp only at h
  split at h
  · cases h
  · rename_i hhead
    have hmem : (t, row) ∈ db.transactions.select fun row =>
        row.wallet = w ∧ row.idempotencyKey = key := Table.mem_select.mpr ⟨hget, hw, hk⟩
    rw [orderBy_eq_nil_iff.mp (List.head?_eq_none_iff.mp hhead)] at hmem
    cases hmem

/-- **The one row under a key answers it.** -/
theorem existingCall_keyed {key : String} {t : ℕ} {row : Transaction} (hu : db.KeysUnique)
    (hkey : key ≠ "") (h : db.KeyedRow w key t row) :
    existingCall env w key db = some (t, row) := by
  unfold existingCall
  rw [if_neg hkey]
  unfold transactionByIdempotencyKey
  dsimp only
  rw [Table.select_eq_singleton h.posted ⟨h.wallet, h.key⟩]
  · rfl
  · exact fun s a hs ha => hu w key s t a row hkey ⟨hs, ha.1, ha.2⟩ h

/-! ## Posting under a key -/

/-- The rows under keys are the same. -/
def Db.SameKeys (db db' : Db) : Prop :=
  ∀ t row, row.idempotencyKey ≠ "" →
    (db'.transactions.get? t = some row ↔ db.transactions.get? t = some row)

theorem Db.SameKeys.trans {d : Db} (h : db.SameKeys d) (h' : d.SameKeys db') :
    db.SameKeys db' :=
  fun t row hrow => (h' t row hrow).trans (h t row hrow)

theorem Db.SameKeys.keyed (h : db.SameKeys db') {key : String} (hkey : key ≠ "") {t : ℕ}
    {row : Transaction} : db'.KeyedRow w key t row ↔ db.KeyedRow w key t row := by
  constructor
  · rintro ⟨hget, hw, rfl⟩
    exact ⟨(h t row hkey).mp hget, hw, rfl⟩
  · rintro ⟨hget, hw, rfl⟩
    exact ⟨(h t row hkey).mpr hget, hw, rfl⟩

theorem Db.SameKeys.unique (h : db.SameKeys db') (hu : db.KeysUnique) : db'.KeysUnique :=
  fun v key s t a b hkey ha hb =>
    hu v key s t a b hkey ((h.keyed hkey).mp ha) ((h.keyed hkey).mp hb)

/-- A move without a key posts none. -/
theorem Step.sameKeys {m : Move} (h : Step env w m db db') (hm : m.Unkeyed)
    (hkey : m.retryKey = "") : db.SameKeys db' := by
  intro t row hrow
  rcases h.row_posted hm with ⟨hsame, -⟩ | ⟨new, hrows, -, hnew, -⟩
  · rw [hsame]
  · rw [hrows, Table.get?_insert]
    split
    · rename_i hnext
      rw [hnext, Table.get?_next]
      constructor
      · intro he
        obtain rfl := Option.some.inj he
        exact absurd (hnew.trans hkey) hrow
      · intro he
        cases he
    · exact Iff.rfl

theorem Moves.sameKeys {P : Move → Prop} (hP : ∀ m, P m → m.Unkeyed ∧ m.retryKey = "")
    (h : Moves env w P db db') : db.SameKeys db' := by
  refine Moves.invariant (I := fun d => db.SameKeys d) ?_ h fun _ _ _ => Iff.rfl
  exact fun m _ _ hm hI hs => hI.trans (hs.sameKeys (hP m hm).1 (hP m hm).2)

variable (env w db) in
theorem swept_sameKeys : db.SameKeys (db.swept env w) := by
  refine Moves.sameKeys (fun m hm => ?_)
    (expireDueLots_moves env w (P := Move.IsSweep) trivial (fun _ => trivial) db)
  cases m <;> first | exact hm.elim | exact ⟨trivial, rfl⟩

/-- **What a call under a key does to the ledger**: it finds the row of the key, or posts
it where there was none. -/
inductive Db.Posts (env : Env) (w : ℕ) (key : String) (db db' : Db) : Prop
  | replayed (t : ℕ) (row : Transaction) (existing : existingCall env w key db = some (t, row))
      (same : db' = db)
  | posted (before after : Db) (row : Transaction) (none : existingCall env w key db = none)
      (swept : db.SameKeys before) (rows : after.transactions = before.transactions.insert row)
      (wallet : row.wallet = w) (keyed : row.idempotencyKey = key) (settled : after.SameKeys db')

/-- The rows under a key before a call are there after it. -/
theorem Db.Posts.kept {key k : String} (h : Db.Posts env w key db db') (hk : k ≠ "") {v t : ℕ}
    {row : Transaction} (hrow : db.KeyedRow v k t row) : db'.KeyedRow v k t row := by
  cases h with
  | replayed _ _ _ same =>
    rw [same]
    exact hrow
  | posted before after new _ swept rows _ _ settled =>
    rw [settled.keyed hk]
    obtain ⟨hget, hw, hkey⟩ := (swept.keyed hk).mpr hrow
    refine ⟨?_, hw, hkey⟩
    rw [rows]
    exact Table.get?_insert_of_some _ hget

/-- **A call leaves at most one row under a key.** -/
theorem Db.Posts.unique {key : String} (h : Db.Posts env w key db db') (hu : db.KeysUnique) :
    db'.KeysUnique := by
  cases h with
  | replayed _ _ _ same =>
    rw [same]
    exact hu
  | posted before after new none swept rows wallet keyed settled =>
    refine settled.unique fun v k s t a b hk ha hb => ?_
    have hsplit : ∀ {i : ℕ} {c : Transaction}, after.KeyedRow v k i c →
        before.KeyedRow v k i c ∨ i = before.transactions.next ∧ v = w ∧ k = key := by
      rintro i c ⟨hget, hw, hck⟩
      rw [rows, Table.get?_insert] at hget
      split at hget
      · rename_i hnext
        obtain rfl := Option.some.inj hget
        exact Or.inr ⟨hnext, hw.symm.trans wallet, hck.symm.trans keyed⟩
      · exact Or.inl ⟨hget, hw, hck⟩
    rcases hsplit ha with hold | ⟨hs, rfl, rfl⟩
    · rcases hsplit hb with hold' | ⟨-, rfl, rfl⟩
      · exact swept.unique hu v k s t a b hk hold hold'
      · exact absurd ((swept.keyed hk).mp hold) (existingCall_none hk none s a)
    · rcases hsplit hb with hold' | ⟨ht, -, -⟩
      · exact absurd ((swept.keyed hk).mp hold') (existingCall_none hk none t b)
      · rw [hs, ht]

/-- **A call under a key leaves a row under it.** -/
theorem Db.Posts.keyedRow {key : String} (h : Db.Posts env w key db db') (hd : db.Mirrored)
    (hkey : key ≠ "") : ∃ t row, db'.KeyedRow w key t row := by
  cases h with
  | replayed t row existing same =>
    rw [same]
    exact ⟨t, row, (existingCall_some hd existing).2⟩
  | posted before after new none swept rows wallet keyed settled =>
    refine ⟨before.transactions.next, new, (settled.keyed hkey).mpr ⟨?_, wallet, keyed⟩⟩
    rw [rows]
    exact Table.get?_insert_next _ _

/-- Does metadata bring none of the keys that an answer is rebuilt from? -/
def Metadata.LeavesRetries (m : Metadata) : Prop :=
  m .idempotencyKey = none ∧ m .internalMeterOnly = none ∧ m .requestedCredits = none

/-! ## What a debit is told -/

theorem keyedMetadata_of_ne {key : MetaKey} (hkey : key ≠ .idempotencyKey) (m : Metadata)
    (k : String) : keyedMetadata m k key = m key := by
  unfold keyedMetadata
  split
  · rfl
  · exact Metadata.set_of_ne _ _ hkey

/-- No debt names a row that has not been posted. -/
theorem Db.Filed.no_debt (hf : db.Filed) (j : ℕ) : ¬ db.DebtNames db.transactions.next j := by
  rintro ⟨debt, hj, hnames⟩
  exact lt_irrefl _ (hf.debts j debt _ hj hnames).1

/-- The debt a replayed debit is told of. -/
def Db.debtOf (db : Db) (t : ℕ) : Option ℕ :=
  (orderBy CreditDebt.age (db.debts.select fun debt => debt.transaction = some t)).head?.map
    Prod.fst

theorem debtOf_none {t : ℕ} (h : ∀ j, ¬ db.DebtNames t j) : db.debtOf t = none := by
  unfold Db.debtOf
  rw [Table.select_eq_nil fun j debt hj hnames => h j ⟨debt, hj, hnames⟩]
  rfl

theorem debtOf_some {t j : ℕ} (h : db.DebtNames t j) (hu : ∀ i, db.DebtNames t i → i = j) :
    db.debtOf t = some j := by
  obtain ⟨debt, hj, hnames⟩ := h
  unfold Db.debtOf
  rw [Table.select_eq_singleton hj hnames fun i other hi hother => hu i ⟨other, hi, hother⟩]
  rfl

/-- **Databases in which the same debts name a row tell of the same debt.** -/
theorem debtOf_congr {t : ℕ} (hf : db.Filed) (h : ∀ j, db'.DebtNames t j ↔ db.DebtNames t j) :
    db'.debtOf t = db.debtOf t := by
  by_cases hany : ∃ j, db.DebtNames t j
  · obtain ⟨j, hj⟩ := hany
    have hu : ∀ i, db.DebtNames t i → i = j := by
      rintro i ⟨other, hi, hother⟩
      obtain ⟨debt, hdebt, hnames⟩ := hj
      exact (hf.debts j debt t hdebt hnames).2 i other hi hother
    rw [debtOf_some hj hu, debtOf_some ((h j).mpr hj) fun i hi => hu i ((h i).mp hi)]
  · have hnone : ∀ j, ¬ db.DebtNames t j := fun j hj => hany ⟨j, hj⟩
    rw [debtOf_none hnone, debtOf_none fun j hj => hnone j ((h j).mp hj)]

/-- What the replay of a waived row says. -/
theorem replayDebit_waived {t : ℕ} {row : Transaction} {n : ℤ} {requested : ℤ}
    (hwaived : row.metadata.wasWaived = true)
    (hcredits : row.metadata .waivedCredits = some (.int n)) :
    replayDebit t row requested db =
      { transaction := t
        requested := n
        debited := 0
        shortfall := 0
        balance := row.balanceAfter } := by
  unfold replayDebit
  dsimp only
  rw [if_pos hwaived, hcredits]

/-- What the replay of a charged row says. -/
theorem replayDebit_charged {t : ℕ} {row : Transaction} {n chargeable : ℤ} {debt : Option ℕ}
    (hwaived : row.metadata.wasWaived = false)
    (hrequested : row.metadata .requestedCredits = none ∨
      row.metadata .requestedCredits = some (.int n))
    (hdelta : row.creditsDelta = -chargeable) (hle : chargeable ≤ n) (hdebt : db.debtOf t = debt) :
    replayDebit t row n db =
      { transaction := t
        requested := n
        debited := chargeable
        shortfall := n - chargeable
        balance := row.balanceAfter
        debt } := by
  have hshort : max (n - chargeable) 0 = n - chargeable := by omega
  unfold Db.debtOf at hdebt
  unfold replayDebit
  dsimp only
  rw [if_neg (by simp [hwaived]), hdelta, neg_neg, hdebt]
  rcases hrequested with hr | hr
  · simp only [hr, hshort]
  · simp only [hr, hshort]

/-- What a replay says depends on the row and on the debt that names it. -/
theorem replayDebit_congr {t : ℕ} (row : Transaction) (n : ℤ) (h : db'.debtOf t = db.debtOf t) :
    replayDebit t row n db' = replayDebit t row n db := by
  unfold Db.debtOf at h
  unfold replayDebit
  dsimp only
  rw [h]

variable (env w db) in
/-- **A waived debit's row rebuilds its answer.** -/
theorem meterOnlyDebit_posts (args : DebitArgs) :
    ∃ row, (meterOnlyDebit env w args db).2.transactions = db.transactions.insert row ∧
      row.wallet = w ∧ row.idempotencyKey = args.idempotencyKey ∧
      (args.allowPartial = true → ∀ d, (meterOnlyDebit env w args db).1 =
        .result (replayDebit db.transactions.next row args.credits d)) := by
  have hmark : ∀ {key : MetaKey}, key ≠ .lots → key ≠ .idempotencyKey →
      (keyedMetadata (args.metadata.mark args.credits) args.idempotencyKey).set .lots (.lots [])
        key = args.metadata.mark args.credits key := by
    intro key hlots hkey
    rw [Metadata.set_of_ne _ _ hlots, keyedMetadata_of_ne hkey]
  unfold meterOnlyDebit
  dsimp only
  split
  · refine ⟨_, rfl, rfl, rfl, fun _ d => congrArg DebitAnswer.result (Eq.symm ?_)⟩
    apply replayDebit_waived
    · unfold Metadata.wasWaived Metadata.truthy
      dsimp only
      rw [show _ = args.metadata.mark args.credits .internalMeterOnly from
        hmark (by decide) (by decide)]
      rfl
    · exact (hmark (by decide) (by decide)).trans (Metadata.set_same _ _ _)
  · rename_i hnot
    exact ⟨_, rfl, rfl, rfl, fun hpart => absurd hpart hnot⟩

theorem debitMetadata_wasWaived (args : DebitArgs) (taken : List (ℕ × ℤ)) (shortfall : ℤ) :
    (debitMetadata args taken shortfall).wasWaived = args.metadata.wasWaived := by
  have hkeyed : (keyedMetadata args.metadata args.idempotencyKey).set .lots (.lots taken)
      .internalMeterOnly = args.metadata .internalMeterOnly := by
    rw [Metadata.set_of_ne _ _ (by decide), keyedMetadata_of_ne (by decide)]
  have hsame : debitMetadata args taken shortfall .internalMeterOnly =
      args.metadata .internalMeterOnly := by
    simp only [debitMetadata]
    split
    · exact hkeyed
    · rw [Metadata.set_of_ne _ _ (by decide), Metadata.set_of_ne _ _ (by decide),
        Metadata.set_of_ne _ _ (by decide), hkeyed]
  unfold Metadata.wasWaived Metadata.truthy
  rw [hsame]

theorem debitMetadata_requested (args : DebitArgs) (taken : List (ℕ × ℤ)) (shortfall : ℤ) :
    debitMetadata args taken shortfall .requestedCredits =
      if shortfall = 0 then args.metadata .requestedCredits else some (.int args.credits) := by
  simp only [debitMetadata]
  split
  · rw [Metadata.set_of_ne _ _ (by decide), keyedMetadata_of_ne (by decide)]
  · rw [Metadata.set_of_ne _ _ (by decide), Metadata.set_same]

variable (env w db) in
/-- **A charge's row rebuilds its answer**, the debt for what was not covered included. -/
theorem chargeDebit_posts (taken : List (ℕ × ℤ)) {args : DebitArgs} {chargeable : ℤ}
    (hm : args.metadata.LeavesRetries) (hle : chargeable ≤ args.credits)
    (hnone : ∀ j, ¬ db.DebtNames db.transactions.next j) :
    ∃ row, (chargeDebit env w args chargeable taken db).2.transactions =
        db.transactions.insert row ∧ row.wallet = w ∧ row.idempotencyKey = args.idempotencyKey ∧
      (args.allowPartial = true → (chargeDebit env w args chargeable taken db).1 =
        .result (replayDebit db.transactions.next row args.credits
          (chargeDebit env w args chargeable taken db).2)) := by
  obtain ⟨-, hmeter, hrequested⟩ := hm
  have hwaived : (debitMetadata args taken (args.credits - chargeable)).wasWaived = false := by
    rw [debitMetadata_wasWaived]
    simp [Metadata.wasWaived, Metadata.truthy, hmeter, Json.truthy]
  by_cases hshort : args.credits - chargeable = 0
  · -- Everything was covered: the row says nothing of what was asked, and no debt names it.
    have hasked : debitMetadata args taken (args.credits - chargeable) .requestedCredits = none := by
      rw [debitMetadata_requested, if_pos hshort, hrequested]
    unfold chargeDebit
    simp only [if_pos hshort]
    split
    · refine ⟨_, rfl, rfl, rfl, fun _ => congrArg DebitAnswer.result (Eq.symm ?_)⟩
      exact replayDebit_charged hwaived (Or.inl hasked) rfl hle (debtOf_none hnone)
    · rename_i hnot
      exact ⟨_, rfl, rfl, rfl, fun hpart => absurd hpart hnot⟩
  · have hasked : debitMetadata args taken (args.credits - chargeable) .requestedCredits =
        some (.int args.credits) := by
      rw [debitMetadata_requested, if_neg hshort]
    have hmarked : ∀ j : Json, ((debitMetadata args taken (args.credits - chargeable)).set .debtId
          j).wasWaived = false ∧
        (debitMetadata args taken (args.credits - chargeable)).set .debtId j .requestedCredits =
          some (.int args.credits) := by
      intro j
      refine ⟨?_, (Metadata.set_of_ne _ _ (by decide)).trans hasked⟩
      unfold Metadata.wasWaived Metadata.truthy
      rw [Metadata.set_of_ne _ _ (by decide)]
      exact hwaived
    unfold chargeDebit
    simp only [if_neg hshort]
    split
    · refine ⟨_, rfl, rfl, rfl, fun _ => congrArg DebitAnswer.result (Eq.symm ?_)⟩
      refine replayDebit_charged (hmarked _).1 (Or.inr ?_) rfl hle ?_
      · dsimp only
        exact (hmarked _).2
      refine debtOf_some ⟨_, Table.get?_insert_next _ _, rfl⟩ fun i hi => ?_
      obtain ⟨debt, hget, hnames⟩ := hi
      by_contra hne
      exact hnone i ⟨debt, (Table.get?_insert_of_ne _ hne).symm.trans hget, hnames⟩
    · rename_i hnot
      exact ⟨_, rfl, rfl, rfl, fun hpart => absurd hpart hnot⟩

/-- A credit posts one row under its key, or finds it. -/
theorem credit_posts {args : CreditArgs} {t : ℕ} (h : credit env args db = .ok (t, db')) :
    Db.Posts env (lockWallet args.user db).1 args.idempotencyKey (lockWallet args.user db).2
      db' := by
  obtain ⟨w, db₁, hlock, hpos, halive, hcase⟩ := credit_cases h
  rw [hlock]
  rcases hcase with ⟨row, hex, rfl⟩ | ⟨hex, -, hcase⟩
  · exact .replayed t row hex rfl
  · refine .posted (db₁.swept env w) (grant env w args (db₁.swept env w)) _ hex
      (swept_sameKeys env w db₁) rfl rfl rfl ?_
    rcases hcase with ⟨-, rfl⟩ | ⟨-, n, hsettle⟩
    · exact fun _ _ _ => Iff.rfl
    · refine Moves.sameKeys (P := fun m => ∃ k debt amount taken, m = .collect k debt amount taken)
        ?_ (settleDebts_ok (fun k debt amount taken => ⟨k, debt, amount, taken, rfl⟩) hsettle)
      rintro m ⟨k, debt, amount, taken, rfl⟩
      exact ⟨trivial, rfl⟩

variable (env w) in
theorem swept_filed (hf : db.Filed) : (db.swept env w).Filed := by
  refine Moves.invariant (I := Db.Filed) (fun m _ _ hm hI hs => hs.filed ?_ hI)
    (expireDueLots_moves env w (P := Move.IsSweep) trivial (fun _ => trivial) db) hf
  cases m <;> first | exact hm.elim | exact trivial

theorem lockWallet_filed {user : UserId} (hf : db.Filed) : (lockWallet user db).2.Filed := by
  refine Moves.invariant (I := Db.Filed) (fun m _ _ hm hI hs => hs.filed ?_ hI)
    (@lockWallet_moves (Env.plain 0) (fun m => m = .openWallet user) user _ _ _ rfl rfl) hf
  rw [hm]
  exact trivial

theorem lockWallet_mirrored {user : UserId} (hd : db.Mirrored) : (lockWallet user db).2.Mirrored := by
  rcases hlock : lockWallet user db with ⟨w, db₁⟩
  rcases lockWallet_cases hlock with ⟨rfl, -⟩ | ⟨-, rfl, -⟩
  · exact hd
  · exact hd

theorem lockWallet_usersUnique {user : UserId} (hu : db.UsersUnique) :
    (lockWallet user db).2.UsersUnique :=
  Moves.invariant (I := Db.UsersUnique) (fun _ _ _ _ hI hs => hs.usersUnique hI)
    (@lockWallet_moves (Env.plain 0) (fun _ => True) user _ _ _ trivial rfl) hu

/-- What a credit posts spells no key but its own. -/
theorem credit_mirrored {args : CreditArgs} {t : ℕ} (hkey : args.metadata .idempotencyKey = none)
    (hd : db.Mirrored) (h : credit env args db = .ok (t, db')) : db'.Mirrored := by
  refine Moves.invariant (I := Db.Mirrored) (fun m _ _ hm hI hs => hs.mirrored ?_ hI) (credit_moves h) hd
  cases m with
  | grant granted =>
    obtain rfl : granted = args := hm
    exact hkey
  | openWallet _ | sync | expire _ | collect _ _ _ _ => exact trivial
  | _ => exact hm.elim

theorem credit_usersUnique {args : CreditArgs} {t : ℕ} (hu : db.UsersUnique)
    (h : credit env args db = .ok (t, db')) : db'.UsersUnique :=
  Moves.invariant (I := Db.UsersUnique) (fun _ _ _ _ hI hs => hs.usersUnique hI) (credit_moves h) hu

/-- **What a debit under a key does and says**: it posts one row under the key, or finds
it, and a partial debit's answer is what the row and its debt say afterwards. -/
theorem debit_posts {args : DebitArgs} {answer : DebitAnswer} (hf : db.Filed)
    (hm : args.metadata.LeavesRetries) (h : debit env args db = .ok (answer, db')) :
    Db.Posts env (lockWallet args.user db).1 args.idempotencyKey (lockWallet args.user db).2 db' ∧
      (args.allowPartial = true → args.idempotencyKey ≠ "" →
        ∃ t row, db'.KeyedRow (lockWallet args.user db).1 args.idempotencyKey t row ∧
          answer = .result (replayDebit t row args.credits db')) := by
  have hf₁ : (lockWallet args.user db).2.Filed := lockWallet_filed hf
  obtain ⟨w, db₁, hlock, hpos, hcase⟩ := debit_cases h
  rw [hlock] at hf₁ ⊢
  have hnone := (swept_filed env w hf₁).no_debt
  rcases hcase with ⟨t, row, hex, hanswer, rfl⟩ | ⟨hex, ⟨-, hmeter⟩ | ⟨-, chargeable, taken, db₂,
    hchargeable, htake, hcharge⟩⟩
  · refine ⟨.replayed t row hex rfl, fun hpart _ => ⟨t, row, (existingCall_some hf₁.mirrored hex).2, ?_⟩⟩
    rw [hanswer, if_pos hpart]
  · obtain ⟨row, hrows, hwallet, hkey, hsays⟩ :=
      meterOnlyDebit_posts env w (db₁.swept env w) args
    have hposted := (congrArg (fun t => t.get? (db₁.swept env w).transactions.next) hrows).trans
      (Table.get?_insert_next _ _)
    obtain ⟨rfl, rfl⟩ := Prod.mk.inj hmeter
    exact ⟨.posted _ _ row hex (swept_sameKeys env w db₁) hrows hwallet hkey fun _ _ _ => Iff.rfl,
      fun hpart _ => ⟨_, row, ⟨hposted, hwallet, hkey⟩, hsays hpart _⟩⟩
  · have hbounds : 0 ≤ chargeable ∧ chargeable ≤ args.credits := by
      have hlive := liveBalance_nonneg (db₁.swept env w) w env.now
      rw [hchargeable]
      split <;> omega
    obtain ⟨-, -, rfl⟩ := takeCredits_ok hbounds.1 htake
    obtain ⟨row, hrows, hwallet, hkey, hsays⟩ :=
      chargeDebit_posts env w ((db₁.swept env w).spendLots taken) taken hm hbounds.2 hnone
    have hposted := (congrArg (fun t => t.get? (db₁.swept env w).transactions.next) hrows).trans
      (Table.get?_insert_next _ _)
    obtain ⟨rfl, rfl⟩ := Prod.mk.inj hcharge
    exact ⟨.posted _ _ row hex (swept_sameKeys env w db₁) hrows hwallet hkey fun _ _ _ => Iff.rfl,
      fun hpart _ => ⟨_, row, ⟨hposted, hwallet, hkey⟩, hsays hpart⟩⟩

/-! ## Calls -/

/-- A call that takes nothing back, whose caller brings none of the keys that answers are
rebuilt from. -/
def WalletCall.LeavesRetries (c : WalletCall) : Prop := c.IsPlain ∧ c.metadata.LeavesRetries

/-- A credit or a debit of user `u` under a key. -/
def WalletCall.Keyed (u : UserId) (key : String) : WalletCall → Prop
  | .credit args => args.user = u ∧ args.idempotencyKey = key
  | .debit args => args.user = u ∧ args.idempotencyKey = key
  | _ => False

/-- What a call allows hides no retry key, where its caller hides none. -/
theorem WalletCall.Allows.unkeyed {c : WalletCall} (hplain : c.IsPlain)
    (hc : c.metadata .idempotencyKey = none) (hd : db.KeysInPlace) {m : Move} (hm : c.Allows db m) :
    m.Unkeyed := by
  have hmeta : ∀ {md : Metadata}, md = c.metadata → md .idempotencyKey = none := by
    rintro _ rfl
    exact hc
  cases m with
  | grant args | meter args | charge args _ _ | arm args _ _ =>
    exact hmeta (congrArg WalletCall.metadata hm).symm
  | bill args held | waive args held =>
    obtain ⟨hargs, ⟨k, hk⟩, -⟩ := hm
    exact ⟨hmeta hargs, hd.holds k held hk⟩
  | clawback _ _ _ _ _ _ | cancel _ | restore _ _ | mark _ => exact absurd hplain hm
  | _ => exact trivial

theorem WalletCall.LeavesRetries.unkeyed {c : WalletCall} (hc : c.LeavesRetries) (hf : db.Filed)
    {m : Move} (hm : c.Allows db m) : m.Unkeyed :=
  WalletCall.Allows.unkeyed hc.1 hc.2.1 hf.toKeysInPlace hm

theorem exec_filed {c : WalletCall} (hc : c.LeavesRetries) (hf : db.Filed)
    (h : c.exec env db = .ok db') : db'.Filed :=
  Moves.invariant (I := Db.Filed) (fun _ _ _ hm hI hs => hs.filed (hc.unkeyed hf hm) hI)
    (exec_moves h) hf

theorem lockWallet_sameKeys (user : UserId) : db.SameKeys (lockWallet user db).2 := by
  rcases hlock : lockWallet user db with ⟨w, db₁⟩
  rcases lockWallet_cases hlock with ⟨rfl, -⟩ | ⟨-, rfl, -⟩
  · exact fun _ _ _ => Iff.rfl
  · exact fun _ _ _ => Iff.rfl

/-- A keyed call finds its row or posts it. -/
theorem exec_posts {c : WalletCall} {u : UserId} {key : String} (hc : c.LeavesRetries)
    (hkeyed : c.Keyed u key) (hf : db.Filed) (h : c.exec env db = .ok db') :
    Db.Posts env (lockWallet u db).1 key (lockWallet u db).2 db' := by
  cases c with
  | credit args =>
    obtain ⟨rfl, rfl⟩ := hkeyed
    obtain ⟨t, hok⟩ := map_snd_ok h
    exact credit_posts hok
  | debit args =>
    obtain ⟨rfl, rfl⟩ := hkeyed
    obtain ⟨answer, hok⟩ := map_snd_ok h
    exact (debit_posts hf hc.2 hok).1
  | _ => exact hkeyed.elim

theorem exec_retryKeysUnique {c : WalletCall} (hc : c.LeavesRetries) (hf : db.Filed)
    (hu : db.KeysUnique) (h : c.exec env db = .ok db') : db'.KeysUnique := by
  by_cases hkeyed : ∃ u key, c.Keyed u key
  · obtain ⟨u, key, hkeyed⟩ := hkeyed
    exact (exec_posts hc hkeyed hf h).unique ((lockWallet_sameKeys u).unique hu)
  · refine Db.SameKeys.unique (Moves.sameKeys (fun m hm => ⟨hc.unkeyed hf hm, ?_⟩) (exec_moves h)) hu
    cases m with
    | grant args =>
      obtain rfl : c = .credit args := hm
      exact absurd ⟨_, _, rfl, rfl⟩ hkeyed
    | meter args | charge args _ _ =>
      obtain rfl : c = .debit args := hm
      exact absurd ⟨_, _, rfl, rfl⟩ hkeyed
    | _ => rfl

/-- Wallet `w` is user `u`'s. -/
def Db.OwnedBy (db : Db) (w : ℕ) (u : UserId) : Prop :=
  ∃ wallet, db.wallets.get? w = some wallet ∧ wallet.user = some u

/-- The lock finds the user's wallet. -/
theorem lockWallet_owned {u : UserId} (hu : db.UsersUnique) (h : db.OwnedBy w u) :
    lockWallet u db = (w, db) := by
  obtain ⟨wallet, hget, huser⟩ := h
  unfold lockWallet
  rw [Table.find?_eq_some_of_unique hget huser]
  exact fun j b hj hb => hu j w b wallet u hj hget hb huser

theorem lockWallet_owns (u : UserId) :
    (lockWallet u db).2.OwnedBy (lockWallet u db).1 u := by
  rcases hlock : lockWallet u db with ⟨w, db₁⟩
  rcases lockWallet_cases hlock with ⟨rfl, hwallet⟩ | ⟨rfl, rfl, -⟩
  · exact hwallet
  · exact ⟨{ user := some u }, Table.get?_insert_next _ _, rfl⟩

theorem Moves.owned {P : Move → Prop} {v : ℕ} {u : UserId} (h : Moves env w P db db')
    (hown : db.OwnedBy v u) : db'.OwnedBy v u := by
  obtain ⟨wallet, hget, huser⟩ := hown
  obtain ⟨wallet', hget', hsame⟩ := h.wallet_kept hget
  exact ⟨wallet', hget', hsame.user.trans huser⟩

/-- A keyed call leaves the user with the wallet it locked. -/
theorem exec_owned {c : WalletCall} {u : UserId} {key : String} (hkeyed : c.Keyed u key)
    (h : c.exec env db = .ok db') : db'.OwnedBy (lockWallet u db).1 u := by
  cases c with
  | credit args =>
    obtain ⟨rfl, rfl⟩ := hkeyed
    obtain ⟨t, hok⟩ := map_snd_ok h
    exact (credit_locked rfl hok).owned (lockWallet_owns args.user)
  | debit args =>
    obtain ⟨rfl, rfl⟩ := hkeyed
    obtain ⟨answer, hok⟩ := map_snd_ok h
    exact (debit_locked rfl hok).owned (lockWallet_owns args.user)
  | _ => exact hkeyed.elim

/-- **A call under a key that has its row changes nothing.** -/
theorem exec_replayed {c : WalletCall} {u : UserId} {key : String} {t : ℕ} {row : Transaction}
    (hc : c.LeavesRetries) (hkey : key ≠ "") (hkeyed : c.Keyed u key) (hf : db.Filed)
    (hown : db.OwnedBy w u) (hrow : db.KeyedRow w key t row) :
    Store.commit (c.exec env) db = db := by
  cases h : c.exec env db with
  | error e => exact Store.commit_error h
  | ok db' =>
    rw [Store.commit_ok h]
    have hposts := exec_posts hc hkeyed hf h
    rw [lockWallet_owned hf.users hown] at hposts
    cases hposts with
    | replayed _ _ _ same => exact same
    | posted _ _ _ none _ _ _ _ _ => exact absurd hrow (existingCall_none hkey none t row)

/-- A partial debit under a key that has its row is told what the row says. -/
theorem debit_replayed {args : DebitArgs} {t : ℕ} {row : Transaction}
    (hkey : args.idempotencyKey ≠ "") (hpos : 0 < args.credits) (hpart : args.allowPartial = true)
    (hf : db.Filed) (hu : db.KeysUnique) (hown : db.OwnedBy w args.user)
    (hrow : db.KeyedRow w args.idempotencyKey t row) :
    debit env args db = .ok (.result (replayDebit t row args.credits db), db) := by
  unfold debit
  rw [if_neg (by omega), lockWallet_owned hf.users hown]
  simp only [existingCall_keyed hu hkey hrow, if_pos hpart]

/-! ## Runs -/

/-- What a run keeps of the rows, the owners and the debts an answer is made of. -/
structure Db.KeepsAnswers (db db' : Db) : Prop where
  rows : ∀ t row, db.transactions.get? t = some row → db'.transactions.get? t = some row
  owners : ∀ w u, db.OwnedBy w u → db'.OwnedBy w u
  next_le : db.transactions.next ≤ db'.transactions.next
  debts : ∀ t < db.transactions.next, ∀ j, db'.DebtNames t j ↔ db.DebtNames t j

theorem Db.KeepsAnswers.refl (db : Db) : db.KeepsAnswers db :=
  ⟨fun _ _ h => h, fun _ _ h => h, le_rfl, fun _ _ _ => Iff.rfl⟩

theorem Db.KeepsAnswers.trans {db₁ db₂ db₃ : Db} (h : db₁.KeepsAnswers db₂)
    (h' : db₂.KeepsAnswers db₃) : db₁.KeepsAnswers db₃ where
  rows := fun t row hk => h'.rows t row (h.rows t row hk)
  owners := fun w u hw => h'.owners w u (h.owners w u hw)
  next_le := h.next_le.trans h'.next_le
  debts := fun t ht j => (h'.debts t (ht.trans_le h.next_le) j).trans (h.debts t ht j)

/-- **A call that takes nothing back keeps the answers.** -/
theorem exec_keepsAnswers {c : WalletCall} (hc : c.IsPlain) (h : c.exec env db = .ok db') :
    db.KeepsAnswers db' where
  rows := fun _ _ hk => exec_row_kept hc h hk
  owners := fun _ _ hown => (exec_moves h).owned hown
  next_le := (exec_moves h).grows.transactions.next_le
  debts := by
    intro t ht j
    have hrun : t < db'.transactions.next ∧ (db'.DebtNames t j ↔ db.DebtNames t j) := by
      refine Moves.invariant
        (I := fun d => t < d.transactions.next ∧ (d.DebtNames t j ↔ db.DebtNames t j)) ?_
        (exec_moves h) ⟨ht, Iff.rfl⟩
      rintro m d d' hm ⟨hlt, hI⟩ hs
      exact ⟨hlt.trans_le hs.grows.transactions.next_le, (hs.debtNames (hm.isPlain hc) hlt j).trans hI⟩
    exact hrun.2

theorem Db.Bare.filed (hb : db.Bare) : db.Filed := by
  refine ⟨⟨fun t row hk => ?_, fun h held hk => ?_⟩, fun j debt t hk => ?_, fun j k a b u hj => ?_⟩
  · rw [hb.transactions] at hk
    exact Table.get?_empty_ne hk
  · rw [hb.holds] at hk
    exact Table.get?_empty_ne hk
  · rw [hb.debts] at hk
    exact Table.get?_empty_ne hk
  · rw [hb.wallets] at hj
    exact Table.get?_empty_ne hj

theorem Db.Bare.keysUnique (hb : db.Bare) : db.KeysUnique := by
  rintro w key s t a b - ⟨hget, -, -⟩
  rw [hb.transactions] at hget
  exact Table.get?_empty_ne hget

theorem runCalls_filed {calls : List (Env × WalletCall)} (hcalls : ∀ c ∈ calls, c.2.LeavesRetries)
    (hf : db.Filed) (hu : db.KeysUnique) :
    (runCalls calls db).Filed ∧ (runCalls calls db).KeysUnique := by
  refine Store.run_invariant (I := fun d : Db => d.Filed ∧ d.KeysUnique) ?_ ⟨hf, hu⟩
  rintro c hc d d' ⟨hd, hdu⟩ h
  exact ⟨exec_filed (hcalls c hc) hd h, exec_retryKeysUnique (hcalls c hc) hd hdu h⟩

/-- **Keys answer once.**  For every serial run of plain calls from a database without
wallets, whose callers bring none of the keys that answers are rebuilt from: after a
successful credit or debit of a user under a key, every later credit or debit of the user
under the key changes nothing, and where both are partial debits of the same amount the
later one is told exactly what the earlier one was told. -/
theorem keys_answer_once (hbare : db.Bare) {calls : List (Env × WalletCall)}
    (hcalls : ∀ c ∈ calls, c.2.LeavesRetries) {m n : ℕ} (hmn : m < n) {c d : Env × WalletCall}
    (hm : calls[m]? = some c) (hn : calls[n]? = some d) {u : UserId} {key : String}
    (hkey : key ≠ "") (hc : c.2.Keyed u key) (hd : d.2.Keyed u key) {after : Db}
    (hok : c.2.exec c.1 (runCalls (calls.take m) db) = .ok after) :
    Store.commit (d.2.exec d.1) (runCalls (calls.take n) db) = runCalls (calls.take n) db ∧
    ∀ a b, c.2 = .debit a → d.2 = .debit b → a.allowPartial = true → b.allowPartial = true →
      a.credits = b.credits → ∃ r, debit c.1 a (runCalls (calls.take m) db) = .ok (.result r, after) ∧
        debit d.1 b (runCalls (calls.take n) db) = .ok (.result r, runCalls (calls.take n) db) := by
  have hcm : c.2.LeavesRetries := hcalls c (List.mem_of_getElem? hm)
  have hprefix : ∀ i, (runCalls (calls.take i) db).Filed ∧ (runCalls (calls.take i) db).KeysUnique :=
    fun i => runCalls_filed (fun e he => hcalls e (List.mem_of_mem_take he)) hbare.filed
      hbare.keysUnique
  obtain ⟨hfm, -⟩ := hprefix m
  obtain ⟨hfn, hun⟩ := hprefix n
  have hafter : runCalls (calls.take (m + 1)) db = after := by
    unfold runCalls at hok ⊢
    rw [List.take_add_one, hm, Store.run_append]
    exact Store.commit_ok hok
  have hkeeps : after.KeepsAnswers (runCalls (calls.take n) db) := by
    rw [← hafter]
    exact Store.run_take_relation hmn Db.KeepsAnswers.refl (fun _ _ _ => Db.KeepsAnswers.trans)
      fun e he _ _ h => exec_keepsAnswers (hcalls e he).1 h
  have hfa : after.Filed := exec_filed hcm hfm hok
  have hown := exec_owned hc hok
  have hown' := hkeeps.owners _ _ hown
  have hlater : ∀ {t : ℕ} {row : Transaction} {v : ℕ}, after.KeyedRow v key t row →
      (runCalls (calls.take n) db).KeyedRow v key t row :=
    fun h => ⟨hkeeps.rows _ _ h.posted, h.wallet, h.key⟩
  constructor
  · obtain ⟨t, row, hrow⟩ := (exec_posts hcm hc hfm hok).keyedRow (lockWallet_filed hfm).mirrored hkey
    exact exec_replayed (hcalls d (List.mem_of_getElem? hn)) hkey hd hfn hown' (hlater hrow)
  · intro a b ha hb hpartOne hpartTwo hcredits
    rw [ha] at hok hc hcm
    rw [hb] at hd
    obtain ⟨rfl, rfl⟩ := hc
    obtain ⟨hbuser, hbkey⟩ := hd
    obtain ⟨answer, hdebit⟩ := map_snd_ok hok
    obtain ⟨t, row, hrow, rfl⟩ := (debit_posts hfm hcm.2 hdebit).2 hpartOne hkey
    refine ⟨replayDebit t row a.credits after, hdebit, ?_⟩
    have hpos : 0 < b.credits := by
      obtain ⟨-, -, -, hpos, -⟩ := debit_cases hdebit
      omega
    have hsays : replayDebit t row b.credits (runCalls (calls.take n) db) =
        replayDebit t row a.credits after := by
      rw [← hcredits]
      exact replayDebit_congr row a.credits
        (debtOf_congr hfa (hkeeps.debts t (Table.get?_lt_next hrow.posted)))
    rw [← hsays]
    have hrow' := hlater hrow
    rw [← hbuser] at hown'
    rw [← hbkey] at hkey hrow'
    exact debit_replayed hkey hpos hpartTwo hfn hun hown' (hbuser ▸ hrow')

/-- A charge of 90 under a key, as far as the credits go. -/
def spendNinety : DebitArgs :=
  { user := 7
    credits := 90
    type := .aiCharge
    idempotencyKey := "job"
    allowPartial := true }

/-- The charge is short by 30, which the next credit settles; then it is repeated. -/
def debitRepeated : List (Env × WalletCall) :=
  [(Env.plain 0, .credit
      { user := 7
        credits := 60
        type := .creditPurchase
        source := .purchase }),
    (Env.plain 10, .debit spendNinety),
    (Env.plain 20, .credit
      { user := 7
        credits := 50
        type := .creditPurchase
        source := .purchase }),
    (Env.plain 30, .debit spendNinety)]

theorem keys_answer_once_repeated : ∃ r after,
    debit (Env.plain 10) spendNinety (runCalls (debitRepeated.take 1) Db.empty) =
      .ok (.result r, after) ∧
    debit (Env.plain 30) spendNinety (runCalls (debitRepeated.take 3) Db.empty) =
      .ok (.result r, runCalls (debitRepeated.take 3) Db.empty) := by
  have hbare : Db.empty.Bare := ⟨rfl, rfl, rfl, rfl, rfl⟩
  have hleaves : ∀ c ∈ debitRepeated, c.2.LeavesRetries := by
    intro c hc
    simp only [debitRepeated, List.mem_cons, List.not_mem_nil, or_false] at hc
    rcases hc with rfl | rfl | rfl | rfl
    all_goals exact ⟨trivial, rfl, rfl, rfl⟩
  have hfirst : ((WalletCall.debit spendNinety).exec (Env.plain 10)
      (runCalls (debitRepeated.take 1) Db.empty)).toBool = true := by decide
  cases hok : (WalletCall.debit spendNinety).exec (Env.plain 10)
      (runCalls (debitRepeated.take 1) Db.empty) with
  | error e =>
    rw [hok] at hfirst
    cases hfirst
  | ok after =>
    obtain ⟨r, hr⟩ := (@keys_answer_once Db.empty hbare debitRepeated hleaves 1 3 (by decide)
      (Env.plain 10, .debit spendNinety) (Env.plain 30, .debit spendNinety) rfl rfl 7 "job"
      (by decide) ⟨rfl, rfl⟩ ⟨rfl, rfl⟩ after hok).2 _ _ rfl rfl rfl rfl rfl
    exact ⟨r, after, hr⟩

end StapelBilling
