import StapelBilling.Moves

/-! # The operations as sequences of moves

One inversion lemma for each operation says which branch a successful call took,
and one theorem says which moves the call made.  No later proof unfolds an
operation again.
-/
namespace StapelBilling
open Store

/-! ## The wallet -/

/-- The lock finds the user's wallet or opens one. -/
theorem lockWallet_cases {user : UserId} {db db' : Db} {w : ℕ} (h : lockWallet user db = (w, db')) :
    (db' = db ∧ ∃ wallet, db.wallets.get? w = some wallet ∧ wallet.user = some user) ∨
    (w = db.wallets.next ∧ db' = { db with wallets := db.wallets.insert { user := some user } } ∧
      ∀ k wallet, db.wallets.get? k = some wallet → wallet.user ≠ some user) := by
  unfold lockWallet at h
  split at h
  · rename_i hfind
    obtain ⟨rfl, rfl⟩ := Prod.mk.inj h
    exact Or.inl ⟨rfl, _, Table.find?_some hfind⟩
  · rename_i hnone
    obtain ⟨rfl, rfl⟩ := Prod.mk.inj h
    exact Or.inr ⟨rfl, rfl, fun k wallet hk => Table.find?_none hnone hk⟩

theorem lockWallet_moves {env : Env} {P : Move → Prop} {user : UserId} {db db' : Db} {w : ℕ}
    (hP : P (.openWallet user)) (h : lockWallet user db = (w, db')) : Moves env w P db db' := by
  rcases lockWallet_cases h with ⟨rfl, -⟩ | ⟨rfl, rfl, hnew⟩
  · exact Relation.ReflTransGen.refl
  · exact Moves.single hP (Step.openWallet rfl hnew)

/-! ## Sweeps -/

section Sweep
variable {env : Env} {w : ℕ} {P : Move → Prop}

/-- The moves of a sweep. -/
def Move.IsSweep : Move → Prop
  | .sync | .expire _ => True
  | _ => False

theorem expireLots_moves (hexpire : ∀ k, P (.expire k)) {due : List (ℕ × CreditLot)}
    {running : ℤ} {db : Db} (hnd : (due.map Prod.fst).Nodup)
    (hdue : ∀ r ∈ due, db.lots.get? r.1 = some r.2 ∧ r.2.wallet = w ∧ r.2.Due env.now) :
    Moves env w P db (expireLots env w due running db) := by
  induction due generalizing running db with
  | nil => exact Relation.ReflTransGen.refl
  | cons r due ih =>
    obtain ⟨k, lot⟩ := r
    obtain ⟨hnot, hnd'⟩ := List.nodup_cons.mp hnd
    obtain ⟨hlot, hw, hd⟩ := hdue _ List.mem_cons_self
    refine Relation.ReflTransGen.head ⟨_, hexpire k, Step.expire hlot hw hd⟩ (ih hnd' ?_)
    intro r hr
    have hne : r.1 ≠ k := fun he => hnot (List.mem_map.mpr ⟨r, hr, he⟩)
    obtain ⟨hget, hrest⟩ := hdue r (List.mem_cons_of_mem _ hr)
    refine ⟨?_, hrest⟩
    show (db.lots.modify k CreditLot.zero).get? r.1 = some r.2
    rw [Table.get?_modify_of_ne _ _ hne, hget]

theorem mem_dueLots {db : Db} {now : Time} {r : ℕ × CreditLot} :
    r ∈ db.dueLots w now ↔ db.lots.get? r.1 = some r.2 ∧ r.2.wallet = w ∧ r.2.Due now := by
  unfold Db.dueLots
  rw [mem_orderBy, Table.mem_select]

theorem dueLots_nodup (db : Db) (now : Time) : ((db.dueLots w now).map Prod.fst).Nodup :=
  orderBy_nodup Table.select_nodup

variable (env w) in
/-- **A sweep** empties due lots and refreshes the balance. -/
theorem expireDueLots_moves (hsync : P .sync) (hexpire : ∀ k, P (.expire k)) (db : Db) :
    Moves env w P db (expireDueLots env w db).2 := by
  unfold expireDueLots
  by_cases hnone : db.dueLots w env.now = []
  · rw [if_pos hnone]
  · rw [if_neg hnone]
    refine Relation.ReflTransGen.tail (expireLots_moves hexpire (dueLots_nodup db env.now) ?_)
      ⟨_, hsync, Step.sync⟩
    exact fun r hr => mem_dueLots.mp hr

theorem expireDueLots_frame (db : Db) :
    (expireDueLots env w db).2.holds = db.holds ∧ (expireDueLots env w db).2.debts = db.debts := by
  refine Moves.invariant (I := fun db' => db'.holds = db.holds ∧ db'.debts = db.debts) ?_
    (expireDueLots_moves env w (P := Move.IsSweep) trivial (fun _ => trivial) db)
    ⟨rfl, rfl⟩
  rintro m db₁ db₂ hm hI (_ | _ | _)
  all_goals first | exact hm.elim | exact hI

end Sweep

/-! ## Debt collection -/

section Settlement
variable {env : Env} {w : ℕ}

theorem mem_openDebts {db : Db} {r : ℕ × CreditDebt} :
    r ∈ db.openDebts w ↔ db.debts.get? r.1 = some r.2 ∧ r.2.wallet = w ∧ r.2.Open := by
  unfold Db.openDebts
  rw [mem_orderBy, Table.mem_select]

theorem openDebts_nodup (db : Db) : ((db.openDebts w).map Prod.fst).Nodup :=
  orderBy_nodup Table.select_nodup

/-- The rows a collection loop is handed: distinct, current, this wallet's, open. -/
structure Collectable (w : ℕ) (debts : List (ℕ × CreditDebt)) (db : Db) : Prop where
  nodup : (debts.map Prod.fst).Nodup
  current : ∀ r ∈ debts, db.debts.get? r.1 = some r.2 ∧ r.2.wallet = w ∧ r.2.Open

theorem openDebts_collectable (db : Db) : Collectable w (db.openDebts w) db :=
  ⟨openDebts_nodup db, fun _ hr => mem_openDebts.mp hr⟩

variable (env) in
/-- Collecting the first debt leaves the others collectable. -/
theorem Collectable.tail {k : ℕ} {debt : CreditDebt} {debts : List (ℕ × CreditDebt)} {db : Db}
    (h : Collectable w ((k, debt) :: debts) db) (amount : ℤ) (taken : List (ℕ × ℤ)) :
    Collectable w debts (collectDebt env w k debt amount taken (db.spendLots taken)) := by
  obtain ⟨hnot, hnd⟩ := List.nodup_cons.mp h.nodup
  refine ⟨hnd, fun r hr => ?_⟩
  have hne : r.1 ≠ k := fun he => hnot (List.mem_map.mpr ⟨r, hr, he⟩)
  obtain ⟨hget, hrest⟩ := h.current r (List.mem_cons_of_mem _ hr)
  exact ⟨(Table.get?_modify_of_ne _ _ hne).trans hget, hrest⟩

/-- **The collection loop always returns, and makes collection moves only**: an
amount is never more than the live lots hold. -/
theorem settleEach_moves {P : Move → Prop}
    (hcollect : ∀ k debt amount taken, P (.collect k debt amount taken))
    {debts : List (ℕ × CreditDebt)} {db : Db} (h : Collectable w debts db) :
    ∃ collected db', settleEach env w debts db = .ok (collected, db') ∧ Moves env w P db db' := by
  induction debts generalizing db with
  | nil => exact ⟨0, db, rfl, Relation.ReflTransGen.refl⟩
  | cons r debts ih =>
    obtain ⟨k, debt⟩ := r
    obtain ⟨hdebt, hw, hopen⟩ := h.current _ List.mem_cons_self
    by_cases havail : db.liveBalance w env.now ≤ 0
    · exact ⟨0, db, by simp only [settleEach, if_pos havail], Relation.ReflTransGen.refl⟩
    · have hle : min debt.creditsOutstanding (db.liveBalance w env.now) ≤
          db.liveBalance w env.now := min_le_right _ _
      have hpos : 0 < min debt.creditsOutstanding (db.liveBalance w env.now) :=
        lt_min hopen.2 (by omega)
      obtain ⟨taken, htaken⟩ := consumeLots_of_le hle
      obtain ⟨hdraws, hdrawn, -⟩ := consumeLots_ok hpos.le htaken
      obtain ⟨rest, db', hrest, hmoves⟩ := ih (h.tail env
        (min debt.creditsOutstanding (db.liveBalance w env.now)) taken)
      refine ⟨min debt.creditsOutstanding (db.liveBalance w env.now) + rest, db', ?_, ?_⟩
      · simp only [settleEach, if_neg havail, htaken, hrest]
      · exact Relation.ReflTransGen.head ⟨_, hcollect _ _ _ _,
          Step.collect hdebt hw hopen hpos (min_le_left _ _) hdraws hdrawn⟩ hmoves

variable (env w) in
theorem settleDebts_moves {P : Move → Prop}
    (hcollect : ∀ k debt amount taken, P (.collect k debt amount taken)) (db : Db) :
    ∃ collected db', settleDebts env w db = .ok (collected, db') ∧ Moves env w P db db' :=
  settleEach_moves hcollect (openDebts_collectable db)

theorem settleDebts_ok {P : Move → Prop}
    (hcollect : ∀ k debt amount taken, P (.collect k debt amount taken)) {db db' : Db} {n : ℤ}
    (h : settleDebts env w db = .ok (n, db')) : Moves env w P db db' := by
  obtain ⟨m, db'', hok, hmoves⟩ := settleDebts_moves env w hcollect db
  rw [h] at hok
  obtain ⟨-, rfl⟩ := Prod.mk.inj (Except.ok.inj hok)
  exact hmoves

end Settlement

/-! ## Credit -/

/-- The state in which a call under the wallet's lock starts its work. -/
def Db.swept (db : Db) (env : Env) (w : ℕ) : Db := (expireDueLots env w db).2

theorem credit_cases {env : Env} {args : CreditArgs} {db db' : Db} {t : ℕ}
    (h : credit env args db = .ok (t, db')) :
    ∃ w db₁, lockWallet args.user db = (w, db₁) ∧ 0 < args.credits ∧
      ¬ dueAt env.now args.expiresAt ∧
      ((∃ row, existingCall env w args.idempotencyKey db₁ = some (t, row) ∧ db' = db₁) ∨
       (existingCall env w args.idempotencyKey db₁ = none ∧
        t = (db₁.swept env w).transactions.next ∧
        ((args.settleDebts = false ∧ db' = grant env w args (db₁.swept env w)) ∨
         (args.settleDebts = true ∧
          ∃ n, settleDebts env w (grant env w args (db₁.swept env w)) = .ok (n, db'))))) := by
  rcases hlock : lockWallet args.user db with ⟨w, db₁⟩
  refine ⟨w, db₁, rfl, ?_⟩
  simp only [credit, hlock] at h
  split at h
  · cases h
  rename_i hpos
  split at h
  · cases h
  rename_i halive
  refine ⟨by omega, halive, ?_⟩
  split at h
  · rename_i existing row hex
    obtain ⟨rfl, rfl⟩ := Prod.mk.inj (Except.ok.inj h)
    exact Or.inl ⟨row, hex, rfl⟩
  · rename_i hex
    refine Or.inr ⟨hex, ?_⟩
    split at h
    · rename_i hsettle
      split at h
      · cases h
      · rename_i n db₂ hok
        obtain ⟨rfl, rfl⟩ := Prod.mk.inj (Except.ok.inj h)
        exact ⟨rfl, Or.inr ⟨hsettle, n, hok⟩⟩
    · rename_i hsettle
      obtain ⟨rfl, rfl⟩ := Prod.mk.inj (Except.ok.inj h)
      exact ⟨rfl, Or.inl ⟨by simpa using hsettle, rfl⟩⟩

/-- The moves of a credit. -/
def Move.OfCredit (args : CreditArgs) : Move → Prop
  | .openWallet user => user = args.user
  | .sync | .expire _ | .collect _ _ _ _ => True
  | .grant a => a = args
  | _ => False

/-- What a credit does under the wallet's lock. -/
theorem credit_locked {env : Env} {args : CreditArgs} {db db₁ db' : Db} {t w : ℕ}
    (hlock : lockWallet args.user db = (w, db₁)) (h : credit env args db = .ok (t, db')) :
    Moves env w (Move.OfCredit args) db₁ db' := by
  obtain ⟨w', db₂, hlock', hpos, halive, hcase⟩ := credit_cases h
  obtain ⟨rfl, rfl⟩ := Prod.mk.inj (hlock.symm.trans hlock')
  rcases hcase with ⟨row, -, rfl⟩ | ⟨-, -, hcase⟩
  · exact Relation.ReflTransGen.refl
  · have hgrant : Moves env w (Move.OfCredit args) db₁ (grant env w args (db₁.swept env w)) :=
      Relation.ReflTransGen.tail (expireDueLots_moves env w trivial (fun _ => trivial) db₁)
        ⟨.grant args, rfl, Step.grant hpos halive⟩
    rcases hcase with ⟨-, rfl⟩ | ⟨-, n, hsettle⟩
    · exact hgrant
    · exact hgrant.trans (settleDebts_ok (fun _ _ _ _ => trivial) hsettle)

theorem credit_moves {env : Env} {args : CreditArgs} {db db' : Db} {t : ℕ}
    (h : credit env args db = .ok (t, db')) :
    Moves env (lockWallet args.user db).1 (Move.OfCredit args) db db' :=
  (lockWallet_moves (P := Move.OfCredit args) rfl rfl).trans (credit_locked rfl h)

/-! ## Debit -/

theorem debit_cases {env : Env} {args : DebitArgs} {db db' : Db} {answer : DebitAnswer}
    (h : debit env args db = .ok (answer, db')) :
    ∃ w db₁, lockWallet args.user db = (w, db₁) ∧ 0 < args.credits ∧
      ((∃ t row, existingCall env w args.idempotencyKey db₁ = some (t, row) ∧
          answer = (if args.allowPartial then .result (replayDebit t row args.credits db₁)
            else .transaction t) ∧ db' = db₁) ∨
       (existingCall env w args.idempotencyKey db₁ = none ∧
        ((env.settings.meterOnly (some args.user) = true ∧
            (answer, db') = meterOnlyDebit env w args (db₁.swept env w)) ∨
         (env.settings.meterOnly (some args.user) = false ∧
          ∃ chargeable taken db₂,
            chargeable = (if args.allowPartial then
              min args.credits ((db₁.swept env w).liveBalance w env.now) else args.credits) ∧
            takeCredits w chargeable env.now (db₁.swept env w) = .ok (taken, db₂) ∧
            (answer, db') = chargeDebit env w args chargeable taken db₂)))) := by
  rcases hlock : lockWallet args.user db with ⟨w, db₁⟩
  refine ⟨w, db₁, rfl, ?_⟩
  simp only [debit, hlock] at h
  split at h
  · cases h
  rename_i hpos
  refine ⟨by omega, ?_⟩
  split at h
  · rename_i existing row hex
    obtain ⟨rfl, rfl⟩ := Prod.mk.inj (Except.ok.inj h)
    exact Or.inl ⟨existing, row, hex, rfl, rfl⟩
  · rename_i hex
    refine Or.inr ⟨hex, ?_⟩
    split at h
    · rename_i hmeter
      exact Or.inl ⟨hmeter, (Except.ok.inj h).symm⟩
    · rename_i hmeter
      split at h
      · cases h
      · rename_i taken db₂ hok
        exact Or.inr ⟨by simpa using hmeter, _, taken, db₂, rfl, hok, (Except.ok.inj h).symm⟩

/-- The moves of a debit. -/
def Move.OfDebit (args : DebitArgs) : Move → Prop
  | .openWallet user => user = args.user
  | .sync | .expire _ => True
  | .meter a => a = args
  | .charge a _ _ => a = args
  | _ => False

theorem liveBalance_nonneg (db : Db) (w : ℕ) (now : Time) : 0 ≤ db.liveBalance w now := by
  refine Table.sum_nonneg fun k lot _ => ?_
  split
  · rename_i hlive
    exact hlive.2.1.le
  · exact le_rfl

/-- What a debit does under the wallet's lock. -/
theorem debit_locked {env : Env} {args : DebitArgs} {db db₁ db' : Db} {answer : DebitAnswer}
    {w : ℕ} (hlock : lockWallet args.user db = (w, db₁))
    (h : debit env args db = .ok (answer, db')) : Moves env w (Move.OfDebit args) db₁ db' := by
  obtain ⟨w', db₂, hlock', hpos, hcase⟩ := debit_cases h
  obtain ⟨rfl, rfl⟩ := Prod.mk.inj (hlock.symm.trans hlock')
  rcases hcase with ⟨t, row, -, -, rfl⟩ | ⟨-, hcase⟩
  · exact Relation.ReflTransGen.refl
  have hswept :=
    expireDueLots_moves env w (P := Move.OfDebit args) trivial (fun _ => trivial) db₁
  rcases hcase with ⟨-, hmeter⟩ | ⟨-, chargeable, taken, db₂, hchargeable, htake, hcharge⟩
  · obtain ⟨-, rfl⟩ := Prod.mk.inj hmeter
    exact hswept.tail ⟨.meter args, rfl, Step.meter⟩
  · have hbounds : 0 ≤ chargeable ∧ chargeable ≤ args.credits := by
      have hlive := liveBalance_nonneg (db₁.swept env w) w env.now
      rw [hchargeable]
      split <;> omega
    obtain ⟨hdraws, hdrawn, rfl⟩ := takeCredits_ok hbounds.1 htake
    obtain ⟨-, rfl⟩ := Prod.mk.inj hcharge
    exact hswept.tail ⟨.charge args chargeable taken, rfl, Step.charge hbounds.2 hdraws hdrawn⟩

theorem debit_moves {env : Env} {args : DebitArgs} {db db' : Db} {answer : DebitAnswer}
    (h : debit env args db = .ok (answer, db')) :
    Moves env (lockWallet args.user db).1 (Move.OfDebit args) db db' :=
  (lockWallet_moves (P := Move.OfDebit args) rfl rfl).trans (debit_locked rfl h)

/-! ## Hold -/

theorem reserve_cases {env : Env} {w : ℕ} {args : HoldArgs} {existing : Option ℕ} {db db' : Db}
    {k : ℕ} (h : reserve env w args existing db = .ok (k, db')) :
    ∃ credits metadata taken db₂,
      (credits = args.credits ∧ metadata = args.metadata ∨
        credits = 0 ∧ metadata = args.metadata.mark args.credits) ∧
      takeCredits w credits env.now (db.swept env w) = .ok (taken, db₂) ∧
      k = (armHold env w args credits metadata existing taken db₂).1 ∧
      db' = (armHold env w args credits metadata existing taken db₂).2.syncBalance w env.now := by
  simp only [reserve] at h
  split at h
  · cases h
  rename_i taken db₂ hok
  obtain ⟨rfl, rfl⟩ := Prod.mk.inj (Except.ok.inj h)
  refine ⟨_, _, taken, db₂, ?_, hok, rfl, rfl⟩
  by_cases hwaived : env.settings.meterOnly (some args.user) = true
  · exact Or.inr (by simp [hwaived])
  · exact Or.inl (by simp [hwaived])

theorem hold_cases {env : Env} {args : HoldArgs} {db db' : Db} {k : ℕ}
    (h : hold env args db = .ok (k, db')) :
    ∃ w db₁, lockWallet args.user db = (w, db₁) ∧ 0 < args.credits ∧ args.idempotencyKey ≠ "" ∧
      ((∃ held, db₁.holds.get? k = some held ∧ held.status = .held ∧ db' = db₁) ∨
       ∃ existing, reserve env w args existing db₁ = .ok (k, db') ∧
        (∀ j ∈ existing, j = k ∧ ∃ held, db₁.holds.get? j = some held ∧ held.wallet = w ∧
          held.idempotencyKey = args.idempotencyKey ∧ held.status.GivenBack) ∧
        (existing = none → ∀ j held, db₁.holds.get? j = some held → held.wallet = w →
          held.idempotencyKey ≠ args.idempotencyKey)) := by
  rcases hlock : lockWallet args.user db with ⟨w, db₁⟩
  refine ⟨w, db₁, rfl, ?_⟩
  simp only [hold, hlock] at h
  split at h
  · cases h
  rename_i hpos
  split at h
  · cases h
  rename_i hkey
  refine ⟨by omega, hkey, ?_⟩
  split at h
  · rename_i j existing hfind
    obtain ⟨hget, hwallet, hkeyed⟩ := Table.find?_some hfind
    have hresolved : existing.status.GivenBack → reserve env w args (some j) db₁ = .ok (k, db') →
        ∀ i ∈ some j, i = k ∧ ∃ held, db₁.holds.get? i = some held ∧ held.wallet = w ∧
          held.idempotencyKey = args.idempotencyKey ∧ held.status.GivenBack := by
      rintro hback hreserve i hi
      obtain rfl := Option.mem_some.mp hi
      obtain ⟨credits, metadata, taken, db₂, -, -, hk, -⟩ := reserve_cases hreserve
      exact ⟨hk.symm, existing, hget, hwallet, hkeyed, hback⟩
    split at h
    · cases h
    · rename_i hstatus
      obtain ⟨rfl, rfl⟩ := Prod.mk.inj (Except.ok.inj h)
      exact Or.inl ⟨existing, hget, hstatus, rfl⟩
    · rename_i hstatus
      exact Or.inr ⟨some j, h, hresolved (Or.inl hstatus) h, fun hn => by cases hn⟩
    · rename_i hstatus
      exact Or.inr ⟨some j, h, hresolved (Or.inr hstatus) h, fun hn => by cases hn⟩
  · rename_i hnone
    refine Or.inr ⟨none, h, fun i hi => absurd hi (Option.not_mem_none i),
      fun _ j held hj hw hk => ?_⟩
    exact Table.find?_none hnone hj ⟨hw, hk⟩

/-- The moves of a hold. -/
def Move.OfHold (args : HoldArgs) : Move → Prop
  | .openWallet user => user = args.user
  | .sync | .expire _ => True
  | .arm a _ _ => a = args
  | _ => False

theorem reserve_moves {env : Env} {w : ℕ} {args : HoldArgs} {existing : Option ℕ} {db db' : Db}
    {k : ℕ} (hpos : 0 < args.credits)
    (hexisting : ∀ j ∈ existing, ∃ held, db.holds.get? j = some held ∧ held.wallet = w ∧
      held.status.GivenBack)
    (h : reserve env w args existing db = .ok (k, db')) :
    Moves env w (Move.OfHold args) db db' := by
  obtain ⟨credits, metadata, taken, db₂, hcredits, htake, -, rfl⟩ := reserve_cases h
  have hnonneg : 0 ≤ credits := by
    rcases hcredits with ⟨rfl, -⟩ | ⟨rfl, -⟩ <;> omega
  obtain ⟨hdraws, hdrawn, rfl⟩ := takeCredits_ok hnonneg htake
  have hswept := expireDueLots_moves env w (P := Move.OfHold args) trivial
    (fun _ => trivial) db
  have harm : Step env w (.arm args credits metadata) (db.swept env w)
      (armHold env w args credits metadata existing taken
        ((db.swept env w).spendLots taken)).2 := by
    refine Step.arm (fun j hj => ?_) hcredits hdraws hdrawn
    obtain ⟨held, hget, hrest⟩ := hexisting j hj
    exact ⟨held, (congrArg (fun t => t.get? j) (expireDueLots_frame db).1).trans hget, hrest⟩
  exact (hswept.tail ⟨.arm args credits metadata, rfl, harm⟩).tail ⟨.sync, trivial, Step.sync⟩

/-- What a hold does under the wallet's lock. -/
theorem hold_locked {env : Env} {args : HoldArgs} {db db₁ db' : Db} {k w : ℕ}
    (hlock : lockWallet args.user db = (w, db₁)) (h : hold env args db = .ok (k, db')) :
    Moves env w (Move.OfHold args) db₁ db' := by
  obtain ⟨w', db₂, hlock', hpos, -, hcase⟩ := hold_cases h
  obtain ⟨rfl, rfl⟩ := Prod.mk.inj (hlock.symm.trans hlock')
  rcases hcase with ⟨held, -, -, rfl⟩ | ⟨existing, hreserve, hexisting, -⟩
  · exact Relation.ReflTransGen.refl
  · refine reserve_moves hpos (fun j hj => ?_) hreserve
    obtain ⟨-, held, hget, hwallet, -, hback⟩ := hexisting j hj
    exact ⟨held, hget, hwallet, hback⟩

theorem hold_moves {env : Env} {args : HoldArgs} {db db' : Db} {k : ℕ}
    (h : hold env args db = .ok (k, db')) :
    Moves env (lockWallet args.user db).1 (Move.OfHold args) db db' :=
  (lockWallet_moves (P := Move.OfHold args) rfl rfl).trans (hold_locked rfl h)

/-! ## Allocations -/

/-- Every open reservation is backed by its allocations. -/
def Db.HoldsBacked (db : Db) : Prop :=
  ∀ k held, db.holds.get? k = some held → held.status = .held → held.Backed

theorem appendAllocations_sum (env : Env) (taken : List (ℕ × ℤ)) (t : Table HoldAllocation) :
    ((appendAllocations env taken t).sum fun _ alloc => alloc.credits) =
      (t.sum fun _ alloc => alloc.credits) + drawn taken := by
  unfold appendAllocations
  induction taken generalizing t with
  | nil => simp
  | cons p taken ih =>
    rw [List.foldl_cons, ih, Table.sum_insert, drawn_cons, add_assoc]

/-- An allocation is an old one or one amount drawn. -/
theorem appendAllocations_get? {env : Env} {taken : List (ℕ × ℤ)} {t : Table HoldAllocation}
    {a : ℕ} {alloc : HoldAllocation} (h : (appendAllocations env taken t).get? a = some alloc) :
    t.get? a = some alloc ∨ (alloc.lot, alloc.credits) ∈ taken := by
  unfold appendAllocations at h
  induction taken generalizing t with
  | nil => exact Or.inl h
  | cons p taken ih =>
    rcases ih h with hold | hmem
    · rw [Table.get?_insert] at hold
      split at hold
      · obtain rfl := Option.some.inj hold
        exact Or.inr List.mem_cons_self
      · exact Or.inl hold
    · exact Or.inr (List.mem_cons_of_mem _ hmem)

section Refunds
variable {env : Env} {h w : ℕ} {P : Move → Prop}

variable (env) in
/-- **Handing credits back** off a list of current allocations touches nothing of
the hold but them, and returns as much as asked, up to what they hold, when none
of them is negative. -/
theorem refundEach_moves (hrefund : P (.refund h)) (rows : List (ℕ × HoldAllocation)) {n : ℤ}
    {db : Db} {held : CreditHold} (hn : 0 ≤ n) (hnd : (rows.map Prod.fst).Nodup)
    (hheld : db.holds.get? h = some held) (hw : held.wallet = w) (hstatus : held.status = .held)
    (hrows : ∀ r ∈ rows, held.allocations.get? r.1 = some r.2) :
    Moves env w P db (refundEach env h w rows n db) ∧
    ∃ allocations, (refundEach env h w rows n db).holds.get? h =
        some { held with allocations } ∧
      ((∀ r ∈ rows, 0 ≤ r.2.credits) → (allocations.sum fun _ alloc => alloc.credits) =
        held.allocated - min n (rows.map fun r => r.2.credits).sum) := by
  induction rows generalizing n db held with
  | nil =>
    refine ⟨Relation.ReflTransGen.refl, held.allocations, hheld, fun _ => ?_⟩
    simp [CreditHold.allocated, hn]
  | cons r rows ih =>
    obtain ⟨a, alloc⟩ := r
    obtain ⟨hnot, hnd'⟩ := List.nodup_cons.mp hnd
    have halloc : held.allocations.get? a = some alloc := hrows _ List.mem_cons_self
    have htail : ∀ r ∈ rows, held.allocations.get? r.1 = some r.2 :=
      fun r hr => hrows r (List.mem_cons_of_mem _ hr)
    have hsigns : (∀ r ∈ (a, alloc) :: rows, 0 ≤ r.2.credits) →
        0 ≤ alloc.credits ∧ (∀ r ∈ rows, 0 ≤ r.2.credits) ∧
          0 ≤ (rows.map fun r => r.2.credits).sum := by
      intro hall
      refine ⟨hall _ List.mem_cons_self, fun r hr => hall r (List.mem_cons_of_mem _ hr), ?_⟩
      refine List.sum_nonneg fun x hx => ?_
      obtain ⟨r, hr, rfl⟩ := List.mem_map.mp hx
      exact hall r (List.mem_cons_of_mem _ hr)
    rw [List.map_cons, List.sum_cons]
    dsimp only
    by_cases hdone : n ≤ 0
    · rw [refundEach, if_pos hdone]
      refine ⟨Relation.ReflTransGen.refl, held.allocations, hheld, fun hall => ?_⟩
      obtain ⟨hcredits, -, hrest⟩ := hsigns hall
      show held.allocated = _
      omega
    · by_cases hskip : min n alloc.credits ≤ 0
      · simp only [refundEach, if_neg hdone, if_pos hskip]
        obtain ⟨hmoves, allocations, hget, hsum⟩ := ih hn hnd' hheld hw hstatus htail
        refine ⟨hmoves, allocations, hget, fun hall => ?_⟩
        obtain ⟨hcredits, hall', hrest⟩ := hsigns hall
        rw [hsum hall']
        omega
      · simp only [refundEach, if_neg hdone, if_neg hskip]
        -- The allocation gives its part back; the hold goes on with the others.
        have hstep : Step env w (.refund h) db
            (refundAllocation env h w a alloc (min n alloc.credits) db) :=
          Step.refund hheld hw hstatus halloc (by omega) (min_le_right _ _)
        have hheld' : (refundAllocation env h w a alloc (min n alloc.credits) db).holds.get? h =
            some { held with
              allocations := held.allocations.modify a fun alloc' =>
                { alloc' with credits := alloc'.credits - min n alloc.credits } } := by
          show (db.holds.modify h _).get? h = _
          rw [Table.get?_modify_self, hheld]
          rfl
        have hsum := Table.sum_modify halloc (fun alloc' =>
          { alloc' with credits := alloc'.credits - min n alloc.credits })
          fun _ alloc => alloc.credits
        obtain ⟨hmoves, allocations, hget, htotal⟩ := ih (n := n - min n alloc.credits)
          (by omega) hnd' hheld' hw hstatus
          (fun r hr => by
            have hne : r.1 ≠ a := fun he => hnot (List.mem_map.mpr ⟨r, hr, he⟩)
            exact (Table.get?_modify_of_ne _ _ hne).trans (htail r hr))
        refine ⟨Relation.ReflTransGen.head ⟨_, hrefund, hstep⟩ hmoves, allocations, hget,
          fun hall => ?_⟩
        obtain ⟨hcredits, hall', hrest⟩ := hsigns hall
        rw [htotal hall']
        simp only [CreditHold.allocated] at hsum ⊢
        omega

variable (env) in
/-- **Handing back part of a backed hold** leaves exactly the rest allocated. -/
theorem refundAllocations_moves (hrefund : P (.refund h)) {db : Db} {held : CreditHold} {n : ℤ}
    (hn : 0 ≤ n) (hheld : db.holds.get? h = some held) (hw : held.wallet = w)
    (hstatus : held.status = .held) :
    Moves env w P db (refundAllocations env h held n db) ∧
    ∃ allocations, (refundAllocations env h held n db).holds.get? h =
        some { held with allocations } ∧
      (held.Backed → n ≤ held.allocated →
        (allocations.sum fun _ alloc => alloc.credits) = held.allocated - n) := by
  have htotal : ((orderBy HoldAllocation.newest held.allocations.rows).map
      fun r => r.2.credits).sum = held.allocated :=
    orderBy_sum HoldAllocation.newest held.allocations.rows fun r => r.2.credits
  have hcurrent : ∀ r ∈ orderBy HoldAllocation.newest held.allocations.rows,
      held.allocations.get? r.1 = some r.2 :=
    fun r hr => Table.get?_eq_some_iff.mpr (mem_orderBy.mp hr)
  obtain ⟨hmoves, allocations, hget, hsum⟩ := refundEach_moves env hrefund
    (orderBy HoldAllocation.newest held.allocations.rows) hn
    (orderBy_nodup held.allocations.nodup) hheld hw hstatus hcurrent
  rw [htotal] at hsum
  subst hw
  refine ⟨hmoves, allocations, hget, fun hbacked hle => ?_⟩
  rw [hsum fun r hr => hbacked.nonneg _ _ (hcurrent r hr), min_eq_left hle]

end Refunds

/-! ## Capture -/

theorem captureLocked_cases {env : Env} {w : ℕ} {args : CaptureArgs} {db db' : Db} {t : ℕ}
    (h : captureLocked env w args db = .ok (t, db')) :
    ∃ held, db.holds.get? args.hold = some held ∧
      ((held.status = .captured ∧ db' = db ∧ ∃ row, captureRow w args.hold db = some (t, row)) ∨
       (held.status = .held ∧ 0 ≤ args.actualCredits.getD held.credits ∧
        ((held.metadata.wasWaived = true ∧
          (t, db') = meterOnlyCapture env w held (args.actualCredits.getD held.credits) args db) ∨
         (held.metadata.wasWaived = false ∧
          ∃ db₂, adjustHold env w held (args.actualCredits.getD held.credits) args
              (db.swept env w) = .ok db₂ ∧
            (t, db') =
              billHold env w held (args.actualCredits.getD held.credits) args db₂)))) := by
  unfold captureLocked at h
  split at h
  · rename_i held _ hheld
    refine ⟨held, hheld, ?_⟩
    split at h
    · rename_i hstatus
      split at h
      · rename_i txn row hrow
        obtain ⟨rfl, rfl⟩ := Prod.mk.inj (Except.ok.inj h)
        exact Or.inl ⟨hstatus, rfl, row, hrow⟩
      · cases h
    · cases h
    · cases h
    · rename_i hstatus
      simp only at h
      split at h
      · cases h
      rename_i hactual
      refine Or.inr ⟨hstatus, by omega, ?_⟩
      split at h
      · rename_i hwaived
        exact Or.inl ⟨hwaived, (Except.ok.inj h).symm⟩
      · rename_i hwaived
        split at h
        · cases h
        · rename_i db₂ hadjust
          exact Or.inr ⟨by simpa using hwaived, db₂, hadjust, (Except.ok.inj h).symm⟩
  · cases h

/-- The moves of a capture that read `held`. -/
def Move.OfCapture (args : CaptureArgs) (held : CreditHold) : Move → Prop
  | .sync | .expire _ => True
  | .refund h | .overdraw h => h = args.hold
  | .bill a current | .waive a current => a = args ∧ current = held ∧ held.status = .held
  | _ => False

/-- **Adjusting a hold** leaves exactly what the work cost allocated, when the hold
was backed. -/
theorem adjustHold_moves {env : Env} {w : ℕ} {args : CaptureArgs} {db db' : Db} {held : CreditHold}
    {actual : ℤ} (hheld : db.holds.get? args.hold = some held) (hw : held.wallet = w)
    (hstatus : held.status = .held) (hactual : 0 ≤ actual)
    (h : adjustHold env w held actual args db = .ok db') :
    Moves env w (Move.OfCapture args held) db db' ∧
    ∃ allocations, db'.holds.get? args.hold = some { held with allocations } ∧
      (held.Backed → (allocations.sum fun _ alloc => alloc.credits) = actual) := by
  unfold adjustHold at h
  split at h
  · rename_i hmore
    split at h
    · cases h
    · rename_i taken db₂ hok
      obtain ⟨hdraws, hdrawn, rfl⟩ := consumeLots_ok (by omega) hok
      obtain rfl := Except.ok.inj h
      refine ⟨Moves.single (m := .overdraw args.hold) rfl
        (Step.overdraw hheld hw hstatus hdraws), appendAllocations env taken held.allocations, ?_,
        fun hbacked => ?_⟩
      · show (db.holds.modify args.hold _).get? args.hold = _
        rw [Table.get?_modify_self, hheld]
        rfl
      · have htotal := hbacked.total
        rw [appendAllocations_sum, hdrawn]
        simp only [CreditHold.allocated] at htotal
        omega
  · split at h
    · rename_i hless
      obtain rfl := Except.ok.inj h
      obtain ⟨hmoves, allocations, hget, hsum⟩ := refundAllocations_moves env
        (P := Move.OfCapture args held) (n := held.credits - actual) rfl (by omega) hheld hw hstatus
      refine ⟨hmoves.trans (expireDueLots_moves env w trivial (fun _ => trivial) _),
        allocations, ?_, fun hbacked => ?_⟩
      · rw [(expireDueLots_frame _).1]
        exact hget
      · have htotal := hbacked.total
        rw [hsum hbacked (by omega)]
        omega
    · obtain rfl := Except.ok.inj h
      refine ⟨Relation.ReflTransGen.refl, held.allocations, hheld, fun hbacked => ?_⟩
      have htotal := hbacked.total
      show held.allocated = actual
      omega

theorem captureLocked_moves {env : Env} {w : ℕ} {args : CaptureArgs} {db db' : Db} {t : ℕ}
    {held : CreditHold} (hheld : db.holds.get? args.hold = some held) (hw : held.wallet = w)
    (h : captureLocked env w args db = .ok (t, db')) :
    Moves env w (Move.OfCapture args held) db db' := by
  obtain ⟨held', hheld', hcase⟩ := captureLocked_cases h
  obtain rfl := Option.some.inj (hheld.symm.trans hheld')
  rcases hcase with ⟨-, rfl, -⟩ | ⟨hstatus, hactual, hcase⟩
  · exact Relation.ReflTransGen.refl
  rcases hcase with ⟨hwaived, hrow⟩ | ⟨-, db₂, hadjust, hrow⟩
  · obtain ⟨-, rfl⟩ := Prod.mk.inj hrow
    exact Moves.single (m := .waive args held) ⟨rfl, rfl, hstatus⟩ (Step.waive hheld hw hstatus hwaived)
  · obtain ⟨-, rfl⟩ := Prod.mk.inj hrow
    have hswept := expireDueLots_moves env w (P := Move.OfCapture args held) trivial
      (fun _ => trivial) db
    have hheld₁ : (db.swept env w).holds.get? args.hold = some held :=
      (congrArg (fun t => t.get? args.hold) (expireDueLots_frame db).1).trans hheld
    obtain ⟨hmoves, allocations, hget, hsum⟩ := adjustHold_moves hheld₁ hw hstatus hactual hadjust
    exact (hswept.trans hmoves).tail ⟨.bill args held, ⟨rfl, rfl, hstatus⟩,
      Step.bill hget hw hstatus hsum⟩

theorem holdWallet_ok {h w : ℕ} {db : Db} (hok : holdWallet h db = .ok w) :
    ∃ held, db.holds.get? h = some held ∧ held.wallet = w := by
  unfold holdWallet at hok
  split at hok
  · rename_i held hheld
    exact ⟨held, hheld, Except.ok.inj hok⟩
  · cases hok

theorem capture_moves {env : Env} {args : CaptureArgs} {db db' : Db} {t : ℕ}
    (h : capture env args db = .ok (t, db')) :
    ∃ held, db.holds.get? args.hold = some held ∧
      Moves env held.wallet (Move.OfCapture args held) db db' := by
  unfold capture at h
  split at h
  · cases h
  · rename_i w hw
    obtain ⟨held, hheld, rfl⟩ := holdWallet_ok hw
    exact ⟨held, hheld, captureLocked_moves hheld rfl h⟩

/-! ## Release -/

/-- The moves of a release that read `held`. -/
def Move.OfRelease (args : ReleaseArgs) (held : CreditHold) : Move → Prop
  | .sync | .expire _ => True
  | .refund h => h = args.hold
  | .settle h current => h = args.hold ∧ current = held ∧ held.status = .held
  | _ => False

theorem releaseHeld_moves {env : Env} {w : ℕ} {args : ReleaseArgs} {db : Db} {held : CreditHold}
    (hheld : db.holds.get? args.hold = some held) (hw : held.wallet = w)
    (hstatus : held.status = .held) :
    Moves env w (Move.OfRelease args held) db (releaseHeld env w held args db) := by
  have hsweep := fun db => expireDueLots_moves env w (P := Move.OfRelease args held)
    trivial (fun _ => trivial) db
  have hheld₁ : (db.swept env w).holds.get? args.hold = some held :=
    (congrArg (fun t => t.get? args.hold) (expireDueLots_frame db).1).trans hheld
  have hrefund : Moves env w (Move.OfRelease args held) (db.swept env w)
      (refundAllocations env args.hold held held.allocated (db.swept env w)) ∧
      ∃ allocations, (refundAllocations env args.hold held held.allocated
          (db.swept env w)).holds.get? args.hold = some { held with allocations } ∧
        (held.Backed → (allocations.sum fun _ alloc => alloc.credits) = 0) := by
    by_cases hpos : 0 ≤ held.allocated
    · obtain ⟨hmoves, allocations, hget, hsum⟩ := refundAllocations_moves env
        (P := Move.OfRelease args held) (n := held.allocated) rfl hpos hheld₁ hw hstatus
      refine ⟨hmoves, allocations, hget, fun hbacked => ?_⟩
      rw [hsum hbacked le_rfl, sub_self]
    · -- Nothing is handed back, and the hold was not backed.
      have hnone : refundAllocations env args.hold held held.allocated (db.swept env w) =
          db.swept env w := by
        unfold refundAllocations
        cases orderBy HoldAllocation.newest held.allocations.rows with
        | nil => rfl
        | cons r rows => rw [refundEach, if_pos (by omega)]
      rw [hnone]
      refine ⟨Relation.ReflTransGen.refl, held.allocations, hheld₁, fun hbacked => ?_⟩
      exact absurd (Table.sum_nonneg hbacked.nonneg) hpos
  obtain ⟨hmoves, allocations, hget, hsum⟩ := hrefund
  refine ((((hsweep db).trans hmoves).trans (hsweep _)).tail
    ⟨.sync, trivial, Step.sync⟩).tail ⟨.settle args.hold held, ⟨rfl, rfl, hstatus⟩,
      @Step.settle _ _ _ _ _ { held with allocations } _ ?_ hw hsum ?_⟩
  · show (expireDueLots env w _).2.holds.get? args.hold = _
    rw [(expireDueLots_frame _).1]
    exact hget
  · refine ⟨hstatus, ?_⟩
    split
    · exact Or.inr rfl
    · exact Or.inl rfl

theorem release_cases {env : Env} {args : ReleaseArgs} {db db' : Db}
    (h : release env args db = .ok db') :
    ∃ held, db.holds.get? args.hold = some held ∧
      ((held.status ≠ .held ∧ db' = db) ∨
        (held.status = .held ∧ db' = releaseHeld env held.wallet held args db)) := by
  unfold release at h
  split at h
  · cases h
  · rename_i w hw
    obtain ⟨held, hheld, rfl⟩ := holdWallet_ok hw
    refine ⟨held, hheld, ?_⟩
    unfold releaseLocked at h
    split at h
    · rename_i _ current _ hcurrent
      obtain rfl := Option.some.inj (hheld.symm.trans hcurrent)
      split at h
      · rename_i hstatus
        exact Or.inr ⟨hstatus, (Except.ok.inj h).symm⟩
      · rename_i hstatus
        exact Or.inl ⟨hstatus, (Except.ok.inj h).symm⟩
    · cases h

theorem release_moves {env : Env} {args : ReleaseArgs} {db db' : Db}
    (h : release env args db = .ok db') :
    ∃ held, db.holds.get? args.hold = some held ∧
      Moves env held.wallet (Move.OfRelease args held) db db' := by
  obtain ⟨held, hheld, hcase⟩ := release_cases h
  refine ⟨held, hheld, ?_⟩
  rcases hcase with ⟨-, rfl⟩ | ⟨hstatus, rfl⟩
  · exact Relation.ReflTransGen.refl
  · exact releaseHeld_moves hheld rfl hstatus

/-! ## Clawbacks -/

theorem clawBackGrant_cases {env : Env} {grant : ℕ} {txn : Transaction} {credits : Option ℤ}
    {description : Option String} {metadata : Metadata} {db db' : Db} {r : ClawbackResult}
    (h : clawBackGrant env grant txn credits description metadata db = .ok (r, db')) :
    (∃ wallet, db.wallets.get? txn.wallet = some wallet) ∧
    ∃ requested taken forgiven, requested = credits.getD txn.creditsDelta ∧
      taken = draw requested (((db.swept env txn.wallet).grantedLots grant).map
        fun r => (r.1, r.2.creditsRemaining)) ∧
      forgiven = (if 0 < requested - drawn taken ∧ (db.swept env txn.wallet).grantedLots grant ≠ []
        then min (requested - drawn taken)
          ((db.swept env txn.wallet).expiredOf ((db.swept env txn.wallet).grantedLots grant))
        else 0) ∧
      (db.swept env txn.wallet).Draws (fun lot => lot.grantingTransaction = some grant) taken ∧
      (r, db') = bookClawback env grant txn requested (drawn taken) forgiven description metadata
        taken ((db.swept env txn.wallet).spendLots taken) := by
  unfold clawBackGrant at h
  split at h
  · cases h
  · rename_i wallet hwallet
    exact ⟨⟨wallet, hwallet⟩, _, _, _, rfl, rfl, rfl, Db.draws_walk _ CreditLot.age
      (fun lot => lot.grantingTransaction = some grant) _, (Except.ok.inj h).symm⟩

/-- The moves of a clawback of `grant`. -/
def Move.OfClawback (grant : ℕ) : Move → Prop
  | .sync | .expire _ => True
  | .clawback g _ _ _ _ _ => g = grant
  | _ => False

theorem clawBackGrant_moves {env : Env} {grant : ℕ} {txn : Transaction} {credits : Option ℤ}
    {description : Option String} {metadata : Metadata} {db db' : Db} {r : ClawbackResult}
    (h : clawBackGrant env grant txn credits description metadata db = .ok (r, db')) :
    Moves env txn.wallet (Move.OfClawback grant) db db' := by
  obtain ⟨-, requested, taken, forgiven, -, -, -, hdraws, hrow⟩ := clawBackGrant_cases h
  obtain ⟨-, rfl⟩ := Prod.mk.inj hrow
  exact (expireDueLots_moves env _ trivial (fun _ => trivial) db).tail
    ⟨.clawback grant requested (drawn taken) forgiven metadata taken, rfl,
      Step.clawback rfl hdraws⟩

/-! ## Reversals -/

theorem reverseClawback_cases {env : Env} {k : ℕ} {row : Transaction} {eventId : Option String}
    {db db' : Db} {n : ℤ} (h : reverseClawback env k row eventId db = .ok (n, db')) :
    ∃ current, db.transactions.get? k = some current ∧
      ((current.metadata.truthy .reversed = true ∧ n = 0 ∧ db' = db) ∨
       (current.metadata.truthy .reversed = false ∧ ∃ grant reclaimed debt requested,
        lookupPk db.transactions .transaction (current.metadata .clawbackOf) = .ok grant ∧
        current.metadata.intOrZero .reclaimed = .ok reclaimed ∧
        clawbackDebt current.metadata db = .ok debt ∧
        current.metadata.intOrZero .requested = .ok requested ∧
        n = reclaimed + (debt.map fun d => d.2.collected).getD 0 ∧
        ∃ db₁, db₁ = markReversed k requested eventId
            (giveBack env row.wallet k (grant.map Prod.fst) n eventId
              (closeDebt env debt eventId db)) ∧
          ((0 < n ∧ ∃ m, settleDebts env row.wallet db₁ = .ok (m, db')) ∨
            (¬ 0 < n ∧ db' = db₁)))) := by
  unfold reverseClawback at h
  split at h
  · rename_i current _ hcurrent
    refine ⟨current, hcurrent, ?_⟩
    dsimp only at h
    split at h
    · rename_i hreversed
      obtain ⟨rfl, rfl⟩ := Prod.mk.inj (Except.ok.inj h)
      exact Or.inl ⟨hreversed, rfl, rfl⟩
    · rename_i hreversed
      refine Or.inr ⟨by simpa using hreversed, ?_⟩
      rcases hgrant : lookupPk db.transactions .transaction (current.metadata .clawbackOf) with
        e | grant
      · rw [hgrant] at h; cases h
      rcases hreclaimed : current.metadata.intOrZero .reclaimed with e | reclaimed
      · rw [hgrant, hreclaimed] at h; cases h
      rcases hdebt : clawbackDebt current.metadata db with e | debt
      · rw [hgrant, hreclaimed, hdebt] at h; cases h
      rcases hrequested : current.metadata.intOrZero .requested with e | requested
      · rw [hgrant, hreclaimed, hdebt, hrequested] at h; cases h
      rw [hgrant, hreclaimed, hdebt, hrequested] at h
      refine ⟨grant, reclaimed, debt, requested, rfl, rfl, rfl, rfl, ?_⟩
      dsimp only [Bind.bind, Except.bind, pure, Except.pure] at h
      split at h
      · rename_i hpos
        rcases hsettle : settleDebts env row.wallet (markReversed k requested eventId
            (giveBack env row.wallet k (grant.map Prod.fst)
              (reclaimed + (debt.map fun d => d.2.collected).getD 0) eventId
              (closeDebt env debt eventId db))) with e | ⟨m, db₂⟩
        · rw [hsettle] at h; cases h
        · rw [hsettle] at h
          obtain ⟨rfl, rfl⟩ := Prod.mk.inj (Except.ok.inj h)
          exact ⟨rfl, _, rfl, Or.inl ⟨hpos, m, hsettle⟩⟩
      · rename_i hpos
        obtain ⟨rfl, rfl⟩ := Prod.mk.inj (Except.ok.inj h)
        exact ⟨rfl, _, rfl, Or.inr ⟨hpos, rfl⟩⟩
  · cases h

/-- The moves of a reversal of row `k`. -/
def Move.OfReversal (k : ℕ) : Move → Prop
  | .collect _ _ _ _ | .cancel _ | .restore _ _ => True
  | .mark j => j = k
  | _ => False

theorem reverseClawback_moves {env : Env} {k : ℕ} {row : Transaction} {eventId : Option String}
    {db db' : Db} {n : ℤ} (h : reverseClawback env k row eventId db = .ok (n, db')) :
    Moves env row.wallet (Move.OfReversal k) db db' := by
  obtain ⟨current, -, hcase⟩ := reverseClawback_cases h
  rcases hcase with ⟨-, -, rfl⟩ | ⟨-, grant, reclaimed, debt, requested, -, -, -, -, -, db₁, rfl, hend⟩
  · exact Relation.ReflTransGen.refl
  have hclose : Moves env row.wallet (Move.OfReversal k) db (closeDebt env debt eventId db) := by
    unfold closeDebt
    split
    · split
      · exact Moves.single (m := .cancel _) trivial Step.cancel
      · exact Relation.ReflTransGen.refl
    · exact Relation.ReflTransGen.refl
  have hgive := hclose.trans (c := giveBack env row.wallet k (grant.map Prod.fst) n eventId
      (closeDebt env debt eventId db)) (by
    unfold giveBack
    split
    · rename_i hpos
      exact Moves.single (m := .restore _ _) trivial (Step.restore hpos)
    · exact Relation.ReflTransGen.refl)
  have hmark := hgive.tail (c := markReversed k requested eventId _) ⟨.mark k, rfl, Step.mark⟩
  rcases hend with ⟨-, m, hsettle⟩ | ⟨-, rfl⟩
  · exact hmark.trans (settleDebts_ok (fun _ _ _ _ => trivial) hsettle)
  · exact hmark

end StapelBilling
