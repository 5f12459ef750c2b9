import StapelBilling.HoldBooks
import StapelBilling.Service
import StapelBilling.Workers

/-! # The life of a hold

A hold is held until it is captured, released or expired.  Captured is for good; a
released or expired one comes back only when `hold` is called again under its key.  At
every moment of a run the allocations, the charge rows and the statuses tell one story:
an open hold draws what it reserves, a returned one nothing, and a captured one what its
one charge row took off the ledger.
-/
namespace StapelBilling
open Store

variable {env : Env} {w : ℕ} {db db' : Db}

/-! ## What `hold` writes -/

/-- The row a reservation writes: a new one, or the returned one armed again. -/
theorem reserve_holds {args : HoldArgs} {existing : Option ℕ} {k : ℕ}
    (h : reserve env w args existing db = .ok (k, db')) :
    (existing = none ∧ ∃ held : CreditHold, held.wallet = w ∧
        held.idempotencyKey = args.idempotencyKey ∧ db'.holds = db.holds.insert held) ∨
      (existing = some k ∧ ∃ f : CreditHold → CreditHold,
        (∀ a, (f a).status = .held ∧ (f a).expiresAt = holdDeadline env args.expiresAt) ∧
        db'.holds = db.holds.modify k f) := by
  obtain ⟨credits, metadata, taken, db₂, hcredits, htake, hk, rfl⟩ := reserve_cases h
  have hholds : db₂.holds = db.holds := by
    unfold takeCredits at htake
    split at htake
    · obtain ⟨-, rfl⟩ := Prod.mk.inj (Except.ok.inj htake)
      exact (expireDueLots_frame db).1
    · simp only [consumeLots] at htake
      split at htake
      · cases htake
      · obtain ⟨-, rfl⟩ := Prod.mk.inj (Except.ok.inj htake)
        exact (expireDueLots_frame db).1
  cases existing with
  | none =>
    refine Or.inl ⟨rfl, ?_⟩
    rw [← hholds]
    exact ⟨_, rfl, rfl, rfl⟩
  | some j =>
    obtain rfl : k = j := hk
    refine Or.inr ⟨rfl, ?_⟩
    rw [← hholds]
    exact ⟨_, fun a => ⟨rfl, rfl⟩, armHold_holds env w db₂ args credits metadata k taken⟩

/-- **What `hold` does to the holds**: nothing, a row under a key its wallet does not have
yet, or a returned row of this key armed again. -/
theorem hold_holds {args : HoldArgs} {k : ℕ} (h : hold env args db = .ok (k, db')) :
    db'.holds = db.holds ∨
      (∃ held : CreditHold, db'.holds = db.holds.insert held ∧
        ∀ j old, db.holds.get? j = some old → old.wallet = held.wallet →
          old.idempotencyKey ≠ held.idempotencyKey) ∨
      (∃ held, db.holds.get? k = some held ∧ held.idempotencyKey = args.idempotencyKey ∧
        held.status.GivenBack ∧ ∃ f : CreditHold → CreditHold,
          (∀ a, (f a).status = .held ∧ (f a).expiresAt = holdDeadline env args.expiresAt) ∧
          db'.holds = db.holds.modify k f) := by
  obtain ⟨w, db₁, hlock, -, -, hcase⟩ := hold_cases h
  have hholds : db₁.holds = db.holds := by
    rcases lockWallet_cases hlock with ⟨rfl, -⟩ | ⟨-, rfl, -⟩
    · rfl
    · rfl
  rcases hcase with ⟨held, -, -, rfl⟩ | ⟨existing, hreserve, hexisting, hnew⟩
  · exact Or.inl hholds
  · rcases reserve_holds hreserve with ⟨rfl, held, hwallet, hkey, hrows⟩ | ⟨rfl, f, hf, hrows⟩
    · refine Or.inr (Or.inl ⟨held, ?_, fun j old hj hsame => ?_⟩)
      · rw [hrows, hholds]
      · rw [hkey]
        rw [← hholds] at hj
        exact hnew rfl j old hj (hsame.trans hwallet)
    · obtain ⟨-, held, hget, -, hkey, hback⟩ := hexisting k rfl
      rw [hholds] at hget hrows
      exact Or.inr (Or.inr ⟨held, hget, hkey, hback, f, hf, hrows⟩)

/-- A wallet has at most one hold under a key. -/
def Db.HoldKeysUnique (db : Db) : Prop :=
  ∀ j k a b, db.holds.get? j = some a → db.holds.get? k = some b → a.wallet = b.wallet →
    a.idempotencyKey = b.idempotencyKey → j = k

/-- Rewriting holds in place keeps their keys unique. -/
theorem Db.HoldKeysUnique.grows (hu : db.HoldKeysUnique) (h : db.Grows w db')
    (hnext : db'.holds.next = db.holds.next) : db'.HoldKeysUnique := by
  have hold : ∀ j b, db'.holds.get? j = some b → ∃ a, db.holds.get? j = some a ∧ a.Same b := by
    intro j b hj
    rcases h.holds.origin j b hj with hsame | ⟨hle, -⟩
    · exact hsame
    · have hlt := Table.get?_lt_next hj
      omega
  intro j k a b hj hk hwallet hkey
  obtain ⟨a', hj', ha⟩ := hold j a hj
  obtain ⟨b', hk', hb⟩ := hold k b hk
  refine hu j k a' b' hj' hk' ?_ ?_
  · rw [← ha.1, ← hb.1, hwallet]
  · rw [← ha.2, ← hb.2, hkey]

/-- Only arming adds a hold. -/
theorem Step.holds_next {m : Move} (h : Step env w m db db') (hm : ¬ m.IsArm) :
    db'.holds.next = db.holds.next := by
  cases h with
  | arm _ _ _ _ => exact absurd trivial hm
  | meter =>
    unfold meterOnlyDebit
    dsimp only
    split <;> rfl
  | charge _ _ _ =>
    unfold chargeDebit
    dsimp only
    split <;> split <;> rfl
  | clawback _ _ =>
    unfold bookClawback
    dsimp only
    split <;> rfl
  | restore _ => exact congrArg Table.next (expireDueLots_frame _).1
  | _ => rfl

theorem hold_keysUnique {args : HoldArgs} {k : ℕ} (hu : db.HoldKeysUnique)
    (h : hold env args db = .ok (k, db')) : db'.HoldKeysUnique := by
  rcases hold_holds h with hsame | ⟨held, hrows, hfresh⟩ | ⟨held, -, -, -, f, -, hrows⟩
  · exact hu.grows (hold_moves h).grows (congrArg Table.next hsame)
  · intro i j a b hi hj hwallet hkey
    rw [hrows, Table.get?_insert] at hi hj
    split at hi
    · rename_i hinext
      obtain rfl := Option.some.inj hi
      split at hj
      · rename_i hjnext
        rw [hinext, hjnext]
      · exact absurd hkey.symm (hfresh j b hj hwallet.symm)
    · split at hj
      · obtain rfl := Option.some.inj hj
        exact absurd hkey (hfresh i a hi hwallet)
      · exact hu i j a b hi hj hwallet hkey
  · refine hu.grows (hold_moves h).grows ?_
    rw [hrows]
    rfl

/-! ## Resolved holds -/

/-- **A move leaves a resolved hold alone**, unless it arms one. -/
theorem Step.resolved_kept {m : Move} (h : Step env w m db db') (hm : ¬ m.IsArm) {k : ℕ}
    {held : CreditHold} (hk : db.holds.get? k = some held) (hstatus : held.status ≠ .held) :
    db'.holds.get? k = some held := by
  have hopen : ∀ {j : ℕ} {a : CreditHold}, db.holds.get? j = some a → a.status = .held →
      some j ≠ some k := by
    intro j a ha hheld he
    obtain rfl := Option.some.inj he
    obtain rfl := Option.some.inj (hk.symm.trans ha)
    exact hstatus hheld
  rw [h.holds_frame hm, hk]
  cases h with
  | refund hheld _ hs _ _ _ | overdraw hheld _ hs _ | bill hheld _ hs _ | waive hheld _ hs _ =>
    exact hopen hheld hs
  | settle hheld _ _ hs => exact hopen hheld hs.1
  | _ => exact fun he => by cases he

/-- Did the hold come back to life? -/
def Db.Rearmed (h : ℕ) (held : CreditHold) (db' : Db) : Prop :=
  held.status.GivenBack ∧ ∃ held', db'.holds.get? h = some held' ∧ held'.status = .held

/-- Only `hold` arms a hold. -/
theorem WalletCall.Allows.not_isArm {c : WalletCall} {m : Move} (hm : c.Allows db m)
    (hc : ¬ ∃ args, c = .hold args) : ¬ m.IsArm := by
  intro harm
  cases m with
  | arm args _ _ => exact hc ⟨args, hm⟩
  | _ => exact harm.elim

/-- **A call leaves a resolved hold alone**; only `hold` under its key arms a returned
one again. -/
theorem exec_resolved {c : WalletCall} (h : c.exec env db = .ok db') {k : ℕ} {held : CreditHold}
    (hk : db.holds.get? k = some held) (hstatus : held.status ≠ .held) :
    db'.holds.get? k = some held ∨ Db.Rearmed k held db' ∧
      ∃ args, c = .hold args ∧ args.idempotencyKey = held.idempotencyKey := by
  by_cases hhold : ∃ args, c = .hold args
  · obtain ⟨args, rfl⟩ := hhold
    obtain ⟨j, hok⟩ := map_snd_ok h
    rcases hold_holds hok with hsame | ⟨new, hrows, -⟩ | ⟨old, hold, hkey, hback, f, hf, hrows⟩
    · rw [hsame]
      exact Or.inl hk
    · rw [hrows]
      exact Or.inl (Table.get?_insert_of_some _ hk)
    · by_cases hkj : k = j
      · subst hkj
        obtain rfl := Option.some.inj (hk.symm.trans hold)
        refine Or.inr ⟨⟨hback, f held, ?_, (hf held).1⟩, args, rfl, hkey.symm⟩
        rw [hrows, Table.get?_modify_self, hk]
        rfl
      · rw [hrows, Table.get?_modify_of_ne _ _ hkj]
        exact Or.inl hk
  · refine Or.inl (Moves.invariant (I := fun d => d.holds.get? k = some held) ?_ (exec_moves h) hk)
    exact fun m _ _ hm hI hs => hs.resolved_kept (WalletCall.Allows.not_isArm hm hhold) hI hstatus

/-! ## What a call keeps -/

/-- What every run of holds keeps. -/
structure Db.HoldsSound (db : Db) : Prop where
  books : db.HoldBooks
  returned : db.Returned
  backed : db.HoldsBacked
  keys : db.HoldKeysUnique
  referenced : db.Referenced

theorem Db.Bare.holdsSound (hb : db.Bare) : db.HoldsSound := by
  have hlots : ∀ {k : ℕ} {lot : CreditLot} {P : Prop}, db.lots.get? k = some lot → P := by
    intro k lot P hk
    rw [hb.lots] at hk
    exact Table.get?_empty_ne hk
  have hrows : ∀ {k : ℕ} {row : Transaction} {P : Prop}, db.transactions.get? k = some row → P := by
    intro k row P hk
    rw [hb.transactions] at hk
    exact Table.get?_empty_ne hk
  have hholds : ∀ {k : ℕ} {held : CreditHold} {P : Prop}, db.holds.get? k = some held → P := by
    intro k held P hk
    rw [hb.holds] at hk
    exact Table.get?_empty_ne hk
  have hdebts : ∀ {k : ℕ} {debt : CreditDebt} {P : Prop}, db.debts.get? k = some debt → P := by
    intro k debt P hk
    rw [hb.debts] at hk
    exact Table.get?_empty_ne hk
  exact {
    books := ⟨fun _ _ _ hk => hdebts hk, fun _ _ hk => hholds hk, fun _ _ _ hk => hrows hk,
      fun _ _ _ _ _ hk => hrows hk⟩
    returned := fun _ _ hk => hholds hk
    backed := fun _ _ hk => hholds hk
    keys := fun _ _ _ _ hk => hholds hk
    referenced := ⟨fun _ _ hk => hlots hk, fun _ _ hk => hrows hk, fun _ _ hk => hholds hk,
      fun _ _ hk => hdebts hk⟩ }

/-- A call that takes nothing back, whose caller brings neither a `hold_id` nor the mark
of a waived spend. -/
def WalletCall.IsHoldSafe (c : WalletCall) : Prop :=
  c.IsPlain ∧ c.metadata .holdId = none ∧ c.metadata .internalMeterOnly = none

theorem WalletCall.IsHoldSafe.wasWaived {c : WalletCall} (hc : c.IsHoldSafe) :
    c.metadata.wasWaived = false := by
  simp [Metadata.wasWaived, Metadata.truthy, hc.2.2, Json.truthy]

/-- Every move of such a call bills a hold or names none. -/
theorem WalletCall.IsHoldSafe.quiet {c : WalletCall} (hc : c.IsHoldSafe) {m : Move}
    (hm : c.Allows db m) : m.IsCharge ∨ ∀ k, m.Quiet .holdId (.ref .hold k) := by
  have hnone : ∀ {md : Metadata}, md = c.metadata → ∀ k, md .holdId ≠ some (.ref .hold k) := by
    rintro _ rfl k
    rw [hc.2.1]
    exact fun he => by cases he
  cases m with
  | bill _ _ | waive _ _ => exact Or.inl trivial
  | grant args | meter args | charge args _ _ =>
    exact Or.inr (hnone (congrArg WalletCall.metadata hm).symm)
  | clawback _ _ _ _ _ _ | cancel _ | restore _ _ | mark _ => exact absurd hc.1 hm
  | _ => exact Or.inr fun _ => trivial

theorem exec_keysUnique {c : WalletCall} (hu : db.HoldKeysUnique) (h : c.exec env db = .ok db') :
    db'.HoldKeysUnique := by
  by_cases hhold : ∃ args, c = .hold args
  · obtain ⟨args, rfl⟩ := hhold
    obtain ⟨k, hok⟩ := map_snd_ok h
    exact hold_keysUnique hu hok
  · refine hu.grows (exec_moves h).grows ?_
    refine Moves.invariant (I := fun d => d.holds.next = db.holds.next) ?_ (exec_moves h) rfl
    intro m d d' hm hI hs
    rw [hs.holds_next (hm.not_isArm hhold), hI]

/-- **A call keeps the holds sound.** -/
theorem exec_holdsSound {c : WalletCall} (hc : c.IsHoldSafe) (hs : db.HoldsSound)
    (h : c.exec env db = .ok db') : db'.HoldsSound := by
  have hmoves := exec_moves h
  refine ⟨?_, ?_, exec_backed hs.backed hc.wasWaived h, exec_keysUnique hs.keys h,
    exec_referenced hs.referenced h⟩
  · refine Moves.invariant (I := Db.HoldBooks) ?_ hmoves hs.books
    exact fun m d d' hm hI hstep => hstep.holdBooks (hs.backed.allows hm) (hc.quiet hm) hI
  · refine Moves.invariant (I := Db.Returned) ?_ hmoves hs.returned
    exact fun m d d' hm hI hstep => hstep.returned (hs.backed.allows hm) hI

/-! ## Runs with the workers -/

/-- A call of the service on holds: a wallet operation or a worker. -/
inductive LifecycleCall
  | wallet (c : WalletCall)
  | expireHolds
  | expireCreditLots

/-- The database a successful call leaves. -/
def LifecycleCall.exec (env : Env) : LifecycleCall → Db → Except BillingError Db
  | .wallet c, db => c.exec env db
  | .expireHolds, db => .ok (StapelBilling.expireHolds env db)
  | .expireCreditLots, db => .ok (StapelBilling.expireCreditLots env db).2

/-- A serial run. -/
def runLifecycle (calls : List (Env × LifecycleCall)) (db : Db) : Db :=
  Store.run (fun c => c.2.exec c.1) calls db

/-- The calls whose caller brings neither a `hold_id` nor the mark of a waived spend. -/
def LifecycleCall.IsHoldSafe : LifecycleCall → Prop
  | .wallet c => c.IsHoldSafe
  | .expireHolds | .expireCreditLots => True

variable (env) in
/-- The hold worker makes releases, one after the other. -/
theorem releaseStale_run (holds : List ℕ) (db : Db) : ∃ released : List ℕ,
    releaseStale env holds db = Store.run (WalletCall.exec env)
      (released.map fun h => .release { hold := h, expired := true }) db := by
  induction holds generalizing db with
  | nil => exact ⟨[], rfl⟩
  | cons h holds ih =>
    simp only [releaseStale]
    cases hrel : release env { hold := h, expired := true } db with
    | error e => exact ⟨[], rfl⟩
    | ok db₁ =>
      obtain ⟨released, hrun⟩ := ih db₁
      have hok : (WalletCall.release { hold := h, expired := true }).exec env db = .ok db₁ := hrel
      refine ⟨h :: released, ?_⟩
      rw [List.map_cons, Store.run_cons, Store.commit_ok hok]
      exact hrun

variable (env) in
/-- The expiry worker makes sweeps, one after the other. -/
theorem expireWallets_run (wallets : List ℕ) (db : Db) : ∃ swept : List ℕ,
    (expireWallets env wallets db).2 = Store.run (WalletCall.exec env)
      (swept.map WalletCall.expireDueLots) db := by
  induction wallets generalizing db with
  | nil => exact ⟨[], rfl⟩
  | cons w wallets ih =>
    simp only [expireWallets]
    cases hw : db.wallets.get? w with
    | none => exact ih db
    | some wallet =>
      obtain ⟨swept, hrun⟩ := ih (expireDueLots env w db).2
      exact ⟨w :: swept, hrun⟩

/-- **A worker's pass is a run of plain calls**, none of which is a `hold`. -/
theorem LifecycleCall.exec_run {c : LifecycleCall} (hc : c.IsHoldSafe)
    (h : c.exec env db = .ok db') : ∃ calls : List WalletCall,
      db' = Store.run (WalletCall.exec env) calls db ∧ (∀ c' ∈ calls, c'.IsHoldSafe) ∧
      ∀ args, .hold args ∈ calls → c = .wallet (.hold args) := by
  have hplain : ∀ {c' : WalletCall}, c'.IsPlain → c'.metadata = Metadata.empty →
      c'.IsHoldSafe := by
    intro c' hplain hmeta
    refine ⟨hplain, ?_, ?_⟩
    · rw [hmeta]; rfl
    · rw [hmeta]; rfl
  cases c with
  | wallet c =>
    have hok : c.exec env db = .ok db' := h
    refine ⟨[c], ?_, ?_, ?_⟩
    · rw [Store.run_cons, Store.commit_ok hok]
      rfl
    · exact fun c' hmem => List.mem_singleton.mp hmem ▸ hc
    · exact fun args hmem => congrArg LifecycleCall.wallet (List.mem_singleton.mp hmem).symm
  | expireHolds =>
    obtain rfl := Except.ok.inj h
    obtain ⟨released, hrun⟩ := releaseStale_run env (db.staleHolds env.now) db
    refine ⟨_, hrun, fun c' hmem => ?_, fun args hmem => ?_⟩
    · obtain ⟨k, -, rfl⟩ := List.mem_map.mp hmem
      exact hplain trivial rfl
    · obtain ⟨k, -, he⟩ := List.mem_map.mp hmem
      cases he
  | expireCreditLots =>
    obtain rfl := Except.ok.inj h
    obtain ⟨swept, hrun⟩ := expireWallets_run env (db.dueWallets env.now) db
    refine ⟨_, hrun, fun c' hmem => ?_, fun args hmem => ?_⟩
    · obtain ⟨k, -, rfl⟩ := List.mem_map.mp hmem
      exact hplain trivial rfl
    · obtain ⟨k, -, he⟩ := List.mem_map.mp hmem
      cases he

theorem LifecycleCall.exec_holdsSound {c : LifecycleCall} (hc : c.IsHoldSafe) (hs : db.HoldsSound)
    (h : c.exec env db = .ok db') : db'.HoldsSound := by
  obtain ⟨calls, rfl, hsafe, -⟩ := LifecycleCall.exec_run hc h
  refine Store.run_invariant (I := Db.HoldsSound) ?_ hs
  exact fun c hc d d' hd h => StapelBilling.exec_holdsSound (hsafe c hc) hd h

theorem LifecycleCall.exec_resolved {c : LifecycleCall}
    (h : c.exec env db = .ok db') {k : ℕ} {held : CreditHold} (hk : db.holds.get? k = some held)
    (hstatus : held.status ≠ .held) : db'.holds.get? k = some held ∨ Db.Rearmed k held db' ∧
      ∃ args, c = .wallet (.hold args) ∧ args.idempotencyKey = held.idempotencyKey := by
  by_cases hwallet : ∃ c', c = .wallet c'
  · obtain ⟨c', rfl⟩ := hwallet
    rcases StapelBilling.exec_resolved h hk hstatus with hsame | ⟨harmed, args, rfl, hkey⟩
    · exact Or.inl hsame
    · exact Or.inr ⟨harmed, args, rfl, hkey⟩
  · have hworker : c.IsHoldSafe := by
      cases c with
      | wallet c' => exact absurd ⟨c', rfl⟩ hwallet
      | _ => exact trivial
    obtain ⟨calls, rfl, -, hnone⟩ := LifecycleCall.exec_run hworker h
    refine Or.inl (Store.run_invariant (I := fun d : Db => d.holds.get? k = some held) ?_ hk)
    intro c' hc' d d' hd hok
    rcases StapelBilling.exec_resolved hok hd hstatus with hsame | ⟨-, args, rfl, -⟩
    · exact hsame
    · exact absurd ⟨_, hnone args hc'⟩ hwallet

/-- A captured hold and a ledger row stay what they are. -/
structure Db.KeepsCharges (db db' : Db) : Prop where
  holds : ∀ h held, db.holds.get? h = some held → held.status = .captured →
    db'.holds.get? h = some held
  rows : ∀ k row, db.transactions.get? k = some row → db'.transactions.get? k = some row

theorem LifecycleCall.exec_keepsCharges {c : LifecycleCall} (hc : c.IsHoldSafe)
    (h : c.exec env db = .ok db') : db.KeepsCharges db' := by
  refine ⟨fun k held hk hstatus => ?_, fun k row hk => ?_⟩
  · rcases LifecycleCall.exec_resolved h hk (by rw [hstatus]; decide) with hsame | ⟨harmed, -⟩
    · exact hsame
    · exact absurd hstatus harmed.1.ne_captured
  · obtain ⟨calls, rfl, hsafe, -⟩ := LifecycleCall.exec_run hc h
    refine Store.run_invariant (I := fun d : Db => d.transactions.get? k = some row) ?_ hk
    exact fun c' hc' d d' hd hok => exec_row_kept (hsafe c' hc').1 hok hd

/-! ## The story the tables tell -/

/-- The holds, their allocations and the charge rows agree. -/
structure Db.HoldsAgree (db : Db) : Prop where
  held : ∀ h held, db.holds.get? h = some held → held.status = .held →
    held.allocated = held.credits
  returned : ∀ h held, db.holds.get? h = some held → held.status.GivenBack → held.allocated = 0
  captured : ∀ h held, db.holds.get? h = some held → held.status = .captured →
    ∃ k row, (∀ j row', db.transactions.get? j = some row' ∧ row'.ChargesHold h ↔
        j = k ∧ row' = row) ∧
      -row.creditsDelta = held.allocated ∧
      ∀ env args, args.hold = h → capture env args db = .ok (k, db)
  charges : ∀ j k row row' h h' held held', db.transactions.get? j = some row →
    db.transactions.get? k = some row' → row.ChargesHold h → row'.ChargesHold h' →
    db.holds.get? h = some held → db.holds.get? h' = some held' → held.wallet = held'.wallet →
    held.idempotencyKey = held'.idempotencyKey → j = k

/-- **A captured hold answers with its charge row.** -/
theorem capture_captured {args : CaptureArgs} {held : CreditHold} {k : ℕ} {row : Transaction}
    (hb : db.HoldBooks) (hr : db.Referenced) (hheld : db.holds.get? args.hold = some held)
    (hstatus : held.status = .captured) (hk : db.transactions.get? k = some row)
    (hcharge : row.ChargesHold args.hold) (hw : row.wallet = held.wallet) :
    capture env args db = .ok (k, db) := by
  obtain ⟨wallet, hwallet⟩ := hr.holds _ _ hheld
  have hrow : captureRow held.wallet args.hold db = some (k, row) := by
    unfold captureRow
    rw [Table.select_eq_singleton hk ⟨hw, hcharge⟩]
    · rfl
    · exact fun j row' hj hrow' => hb.once j k row' row args.hold hj hrow'.2 hk hcharge
  unfold capture holdWallet
  simp only [hheld]
  unfold captureLocked
  simp only [hwallet, hheld, hstatus, hrow]

theorem Db.HoldsSound.agree (hs : db.HoldsSound) : db.HoldsAgree where
  held := fun h held hk hstatus => (hs.backed h held hk hstatus).total
  returned := hs.returned
  captured := by
    intro h held hk hstatus
    obtain ⟨k, row, hrow, hcharge, hw, hsum⟩ := hs.books.charged h held hk hstatus
    refine ⟨k, row, fun j row' => ⟨?_, ?_⟩, hsum, ?_⟩
    · rintro ⟨hj, hcharge'⟩
      obtain rfl := hs.books.once j k row' row h hj hcharge' hrow hcharge
      exact ⟨rfl, Option.some.inj (hj.symm.trans hrow)⟩
    · rintro ⟨rfl, rfl⟩
      exact ⟨hrow, hcharge⟩
    · rintro env args rfl
      exact capture_captured hs.books hs.referenced hk hstatus hrow hcharge hw
  charges := by
    intro j k row row' h h' held held' hj hk hcharge hcharge' hheld hheld' hwallet hkey
    obtain rfl := hs.keys h h' held held' hheld hheld' hwallet hkey
    exact hs.books.once j k row row' h hj hcharge hk hcharge'

/-- **The life of a hold.**  For every serial run of wallet operations and workers from a
database without wallets, whose callers bring neither a `hold_id` nor the mark of a waived
spend: at every moment an open hold draws what it reserves, a returned one nothing and a
captured one what its one charge row bills, which every capture of it answers with,
changing nothing; each key has at most one charge row; a captured hold stays as it is, and
its row with it; and only `hold` under its key takes a returned hold up again. -/
theorem hold_lifecycle (hbare : db.Bare) {calls : List (Env × LifecycleCall)}
    (hsafe : ∀ c ∈ calls, c.2.IsHoldSafe) :
    (∀ n, (runLifecycle (calls.take n) db).HoldsAgree) ∧
    (∀ m n, m ≤ n →
      (runLifecycle (calls.take m) db).KeepsCharges (runLifecycle (calls.take n) db)) ∧
    ∀ p ∈ Store.trace (fun c => LifecycleCall.exec c.1 c.2) calls db, ∀ h held,
      p.2.holds.get? h = some held → held.status ≠ .held →
      (Store.commit (p.1.2.exec p.1.1) p.2).holds.get? h = some held ∨
        Db.Rearmed h held (Store.commit (p.1.2.exec p.1.1) p.2) ∧
        ∃ args, p.1.2 = .wallet (.hold args) ∧ args.idempotencyKey = held.idempotencyKey := by
  refine ⟨fun n => ?_, fun m n hle => ?_, fun p hp h held hk hstatus => ?_⟩
  · refine (Store.run_invariant (I := Db.HoldsSound) ?_ hbare.holdsSound).agree
    intro c hc d d' hd h
    exact LifecycleCall.exec_holdsSound (hsafe c (List.mem_of_mem_take hc)) hd h
  · refine Store.run_take_relation hle (fun d => ⟨fun _ _ hk _ => hk, fun _ _ hk => hk⟩) ?_ ?_
    · rintro a b c ⟨hholds, hrows⟩ ⟨hholds', hrows'⟩
      exact ⟨fun h held hk hs => hholds' h held (hholds h held hk hs) hs,
        fun k row hk => hrows' k row (hrows k row hk)⟩
    · exact fun c hc d d' h => LifecycleCall.exec_keepsCharges (hsafe c hc) h
  · cases hexec : p.1.2.exec p.1.1 p.2 with
    | error e =>
      rw [Store.commit_error hexec]
      exact Or.inl hk
    | ok db' =>
      rw [Store.commit_ok hexec]
      exact LifecycleCall.exec_resolved hexec hk hstatus

/-- A reservation is billed below what it reserved and billed again; another is given up,
taken up again under its key and left to the hold worker. -/
def holdTakenUpAgain : List (Env × LifecycleCall) :=
  [(Env.plain 0, .wallet (.credit
      { user := 7
        credits := 100
        type := .creditPurchase
        source := .purchase })),
    (Env.plain 10, .wallet (.hold
      { user := 7
        credits := 60
        type := .aiCharge
        idempotencyKey := "job" })),
    (Env.plain 20, .wallet (.capture
      { hold := 0
        actualCredits := some 25 })),
    (Env.plain 30, .wallet (.capture { hold := 0 })),
    (Env.plain 40, .wallet (.hold
      { user := 7
        credits := 30
        type := .aiCharge
        idempotencyKey := "retry" })),
    (Env.plain 50, .wallet (.release { hold := 1 })),
    (Env.plain 60, .wallet (.hold
      { user := 7
        credits := 40
        type := .aiCharge
        idempotencyKey := "retry"
        expiresAt := some 70 })),
    (Env.plain 80, .expireHolds)]

theorem hold_lifecycle_takenUpAgain :
    (runLifecycle holdTakenUpAgain Db.empty).HoldsAgree := by
  have hbare : Db.empty.Bare := ⟨rfl, rfl, rfl, rfl, rfl⟩
  have hsafe : ∀ c ∈ holdTakenUpAgain, c.2.IsHoldSafe := by
    intro c hc
    simp only [holdTakenUpAgain, List.mem_cons, List.not_mem_nil, or_false] at hc
    rcases hc with rfl | rfl | rfl | rfl | rfl | rfl | rfl | rfl
    all_goals first
      | exact ⟨trivial, rfl, rfl⟩
      | exact trivial
  exact (hold_lifecycle hbare hsafe).1 8

end StapelBilling
