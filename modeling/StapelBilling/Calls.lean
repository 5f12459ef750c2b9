import StapelBilling.Frames
import StapelBilling.Store.Transactions

/-! # Serial runs of wallet calls

A call names an operation and its arguments; `exec` runs it as one transaction
with the environment it happened to meet.  A serial run is a list of such calls,
each committed or rolled back before the next.
-/
namespace StapelBilling
open Store

/-- An environment with default settings at `now`, whose rows are stamped with its
clock and identified in insertion order. -/
def Env.plain (now : Time) : Env := { now, createdAt := fun _ => now, uuid := id }

/-- A call on a wallet.  A clawback and a reversal name the ledger row they are
about, which the caller has read. -/
inductive WalletCall
  | credit (args : CreditArgs)
  | debit (args : DebitArgs)
  | hold (args : HoldArgs)
  | capture (args : CaptureArgs)
  | release (args : ReleaseArgs)
  | expireDueLots (wallet : ℕ)
  | clawBackGrant (grant : ℕ) (credits : Option ℤ) (description : Option String)
      (metadata : Metadata)
  | reverseClawback (row : ℕ) (eventId : Option String)

/-- The database a successful call leaves. -/
def WalletCall.exec (env : Env) : WalletCall → Db → Except BillingError Db
  | .credit args, db => (StapelBilling.credit env args db).map Prod.snd
  | .debit args, db => (StapelBilling.debit env args db).map Prod.snd
  | .hold args, db => (StapelBilling.hold env args db).map Prod.snd
  | .capture args, db => (StapelBilling.capture env args db).map Prod.snd
  | .release args, db => StapelBilling.release env args db
  | .expireDueLots w, db => .ok (StapelBilling.expireDueLots env w db).2
  | .clawBackGrant grant credits description metadata, db =>
    match db.transactions.get? grant with
    | some txn => (StapelBilling.clawBackGrant env grant txn credits description metadata db).map
        Prod.snd
    | none => .error .doesNotExist
  | .reverseClawback k eventId, db =>
    match db.transactions.get? k with
    | some row => (StapelBilling.reverseClawback env k row eventId db).map Prod.snd
    | none => .error .doesNotExist

/-- A serial run, each call in its own environment. -/
def runCalls (calls : List (Env × WalletCall)) (db : Db) : Db :=
  Store.run (fun c => c.2.exec c.1) calls db

/-- The metadata a caller brings. -/
def WalletCall.metadata : WalletCall → Metadata
  | .credit args => args.metadata
  | .debit args => args.metadata
  | .hold args => args.metadata
  | .capture args => args.metadata
  | .clawBackGrant _ _ _ metadata => metadata
  | .release _ | .expireDueLots _ | .reverseClawback _ _ => Metadata.empty

/-- The user a call names, for whom it opens a wallet when there is none. -/
def WalletCall.user? : WalletCall → Option UserId
  | .credit args => some args.user
  | .debit args => some args.user
  | .hold args => some args.user
  | _ => none

/-- The wallet whose row lock the call takes. -/
def WalletCall.wallet (db : Db) : WalletCall → ℕ
  | .credit args => (lockWallet args.user db).1
  | .debit args => (lockWallet args.user db).1
  | .hold args => (lockWallet args.user db).1
  | .capture args => ((db.holds.get? args.hold).map CreditHold.wallet).getD 0
  | .release args => ((db.holds.get? args.hold).map CreditHold.wallet).getD 0
  | .expireDueLots w => w
  | .clawBackGrant grant _ _ _ => ((db.transactions.get? grant).map Transaction.wallet).getD 0
  | .reverseClawback k _ => ((db.transactions.get? k).map Transaction.wallet).getD 0

/-- Does the call take nothing back? -/
def WalletCall.IsPlain : WalletCall → Prop
  | .clawBackGrant _ _ _ _ | .reverseClawback _ _ => False
  | _ => True

/-- Does the move take nothing back? -/
def Move.IsPlain : Move → Prop
  | .clawback _ _ _ _ _ _ | .cancel _ | .restore _ _ | .mark _ => False
  | _ => True

/-- The moves of a call on `db`: it opens a wallet for nobody but the user it names, only
`credit` grants, only `debit` charges and only `hold` arms, each with its own arguments,
the hold it bills or settles is an open one of `db`, and it takes credits back only when
that is what it is for. -/
def WalletCall.Allows (db : Db) (c : WalletCall) : Move → Prop
  | .openWallet user => c.user? = some user
  | .grant args => c = .credit args
  | .meter args | .charge args _ _ => c = .debit args
  | .arm args _ _ => c = .hold args
  | .clawback _ _ _ _ _ _ | .cancel _ | .restore _ _ | .mark _ => ¬ c.IsPlain
  | .bill args held | .waive args held =>
    args.metadata = c.metadata ∧ (∃ k, db.holds.get? k = some held) ∧ held.status = .held
  | .settle _ held => (∃ k, db.holds.get? k = some held) ∧ held.status = .held
  | _ => True

theorem WalletCall.Allows.isPlain {db : Db} {c : WalletCall} (hc : c.IsPlain) {m : Move}
    (hm : c.Allows db m) : m.IsPlain := by
  cases m <;> first | exact trivial | exact absurd hc hm

theorem map_snd_ok {α : Type} {x : Except BillingError (α × Db)} {db : Db}
    (h : x.map Prod.snd = .ok db) : ∃ a, x = .ok (a, db) := by
  rcases x with e | ⟨a, db'⟩
  · cases h
  · obtain rfl := Except.ok.inj h
    exact ⟨a, rfl⟩

/-- **Every call keeps every reservation backed**, when no caller's metadata is
marked as waived. -/
theorem exec_backed {env : Env} {c : WalletCall} {db db' : Db} (hb : db.HoldsBacked)
    (hmark : c.metadata.wasWaived = false) (h : c.exec env db = .ok db') : db'.HoldsBacked := by
  cases c with
  | credit args =>
    obtain ⟨t, hok⟩ := map_snd_ok h
    exact hb.congr (credit_holds hok)
  | debit args =>
    obtain ⟨answer, hok⟩ := map_snd_ok h
    exact hb.congr (debit_holds hok)
  | hold args =>
    obtain ⟨k, hok⟩ := map_snd_ok h
    exact hold_backed hb hmark hok
  | capture args =>
    obtain ⟨t, hok⟩ := map_snd_ok h
    exact capture_backed hb hok
  | release args => exact release_backed hb h
  | expireDueLots w =>
    obtain rfl := Except.ok.inj h
    exact hb.congr fun j => congrArg (fun t => t.get? j) (expireDueLots_frame db).1
  | clawBackGrant grant credits description metadata =>
    simp only [WalletCall.exec] at h
    split at h
    · obtain ⟨r, hok⟩ := map_snd_ok h
      exact hb.congr (clawBackGrant_holds hok)
    · cases h
  | reverseClawback k eventId =>
    simp only [WalletCall.exec] at h
    split at h
    · obtain ⟨n, hok⟩ := map_snd_ok h
      exact hb.congr (reverseClawback_holds hok)
    · cases h

/-- **Every call is a sequence of moves** on the wallet it locks. -/
theorem exec_moves {env : Env} {c : WalletCall} {db db' : Db} (h : c.exec env db = .ok db') :
    Moves env (c.wallet db) (c.Allows db) db db' := by
  cases c with
  | credit args =>
    obtain ⟨t, hok⟩ := map_snd_ok h
    refine (credit_moves hok).mono fun m hm => ?_
    cases m <;> first
      | exact hm.elim
      | exact trivial
      | exact congrArg some (Eq.symm hm)
      | exact congrArg WalletCall.credit (Eq.symm hm)
  | debit args =>
    obtain ⟨answer, hok⟩ := map_snd_ok h
    refine (debit_moves hok).mono fun m hm => ?_
    cases m <;> first
      | exact hm.elim
      | exact trivial
      | exact congrArg some (Eq.symm hm)
      | exact congrArg WalletCall.debit (Eq.symm hm)
  | hold args =>
    obtain ⟨k, hok⟩ := map_snd_ok h
    refine (hold_moves hok).mono fun m hm => ?_
    cases m <;> first
      | exact hm.elim
      | exact trivial
      | exact congrArg some (Eq.symm hm)
      | exact congrArg WalletCall.hold (Eq.symm hm)
  | capture args =>
    obtain ⟨t, hok⟩ := map_snd_ok h
    obtain ⟨held, hheld, hm⟩ := capture_moves hok
    simp only [WalletCall.wallet, hheld, Option.map_some, Option.getD_some]
    refine hm.mono fun m hm => ?_
    cases m <;> first
      | exact hm.elim
      | exact ⟨congrArg CaptureArgs.metadata hm.1, ⟨_, hm.2.1 ▸ hheld⟩, hm.2.1 ▸ hm.2.2⟩
      | exact trivial
  | release args =>
    obtain ⟨held, hheld, hm⟩ := release_moves h
    simp only [WalletCall.wallet, hheld, Option.map_some, Option.getD_some]
    refine hm.mono fun m hm => ?_
    cases m <;> first
      | exact hm.elim
      | exact ⟨⟨_, hm.2.1 ▸ hheld⟩, hm.2.1 ▸ hm.2.2⟩
      | exact trivial
  | expireDueLots w =>
    obtain rfl := Except.ok.inj h
    exact expireDueLots_moves env _ trivial (fun _ => trivial) db
  | clawBackGrant grant credits description metadata =>
    simp only [WalletCall.exec] at h
    split at h
    · rename_i txn htxn
      obtain ⟨r, hok⟩ := map_snd_ok h
      simp only [WalletCall.wallet, htxn, Option.map_some, Option.getD_some]
      refine (clawBackGrant_moves hok).mono fun m hm => ?_
      cases m <;> first | exact hm.elim | exact trivial | exact id
    · cases h
  | reverseClawback k eventId =>
    simp only [WalletCall.exec] at h
    split at h
    · -- a reversal is on the wallet of the row it reverses
      rename_i row hrow
      obtain ⟨n, hok⟩ := map_snd_ok h
      simp only [WalletCall.wallet, hrow, Option.map_some, Option.getD_some]
      refine (reverseClawback_moves hok).mono fun m hm => ?_
      cases m <;> first | exact hm.elim | exact trivial | exact id
    · cases h

/-- A call that takes nothing back rewrites no ledger row. -/
theorem exec_row_kept {env : Env} {db db' : Db} {c : WalletCall} (hc : c.IsPlain) (h : c.exec env db = .ok db') {k : ℕ}
    {row : Transaction} (hk : db.transactions.get? k = some row) :
    db'.transactions.get? k = some row := by
  refine Moves.row_kept (fun m hm he => ?_) (exec_moves h) hk
  cases m with
  | mark j => exact hm hc
  | _ => cases he

/-- **Every call keeps the references.** -/
theorem exec_referenced {env : Env} {c : WalletCall} {db db' : Db} (hr : db.Referenced)
    (h : c.exec env db = .ok db') : db'.Referenced := by
  cases c with
  | credit args =>
    obtain ⟨t, hok⟩ := map_snd_ok h
    exact (credit_locked rfl hok).referenced (lockWallet_hasWallet rfl)
      (lockWallet_referenced rfl hr)
  | debit args =>
    obtain ⟨answer, hok⟩ := map_snd_ok h
    exact (debit_locked rfl hok).referenced (lockWallet_hasWallet rfl)
      (lockWallet_referenced rfl hr)
  | hold args =>
    obtain ⟨k, hok⟩ := map_snd_ok h
    exact (hold_locked rfl hok).referenced (lockWallet_hasWallet rfl)
      (lockWallet_referenced rfl hr)
  | capture args =>
    obtain ⟨t, hok⟩ := map_snd_ok h
    obtain ⟨held, hheld, hm⟩ := capture_moves hok
    exact hm.referenced (hr.holds _ _ hheld) hr
  | release args =>
    obtain ⟨held, hheld, hm⟩ := release_moves h
    exact hm.referenced (hr.holds _ _ hheld) hr
  | expireDueLots w =>
    obtain rfl := Except.ok.inj h
    exact expireDueLots_referenced hr
  | clawBackGrant grant credits description metadata =>
    simp only [WalletCall.exec] at h
    split at h
    · rename_i txn htxn
      obtain ⟨r, hok⟩ := map_snd_ok h
      exact (clawBackGrant_moves hok).referenced (hr.transactions _ _ htxn) hr
    · cases h
  | reverseClawback k eventId =>
    simp only [WalletCall.exec] at h
    split at h
    · rename_i row hrow
      obtain ⟨n, hok⟩ := map_snd_ok h
      exact (reverseClawback_moves hok).referenced (hr.transactions _ _ hrow) hr
    · cases h

theorem runCalls_referenced (calls : List (Env × WalletCall)) {db : Db} (hr : db.Referenced) :
    (runCalls calls db).Referenced :=
  Store.run_invariant (fun _ _ _ _ hd h => exec_referenced hd h) hr

end StapelBilling
