import StapelBilling.Deployment
import StapelBilling.Retries
import StapelBilling.Store.Apart

/-! # Accounts apart

What an account asks for stays with that account.  A charge, a reservation, a grant, a bundle or a
change of settings of one user leaves the wallet of every other user alone: its balance and
settings, its lots, its ledger, its reservations and its debts.  So do the merge of two other
accounts and the erasure of another user.

* `Db.Apart`: the account of wallet `v` is as it was.
* `Step.apart`: a move on another wallet that takes nothing back.
* `mergeWallets_apart`, `eraseSubject_apart`: accounts that go.
* `others_leave_an_account`: a run of calls of other users.
-/
namespace StapelBilling
open Store

variable {env : Env} {digest : UserId → UserId → String} {w v : ℕ} {db db' db'' : Db}

/-- **The account of wallet `v` is as it was**: its row, its lots, its ledger, its reservations
and its debts. -/
structure Db.Apart (v : ℕ) (db db' : Db) : Prop where
  same : db.SameFor v db'
  transactions : Store.Apart (fun row => row.wallet = v) db.transactions db'.transactions
  holds : Store.Apart (fun held => held.wallet = v) db.holds db'.holds
  debts : Store.Apart (fun debt => debt.wallet = v) db.debts db'.debts

namespace Db.Apart

theorem refl (v : ℕ) (db : Db) : db.Apart v db :=
  ⟨⟨fun _ _ _ => Iff.rfl, rfl⟩, .refl _ _, .refl _ _, .refl _ _⟩

theorem trans (h : db.Apart v db') (h' : db'.Apart v db'') : db.Apart v db'' :=
  ⟨h.same.trans h'.same, h.transactions.trans h'.transactions, h.holds.trans h'.holds,
    h.debts.trans h'.debts⟩

theorem of_same (h : db.SameBooks db') : db.Apart v db' := by
  refine ⟨⟨fun k lot _ => by rw [h.lots], by rw [h.wallets]⟩, ?_, ?_, ?_⟩
  · rw [h.transactions]
    exact .refl _ _
  · rw [h.holds]
    exact .refl _ _
  · rw [h.debts]
    exact .refl _ _

end Db.Apart

/-! ## One move -/

/-- **A move on another wallet that takes nothing back leaves the account alone.** -/
theorem Step.apart {m : Move} (h : Step env w m db db') (hm : m.IsPlain) (hv : v ≠ w) :
    db.Apart v db' := by
  have hhome : m.TakesHome w db := by
    cases m <;> first | exact hm.elim | exact trivial
  have hsame : db.SameFor v db' := (h.beside hhome).sameFor hv
  have hrow : ∀ {row : Transaction}, row.wallet = w → ¬ row.wallet = v := fun hw he => hv (he ▸ hw)
  have hhold : ∀ {held : CreditHold}, held.wallet = w → ¬ held.wallet = v := fun hw he => hv (he ▸ hw)
  have hdebt : ∀ {debt : CreditDebt}, debt.wallet = w → ¬ debt.wallet = v := fun hw he => hv (he ▸ hw)
  -- The hold that a move resolves is the wallet's, and stays so.
  have hresolved : ∀ {k : ℕ} {held : CreditHold} {f : CreditHold → CreditHold},
      db.holds.get? k = some held → held.wallet = w → (∀ held, (f held).wallet = held.wallet) →
      Store.Apart (fun held => held.wallet = v) db.holds (db.holds.modify k f) := by
    intro k held f hk hw hf
    refine .modify (fun a ha => ?_) fun a ha => ?_
    · obtain rfl := Option.some.inj (hk.symm.trans ha)
      exact hhold hw
    · obtain rfl := Option.some.inj (hk.symm.trans ha)
      exact hhold ((hf held).trans hw)
  refine ⟨hsame, ?_, ?_, ?_⟩
  · cases h with
    | grant _ _ | expire _ _ _ | collect _ _ _ _ _ _ _ | bill _ _ _ _ | waive _ _ _ _ =>
      exact .insert (hrow rfl)
    | meter =>
      unfold meterOnlyDebit
      dsimp only
      split <;> exact .insert (hrow rfl)
    | charge _ _ _ =>
      unfold chargeDebit
      dsimp only
      split <;> split <;> exact .insert (hrow rfl)
    | @arm _ _ _ _ existing _ _ _ _ _ =>
      cases existing <;> exact .refl _ _
    | clawback _ _ | cancel | restore _ | mark => exact hm.elim
    | _ => exact .refl _ _
  · cases h with
    | meter =>
      unfold meterOnlyDebit
      dsimp only
      split <;> exact .refl _ _
    | charge _ _ _ =>
      unfold chargeDebit
      dsimp only
      split <;> split <;> exact .refl _ _
    | @arm _ args credits metadata existing taken hexisting _ _ _ =>
      cases existing with
      | some k =>
        obtain ⟨held, hk, hw, -⟩ := hexisting k rfl
        rw [armHold_holds]
        exact hresolved hk hw fun _ => rfl
      | none => exact .insert (hhold rfl)
    | refund hk hw _ _ _ _ =>
      rw [refundAllocation_holds]
      exact hresolved hk hw fun _ => rfl
    | overdraw hk hw _ _ =>
      rw [allocateMore_holds]
      exact hresolved hk hw fun _ => rfl
    | bill hk hw _ _ =>
      rw [billHold_holds]
      exact hresolved hk hw fun _ => rfl
    | waive hk hw _ _ =>
      rw [meterOnlyCapture_holds]
      exact hresolved hk hw fun _ => rfl
    | settle hk hw _ _ =>
      rw [settleHold_holds]
      exact hresolved hk hw fun _ => rfl
    | clawback _ _ | cancel | restore _ | mark => exact hm.elim
    | _ => exact .refl _ _
  · cases h with
    | @collect _ k debt amount taken hk hw _ _ _ _ _ =>
      rw [collectDebt_debts]
      refine .modify (fun a ha => ?_) fun a ha => ?_
      · obtain rfl := Option.some.inj (hk.symm.trans ha)
        exact hdebt hw
      · obtain rfl := Option.some.inj (hk.symm.trans ha)
        exact @hdebt { debt with creditsOutstanding := _, settledAt := _ } hw
    | meter =>
      unfold meterOnlyDebit
      dsimp only
      split <;> exact .refl _ _
    | charge _ _ _ =>
      unfold chargeDebit
      dsimp only
      split <;> split
      all_goals first
        | exact .refl _ _
        | exact .insert (hdebt rfl)
    | @arm _ _ _ _ existing _ _ _ _ _ =>
      cases existing <;> exact .refl _ _
    | clawback _ _ | cancel | restore _ | mark => exact hm.elim
    | _ => exact .refl _ _

theorem Moves.apart {P : Move → Prop} (hP : ∀ m, P m → m.IsPlain) (h : Moves env w P db db')
    (hv : v ≠ w) : db.Apart v db' :=
  Moves.invariant (I := fun db' => db.Apart v db')
    (fun m _ _ hm hI hs => hI.trans (hs.apart (hP m hm) hv)) h (.refl v db)

/-! ## Wallets of others -/

variable {user other : UserId}

/-- What keeps the account keeps its owner. -/
theorem Db.Apart.ownedBy (h : db.Apart v db') (hown : db.OwnedBy v user) : db'.OwnedBy v user := by
  obtain ⟨wallet, hk, huser⟩ := hown
  exact ⟨wallet, h.same.wallet.trans hk, huser⟩

/-- A wallet that is opened is a new one. -/
theorem insertWallet_apart {opened : Wallet} (hown : db.OwnedBy v user) :
    db.Apart v { db with wallets := db.wallets.insert opened } := by
  obtain ⟨wallet, hk, -⟩ := hown
  have hlt : v < db.wallets.next := Table.get?_lt_next hk
  exact ⟨⟨fun _ _ _ => Iff.rfl, Table.get?_insert_of_ne _ (by omega)⟩, .refl _ _, .refl _ _,
    .refl _ _⟩

/-- Another user is locked by another wallet, which may be opened for it. -/
theorem lockWallet_other (hown : db.OwnedBy v user) (hne : other ≠ user) :
    v ≠ (lockWallet other db).1 := by
  obtain ⟨wallet, hk, huser⟩ := hown
  rcases hlock : lockWallet other db with ⟨w, db₁⟩
  rintro rfl
  rcases lockWallet_cases hlock with ⟨-, wallet', hk', huser'⟩ | ⟨hnext, -, -⟩
  · obtain rfl := Option.some.inj (hk.symm.trans hk')
    exact hne (Option.some.inj (huser'.symm.trans huser))
  · exact absurd (Table.get?_lt_next hk) (by omega)

theorem lockWallet_apart (hown : db.OwnedBy v user) (other : UserId) :
    db.Apart v (lockWallet other db).2 := by
  rcases hlock : lockWallet other db with ⟨w, db₁⟩
  rcases lockWallet_cases hlock with ⟨rfl, -⟩ | ⟨-, rfl, -⟩
  · exact .refl v _
  · exact insertWallet_apart hown

theorem openWallet_apart (hown : db.OwnedBy v user) (other : UserId) :
    db.Apart v (getOrCreateWallet other db).2 := by
  rw [getOrCreateWallet_lock]
  exact lockWallet_apart hown other

theorem getOrCreateWallet_key (other : UserId) (db : Db) :
    (getOrCreateWallet other db).1.1 = (lockWallet other db).1 := by
  unfold getOrCreateWallet lockWallet
  cases db.wallets.find? fun wallet => wallet.user = some other <;> rfl

/-- A call that takes nothing back, on another wallet. -/
theorem exec_apart {c : WalletCall} (hc : c.IsPlain) (hv : v ≠ c.wallet db)
    (hok : c.exec env db = .ok db') : db.Apart v db' :=
  (exec_moves hok).apart (fun _ hm => hm.isPlain hc) hv

theorem credit_apart {args : CreditArgs} {t : ℕ} (hown : db.OwnedBy v user) (hne : args.user ≠ user)
    (h : credit env args db = .ok (t, db')) : db.Apart v db' := by
  have hexec : (WalletCall.credit args).exec env db = .ok db' := congrArg (Except.map Prod.snd) h
  exact exec_apart (c := .credit args) trivial (lockWallet_other hown hne) hexec

theorem debit_apart {args : DebitArgs} {answer : DebitAnswer} (hown : db.OwnedBy v user)
    (hne : args.user ≠ user) (h : debit env args db = .ok (answer, db')) : db.Apart v db' := by
  have hexec : (WalletCall.debit args).exec env db = .ok db' := congrArg (Except.map Prod.snd) h
  exact exec_apart (c := .debit args) trivial (lockWallet_other hown hne) hexec

theorem hold_apart {args : HoldArgs} {k : ℕ} (hown : db.OwnedBy v user) (hne : args.user ≠ user)
    (h : hold env args db = .ok (k, db')) : db.Apart v db' := by
  have hexec : (WalletCall.hold args).exec env db = .ok db' := congrArg (Except.map Prod.snd) h
  exact exec_apart (c := .hold args) trivial (lockWallet_other hown hne) hexec

/-- The hold is one of wallet `v`. -/
def Db.HoldOn (db : Db) (k v : ℕ) : Prop := ∃ held, db.holds.get? k = some held ∧ held.wallet = v

/-- A hold on the account is one that was on it. -/
theorem Db.Apart.holdOn (h : db.Apart v db') {k : ℕ} (hk : db'.HoldOn k v) : db.HoldOn k v := by
  obtain ⟨held, hget, hw⟩ := hk
  exact ⟨held, (h.holds k held hw).mpr hget, hw⟩

theorem capture_apart {args : CaptureArgs} {t : ℕ} (hnot : ¬ db.HoldOn args.hold v)
    (h : capture env args db = .ok (t, db')) : db.Apart v db' := by
  obtain ⟨held, hheld, hmoves⟩ := capture_moves h
  refine hmoves.apart (fun m hm => ?_) fun he => hnot ⟨held, hheld, he.symm⟩
  cases m <;> first | exact trivial | exact hm.elim

theorem release_apart {args : ReleaseArgs} (hnot : ¬ db.HoldOn args.hold v)
    (h : release env args db = .ok db') : db.Apart v db' := by
  obtain ⟨held, hheld, hmoves⟩ := release_moves h
  refine hmoves.apart (fun m hm => ?_) fun he => hnot ⟨held, hheld, he.symm⟩
  cases m <;> first | exact trivial | exact hm.elim

/-! ## Merges and erasures of others -/

section Merging
variable {merged survivor : ℕ} {fromUser intoUser : UserId} {counts : MergeCounts}

theorem forfeited_rows_apart (hv : v ≠ w) :
    Store.Apart (fun row => row.wallet = v) db.transactions (db.forfeited env w).transactions := by
  refine forfeited_invariant (I := fun db' => Store.Apart (fun row : Transaction => row.wallet = v)
    db.transactions db'.transactions) ?_ ?_ (.refl _ _)
  · rintro k lot row db₁ db₂ he hI
    rw [he.result]
    exact hI.trans (.insert fun hrow => hv (hrow.symm.trans he.rowWallet))
  · exact fun db₁ hI => hI

theorem swept_apart (hv : v ≠ w) : db.Apart v (db.swept env w) := by
  have hmoves : Moves env w Move.IsSweep db (db.swept env w) :=
    expireDueLots_moves env w trivial (fun _ => trivial) db
  refine hmoves.apart (fun m hm => ?_) hv
  cases m <;> first | exact trivial | exact hm.elim

theorem stripped_apart (hv : v ≠ merged) : db.Apart v (db.stripped env merged) := by
  have hholds : (db.stripped env merged).holds = (db.swept env merged).holds := forfeited_frame.1
  have hdebts : (db.stripped env merged).debts = (db.swept env merged).debts := forfeited_frame.2.1
  refine (swept_apart hv).trans ⟨forfeited_beside.sameFor hv, forfeited_rows_apart hv, ?_, ?_⟩
  · rw [hholds]
    exact .refl _ _
  · rw [hdebts]
    exact .refl _ _

/-- The fold rewrites rows of the merged wallet only, and makes them the survivor's. -/
theorem folded_apart (hmerged : v ≠ merged) (hsurvivor : v ≠ survivor) :
    db.Apart v (db.folded merged survivor) := by
  have hmoved : ∀ {α : Type} {t t' : Table α} (wallet : α → ℕ) (f : ℕ → α → α),
      (∀ k, t'.get? k = (t.get? k).map (f k)) →
      (∀ k a, wallet a ≠ merged → f k a = a) →
      (∀ k a, wallet a = merged → wallet (f k a) = survivor) →
      Store.Apart (fun a => wallet a = v) t t' := by
    intro α t t' wallet f hrows hkept hgiven
    refine .of_map hrows (fun k a _ ha => hkept k a (ha ▸ hmerged)) fun k a _ ha => ?_
    by_cases hm : wallet a = merged
    · rw [hgiven k a hm]
      exact fun he => hsurvivor he.symm
    · rw [hkept k a hm]
      exact ha
  refine ⟨⟨?_, ?_⟩, ?_, ?_, ?_⟩
  · exact hmoved CreditLot.wallet _ folded_lot (fun k lot h => if_neg h)
      fun k lot h => by rw [if_pos h]
  · rw [folded_wallet, if_neg hmerged]
  · exact hmoved Transaction.wallet _ folded_row (fun k row h => if_neg h)
      fun k row h => by rw [if_pos h]
  · refine @Store.Apart.trans _ _ _ (renameClashes merged survivor db).holds _ ?_ ?_
    · refine .of_map (Table.get?_update _ _) (fun k held _ hw => if_neg fun h => ?_)
        fun k held _ hw => ?_
      · exact hmerged (hw.symm.trans h.1)
      · split <;> exact hw
    · exact hmoved CreditHold.wallet _ (Table.get?_update _ _) (fun k held h => if_neg h)
        fun k held h => by rw [if_pos h]
  · exact hmoved CreditDebt.wallet _ folded_debt (fun k debt h => if_neg h)
      fun k debt h => by rw [if_pos h]

theorem bookMerge_apart {key : String} {credits : ℤ} (hv : v ≠ survivor) :
    db.Apart v (bookMerge env key merged survivor credits db) := by
  refine ⟨bookMerge_beside.sameFor hv, ?_, ?_, ?_⟩
  · have hswept : db.Apart v (db.swept env survivor) := swept_apart hv
    exact hswept.transactions.trans (.insert fun hrow => hv hrow.symm)
  · rw [bookMerge_frame.1]
    exact .refl _ _
  · rw [bookMerge_frame.2.1]
    exact .refl _ _

/-- **A merge of two other users leaves the account alone.** -/
theorem mergeWallets_apart (hown : db.OwnedBy v user) (hfrom : fromUser ≠ user)
    (hinto : intoUser ≠ user)
    (h : mergeWallets env digest fromUser intoUser db = .ok (counts, db')) : db.Apart v db' := by
  rcases mergeWallets_cases h with ⟨-, rfl, -⟩ | ⟨-, ⟨-, ⟨subscriptions, rfl⟩, -⟩ |
    ⟨merged, wallet, survivor, db₁, hfound, hsurvivor, hlocked⟩⟩
  · exact .refl v _
  · exact ⟨⟨fun _ _ _ => Iff.rfl, rfl⟩, .refl _ _, .refl _ _, .refl _ _⟩
  · obtain ⟨owned, hget, howner⟩ := hown
    obtain ⟨hgetm, hownerm⟩ := Table.find?_some hfound
    have hmerged : v ≠ merged := by
      rintro rfl
      obtain rfl := Option.some.inj (hget.symm.trans hgetm)
      exact hfrom (Option.some.inj (hownerm.symm.trans howner))
    -- The survivor is another user's wallet, or one that is opened for them.
    obtain ⟨hopened, hother⟩ : db.Apart v db₁ ∧ v ≠ survivor := by
      rcases survivorWallet_cases hsurvivor with ⟨rfl, into, hgets, howners⟩ | ⟨hnext, -, -, rfl⟩
      · refine ⟨.refl v _, ?_⟩
        rintro rfl
        obtain rfl := Option.some.inj (hget.symm.trans hgets)
        exact hinto (Option.some.inj (howners.symm.trans howner))
      · have hlt := Table.get?_lt_next hget
        exact ⟨insertWallet_apart ⟨owned, hget, howner⟩, by omega⟩
    obtain ⟨subscriptions, n, hsettle, -, -⟩ := mergeLocked_cases hlocked
    have hbooked : db.Apart v (db₁.booked env (mergeIdempotencyKey digest fromUser intoUser) merged
        survivor) :=
      ((hopened.trans (stripped_apart hmerged)).trans (folded_apart hmerged hother)).trans
        (bookMerge_apart hother)
    have hsubs : db.Apart v { db₁.booked env (mergeIdempotencyKey digest fromUser intoUser) merged
        survivor with subscriptions } :=
      hbooked.trans ⟨⟨fun _ _ _ => Iff.rfl, rfl⟩, .refl _ _, .refl _ _, .refl _ _⟩
    have hmoves := settleDebts_ok (P := Move.IsSettling) (fun _ _ _ _ => trivial) hsettle
    refine hsubs.trans (hmoves.apart (fun m hm => ?_) hother)
    cases m <;> first | exact trivial | exact hm.elim

end Merging

/-- **The erasure of another user leaves the account alone.** -/
theorem eraseSubject_apart {subjectType : String} {subject : Option UserId}
    (hown : db.OwnedBy v user) (hother : subject ≠ some user)
    (h : eraseSubject subjectType subject db = some db') : db.Apart v db' := by
  unfold eraseSubject at h
  split at h
  · cases h
  · rename_i erased
    split at h
    · cases h
    · obtain rfl := Option.some.inj h
      obtain ⟨wallet, hget, howner⟩ := hown
      have hne : erased ≠ user := fun he => hother (congrArg some he)
      have hnot : ∀ {u}, u = v → ¬ (eraseSubscriptions erased db).Owns erased u := by
        rintro _ rfl ⟨owned, hk, huser⟩
        obtain rfl := Option.some.inj (hget.symm.trans hk)
        exact hne (Option.some.inj (huser.symm.trans howner))
      refine ⟨⟨fun _ _ _ => Iff.rfl, ?_⟩, ?_, ?_, ?_⟩
      · dsimp only
        rw [Table.get?_update]
        show (db.wallets.get? v).map _ = db.wallets.get? v
        rw [hget, Option.map_some, if_neg]
        exact fun he => hne (Option.some.inj (he.symm.trans howner))
      · refine .of_map (Table.get?_update _ _) (fun k row _ hw => if_neg (hnot hw)) fun k row _ hw => ?_
        split <;> exact hw
      · refine .of_map (Table.get?_update _ _) (fun k held _ hw => if_neg (hnot hw))
          fun k held _ hw => ?_
        split <;> exact hw
      · refine .of_map (Table.get?_update _ _) (fun k debt _ hw => if_neg (hnot hw))
          fun k debt _ hw => ?_
        split <;> exact hw

/-! ## Requests of others -/

theorem resolveUser_same {seam : UserSeam} {named : UserId} {identity : Bool}
    (h : resolveUser seam named identity db = .ok (other, db')) : other = named := by
  unfold resolveUser at h
  split at h
  · exact (Prod.mk.inj (Except.ok.inj h)).1.symm
  · split at h
    · cases h
    · split at h
      · cases h
      · split at h
        · exact (Prod.mk.inj (Except.ok.inj h)).1.symm
        · cases h

theorem refuseCredits_apart (hown : db.OwnedBy v user) (other : UserId) :
    db.Apart v (refuseCredits other db).2 := by
  unfold refuseCredits
  exact openWallet_apart hown other

theorem billingDebit_apart {seam : UserSeam} {payload : MoneyPayload} {reply : MoneyReply}
    (hown : db.OwnedBy v user) (hne : payload.user ≠ user)
    (h : billingDebit env seam payload db = .ok (reply, db')) : db.Apart v db' := by
  unfold billingDebit at h
  split at h
  · obtain ⟨-, rfl⟩ := Prod.mk.inj (Except.ok.inj h)
    exact .refl v _
  · rename_i named known hknown
    have hbeside : db.Apart v known := .of_same (resolveUser_beside hknown)
    have hown : known.OwnedBy v user := hbeside.ownedBy hown
    obtain rfl := resolveUser_same hknown
    dsimp only at h
    split at h
    · obtain rfl := congrArg Prod.snd (Except.ok.inj h)
      exact hbeside.trans (refuseCredits_apart hown _)
    · cases h
    · rename_i txn charged hdebit
      obtain ⟨-, rfl⟩ := Prod.mk.inj (Except.ok.inj h)
      exact hbeside.trans (debit_apart hown hne hdebit)
    · rename_i result charged hdebit
      obtain ⟨-, rfl⟩ := Prod.mk.inj (Except.ok.inj h)
      exact hbeside.trans (debit_apart hown hne hdebit)

theorem billingHold_apart {seam : UserSeam} {payload : MoneyPayload} {reply : MoneyReply}
    (hown : db.OwnedBy v user) (hne : payload.user ≠ user)
    (h : billingHold env seam payload db = .ok (reply, db')) : db.Apart v db' := by
  unfold billingHold at h
  split at h
  · obtain ⟨-, rfl⟩ := Prod.mk.inj (Except.ok.inj h)
    exact .refl v _
  · rename_i named known hknown
    have hbeside : db.Apart v known := .of_same (resolveUser_beside hknown)
    have hown : known.OwnedBy v user := hbeside.ownedBy hown
    obtain rfl := resolveUser_same hknown
    dsimp only at h
    split at h
    · obtain ⟨-, rfl⟩ := Prod.mk.inj (Except.ok.inj h)
      exact hbeside
    · obtain rfl := congrArg Prod.snd (Except.ok.inj h)
      exact hbeside.trans (refuseCredits_apart hown _)
    · cases h
    · rename_i k reserved hhold
      obtain ⟨-, rfl⟩ := Prod.mk.inj (Except.ok.inj h)
      exact hbeside.trans (hold_apart hown hne hhold)

/-- A capture fails, or is one of the hold; the refusals that the caller is told about write
nothing. -/
theorem billingCapture_apart {args : CaptureArgs} {reply : MoneyReply}
    (hnot : ¬ db.HoldOn args.hold v) (h : billingCapture env args db = .ok (reply, db')) :
    db.Apart v db' := by
  unfold billingCapture at h
  split at h
  case h_5 => cases h
  case h_6 txn captured hcapture =>
    obtain ⟨-, rfl⟩ := Prod.mk.inj (Except.ok.inj h)
    exact capture_apart hnot hcapture
  all_goals
    obtain ⟨-, rfl⟩ := Prod.mk.inj (Except.ok.inj h)
    exact .refl v _

theorem billingRelease_apart {k : ℕ} {reply : MoneyReply} (hnot : ¬ db.HoldOn k v)
    (h : billingRelease env k db = .ok (reply, db')) : db.Apart v db' := by
  unfold billingRelease at h
  split at h
  · obtain ⟨-, rfl⟩ := Prod.mk.inj (Except.ok.inj h)
    exact .refl v _
  · cases h
  · rename_i released hrelease
    obtain ⟨-, rfl⟩ := Prod.mk.inj (Except.ok.inj h)
    refine release_apart ?_ hrelease
    exact hnot

theorem billingCanAfford_apart {seam : UserSeam} {named : UserId} {identity : Bool} {credits : ℤ}
    {answer : Except String Affordability}
    (h : billingCanAfford env seam named identity credits db = .ok (answer, db')) :
    db.Apart v db' := by
  unfold billingCanAfford at h
  split at h
  · obtain ⟨-, rfl⟩ := Prod.mk.inj (Except.ok.inj h)
    exact .refl v _
  · rename_i known hknown
    split at h
    · cases h
    · obtain ⟨-, rfl⟩ := Prod.mk.inj (Except.ok.inj h)
      exact .of_same (resolveUser_beside hknown)

theorem postInternalDebit_apart {request : CreditDebitRequest} {reply : DebitReply}
    (hown : db.OwnedBy v user) (hne : request.user ≠ user)
    (h : postInternalDebit env request db = .ok (reply, db')) : db.Apart v db' := by
  unfold postInternalDebit at h
  split at h
  · obtain ⟨-, rfl⟩ := Prod.mk.inj (Except.ok.inj h)
    exact .refl v _
  · split at h
    · obtain ⟨-, rfl⟩ := Prod.mk.inj (Except.ok.inj h)
      exact .refl v _
    · dsimp only at h
      split at h
      · obtain ⟨-, rfl⟩ := Prod.mk.inj (Except.ok.inj h)
        exact .refl v _
      · cases h
      · rename_i txn charged hdebit
        obtain ⟨-, rfl⟩ := Prod.mk.inj (Except.ok.inj h)
        exact debit_apart hown hne hdebit
      · rename_i result charged hdebit
        obtain ⟨-, rfl⟩ := Prod.mk.inj (Except.ok.inj h)
        exact debit_apart hown hne hdebit

/-- A change of settings writes the row that was read, which is another user's. -/
theorem patchWalletSettings_apart (hown : db.OwnedBy v user) (hne : other ≠ user)
    (update : WalletUpdate) : db.Apart v (patchWalletSettings env other update db).2 := by
  have hopened : db.Apart v (getOrCreateWallet other db).2 := openWallet_apart hown other
  have hother : v ≠ (getOrCreateWallet other db).1.1 := by
    rw [getOrCreateWallet_key]
    exact lockWallet_other hown hne
  unfold patchWalletSettings
  generalize getOrCreateWallet other db = r at hopened hother
  obtain ⟨⟨w, wallet⟩, opened⟩ := r
  dsimp only at hopened hother ⊢
  split
  · exact hopened
  · rename_i saved hok
    unfold patchWallet saveWallet at hok
    split at hok
    · split at hok
      · cases hok
      · obtain rfl := Except.ok.inj hok
        exact hopened.trans ⟨⟨fun _ _ _ => Iff.rfl, wallets_modify_other hother⟩, .refl _ _,
          .refl _ _, .refl _ _⟩
    · cases hok

/-- Whose bundle it is, the call says. -/
theorem dueBundle_user {args : PlanBundleArgs} {bundle : PlanBundle}
    (h : dueBundle env args db = .ok (some bundle)) : args.user = some bundle.user ∨
      args.userId = some bundle.user ∨ args.wallet.bind Prod.snd = some bundle.user := by
  have hnamed : bundleUser args db = .ok (some bundle.user) := by
    unfold dueBundle at h
    grind
  unfold bundleUser at hnamed
  split at hnamed
  · rename_i named huser
    obtain rfl := Option.some.inj (Except.ok.inj hnamed)
    exact Or.inl huser
  · split at hnamed
    · cases hnamed
    · rename_i named hid
      have hknown := Except.ok.inj hnamed
      split at hknown
      · obtain rfl := Option.some.inj hknown
        exact Or.inr ((Option.or_eq_some_iff.mp hid).imp id And.right)
      · cases hknown

theorem grantPlanBundle_apart {args : PlanBundleArgs} {answer : Option ℕ} (hown : db.OwnedBy v user)
    (huser : args.user ≠ some user) (hid : args.userId ≠ some user)
    (hwallet : args.wallet.bind Prod.snd ≠ some user)
    (h : grantPlanBundle env args db = .ok (answer, db')) : db.Apart v db' := by
  unfold grantPlanBundle at h
  split at h
  · cases h
  · obtain ⟨-, rfl⟩ := Prod.mk.inj (Except.ok.inj h)
    exact .refl v _
  · rename_i bundle hdue
    have hne : bundle.user ≠ user := by
      rintro rfl
      rcases dueBundle_user hdue with he | he | he
      · exact huser he
      · exact hid he
      · exact hwallet he
    have hopened : db.Apart v (bundleWallet bundle db).2 := by
      unfold bundleWallet
      split
      · exact .refl v _
      · exact lockWallet_apart hown bundle.user
    generalize bundleWallet bundle db = r at hopened h
    obtain ⟨w, opened⟩ := r
    dsimp only at h hopened
    split at h
    · obtain ⟨-, rfl⟩ := Prod.mk.inj (Except.ok.inj h)
      exact hopened
    · rename_i claimed hclaim
      have hclaimed : db.Apart v claimed :=
        hopened.trans (.of_same (claimProviderObject_beside hclaim))
      split at h
      · cases h
      · rename_i txn credited hok
        obtain ⟨-, rfl⟩ := Prod.mk.inj (Except.ok.inj h)
        exact hclaimed.trans (credit_apart (hclaimed.ownedBy hown) hne hok)

theorem extendSubscription_apart {args : ExtendArgs} {preview : CompPeriodPreview}
    (hown : db.OwnedBy v user) (hne : args.sub.user ≠ some user)
    (h : extendSubscription env args db = .ok (preview, db')) : db.Apart v db' := by
  have hbundle : ∀ {now preview comp txn} {before after : Db}, before.OwnedBy v user →
      grantCompBundle env args preview comp before = .ok (txn, after) →
      before.Apart v (announceComp env now args.sub preview.endsAt after) := by
    intro now preview comp txn before after hown hgrant
    refine Db.Apart.trans ?_ (.of_same (announceComp_beside _ _ _ _))
    unfold grantCompBundle at hgrant
    split at hgrant
    · rename_i owner credits howner hcredits
      split at hgrant
      · obtain ⟨-, rfl⟩ := Prod.mk.inj (Except.ok.inj hgrant)
        exact .refl v _
      · split at hgrant
        · cases hgrant
        · rename_i hok
          obtain ⟨-, rfl⟩ := Prod.mk.inj (Except.ok.inj hgrant)
          exact credit_apart hown (fun he => hne (howner.trans (congrArg some he))) hok
    · obtain ⟨-, rfl⟩ := Prod.mk.inj (Except.ok.inj hgrant)
      exact .refl v _
  unfold extendSubscription at h
  dsimp only at h
  split at h
  · cases h
  · split at h
    · unfold writeExtension at h
      split at h
      · cases h
      · dsimp only at h
        split at h
        · cases h
        · rename_i txn granted hgrant
          obtain ⟨-, rfl⟩ := Prod.mk.inj (Except.ok.inj h)
          have hwindow : ∀ compPeriods, db.Apart v { db with compPeriods } :=
            fun _ => .of_same ⟨rfl, rfl, rfl, rfl, rfl, rfl, fun _ _ h => h, fun hu => hu.congr rfl⟩
          exact (hwindow _).trans (hbundle ((hwindow _).ownedBy hown) hgrant)
    · obtain ⟨-, rfl⟩ := Prod.mk.inj (Except.ok.inj h)
      exact .refl v _

theorem grantCredits_apart {args : GrantArgs} {t : ℕ} (hown : db.OwnedBy v user)
    (hne : args.user ≠ user) (h : grantCredits env args db = .ok (t, db')) : db.Apart v db' := by
  unfold grantCredits at h
  dsimp only at h
  split at h
  · cases h
  · split at h
    · cases h
    · split at h
      · cases h
      · exact credit_apart hown hne h

/-! ## Runs -/

/-- **A call of other users**: it names others, and a reservation it settles is not one of
wallet `v`. -/
def SystemCall.OfOthers (user : UserId) (v : ℕ) (db : Db) : SystemCall → Prop
  | .userMerged fromUser intoUser => fromUser ≠ some user ∧ intoUser ≠ some user
  | .eraseSubject _ subject => subject ≠ some user
  | .billingDebit _ payload | .billingHold _ payload => payload.user ≠ user
  | .billingCapture args => ¬ db.HoldOn args.hold v
  | .billingRelease k => ¬ db.HoldOn k v
  | .internalDebit request => request.user ≠ user
  | .viewWallet other | .patchWallet other _ => other ≠ user
  | .grantPlanBundle args => args.user ≠ some user ∧ args.userId ≠ some user ∧
      args.wallet.bind Prod.snd ≠ some user
  | .extendSubscription args => args.sub.user ≠ some user
  | .grantCredits args => args.user ≠ user
  | .billingCanAfford _ _ _ _ | .viewSubscription _ | .cancelSubscription _ _
  | .claimAndSend _ _ => True
  | _ => False

theorem Db.after_apart {ε α : Type} {x : Except ε (α × Db)}
    (h : ∀ a db', x = .ok (a, db') → db.Apart v db') : db.Apart v (db.after x) := by
  cases x with
  | error e => exact .refl v db
  | ok r => exact h r.1 r.2 rfl

/-- **A call of other users leaves the account alone.** -/
theorem SystemCall.exec_apart {c : SystemCall} {s : Deployment} (hown : s.inbox.db.OwnedBy v user)
    (hothers : c.OfOthers user v s.inbox.db) :
    s.inbox.db.Apart v (c.exec digest env s).inbox.db := by
  cases c with
  | userMerged fromUser intoUser =>
    refine Db.after_apart fun _ db' hok => ?_
    rcases hmerge : handleUserMerged env digest fromUser intoUser s.inbox.db with e | merged
    · rw [hmerge] at hok
      cases hok
    · rw [hmerge] at hok
      obtain rfl := (Prod.mk.inj (Except.ok.inj hok)).2
      rcases handleUserMerged_cases hmerge with hsame | ⟨source, target, counts, hsource, htarget, -,
        hok⟩
      · rw [hsame]
        exact .refl v _
      · exact mergeWallets_apart hown (fun he => hothers.1 (hsource.trans (congrArg some he)))
          (fun he => hothers.2 (htarget.trans (congrArg some he))) hok
  | eraseSubject subjectType subject =>
    show Db.Apart v s.inbox.db
      ((StapelBilling.eraseSubject subjectType subject s.inbox.db).getD s.inbox.db)
    cases herase : StapelBilling.eraseSubject subjectType subject s.inbox.db with
    | none => exact .refl v _
    | some db' => exact eraseSubject_apart hown hothers herase
  | billingDebit seam payload => exact Db.after_apart fun _ _ => billingDebit_apart hown hothers
  | billingHold seam payload => exact Db.after_apart fun _ _ => billingHold_apart hown hothers
  | billingCapture args => exact Db.after_apart fun _ _ => billingCapture_apart hothers
  | billingRelease k => exact Db.after_apart fun _ _ => billingRelease_apart hothers
  | billingCanAfford seam named identity credits =>
    exact Db.after_apart fun _ _ => billingCanAfford_apart
  | internalDebit request => exact Db.after_apart fun _ _ => postInternalDebit_apart hown hothers
  | viewWallet other => exact openWallet_apart hown other
  | patchWallet other update => exact patchWalletSettings_apart hown hothers update
  | viewSubscription other => exact .of_same (viewSubscription_beside other _)
  | cancelSubscription stripe other => exact .of_same (postCancel_beside stripe other _)
  | grantPlanBundle args =>
    exact Db.after_apart fun _ _ => grantPlanBundle_apart hown hothers.1 hothers.2.1 hothers.2.2
  | extendSubscription args =>
    exact Db.after_apart fun _ _ => extendSubscription_apart hown hothers
  | grantCredits args => exact Db.after_apart fun _ _ => grantCredits_apart hown hothers
  | claimAndSend accepts letter => exact .of_same (claimAndSend_beside accepts letter _)
  | _ => exact hothers.elim

/-- What is somebody else's stays so while the account is left alone. -/
theorem SystemCall.OfOthers.mono {c : SystemCall} (h : c.OfOthers user v db)
    (hapart : db.Apart v db') : c.OfOthers user v db' := by
  cases c with
  | billingCapture args => exact fun hk => h (hapart.holdOn hk)
  | billingRelease k => exact fun hk => h (hapart.holdOn hk)
  | _ => exact h

/-- **Others leave an account alone.**  Whatever other users ask for, in whatever order, and
whichever of their accounts are folded or erased, the wallet, the lots, the ledger, the
reservations and the debts of a user stay exactly as they are. -/
theorem others_leave_an_account {s : Deployment} {calls : List (Env × SystemCall)}
    (hown : s.inbox.db.OwnedBy v user) (hothers : ∀ c ∈ calls, c.2.OfOthers user v s.inbox.db) :
    s.inbox.db.Apart v (runSystem digest calls s).inbox.db := by
  refine Store.run_invariant (I := fun s' : Deployment => s.inbox.db.Apart v s'.inbox.db) ?_
    (.refl v _)
  intro c hc s₁ s₂ hI hok
  obtain rfl := Except.ok.inj hok
  exact hI.trans (SystemCall.exec_apart (hI.ownedBy hown) ((hothers c hc).mono hI))

/-- A user with a balance, beside two others. -/
def withNeighbours : Deployment :=
  { inbox :=
      { db :=
          { users := [1, 2, 3]
            wallets := Table.empty.insert
              { user := some 3
                balance := 40 }
            lots := Table.empty.insert
              { wallet := 0
                source := .grant
                creditsInitial := 40
                creditsRemaining := 40
                createdAt := 0
                uuid := 0 } } } }

/-- A neighbour is granted credits, reserves and is charged, and settles the reservation; the
account goes to the other one, who is erased. -/
def neighboursCalls : List (Env × SystemCall) :=
  [(Env.plain 1, .grantCredits
      { user := 1
        credits := 100
        reason := "outage"
        actor := "ops" }),
    (Env.plain 2, .billingHold ⟨fun _ => false, fun _ => true⟩
      { user := 1
        credits := 80
        idempotencyKey := "job-1" }),
    (Env.plain 3, .internalDebit
      { user := 1
        credits := 10
        type := .adjustment }),
    (Env.plain 4, .billingCapture { hold := 0 }),
    (Env.plain 5, .userMerged (some 1) (some 2)),
    (Env.plain 6, .eraseSubject "account" (some 2))]

theorem others_leave_an_account_neighbours :
    withNeighbours.inbox.db.Apart 0
      (runSystem (fun _ _ => "pair") neighboursCalls withNeighbours).inbox.db := by
  have hnone : ¬ withNeighbours.inbox.db.HoldOn 0 0 := by
    rintro ⟨held, hk, -⟩
    exact Table.get?_empty_ne hk
  have hown : withNeighbours.inbox.db.OwnedBy 0 3 := ⟨_, rfl, rfl⟩
  have hbuyer : (1 : UserId) ≠ 3 := by decide
  have hheir : some (2 : UserId) ≠ some 3 := by decide
  refine others_leave_an_account hown ?_
  unfold neighboursCalls
  simp only [List.forall_mem_cons, List.not_mem_nil, false_implies, implies_true, and_true]
  exact ⟨hbuyer, hbuyer, hbuyer, hnone, ⟨by decide, hheir⟩, hheir⟩

end StapelBilling
